import CommandScript.Proofs.IntegerLiterals
import CommandScript.Proofs.Written

/-!
# The grammar of numbers

The grammar that numerals are read by, as a relation of its own: a text is a number, or it is not.
Nothing is said there about what may follow, nor about how far to look.

A text can start with several numbers, as `1.5e3` starts with `1`, `1.5` and `1.5e3`.  Scanning
finds the longest, whatever follows it, and finds none only where there is none.  What lies behind
the digits decides which part may come next, so the parts need not be tried one against another.  It
is enough that each part takes as much as any part like it could.

The number that was found is read alike on its own.  So the number of a token is the one that its
text is converted to later.
-/

namespace CommandScript

namespace Numeral

/-! ## Numbers -/

/-- Characters that pass a test, at least one. -/
structure IsRun (test : Char → Bool) (cs : List Char) : Prop where
  /-- There is a character. -/
  nonempty : cs ≠ []
  /-- All pass the test. -/
  all : ∀ c ∈ cs, test c = true

/-- A sign, or none. -/
inductive IsSign : List Char → Prop where
  | none : IsSign []
  | plus : IsSign ['+']
  | minus : IsSign ['-']

/-- A hexadecimal part. -/
inductive IsHexadecimal : List Char → Prop where
  | digits {x : Char} {digits : List Char} : x = 'x' ∨ x = 'X' → IsRun isHexDigit digits →
      IsHexadecimal (x :: digits)

/-- A fraction, or none. -/
inductive IsFraction : List Char → Prop where
  | none : IsFraction []
  | digits {digits : List Char} : IsRun Char.isDigit digits → IsFraction ('.' :: digits)

/-- An exponent, or none. -/
inductive IsExponent : List Char → Prop where
  | none : IsExponent []
  | digits {e : Char} {sign digits : List Char} : e = 'e' ∨ e = 'E' → IsSign sign →
      IsRun Char.isDigit digits → IsExponent (e :: (sign ++ digits))

/-- A number. -/
inductive IsNumber : List Char → Prop where
  /-- A hexadecimal part stands behind a single zero. -/
  | hexadecimal {sign part : List Char} : IsSign sign → IsHexadecimal part →
      IsNumber (sign ++ ['0'] ++ part)
  /-- A fraction and an exponent stand behind any digits. -/
  | decimal {sign digits fraction exponent : List Char} : IsSign sign → IsRun Char.isDigit digits →
      IsFraction fraction → IsExponent exponent →
      IsNumber (sign ++ digits ++ (fraction ++ exponent))

theorem isSign_iff {sign : List Char} :
    IsSign sign ↔ sign = [] ∨ sign = ['+'] ∨ sign = ['-'] := by
  constructor
  · rintro (_ | _ | _)
    · exact .inl rfl
    · exact .inr (.inl rfl)
    · exact .inr (.inr rfl)
  · rintro (rfl | rfl | rfl)
    · exact .none
    · exact .plus
    · exact .minus

/-! ## The parts that are found -/

variable {test : Char → Bool} {cs rest sign digits tail part text : List Char}

theorem isRun_takeWhile (h : 0 < (cs.takeWhile test).length) : IsRun test (cs.takeWhile test) :=
  ⟨List.length_pos_iff.1 h, fun _ => List.mem_takeWhile_imp⟩

theorem take_length_takeWhile (test : Char → Bool) (cs : List Char) :
    cs.take (cs.takeWhile test).length = cs.takeWhile test :=
  (List.prefix_iff_eq_take.1 (List.takeWhile_prefix test)).symm

/-- Each part that is found has the form it should have. -/
theorem isHexadecimal_take (h : 0 < hexLength cs) : IsHexadecimal (cs.take (hexLength cs)) := by
  cases cs with
  | nil => cases h
  | cons x cs =>
    simp only [hexLength] at h ⊢
    split at h
    next hpart =>
      simp only [Bool.and_eq_true, Bool.or_eq_true, beq_iff_eq, decide_eq_true_eq] at hpart
      rw [if_pos (by simpa using hpart), Nat.add_comm, List.take_succ_cons, take_length_takeWhile]
      exact .digits hpart.1 (isRun_takeWhile hpart.2)
    next => cases h

theorem isFraction_take (cs : List Char) : IsFraction (cs.take (fractionLength cs)) := by
  unfold fractionLength
  split
  next cs =>
    split
    next hdigits =>
      rw [Nat.add_comm, List.take_succ_cons, digitsLength, take_length_takeWhile]
      exact .digits (isRun_takeWhile hdigits)
    next => exact .none
  next => exact .none

theorem isSign_take (cs : List Char) : IsSign (cs.take (signLength cs)) := by
  unfold signLength
  split
  · exact .plus
  · exact .minus
  · exact .none

theorem isExponent_take (cs : List Char) : IsExponent (cs.take (exponentLength cs)) := by
  cases cs with
  | nil => exact .none
  | cons e cs =>
    simp only [exponentLength]
    split
    next hpart =>
      simp only [Bool.and_eq_true, Bool.or_eq_true, beq_iff_eq, decide_eq_true_eq] at hpart
      rw [Nat.add_assoc, Nat.add_comm 1, List.take_succ_cons, List.take_add, digitsLength,
        take_length_takeWhile]
      exact .digits hpart.1 (isSign_take cs) (isRun_takeWhile hpart.2)
    next => exact .none

/-- What is found is a number. -/
theorem Parts.isNumber (h : Parts cs sign digits tail) :
    IsNumber (sign ++ digits ++ tail.take (moreLength digits tail)) := by
  have hsign := isSign_iff.2 h.sign
  unfold moreLength
  split
  next hpart =>
    have hzero : digits = ['0'] := by
      by_contra hother
      simp [hexPart, hother] at hpart
    subst hzero
    exact .hexadecimal hsign (isHexadecimal_take hpart)
  next =>
    rw [List.take_add]
    exact .decimal hsign ⟨h.nonempty, h.digits⟩ (isFraction_take _) (isExponent_take _)

/-! ## Each part is as long as can be -/

theorem IsRun.length_le (h : IsRun test part) (rest : List Char) :
    part.length ≤ ((part ++ rest).takeWhile test).length := by
  rw [List.takeWhile_append_of_pos h.all, List.length_append]
  exact Nat.le_add_right ..

theorem IsRun.pos (h : IsRun test part) (rest : List Char) :
    0 < ((part ++ rest).takeWhile test).length :=
  (List.length_pos_iff.2 h.nonempty).trans_le (h.length_le rest)

/-- No part in front of a text is longer than the one that is found. -/
theorem IsHexadecimal.length_le (h : IsHexadecimal part) (rest : List Char) :
    part.length ≤ hexLength (part ++ rest) := by
  obtain @⟨x, digits, hx, hdigits⟩ := h
  have hmark : (x == 'x' || x == 'X') = true := by simpa using hx
  have hlength := hdigits.length_le rest
  simp only [List.cons_append, hexLength, hmark, hdigits.pos rest, decide_true, Bool.and_true,
    if_true, List.length_cons]
  omega

/-- A fraction takes just its digits, if neither a digit nor a point follows. -/
theorem IsFraction.length_eq (h : IsFraction part)
    (hstop : ∀ c ∈ rest.head?, c.isDigit = false ∧ c ≠ '.') :
    fractionLength (part ++ rest) = part.length := by
  cases h with
  | none =>
    cases rest with
    | nil => rfl
    | cons c rest =>
      have hpoint := (hstop c rfl).2
      simp [fractionLength, hpoint]
  | @digits digits hdigits =>
    have htake := takeWhile_append_of_stop digits fun c hc => (hstop c hc).1
    rw [List.takeWhile_eq_self_iff.2 hdigits.all] at htake
    simp only [List.cons_append, fractionLength, digitsLength, htake, List.length_cons,
      List.length_pos_iff.2 hdigits.nonempty, if_true]
    omega

theorem IsFraction.length_le (h : IsFraction part) (rest : List Char) :
    part.length ≤ fractionLength (part ++ rest) := by
  cases h with
  | none => exact Nat.zero_le _
  | digits hdigits =>
    have hlength := hdigits.length_le rest
    simp only [List.cons_append, fractionLength, digitsLength, hdigits.pos rest, if_true,
      List.length_cons]
    omega

/-- In front of digits a sign is seen as it is. -/
theorem IsSign.signLength_eq (h : IsSign sign) (hdigits : IsRun Char.isDigit digits)
    (rest : List Char) : signLength (sign ++ (digits ++ rest)) = sign.length := by
  cases h with
  | plus | minus => rfl
  | none =>
    obtain ⟨d, digits, rfl⟩ := List.exists_cons_of_ne_nil hdigits.nonempty
    have hdigit := hdigits.all d (List.mem_cons_self ..)
    have hsign : d ≠ '+' ∧ d ≠ '-' := by
      constructor
      all_goals
        rintro rfl
        exact absurd hdigit (by decide)
    unfold signLength
    split <;> simp_all

theorem IsExponent.length_le (h : IsExponent part) (rest : List Char) :
    part.length ≤ exponentLength (part ++ rest) := by
  cases h with
  | none => exact Nat.zero_le _
  | @digits e sign digits he hsign hdigits =>
    have hmark : (e == 'e' || e == 'E') = true := by simpa using he
    have hlength := hdigits.length_le rest
    simp only [List.cons_append, List.append_assoc, exponentLength, hsign.signLength_eq hdigits,
      List.drop_left, digitsLength, hmark, hdigits.pos rest, decide_true, Bool.and_true, if_true,
      List.length_cons, List.length_append]
    omega

/-! ## The longest number -/

/-- A sign or none and digits are the first parts of a text, or the digits go on. -/
theorem Parts.of_isRun {digits' sign' rest : List Char}
    (h : Parts (sign' ++ (digits' ++ rest)) sign digits tail) (hsign : IsSign sign')
    (hdigits : IsRun Char.isDigit digits') :
    sign' = sign ∧ (digits' = digits ∧ rest = tail ∨
      digits'.length ≤ digits.length ∧ ∃ c ∈ rest.head?, c.isDigit = true) := by
  have hlength : sign'.length = sign.length :=
    (hsign.signLength_eq hdigits rest).symm.trans h.signLength.1
  have hsplit := h.split
  rw [List.append_assoc] at hsplit
  obtain ⟨hsame, hbehind⟩ := List.append_inj hsplit hlength
  refine ⟨hsame, ?_⟩
  rcases List.append_eq_append_iff.1 hbehind with ⟨more, rfl, hrest⟩ | ⟨more, rfl, htail⟩
  · cases more with
    | nil => exact .inl ⟨(List.append_nil _).symm, hrest⟩
    | cons c more =>
      refine .inr ⟨by simp, c, by simp [hrest], ?_⟩
      exact h.digits c (List.mem_append_right _ (List.mem_cons_self ..))
  · cases more with
    | nil => exact .inl ⟨List.append_nil _, htail.symm⟩
    | cons c more =>
      have hstop := h.tail c (by simp [htail])
      rw [hdigits.all c (List.mem_append_right _ (List.mem_cons_self ..))] at hstop
      cases hstop

/-- What may stand behind digits does not start with one. -/
theorem IsHexadecimal.isDigit_head (h : IsHexadecimal part) :
    ∀ c ∈ (part ++ rest).head?, c.isDigit = false := by
  obtain ⟨rfl | rfl, -⟩ := h
  all_goals
    rintro _ ⟨⟩
    rfl

/-- A fraction or an exponent starts with its mark. -/
theorem IsFraction.head_append {fraction exponent : List Char} (hfraction : IsFraction fraction)
    (hexponent : IsExponent exponent) :
    fraction ++ exponent = [] ∨
      ∃ mark ∈ ['.', 'e', 'E'], ∃ others, fraction ++ exponent = mark :: others := by
  cases hfraction with
  | digits _ => exact .inr ⟨'.', by simp, _, rfl⟩
  | none =>
    cases hexponent with
    | none => exact .inl rfl
    | digits he _ _ => exact .inr ⟨_, by rcases he with rfl | rfl <;> simp, _, rfl⟩

theorem IsHexadecimal.length_le_moreLength (h : IsHexadecimal part) (rest : List Char) :
    part.length ≤ moreLength ['0'] (part ++ rest) :=
  (h.length_le rest).trans (hexPart_le_moreLength ['0'] (part ++ rest))

theorem IsFraction.length_le_moreLength {fraction exponent : List Char}
    (hfraction : IsFraction fraction) (hexponent : IsExponent exponent)
    (digits rest : List Char) :
    (fraction ++ exponent).length ≤ moreLength digits (fraction ++ exponent ++ rest) := by
  rcases hfraction.head_append hexponent with hnone | ⟨mark, hmark, others, hsome⟩
  · rw [hnone]
    exact Nat.zero_le _
  have hplain : ∀ c ∈ ['.', 'e', 'E'], c ≠ 'x' ∧ c ≠ 'X' := forall_mem_of_all (by decide)
  have hhex : ¬0 < hexPart digits (fraction ++ exponent ++ rest) := by
    rw [hsome]
    simp [hexPart, hexLength, hplain mark hmark]
  rw [moreLength, if_neg hhex, List.append_assoc, List.length_append]
  cases hexponent with
  | none =>
    have hlength := hfraction.length_le rest
    rw [List.nil_append, List.length_nil]
    omega
  | @digits e sign digits he hsign hdigits =>
    have hstop : ∀ c ∈ (e :: (sign ++ digits) ++ rest).head?, c.isDigit = false ∧ c ≠ '.' := by
      rintro _ ⟨⟩
      rcases he with rfl | rfl
      all_goals exact ⟨rfl, by decide⟩
    rw [hfraction.length_eq hstop, List.drop_left]
    exact Nat.add_le_add_left ((IsExponent.digits he hsign hdigits).length_le rest) _

/-- A sign, digits and what may stand behind them take no more than what is found. -/
theorem Parts.length_le {sign' digits' more rest : List Char}
    (h : Parts (sign' ++ digits' ++ more ++ rest) sign digits tail) (hsign : IsSign sign')
    (hdigits : IsRun Char.isDigit digits') (hstop : ∀ c ∈ more.head?, c.isDigit = false)
    (hmore : more.length ≤ moreLength digits' (more ++ rest)) :
    (sign' ++ digits' ++ more).length ≤
      sign.length + digits.length + moreLength digits tail := by
  rw [List.append_assoc, List.append_assoc] at h
  obtain ⟨rfl, ⟨rfl, rfl⟩ | ⟨hshort, c, hc, hdigit⟩⟩ := h.of_isRun hsign hdigits
  · simp only [List.length_append]
    omega
  · cases more with
    | nil =>
      simp only [List.length_append, List.length_nil]
      omega
    | cons d more =>
      cases hc
      rw [hstop c rfl] at hdigit
      cases hdigit

/-- No number at the start of a text is longer than the one that is found. -/
theorem IsNumber.length_le (h : IsNumber text) (hbegins : text <+: cs) {found : Numeral}
    (hscan : scan? cs = some found) : text.length ≤ found.length := by
  obtain ⟨sign, digits, tail, hparts⟩ := parts_of_scan? hscan
  cases hscan.symm.trans hparts.scan?_eq
  obtain ⟨rest, rfl⟩ := hbegins
  cases h with
  | hexadecimal hsign hpart =>
    refine hparts.length_le hsign ⟨by simp, by simp⟩ ?_ (hpart.length_le_moreLength rest)
    intro c hc
    refine hpart.isDigit_head c (?_ : c ∈ (_ ++ []).head?)
    rwa [List.append_nil]
  | decimal hsign hdigits hfraction hexponent =>
    refine hparts.length_le hsign hdigits ?_ (hfraction.length_le_moreLength hexponent _ rest)
    intro c hc
    rcases hfraction.head_append hexponent with hnone | ⟨mark, hmark, others, hsome⟩
    · rw [hnone] at hc
      cases hc
    · rw [hsome] at hc
      cases hc
      exact (forall_mem_of_all (by decide) : ∀ c ∈ ['.', 'e', 'E'], c.isDigit = false) c hmark

/-- Where a text starts with a number, one is found. -/
theorem IsNumber.exists_scan? (h : IsNumber text) (hbegins : text <+: cs) :
    ∃ found, scan? cs = some found := by
  have hfound {sign digits rest : List Char} (hsign : IsSign sign)
      (hdigits : IsRun Char.isDigit digits) :
      ∃ found, scan? (sign ++ (digits ++ rest)) = some found := by
    refine Numeral.exists_scan? (Nat.ne_of_gt ?_)
    rw [hsign.signLength_eq hdigits, List.drop_left]
    exact hdigits.pos rest
  obtain ⟨rest, rfl⟩ := hbegins
  cases h with
  | hexadecimal hsign _ =>
    rw [List.append_assoc, List.append_assoc]
    exact hfound hsign ⟨by simp, by simp⟩
  | decimal hsign hdigits _ _ =>
    rw [List.append_assoc, List.append_assoc]
    exact hfound hsign hdigits

/-- What is scanned has the form of a number. -/
theorem isNumber_take {found : Numeral} (h : scan? cs = some found) :
    IsNumber (cs.take found.length) := by
  obtain ⟨sign, digits, tail, hparts⟩ := parts_of_scan? h
  cases h.symm.trans hparts.scan?_eq
  have htake : cs.take (sign.length + digits.length + moreLength digits tail) =
      sign ++ digits ++ tail.take (moreLength digits tail) := by
    rw [hparts.split, ← List.length_append, List.take_length_add_append]
  rw [htake]
  exact hparts.isNumber

/-! ## The characters of a number -/

/-- A number has no other characters. -/
theorem IsNumber.forall_mem (h : IsNumber text) :
    ∀ c ∈ text, isHexDigit c = true ∨ c ∈ ['+', '-', '.', 'x', 'X'] := by
  have hsign {sign : List Char} (h : IsSign sign) :
      ∀ c ∈ sign, isHexDigit c = true ∨ c ∈ ['+', '-', '.', 'x', 'X'] := by
    cases h <;> simp
  have hdigits {digits : List Char} (h : IsRun Char.isDigit digits) :
      ∀ c ∈ digits, isHexDigit c = true ∨ c ∈ ['+', '-', '.', 'x', 'X'] :=
    fun c hc => .inl (LiteralBase.decimal.isHexDigit_of_isDigit (h.all c hc))
  cases h with
  | hexadecimal hs hpart =>
    obtain ⟨hx, hrun⟩ := hpart
    simp only [List.forall_mem_append, List.forall_mem_cons]
    refine ⟨⟨hsign hs, .inl rfl, List.forall_mem_nil _⟩, ?_, fun c hc => .inl (hrun.all c hc)⟩
    rcases hx with rfl | rfl
    all_goals exact .inr (by simp)
  | decimal hs hrun hfraction hexponent =>
    simp only [List.forall_mem_append]
    refine ⟨⟨hsign hs, hdigits hrun⟩, ?_, ?_⟩
    · cases hfraction with
      | none => exact List.forall_mem_nil _
      | digits hrun' => exact List.forall_mem_cons.2 ⟨.inr (by simp), hdigits hrun'⟩
    · cases hexponent with
      | none => exact List.forall_mem_nil _
      | digits he hs' hrun' =>
        simp only [List.forall_mem_cons, List.forall_mem_append]
        refine ⟨?_, hsign hs', hdigits hrun'⟩
        rcases he with rfl | rfl
        all_goals exact .inl rfl

theorem IsNumber.isBlank (h : IsNumber text) : ∀ c ∈ text, Text.isBlank c = false := by
  intro c hc
  rcases h.forall_mem c hc with hdigit | hmark
  · exact isBlank_of_isHexDigit hdigit
  · exact (forall_mem_of_all (by decide +kernel) :
      ∀ c ∈ ['+', '-', '.', 'x', 'X'], Text.isBlank c = false) c hmark

/-- Each of them is one byte. -/
theorem IsNumber.byteLength_eq (h : IsNumber text) : byteLength text = text.length := by
  have hsize : ∀ c ∈ text, c.utf8Size = 1 := by
    intro c hc
    rw [Char.utf8Size_eq_one_iff]
    rcases h.forall_mem c hc with hdigit | hmark
    · simp only [isHexDigit, Char.isDigit, Bool.or_eq_true, Bool.and_eq_true, decide_eq_true_eq,
        Char.le_def, ge_iff_le] at hdigit
      have hless : c.val ≤ 102 ∨ c.val ≤ 70 ∨ c.val ≤ 57 := by
        rcases hdigit with (⟨-, h⟩ | ⟨-, h⟩) | ⟨-, h⟩
        · exact .inr (.inr h)
        · exact .inl h
        · exact .inr (.inl h)
      rcases hless with h | h | h
      all_goals exact UInt32.le_trans h (by decide)
    · exact (forall_mem_of_all (by decide) :
        ∀ c ∈ ['+', '-', '.', 'x', 'X'], c.val ≤ 127) c hmark
  clear h
  induction text with
  | nil => rfl
  | cons c text ih =>
    obtain ⟨hfirst, hothers⟩ := List.forall_mem_cons.1 hsize
    rw [byteLength_cons, hfirst, ih hothers, List.length_cons, Nat.add_comm]

/-- A text that is a number as a whole is converted to it. -/
theorem parse_eq_of_scan? {text : String} {scalar : Scalar}
    (h : scan? text.toList = some ⟨text.toList.length, scalar⟩) : Scalar.parse text = scalar := by
  have hnumber : IsNumber text.toList := by
    have htake := isNumber_take h
    rwa [List.take_length] at htake
  simp only [Scalar.parse, Text.trim_of_forall hnumber.isBlank, h, if_true]

/-- Scanning finds the longest number that a text starts with, and none only if it starts with none.
What is found is read alike on its own, and converted to the same scalar.  The scalar of a number
token is the one that its text is converted to. -/
theorem scan?_longest :
    (∀ cs, scan? cs = none ↔ ∀ text, text <+: cs → ¬IsNumber text) ∧
    (∀ cs found, scan? cs = some found →
      (IsNumber (cs.take found.length) ∧ byteLength (cs.take found.length) = found.length ∧
        ∀ text, text <+: cs → IsNumber text → text.length ≤ found.length) ∧
      scan? (cs.take found.length) = some found ∧
      Scalar.parse (String.ofList (cs.take found.length)) = found.scalar) ∧
    ∀ registry source literal scalar span,
      ⟨.number literal scalar, span⟩ ∈ tokenize registry source →
      Scalar.parse literal = scalar := by
  refine ⟨fun cs => ?_, fun cs found hscan => ?_, fun registry source literal scalar span h => ?_⟩
  · constructor
    · intro hnone text hbegins hnumber
      obtain ⟨found, hscan⟩ := hnumber.exists_scan? hbegins
      rw [hnone] at hscan
      cases hscan
    · intro hno
      cases hscan : scan? cs with
      | none => rfl
      | some found => exact absurd (isNumber_take hscan) (hno _ (List.take_prefix ..))
  · have hnumber := isNumber_take hscan
    have hlength : (cs.take found.length).length = found.length :=
      List.length_take_of_le (scan?_le hscan).2
    refine ⟨⟨hnumber, hnumber.byteLength_eq.trans hlength, fun text hbegins htext =>
      htext.length_le hbegins hscan⟩, scan?_take hscan, parse_eq_of_scan? ?_⟩
    rw [String.toList_ofList, hlength]
    exact scan?_take hscan
  · obtain ⟨tokens, mark, htokens, hmark, hfaithful⟩ :=
      Lexer.tokensFrom_faithful registry 0 false source.toList
    rw [tokenize, htokens] at h
    simp only [List.mem_cons, List.mem_append, List.not_mem_nil, or_false] at h
    rcases h with hstart | htoken | rfl
    · cases hstart
    · exact parse_eq_of_scan? (hfaithful _ htoken)
    · cases hmark

/-- A number that other numbers start, with a fraction behind it that is not part of it. -/
theorem scan?_longest_hexadecimal :
    scan? "-0x1F.5".toList = some ⟨5, .integer (-31) 16⟩ ∧ IsNumber "-0x1F".toList ∧
      ("-0".toList <+: "-0x1F.5".toList ∧ "-0".toList.length ≤ 5) ∧
      scan? "-0x1F".toList = some ⟨5, .integer (-31) 16⟩ ∧
      Scalar.parse "-0x1F" = .integer (-31) 16 ∧
      ∃ literal scalar span, ⟨.number literal scalar, span⟩ ∈ tokenize .empty "[-0x1F]" ∧
        Scalar.parse literal = scalar := by
  have hparts : Parts "-0x1F.5".toList ['-'] ['0'] "x1F.5".toList := by
    refine ⟨rfl, .inr (.inr rfl), List.cons_ne_nil _ _, by simp, ?_⟩
    rintro c ⟨⟩
    rfl
  have hhex : hexScalar true ['1', 'F'] "-0x1F".toList = .integer (-31) 16 := by
    have hvalue : (if true then -(Real.natOfHexadecimal ['1', 'F'] : Int)
        else Real.natOfHexadecimal ['1', 'F']) = -31 := rfl
    rw [hexScalar_eq true _ _ hvalue, if_pos (by decide)]
    rfl
  have hscan : scan? "-0x1F.5".toList = some ⟨5, .integer (-31) 16⟩ := by
    rw [hparts.scan?_eq, ← hhex]
    rfl
  obtain ⟨-, hfound, htokens⟩ := scan?_longest
  obtain ⟨⟨hnumber, -, hlongest⟩, halone, hparse⟩ := hfound _ _ hscan
  have hzero : IsNumber "-0".toList :=
    @IsNumber.decimal ['-'] ['0'] [] [] .minus ⟨by simp, by simp⟩ .none .none
  have hbegins : "-0".toList <+: "-0x1F.5".toList := ⟨"x1F.5".toList, rfl⟩
  have hany : (tokenize .empty "[-0x1F]").any
      (fun token => match token.kind with | .number _ _ => true | _ => false) = true := by
    decide +kernel
  obtain ⟨⟨kind, span⟩, hmem, hkind⟩ := List.any_eq_true.1 hany
  obtain ⟨literal, scalar, rfl⟩ : ∃ literal scalar, kind = .number literal scalar := by
    cases kind with
    | number literal scalar => exact ⟨literal, scalar, rfl⟩
    | _ => cases hkind
  exact ⟨hscan, hnumber, ⟨hbegins, hlongest _ hbegins hzero⟩, halone, hparse, literal, scalar, span,
    hmem, htokens _ _ _ _ _ hmem⟩

end Numeral

end CommandScript
