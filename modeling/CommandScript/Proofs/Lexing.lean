import Mathlib.Data.List.TakeWhile
import CommandScript.Token.Lexer

/-!
# Where tokens end

A token is read off its first character and those behind it.  What lies further behind is not looked
at once the token has ended, and a *delimiter* ends every token before it: a line feed, a space and
the punctuation are part of no name, number or symbol.

So the readers find the same in a text and in the same text with more behind it, if the text ends
there or a delimiter follows.  Three things have to be watched.  What can't be read may become
readable.  A carriage return takes the line feed behind it.  And blanks run together.
-/

namespace CommandScript

/-! ## Tests -/

/-- A test of each of some characters, which unlike the statement about them is sure to look at no
others. -/
theorem forall_mem_of_all {p : Char → Prop} [DecidablePred p] {chars : List Char}
    (h : chars.all (fun c => decide (p c)) = true) : ∀ c ∈ chars, p c := by
  intro c hc
  exact of_decide_eq_true (List.all_eq_true.1 h c hc)

/-- There is a result that passes a test, if the test of a result is passed. -/
theorem exists_ok {ε α : Type} {result : Except ε α} {test : α → Bool}
    (h : result.toOption.any test = true) : ∃ value, result = .ok value ∧ test value = true := by
  cases result with
  | ok value => exact ⟨value, rfl, h⟩
  | error problem => cases h

/-- A test that a result passes, if there is one, is passed by the result there is. -/
theorem test_of_ok {ε α : Type} {result : Except ε α} {test : α → Bool} {value : α}
    (htest : result.toOption.all test = true) (h : result = .ok value) : test value = true := by
  rw [h] at htest
  exact htest

/-! ## Delimiters -/

/-- A character that is part of no name, number or symbol. -/
structure Delimits (c : Char) : Prop where
  /-- It is part of no name. -/
  name : Character.continuesName c = false
  /-- It is no digit. -/
  digit : c.isDigit = false
  /-- It is no hexadecimal digit. -/
  hex : Numeral.isHexDigit c = false
  /-- It introduces no other part of a number. -/
  part : c ∉ ['.', 'e', 'E', 'x', 'X', '+', '-']
  /-- It is part of no symbol. -/
  symbol : Character.isSymbol c = false
  /-- It quotes no name. -/
  quote : Character.isNameQuote c = false

/-- The delimiters that code is written with. -/
def delimiters : List Char := ['\n', ' ', ',', ':', ';', '(', ')', '[', ']', '{', '}']

/-- The delimiters of printed code, each tested against what would go on behind a token. -/
theorem delimits_of_mem {c : Char} (h : c ∈ delimiters) : Delimits c := by
  have hall : ∀ c ∈ delimiters, Character.continuesName c = false ∧ c.isDigit = false ∧
      Numeral.isHexDigit c = false ∧ c ∉ ['.', 'e', 'E', 'x', 'X', '+', '-'] ∧
      Character.isSymbol c = false ∧ Character.isNameQuote c = false :=
    forall_mem_of_all (by decide +kernel)
  obtain ⟨hname, hdigit, hhex, hpart, hsymbol, hquote⟩ := hall c h
  exact ⟨hname, hdigit, hhex, hpart, hsymbol, hquote⟩

/-- The text is over, or a delimiter follows. -/
def Ends (rest : List Char) : Prop := ∀ c ∈ rest.head?, Delimits c

theorem ends_nil : Ends [] := fun _ h => nomatch h

/-- Code that goes on with a delimiter ends the token before it. -/
theorem ends_cons {c : Char} {rest : List Char} (h : c ∈ delimiters) : Ends (c :: rest) := by
  rintro d ⟨⟩
  exact delimits_of_mem h

variable {rest : List Char}

/-- A run of characters ends where it did when what follows stops it. -/
theorem takeWhile_append_of_stop {test : Char → Bool} (cs : List Char)
    (h : ∀ c ∈ rest.head?, test c = false) : (cs ++ rest).takeWhile test = cs.takeWhile test := by
  induction cs with
  | nil =>
    cases rest with
    | nil => rfl
    | cons c rest => simp [h c rfl]
  | cons c cs ih => simp only [List.cons_append, List.takeWhile_cons, ih]

/-- Of a text that is cut short, a run of characters is cut short as well. -/
theorem takeWhile_take (test : Char → Bool) (count : Nat) (cs : List Char) :
    (cs.take count).takeWhile test = (cs.takeWhile test).take count := by
  induction cs generalizing count with
  | nil => simp
  | cons c cs ih =>
    cases count with
    | zero => rfl
    | succ count =>
      cases hc : test c with
      | true => simp [hc, ih]
      | false => simp [hc]

theorem length_takeWhile_le (test : Char → Bool) (cs : List Char) :
    (cs.takeWhile test).length ≤ cs.length :=
  (List.takeWhile_sublist test).length_le

/-! ## Numbers -/

namespace Numeral

theorem signLength_le (cs : List Char) : signLength cs ≤ cs.length := by
  unfold signLength
  split <;> simp

theorem digitsLength_le (cs : List Char) : digitsLength cs ≤ cs.length :=
  length_takeWhile_le Char.isDigit cs

/-- The parts of a number end before a delimiter, each for its own reason: it is no digit, dot or
letter. -/
theorem signLength_append (cs : List Char) (h : Ends rest) :
    signLength (cs ++ rest) = signLength cs := by
  cases cs with
  | cons c cs => unfold signLength; split <;> simp_all
  | nil =>
    cases rest with
    | nil => rfl
    | cons c rest =>
      have hpart := (h c rfl).part
      unfold signLength
      split <;> simp_all

theorem digitsLength_append (cs : List Char) (h : Ends rest) :
    digitsLength (cs ++ rest) = digitsLength cs := by
  unfold digitsLength
  rw [takeWhile_append_of_stop cs fun c hc => (h c hc).digit]

theorem hexLength_append (cs : List Char) (h : Ends rest) :
    hexLength (cs ++ rest) = hexLength cs := by
  cases cs with
  | cons c cs =>
    simp only [List.cons_append, hexLength, takeWhile_append_of_stop cs fun c hc => (h c hc).hex]
  | nil =>
    cases rest with
    | nil => rfl
    | cons c rest =>
      have hpart := (h c rfl).part
      simp_all [hexLength]

theorem fractionLength_append (cs : List Char) (h : Ends rest) :
    fractionLength (cs ++ rest) = fractionLength cs := by
  cases cs with
  | cons c cs =>
    by_cases hc : c = '.'
    · subst hc
      simp only [List.cons_append, fractionLength, digitsLength_append cs h]
    · simp [fractionLength, hc]
  | nil =>
    cases rest with
    | nil => rfl
    | cons c rest =>
      have hpart := (h c rfl).part
      simp_all [fractionLength]

theorem exponentLength_append (cs : List Char) (h : Ends rest) :
    exponentLength (cs ++ rest) = exponentLength cs := by
  cases cs with
  | cons c cs =>
    simp only [List.cons_append, exponentLength, signLength_append cs h,
      List.drop_append_of_le_length (signLength_le cs), digitsLength_append _ h]
  | nil =>
    cases rest with
    | nil => rfl
    | cons c rest =>
      have hpart := (h c rfl).part
      simp_all [exponentLength]

theorem hexLength_le (cs : List Char) : hexLength cs ≤ cs.length := by
  cases cs with
  | nil => exact Nat.le_refl 0
  | cons c cs =>
    have hdigits := length_takeWhile_le isHexDigit cs
    simp only [hexLength, List.length_cons]
    split <;> omega

theorem fractionLength_le (cs : List Char) : fractionLength cs ≤ cs.length := by
  unfold fractionLength
  split
  next rest =>
    have hdigits := digitsLength_le rest
    simp only [List.length_cons]
    split <;> omega
  next => exact Nat.zero_le _

theorem exponentLength_le (cs : List Char) : exponentLength cs ≤ cs.length := by
  cases cs with
  | nil => exact Nat.le_refl 0
  | cons c cs =>
    have hsign := signLength_le cs
    have hdigits := digitsLength_le (cs.drop (signLength cs))
    simp only [exponentLength, List.length_cons, List.length_drop] at hdigits ⊢
    split <;> omega

theorem digitsLength_take (count : Nat) (cs : List Char) :
    digitsLength (cs.take count) = min count (digitsLength cs) := by
  simp only [digitsLength, takeWhile_take, List.length_take]

/-- Cut behind a part of the number, the text reads as the same part. -/
theorem signLength_take {count : Nat} (h : 0 < count) (cs : List Char) :
    signLength (cs.take count) = signLength cs := by
  obtain ⟨count, rfl⟩ := Nat.exists_eq_succ_of_ne_zero (Nat.pos_iff_ne_zero.1 h)
  cases cs with
  | nil => rfl
  | cons c cs => unfold signLength; split <;> simp_all

theorem hexLength_take {count : Nat} {cs : List Char} (h : hexLength cs ≤ count) :
    hexLength (cs.take count) = hexLength cs := by
  cases cs with
  | nil => simp
  | cons c cs =>
    cases count with
    | zero => exact (Nat.le_zero.1 h).symm
    | succ count =>
      by_cases hc : (c == 'x' || c == 'X') = true
      · simp only [List.take_succ_cons, hexLength, takeWhile_take, List.length_take, hc,
          Bool.true_and, decide_eq_true_eq] at h ⊢
        by_cases hdigits : 0 < (cs.takeWhile isHexDigit).length
        · rw [if_pos hdigits] at h ⊢
          rw [if_pos (by omega)]
          omega
        · rw [if_neg hdigits, if_neg (by omega)]
      · simp [hexLength, hc]

theorem fractionLength_take {count : Nat} {cs : List Char} (h : fractionLength cs ≤ count) :
    fractionLength (cs.take count) = fractionLength cs := by
  cases cs with
  | nil => simp
  | cons c cs =>
    cases count with
    | zero => exact (Nat.le_zero.1 h).symm
    | succ count =>
      by_cases hc : c = '.'
      · subst hc
        simp only [List.take_succ_cons, fractionLength, digitsLength_take] at h ⊢
        by_cases hdigits : 0 < digitsLength cs
        · rw [if_pos hdigits] at h ⊢
          rw [if_pos (by omega)]
          omega
        · rw [if_neg hdigits, if_neg (by omega)]
      · simp [fractionLength, hc]

theorem exponentLength_take {count : Nat} {cs : List Char} (h : exponentLength cs ≤ count) :
    exponentLength (cs.take count) = exponentLength cs := by
  cases cs with
  | nil => simp
  | cons c cs =>
    cases count with
    | zero => exact (Nat.le_zero.1 h).symm
    | succ count =>
      cases hc : c == 'e' || c == 'E' with
      | false => simp [exponentLength, hc]
      | true =>
        rcases Nat.eq_zero_or_pos count with rfl | hpos
        · have hzero : exponentLength (c :: cs) = 0 := by
            simp only [exponentLength, hc, Bool.true_and, decide_eq_true_eq] at h ⊢
            by_cases hdigits : 0 < digitsLength (cs.drop (signLength cs))
            · rw [if_pos hdigits] at h
              omega
            · rw [if_neg hdigits]
          rw [hzero]
          simp [exponentLength, signLength, digitsLength]
        · simp only [List.take_succ_cons, exponentLength, signLength_take hpos, List.drop_take,
            digitsLength_take, hc, Bool.true_and, decide_eq_true_eq] at h ⊢
          by_cases hdigits : 0 < digitsLength (cs.drop (signLength cs))
          · rw [if_pos hdigits] at h ⊢
            rw [if_pos (by omega)]
            omega
          · rw [if_neg hdigits, if_neg (by omega)]

/-- A text that starts with a number: a sign or none, digits, and what lies behind the digits. -/
structure Parts (cs sign digits tail : List Char) : Prop where
  /-- The text is made of the parts. -/
  split : cs = sign ++ digits ++ tail
  /-- There is one sign at most. -/
  sign : sign = [] ∨ sign = ['+'] ∨ sign = ['-']
  /-- There are digits. -/
  nonempty : digits ≠ []
  /-- They are digits. -/
  digits : ∀ c ∈ digits, c.isDigit = true
  /-- They are all there are. -/
  tail : ∀ c ∈ tail.head?, c.isDigit = false

/-- How many characters the hexadecimal part behind some digits takes. -/
def hexPart (digits tail : List Char) : Nat := if digits == ['0'] then hexLength tail else 0

/-- How many of the characters behind the digits belong to the number. -/
def moreLength (digits tail : List Char) : Nat :=
  if 0 < hexPart digits tail then hexPart digits tail
  else fractionLength tail + exponentLength (tail.drop (fractionLength tail))

/-- The reading of a number by its parts. -/
def scalarOf (sign digits tail : List Char) : Scalar :=
  let text := sign ++ digits ++ tail.take (moreLength digits tail)
  if 0 < hexPart digits tail then
    hexScalar (sign == ['-']) ((tail.take (hexPart digits tail)).drop 1) text
  else if 0 < moreLength digits tail then floatScalar text
  else integerScalar (sign == ['-']) digits text

/-- The sign is as long as it was, and says whether the number is negative. -/
theorem Parts.signLength {cs sign digits tail : List Char} (h : Parts cs sign digits tail) :
    signLength cs = sign.length ∧ (cs.head? == some '-') = (sign == ['-']) := by
  obtain ⟨rfl, hsign, hnonempty, hdigits, -⟩ := h
  rcases hsign with rfl | rfl | rfl
  · cases digits with
    | nil => exact absurd rfl hnonempty
    | cons c digits =>
      have hc : c ≠ '+' ∧ c ≠ '-' := by
        constructor
        all_goals
          rintro rfl
          exact absurd (hdigits _ (List.mem_cons_self ..)) (by decide)
      unfold Numeral.signLength
      split <;> simp_all
  · exact ⟨rfl, rfl⟩
  · exact ⟨rfl, rfl⟩

/-- What is scanned is told by the parts: their lengths, and the scalar that they write. -/
theorem Parts.scan?_eq {cs sign digits tail : List Char} (h : Parts cs sign digits tail) :
    scan? cs = some ⟨sign.length + digits.length + moreLength digits tail,
      scalarOf sign digits tail⟩ := by
  obtain ⟨hsign, hhead⟩ := h.signLength
  have hunsigned : cs.drop sign.length = digits ++ tail := by
    rw [h.split, List.append_assoc, List.drop_left]
  have hdigits : digitsLength (digits ++ tail) = digits.length := by
    rw [digitsLength, takeWhile_append_of_stop digits h.tail, List.takeWhile_eq_self_iff.2 h.digits]
  have htext (n : Nat) :
      cs.take (sign.length + digits.length + n) = sign ++ digits ++ tail.take n := by
    rw [h.split, ← List.length_append, List.take_length_add_append]
  have hzero : digits.length ≠ 0 := by simpa using h.nonempty
  have hhex : (if digits == ['0'] then hexLength tail else 0) = hexPart digits tail := rfl
  simp only [scan?, hsign, hhead, hunsigned, hdigits, List.drop_left, List.take_left, if_neg hzero,
    hhex, Nat.add_assoc _ (fractionLength tail), htext, moreLength, scalarOf]
  by_cases hpart : 0 < hexPart digits tail
  · simp only [if_pos hpart]
  · simp only [if_neg hpart]
    split <;> rfl

/-- Every number that is found has its parts. -/
theorem parts_of_scan? {cs : List Char} {found : Numeral} (h : scan? cs = some found) :
    ∃ sign digits tail, Parts cs sign digits tail := by
  refine ⟨cs.take (signLength cs), (cs.drop (signLength cs)).takeWhile Char.isDigit,
    (cs.drop (signLength cs)).dropWhile Char.isDigit, ?_, ?_, ?_, fun c hc => ?_, fun c hc => ?_⟩
  · rw [List.append_assoc, List.takeWhile_append_dropWhile, List.take_append_drop]
  · unfold signLength
    split <;> simp
  · intro hempty
    simp [scan?, digitsLength, hempty] at h
  · exact List.mem_takeWhile_imp hc
  · have hstop := List.head?_dropWhile_not Char.isDigit (cs.drop (signLength cs))
    rw [hc] at hstop
    simpa using hstop

/-- Hexadecimal digits are a part of what follows the decimal ones. -/
theorem hexPart_le (digits tail : List Char) : hexPart digits tail ≤ tail.length := by
  unfold hexPart
  split
  next => exact hexLength_le tail
  next => exact Nat.zero_le _

/-- Whatever follows the digits of a number stays within the text. -/
theorem moreLength_le (digits tail : List Char) : moreLength digits tail ≤ tail.length := by
  have hhex := hexPart_le digits tail
  have hfraction := fractionLength_le tail
  have hexponent := exponentLength_le (tail.drop (fractionLength tail))
  rw [List.length_drop] at hexponent
  unfold moreLength
  split <;> omega

theorem hexPart_le_moreLength (digits tail : List Char) :
    hexPart digits tail ≤ moreLength digits tail := by
  unfold moreLength
  split <;> omega

/-- What lies behind a number that has ended is not looked at. -/
theorem moreLength_append (digits tail : List Char) (hrest : Ends rest) :
    hexPart digits (tail ++ rest) = hexPart digits tail ∧
      moreLength digits (tail ++ rest) = moreLength digits tail := by
  have hhex : hexPart digits (tail ++ rest) = hexPart digits tail := by
    rw [hexPart, hexLength_append tail hrest, ← hexPart]
  refine ⟨hhex, ?_⟩
  rw [moreLength, hhex, fractionLength_append tail hrest,
    List.drop_append_of_le_length (fractionLength_le tail), exponentLength_append _ hrest,
    ← moreLength]

/-- Nor is what lies behind a number in the text that was found. -/
theorem moreLength_take (digits tail : List Char) :
    hexPart digits (tail.take (moreLength digits tail)) = hexPart digits tail ∧
      moreLength digits (tail.take (moreLength digits tail)) = moreLength digits tail := by
  have hcount := hexPart_le_moreLength digits tail
  have hhex : hexPart digits (tail.take (moreLength digits tail)) = hexPart digits tail := by
    unfold hexPart at hcount ⊢
    split
    next hzero => exact hexLength_take (by simpa [hzero] using hcount)
    next => rfl
  refine ⟨hhex, ?_⟩
  rw [moreLength, hhex]
  by_cases hpart : 0 < hexPart digits tail
  · rw [if_pos hpart, moreLength, if_pos hpart]
  · have hmore : moreLength digits tail =
        fractionLength tail + exponentLength (tail.drop (fractionLength tail)) := by
      rw [moreLength, if_neg hpart]
    rw [if_neg hpart, hmore, fractionLength_take (Nat.le_add_right ..), List.drop_take,
      Nat.add_sub_cancel_left, exponentLength_take (Nat.le_refl _)]

/-- Where digits stand behind a sign or none, there is a number. -/
theorem exists_scan? {cs : List Char} (h : digitsLength (cs.drop (signLength cs)) ≠ 0) :
    ∃ found, scan? cs = some found := by
  cases hscan : scan? cs with
  | some found => exact ⟨found, rfl⟩
  | none =>
    simp only [scan?, if_neg h] at hscan
    split_ifs at hscan

/-- A digit by itself is enough for a number. -/
theorem digitsLength_unsigned {c : Char} {cs : List Char} (h : c.isDigit = true) :
    digitsLength ((c :: cs).drop (signLength (c :: cs))) ≠ 0 := by
  have hsign : signLength (c :: cs) = 0 := by
    unfold signLength
    split
    next heq =>
      cases heq
      cases h
    next heq =>
      cases heq
      cases h
    next => rfl
  rw [hsign, List.drop_zero, digitsLength, List.takeWhile_cons_of_pos h]
  exact Nat.succ_ne_zero _

/-- So is a sign before a digit. -/
theorem digitsLength_signed {c : Char} {cs : List Char} (hsign : c = '+' ∨ c = '-')
    (h : cs.head?.any Char.isDigit = true) :
    digitsLength ((c :: cs).drop (signLength (c :: cs))) ≠ 0 := by
  have hlength : signLength (c :: cs) = 1 := by
    rcases hsign with rfl | rfl
    all_goals rfl
  cases cs with
  | nil => cases h
  | cons d cs =>
    have hdigit : d.isDigit = true := h
    rw [hlength, List.drop_succ_cons, List.drop_zero, digitsLength,
      List.takeWhile_cons_of_pos hdigit]
    exact Nat.succ_ne_zero _

/-- A number ends before a delimiter. -/
theorem scan?_append {cs : List Char} {found : Numeral} (h : scan? cs = some found)
    (hrest : Ends rest) : scan? (cs ++ rest) = some found := by
  obtain ⟨sign, digits, tail, hparts⟩ := parts_of_scan? h
  have hmore : Parts (cs ++ rest) sign digits (tail ++ rest) := by
    refine ⟨by rw [hparts.split, List.append_assoc], hparts.sign, hparts.nonempty, hparts.digits,
      ?_⟩
    cases tail with
    | cons c tail => exact hparts.tail
    | nil => exact fun c hc => (hrest c hc).digit
  obtain ⟨hhex, hlength⟩ := moreLength_append digits tail hrest
  have hscalar : scalarOf sign digits (tail ++ rest) = scalarOf sign digits tail := by
    simp only [scalarOf, hhex, hlength, List.take_append_of_le_length (moreLength_le digits tail),
      List.take_append_of_le_length (hexPart_le digits tail)]
  rw [hmore.scan?_eq, hlength, hscalar, ← hparts.scan?_eq, h]

/-- The text of a number is read as that number on its own. -/
theorem scan?_take {cs : List Char} {found : Numeral} (h : scan? cs = some found) :
    scan? (cs.take found.length) = some found := by
  obtain ⟨sign, digits, tail, hparts⟩ := parts_of_scan? h
  have hfound := h.symm.trans hparts.scan?_eq
  cases hfound
  have htake : Parts (cs.take (sign.length + digits.length + moreLength digits tail)) sign digits
      (tail.take (moreLength digits tail)) := by
    refine ⟨?_, hparts.sign, hparts.nonempty, hparts.digits, fun c hc => hparts.tail c ?_⟩
    · rw [hparts.split, ← List.length_append, List.take_length_add_append]
    · cases tail with
      | nil => simp at hc
      | cons d tail =>
        cases hcount : moreLength digits (d :: tail) with
        | zero => simp [hcount] at hc
        | succ count => simpa [hcount] using hc
  obtain ⟨hhex, hlength⟩ := moreLength_take digits tail
  have hscalar : scalarOf sign digits (tail.take (moreLength digits tail)) =
      scalarOf sign digits tail := by
    simp only [scalarOf, hhex, hlength, List.take_take, Nat.min_self,
      Nat.min_eq_left (hexPart_le_moreLength digits tail)]
  rw [htake.scan?_eq, hlength, hscalar]

/-- A number has at least one character and stays within the text. -/
theorem scan?_le {cs : List Char} {found : Numeral} (h : scan? cs = some found) :
    0 < found.length ∧ found.length ≤ cs.length := by
  obtain ⟨sign, digits, tail, hparts⟩ := parts_of_scan? h
  have hfound := h.symm.trans hparts.scan?_eq
  cases hfound
  have hdigits : 0 < digits.length := List.length_pos_iff.2 hparts.nonempty
  have hmore := moreLength_le digits tail
  have hlength := congrArg List.length hparts.split
  simp only [List.length_append] at hlength
  dsimp only
  omega

end Numeral

/-! ## Symbols -/

namespace SymbolSet

mutual

/-- All symbols of a set are made of characters that pass a test. -/
def madeOf (test : Char → Bool) : SymbolSet → Bool
  | .node _ children => childrenMadeOf test children
termination_by structural tree => tree

/-- The same of the trees behind each next character. -/
def childrenMadeOf (test : Char → Bool) : List (Char × SymbolSet) → Bool
  | [] => true
  | (c, tree) :: rest => test c && tree.madeOf test && childrenMadeOf test rest
termination_by structural children => children

end

variable {test : Char → Bool}

/-- A branch of a tree of symbols is made of the same characters. -/
theorem madeOf_child {children : List (Char × SymbolSet)} {c : Char} {next : SymbolSet}
    (h : childrenMadeOf test children = true) (hlookup : children.lookup c = some next) :
    test c = true ∧ next.madeOf test = true := by
  induction children with
  | nil => cases hlookup
  | cons child rest ih =>
    obtain ⟨d, tree⟩ := child
    simp only [childrenMadeOf, Bool.and_eq_true] at h
    rw [List.lookup_cons] at hlookup
    cases heq : c == d with
    | true =>
      rw [heq] at hlookup
      cases hlookup
      rw [beq_iff_eq.1 heq]
      exact h.1
    | false =>
      rw [heq] at hlookup
      exact ih h.2 hlookup

/-- Characters that no symbol has don't make the longest symbol longer. -/
theorem longest?_append {cs : List Char} {tree : SymbolSet} (htree : tree.madeOf test = true)
    (hrest : ∀ c ∈ rest.head?, test c = false) : longest? (cs ++ rest) tree = longest? cs tree := by
  induction cs generalizing tree with
  | nil =>
    cases rest with
    | nil => rfl
    | cons d rest =>
      obtain ⟨ends, children⟩ := tree
      have hnone : children.lookup d = none := by
        cases hlookup : children.lookup d with
        | none => rfl
        | some next =>
          have hd := (madeOf_child htree hlookup).1
          rw [hrest d rfl] at hd
          cases hd
      simp only [List.nil_append, longest?, SymbolSet.children, hnone]
  | cons c cs ih =>
    obtain ⟨ends, children⟩ := tree
    simp only [List.cons_append, longest?, SymbolSet.children]
    cases hlookup : children.lookup c with
    | none => rfl
    | some next => simp only [ih (madeOf_child htree hlookup).2]

/-- A symbol has at least one character and stays within the text. -/
theorem longest?_le {cs : List Char} {tree : SymbolSet} {count : Nat}
    (h : longest? cs tree = some count) : 0 < count ∧ count ≤ cs.length := by
  induction cs generalizing tree count with
  | nil => cases h
  | cons c cs ih =>
    simp only [longest?] at h
    cases hlookup : tree.children.lookup c with
    | none =>
      rw [hlookup] at h
      cases h
    | some next =>
      simp only [hlookup] at h
      cases hmore : longest? cs next with
      | some more =>
        rw [hmore] at h
        cases h
        have := ih hmore
        simp only [List.length_cons]
        omega
      | none =>
        rw [hmore] at h
        cases hends : next.ends with
        | true =>
          rw [hends] at h
          cases h
          simp
        | false =>
          rw [hends] at h
          cases h

end SymbolSet

namespace Registry

/-- The operators written in symbols are written in symbol characters only. -/
def Regular (registry : Registry) : Prop := registry.symbols.madeOf Character.isSymbol = true

/-- A spelling is known as it is written. -/
theorem find?_text {registry : Registry} {text : String} {found : KnownSpelling}
    (h : registry.find? text = some found) : found.text = text := by
  unfold Registry.find? at h
  dsimp only at h
  split at h
  next => cases h
  next =>
    cases h
    rfl

/-- The operator that a run of symbols starts with does not change before a delimiter. -/
theorem findSymbols?_append {registry : Registry} (hregistry : registry.Regular) (cs : List Char)
    (hrest : Ends rest) : registry.findSymbols? (cs ++ rest) = registry.findSymbols? cs := by
  have hlongest : SymbolSet.longest? (cs ++ rest) registry.symbols =
      SymbolSet.longest? cs registry.symbols :=
    SymbolSet.longest?_append hregistry fun c hc => (hrest c hc).symbol
  simp only [findSymbols?, hlongest]
  cases hfound : SymbolSet.longest? cs registry.symbols with
  | none => rfl
  | some count =>
    have hle := (SymbolSet.longest?_le hfound).2
    simp only [Option.bind_eq_bind, Option.bind_some, List.take_append_of_le_length hle]

end Registry

namespace Lexer

/-! ## How a token is read -/

/-- A line break.  A carriage return takes the line feed behind it. -/
def lineBreakToken (c : Char) (cs : List Char) : TokenKind × Nat :=
  (.lineBreak, if c = '\r' && cs.head? == some '\n' then 1 else 0)

/-- Whitespace behind its first character. -/
def blankToken (cs : List Char) : TokenKind × Nat :=
  (.whitespace, (cs.takeWhile Text.isInlineBlank).length)

/-- A note behind its opening mark. -/
def noteToken (cs : List Char) : TokenKind × Nat :=
  match noteBody? 0 cs with
  | some (text, count) => (.note (String.ofList text), count)
  | none => (.unknown .openNote, cs.length)

/-- A text behind its opening quote. -/
def textToken (cs : List Char) : TokenKind × Nat :=
  match textBody? cs with
  | some (text, count) => (.text (String.ofList text), count)
  | none => (.unknown .openText, cs.length)

/-- A quoted name behind its opening quote. -/
def quotedToken (cs : List Char) : TokenKind × Nat :=
  (orUnknown (.identifier · true) (quotedName cs).1, (quotedName cs).2)

/-- The first character says how a token is read, but for a sign in front of a digit. -/
theorem scan_eq (registry : Registry) (afterOperand : Bool) (c : Char) (cs : List Char) :
    scan registry afterOperand c cs =
      if Text.isLineBreak c then lineBreakToken c cs
      else if Text.isInlineBlank c then blankToken cs
      else
        match punctuation? c with
        | some kind => (kind, 0)
        | none =>
          if c = '«' then noteToken cs
          else if c = '#' then tagToken cs
          else if Character.isTextQuote c then textToken cs
          else if Character.isNameQuote c then quotedToken cs
          else if c.isDigit then numberToken c cs
          else if (c = '+' || c = '-') && !afterOperand && cs.head?.any Char.isDigit then
            numberToken c cs
          else if Character.startsName c then wordToken registry c cs
          else if Character.isSymbol c then symbolsToken registry c cs
          else (.unknown (.unexpectedCharacter c), 0) := rfl

/-- Punctuation is a token of one character. -/
theorem scan_punctuation {registry : Registry} {afterOperand : Bool} {c : Char} {cs : List Char}
    {kind : TokenKind} (h : punctuation? c = some kind) :
    scan registry afterOperand c cs = (kind, 0) := by
  unfold punctuation? at h
  split at h
  all_goals
    cases h
    try rfl

/-- What may be read off a character and those behind it. -/
inductive Reads (registry : Registry) (c : Char) (cs : List Char) : TokenKind × Nat → Prop where
  /-- A line break, which may have two characters. -/
  | lineBreak {count : Nat} : count ≤ cs.length → Reads registry c cs (.lineBreak, count)
  /-- Whitespace. -/
  | blanks : Reads registry c cs (.whitespace, (cs.takeWhile Text.isInlineBlank).length)
  /-- A punctuation mark. -/
  | punctuation {kind : TokenKind} : punctuation? c = some kind → Reads registry c cs (kind, 0)
  /-- A note. -/
  | note : Reads registry c cs (noteToken cs)
  /-- A tag. -/
  | tag : Reads registry c cs (tagToken cs)
  /-- A text. -/
  | text : Reads registry c cs (textToken cs)
  /-- A quoted name. -/
  | quoted : Reads registry c cs (quotedToken cs)
  /-- A number, perhaps with a sign. -/
  | number : Reads registry c cs (numberToken c cs)
  /-- A word. -/
  | word : Character.startsName c = true → Reads registry c cs (wordToken registry c cs)
  /-- Symbols. -/
  | symbols : Reads registry c cs (symbolsToken registry c cs)
  /-- Nothing that is known. -/
  | unexpected : Reads registry c cs (.unknown (.unexpectedCharacter c), 0)

/-- Every character goes to one of the readers. -/
theorem scan_reads (registry : Registry) (afterOperand : Bool) (c : Char) (cs : List Char) :
    Reads registry c cs (scan registry afterOperand c cs) := by
  unfold scan
  split
  next =>
    refine .lineBreak ?_
    cases cs with
    | nil => simp
    | cons d cs => split <;> simp
  next =>
    split
    next => exact .blanks
    next =>
      split
      next kind hkind => exact .punctuation hkind
      next =>
        split_ifs with hnote htag htext hquoted hdigit hsigned hword hsymbol
        · exact .note
        · exact .tag
        · exact .text
        · exact .quoted
        · exact .number
        · exact .number
        · exact .word hword
        · exact .symbols
        · exact .unexpected

/-! ## Tokens -/

/-- A note that is closed ends at its closing bracket, whatever comes behind. -/
theorem noteBody?_append {depth : Nat} {cs text : List Char} {count : Nat}
    (h : noteBody? depth cs = some (text, count)) :
    noteBody? depth (cs ++ rest) = some (text, count) := by
  induction cs generalizing depth text count with
  | nil => cases h
  | cons c cs ih =>
    have hmore {depth : Nat} {add : List Char × Nat → List Char × Nat}
        (h : (noteBody? depth cs).map add = some (text, count)) :
        (noteBody? depth (cs ++ rest)).map add = some (text, count) := by
      obtain ⟨⟨found, length⟩, hfound, heq⟩ := Option.map_eq_some_iff.1 h
      rw [ih hfound, Option.map_some, heq]
    simp only [noteBody?, List.cons_append] at h ⊢
    split
    next hclose =>
      rw [if_pos hclose] at h
      cases depth with
      | zero => exact h
      | succ depth => exact hmore h
    next hclose =>
      rw [if_neg hclose] at h
      split
      next hopen =>
        rw [if_pos hopen] at h
        exact hmore h
      next hopen =>
        rw [if_neg hopen] at h
        exact hmore h

theorem textBody?_quote {c : Char} {cs : List Char} (h : Character.isTextQuote c = true) :
    textBody? (c :: cs) = some ([], 1) := by
  rw [textBody?.eq_def]
  simp only [h, if_true]

/-- A backslash takes the next character with it. -/
theorem textBody?_escape (e : Char) (cs : List Char) :
    textBody? ('\\' :: e :: cs) =
      (textBody? cs).map fun (text, count) => (unescape e ++ text, count + 2) := by
  rw [textBody?.eq_def]
  rfl

/-- Any other character stands for itself. -/
theorem textBody?_plain {c : Char} {cs : List Char} (hquote : Character.isTextQuote c = false)
    (hescape : c ≠ '\\') :
    textBody? (c :: cs) = (textBody? cs).map fun (text, count) => (c :: text, count + 1) := by
  rw [textBody?.eq_def]
  simp only [hquote, hescape, Bool.false_eq_true, if_false]

/-- A text that is closed ends at its closing quote. -/
theorem textBody?_append {cs text : List Char} {count : Nat}
    (h : textBody? cs = some (text, count)) : textBody? (cs ++ rest) = some (text, count) := by
  fun_induction textBody? cs generalizing text count with
  | case1 => cases h
  | case2 c cs hquote => rwa [List.cons_append, textBody?_quote hquote]
  | case3 => cases h
  | case4 e cs _ ih =>
    obtain ⟨⟨found, length⟩, hfound, heq⟩ := Option.map_eq_some_iff.1 h
    rw [List.cons_append, List.cons_append, textBody?_escape, ih hfound]
    exact congrArg some heq
  | case5 c cs hquote hescape ih =>
    obtain ⟨⟨found, length⟩, hfound, heq⟩ := Option.map_eq_some_iff.1 h
    rw [List.cons_append, textBody?_plain (Bool.eq_false_iff.2 hquote) hescape, ih hfound]
    exact congrArg some heq

/-- Whether a character may stand in a quoted name. -/
def isQuotable (c : Char) : Bool := !Character.isNameQuote c && !Text.isLineBreak c

/-- Some characters that can be a quoted name. -/
structure IsQuotable (name : List Char) : Prop where
  /-- There is a character. -/
  nonempty : name ≠ []
  /-- None ends the name or the line. -/
  inside : ∀ c ∈ name, isQuotable c = true

/-- Dropping as many characters as were taken leaves the others. -/
theorem drop_length_takeWhile (test : Char → Bool) (cs : List Char) :
    cs.drop (cs.takeWhile test).length = cs.dropWhile test := by
  have hsplit := congrArg (List.drop (cs.takeWhile test).length)
    (List.takeWhile_append_dropWhile (p := test) (l := cs))
  rw [← hsplit, List.drop_left]

/-- A quoted name is closed by the first character that can't stand in it, if that is a quote. -/
theorem quotedName_eq (cs : List Char) :
    quotedName cs =
      match cs.takeWhile isQuotable, (cs.dropWhile isQuotable).head? with
      | name, some c =>
        if Character.isNameQuote c then
          (if name.isEmpty then .error .emptyName else .ok (String.ofList name), name.length + 1)
        else (.error (.openName (String.ofList name)), name.length)
      | name, none => (.error (.openName (String.ofList name)), name.length) := by
  rw [← drop_length_takeWhile]
  unfold quotedName isQuotable
  dsimp only
  cases (cs.drop (cs.takeWhile fun c =>
      !Character.isNameQuote c && !Text.isLineBreak c).length).head? with
  | none => rfl
  | some c => rfl

/-- A name of quotable characters before a closing quote is read as it stands. -/
theorem quotedName_closed {name tail : List Char} {close : Char} (hname : IsQuotable name)
    (hclose : Character.isNameQuote close = true) :
    quotedName (name ++ close :: tail) = (.ok (String.ofList name), name.length + 1) := by
  have hstop : isQuotable close = false := by simp [isQuotable, hclose]
  have htake : (name ++ close :: tail).takeWhile isQuotable = name := by
    rw [List.takeWhile_append_of_pos hname.inside, List.takeWhile_cons_of_neg (by simp [hstop]),
      List.append_nil]
  have hdrop : (name ++ close :: tail).dropWhile isQuotable = close :: tail := by
    rw [List.dropWhile_append_of_pos hname.inside, List.dropWhile_cons_of_neg (by simp [hstop])]
  have hempty : name.isEmpty = false := by simpa using hname.nonempty
  simp [quotedName_eq, htake, hdrop, hclose, hempty]

/-- A quoted name that could be read was closed. -/
theorem eq_of_quotedName {cs : List Char} {name : String} {count : Nat}
    (h : quotedName cs = (.ok name, count)) :
    ∃ body close tail, cs = body ++ close :: tail ∧ IsQuotable body ∧
      Character.isNameQuote close = true ∧ name = String.ofList body ∧ count = body.length + 1 := by
  have hsplit : cs = cs.takeWhile isQuotable ++ cs.dropWhile isQuotable :=
    List.takeWhile_append_dropWhile.symm
  have hinside : ∀ c ∈ cs.takeWhile isQuotable, isQuotable c = true :=
    fun c hc => List.mem_takeWhile_imp hc
  rw [quotedName_eq] at h
  generalize cs.takeWhile isQuotable = body at h hsplit hinside
  cases hrest : cs.dropWhile isQuotable with
  | nil => simp [hrest] at h
  | cons close tail =>
    rw [hrest] at h hsplit
    cases hclose : Character.isNameQuote close with
    | false => simp [hclose] at h
    | true =>
      cases body with
      | nil => simp [hclose] at h
      | cons c body =>
        simp only [List.head?_cons, hclose, if_true, List.isEmpty_cons, Bool.false_eq_true,
          if_false, Prod.mk.injEq, Except.ok.injEq] at h
        exact ⟨c :: body, close, tail, hsplit, ⟨List.cons_ne_nil _ _, hinside⟩, hclose, h.1.symm,
          h.2.symm⟩

/-- A quoted name that stops within some characters is the same with others behind. -/
theorem quotedName_append {cs : List Char} (h : (cs.takeWhile isQuotable).length < cs.length)
    (rest : List Char) : quotedName (cs ++ rest) = quotedName cs := by
  have htake : (cs ++ rest).takeWhile isQuotable = cs.takeWhile isQuotable := by
    rw [List.takeWhile_append, if_neg (Nat.ne_of_lt h)]
  have hdrop : (cs ++ rest).dropWhile isQuotable = cs.dropWhile isQuotable ++ rest := by
    rw [← drop_length_takeWhile, htake, List.drop_append_of_le_length (Nat.le_of_lt h),
      drop_length_takeWhile]
  obtain ⟨c, tail, hstop⟩ : ∃ c tail, cs.dropWhile isQuotable = c :: tail := by
    refine List.exists_cons_of_ne_nil ?_
    rw [← drop_length_takeWhile]
    simpa using h
  rw [quotedName_eq, quotedName_eq, htake, hdrop, hstop, List.cons_append, List.head?_cons,
    List.head?_cons]

/-- Whether a token could not be read. -/
def isUnknown : TokenKind → Bool
  | .unknown _ => true
  | _ => false

/-- Whether a token could not be read for lack of its end. -/
def lacksEnd : TokenKind → Bool
  | .unknown .openNote | .unknown .openText | .unknown (.openName _) => true
  | _ => false

/-- What lacks its end is unknown. -/
theorem isUnknown_of_lacksEnd {kind : TokenKind} (h : lacksEnd kind = true) :
    isUnknown kind = true := by
  cases kind with
  | unknown problem => rfl
  | _ => cases h

/-- A token lacks its end, and the text is over. -/
def RunsOut (cs : List Char) (found : TokenKind × Nat) : Prop :=
  lacksEnd found.1 = true ∧ cs.length ≤ found.2

/-- A token that is known has its end. -/
theorem not_runsOut_of_known {cs : List Char} {found : TokenKind × Nat}
    (h : isUnknown found.1 = false) : ¬ RunsOut cs found := by
  rintro ⟨hlacks, -⟩
  rw [isUnknown_of_lacksEnd hlacks] at h
  cases h

/-- A quoted name that takes all of the text has no end. -/
theorem quotedName_runsOut {cs : List Char} (h : cs.length ≤ (cs.takeWhile isQuotable).length)
    (make : String → TokenKind) :
    RunsOut cs (orUnknown make (quotedName cs).1, (quotedName cs).2) := by
  have hdrop : cs.dropWhile isQuotable = [] := by
    rw [← drop_length_takeWhile]
    exact List.drop_of_length_le h
  rw [quotedName_eq, hdrop]
  exact ⟨rfl, h⟩

/-- A character that starts a name goes on with one as well. -/
theorem continuesName_of_startsName {c : Char} (h : Character.startsName c = true) :
    Character.continuesName c = true := by
  simp only [Character.startsName, Character.continuesName, Text.isAlphanumeric, Bool.or_eq_true]
    at h ⊢
  rcases h with halphabetic | hunderscore
  · exact .inl (.inl halphabetic)
  · exact .inr hunderscore

/-- A tag ends before a delimiter if it has its closing quote. -/
theorem tagToken_append {cs : List Char} (hrest : Ends rest)
    (hruns : ¬ RunsOut cs (tagToken cs)) : tagToken (cs ++ rest) = tagToken cs := by
  cases cs with
  | nil =>
    cases rest with
    | nil => rfl
    | cons d rest =>
      have hstart : Character.startsName d = false := by
        refine Bool.eq_false_iff.2 fun h => ?_
        exact Bool.eq_false_iff.1 (hrest d rfl).name (continuesName_of_startsName h)
      simp [tagToken, (hrest d rfl).quote, hstart]
  | cons c cs =>
    simp only [List.cons_append, tagToken] at hruns ⊢
    split
    next hquote =>
      rw [if_pos hquote] at hruns
      have hstops : (cs.takeWhile isQuotable).length < cs.length := by
        by_contra hall
        obtain ⟨hlacks, hlength⟩ := quotedName_runsOut (Nat.le_of_not_lt hall) .tag
        exact hruns ⟨hlacks, Nat.succ_le_succ hlength⟩
      rw [quotedName_append hstops]
    next hquote =>
      split
      next hstart =>
        have hname : (c :: (cs ++ rest)).takeWhile Character.continuesName =
            (c :: cs).takeWhile Character.continuesName :=
          takeWhile_append_of_stop (c :: cs) fun d hd => (hrest d hd).name
        rw [hname]
      next hstart =>
        rfl

/-- A number token ends where its number ends. -/
theorem numberToken_append {c : Char} {cs : List Char} (hrest : Ends rest)
    (hdigits : Numeral.digitsLength ((c :: cs).drop (Numeral.signLength (c :: cs))) ≠ 0) :
    numberToken c (cs ++ rest) = numberToken c cs := by
  obtain ⟨found, hfound⟩ := Numeral.exists_scan? hdigits
  have hmore : Numeral.scan? (c :: (cs ++ rest)) = some found := Numeral.scan?_append hfound hrest
  have hlength := Numeral.scan?_le hfound
  have hcount : found.length - 1 ≤ cs.length := by
    simp only [List.length_cons] at hlength
    omega
  have htail : ((cs ++ rest).drop (found.length - 1)).takeWhile Character.continuesName =
      (cs.drop (found.length - 1)).takeWhile Character.continuesName := by
    rw [List.drop_append_of_le_length hcount]
    exact takeWhile_append_of_stop _ fun d hd => (hrest d hd).name
  have hall : found.length - 1 +
      ((cs.drop (found.length - 1)).takeWhile Character.continuesName).length ≤ cs.length := by
    have := length_takeWhile_le Character.continuesName (cs.drop (found.length - 1))
    simp only [List.length_drop] at this
    omega
  simp only [numberToken, hfound, hmore, htail, List.take_append_of_le_length hcount,
    List.take_append_of_le_length hall]

/-- No delimiter goes on with a name. -/
theorem wordToken_append (registry : Registry) (c : Char) (cs : List Char) (hrest : Ends rest) :
    wordToken registry c (cs ++ rest) = wordToken registry c cs := by
  simp only [wordToken, takeWhile_append_of_stop cs fun d hd => (hrest d hd).name]

/-- No delimiter is a symbol. -/
theorem symbolsToken_append {registry : Registry} (hregistry : registry.Regular) (c : Char)
    (cs : List Char) (hrest : Ends rest) :
    symbolsToken registry c (cs ++ rest) = symbolsToken registry c cs := by
  have hfound : registry.findSymbols? (c :: (cs ++ rest)) = registry.findSymbols? (c :: cs) :=
    Registry.findSymbols?_append hregistry (c :: cs) hrest
  simp only [symbolsToken, hfound]

/-- A carriage return takes a line feed with it, so that one may not follow. -/
theorem lineBreakToken_append {c : Char} {cs : List Char}
    (hbreak : c = '\r' → cs = [] → rest.head? ≠ some '\n') :
    lineBreakToken c (cs ++ rest) = lineBreakToken c cs := by
  cases cs with
  | cons d cs => rfl
  | nil =>
    by_cases hreturn : c = '\r'
    · simp [lineBreakToken, hbreak hreturn rfl]
    · simp [lineBreakToken, hreturn]

/-- Blanks go on up to the next character that is none. -/
theorem blankToken_append {cs : List Char}
    (hblank : (∀ d ∈ cs, Text.isInlineBlank d = true) →
      ∀ d ∈ rest.head?, Text.isInlineBlank d = false) :
    blankToken (cs ++ rest) = blankToken cs := by
  have hblanks : (cs ++ rest).takeWhile Text.isInlineBlank = cs.takeWhile Text.isInlineBlank := by
    by_cases hall : ∀ d ∈ cs, Text.isInlineBlank d = true
    · exact takeWhile_append_of_stop cs (hblank hall)
    · rw [List.takeWhile_append, if_neg]
      intro hlength
      exact hall (List.takeWhile_eq_self_iff.1 ((List.takeWhile_prefix _).eq_of_length hlength))
  simp only [blankToken, hblanks]

theorem noteToken_append {cs : List Char} (hruns : ¬ RunsOut cs (noteToken cs)) :
    noteToken (cs ++ rest) = noteToken cs := by
  unfold noteToken at hruns ⊢
  cases hbody : noteBody? 0 cs with
  | some found => rw [noteBody?_append hbody]
  | none =>
    rw [hbody] at hruns
    exact absurd ⟨rfl, Nat.le_refl _⟩ hruns

theorem textToken_append {cs : List Char} (hruns : ¬ RunsOut cs (textToken cs)) :
    textToken (cs ++ rest) = textToken cs := by
  unfold textToken at hruns ⊢
  cases hbody : textBody? cs with
  | some found => rw [textBody?_append hbody]
  | none =>
    rw [hbody] at hruns
    exact absurd ⟨rfl, Nat.le_refl _⟩ hruns

theorem quotedToken_append {cs : List Char} (hruns : ¬ RunsOut cs (quotedToken cs)) :
    quotedToken (cs ++ rest) = quotedToken cs := by
  have hstops : (cs.takeWhile isQuotable).length < cs.length := by
    by_contra hall
    exact hruns (quotedName_runsOut (Nat.le_of_not_lt hall) _)
  rw [quotedToken, quotedName_append hstops, quotedToken]

/-- No delimiter is a digit, so a sign does not start a number because of what follows. -/
theorem head?_isDigit_append (cs : List Char) (hrest : Ends rest) :
    (cs ++ rest).head?.any Char.isDigit = cs.head?.any Char.isDigit := by
  cases cs with
  | cons d cs => rfl
  | nil =>
    cases rest with
    | nil => rfl
    | cons d rest => simpa using (hrest d rfl).digit

/-- If either of two readers finds the same with more behind, so does the one that is chosen. -/
theorem ite_append {p : Prop} [Decidable p] {cs : List Char}
    {first first' last last' : TokenKind × Nat}
    (hruns : ¬ RunsOut cs (if p then first else last))
    (hfirst : p → ¬ RunsOut cs first → first' = first)
    (hlast : ¬ p → ¬ RunsOut cs last → last' = last) :
    (if p then first' else last') = if p then first else last := by
  by_cases h : p
  · rw [if_pos h] at hruns
    rw [if_pos h, if_pos h, hfirst h hruns]
  · rw [if_neg h] at hruns
    rw [if_neg h, if_neg h, hlast h hruns]

/-- A token that has ended is the same, whatever follows behind a delimiter. -/
theorem scan_append {registry : Registry} {afterOperand : Bool} {c : Char} {cs : List Char}
    (hregistry : registry.Regular) (hrest : Ends rest)
    (hruns : ¬ RunsOut cs (scan registry afterOperand c cs))
    (hbreak : c = '\r' → cs = [] → rest.head? ≠ some '\n')
    (hblank : (∀ d ∈ c :: cs, Text.isInlineBlank d = true) →
      ∀ d ∈ rest.head?, Text.isInlineBlank d = false) :
    scan registry afterOperand c (cs ++ rest) = scan registry afterOperand c cs := by
  cases hpunctuation : punctuation? c with
  | some kind => rw [scan_punctuation hpunctuation, scan_punctuation hpunctuation]
  | none =>
    simp only [scan_eq, hpunctuation, head?_isDigit_append cs hrest] at hruns ⊢
    refine ite_append hruns (fun _ _ => lineBreakToken_append hbreak) fun _ hruns => ?_
    refine ite_append hruns ?_ fun _ hruns => ?_
    · intro hinline _
      exact blankToken_append fun hall => hblank (List.forall_mem_cons.2 ⟨hinline, hall⟩)
    refine ite_append hruns (fun _ hruns => noteToken_append hruns) fun _ hruns => ?_
    refine ite_append hruns (fun _ hruns => tagToken_append hrest hruns) fun _ hruns => ?_
    refine ite_append hruns (fun _ hruns => textToken_append hruns) fun _ hruns => ?_
    refine ite_append hruns (fun _ hruns => quotedToken_append hruns) fun _ hruns => ?_
    refine ite_append hruns ?_ fun _ hruns => ite_append hruns ?_ fun _ hruns => ?_
    · intro hdigit _
      exact numberToken_append hrest (Numeral.digitsLength_unsigned hdigit)
    · intro hsign _
      simp only [Bool.and_eq_true, Bool.or_eq_true, decide_eq_true_eq] at hsign
      exact numberToken_append hrest (Numeral.digitsLength_signed hsign.1.1 hsign.2)
    rw [wordToken_append registry c cs hrest, symbolsToken_append hregistry c cs hrest]

/-! ## Tokens stay within the text -/

/-- A note, a text, a name, a tag, a number or a run of symbols is read from the text that is left.
-/
theorem noteBody?_le {depth : Nat} {cs text : List Char} {count : Nat}
    (h : noteBody? depth cs = some (text, count)) : count ≤ cs.length := by
  induction cs generalizing depth text count with
  | nil => cases h
  | cons c cs ih =>
    have hmore {depth : Nat}
        (h : (noteBody? depth cs).map (fun found => (c :: found.1, found.2 + 1)) =
          some (text, count)) : count ≤ (c :: cs).length := by
      obtain ⟨found, hfound, hcount⟩ := Option.map_eq_some_iff.1 h
      cases hcount
      exact Nat.succ_le_succ (ih hfound)
    simp only [noteBody?] at h
    split at h
    next =>
      split at h
      next =>
        cases h
        exact Nat.succ_le_succ (Nat.zero_le _)
      next => exact hmore h
    next =>
      split at h
      next => exact hmore h
      next => exact hmore h

theorem textBody?_le {cs text : List Char} {count : Nat}
    (h : textBody? cs = some (text, count)) : count ≤ cs.length := by
  fun_induction textBody? cs generalizing text count with
  | case1 => cases h
  | case2 c cs hquote =>
    cases h
    exact Nat.succ_le_succ (Nat.zero_le _)
  | case3 => cases h
  | case4 e cs _ ih =>
    obtain ⟨found, hfound, hcount⟩ := Option.map_eq_some_iff.1 h
    cases hcount
    exact Nat.succ_le_succ (Nat.succ_le_succ (ih hfound))
  | case5 c cs _ _ ih =>
    obtain ⟨found, hfound, hcount⟩ := Option.map_eq_some_iff.1 h
    cases hcount
    exact Nat.succ_le_succ (ih hfound)

theorem quotedName_le (cs : List Char) : (quotedName cs).2 ≤ cs.length := by
  have hname := length_takeWhile_le isQuotable cs
  rw [quotedName_eq]
  cases hrest : cs.dropWhile isQuotable with
  | nil => exact hname
  | cons c rest =>
    have hsplit : (cs.takeWhile isQuotable).length + (rest.length + 1) = cs.length := by
      rw [← List.length_cons, ← hrest, ← List.length_append, List.takeWhile_append_dropWhile]
    simp only [List.head?_cons]
    split
    next =>
      dsimp only
      omega
    next => exact hname

theorem tagToken_le (cs : List Char) : (tagToken cs).2 ≤ cs.length := by
  cases cs with
  | nil => exact Nat.le_refl 0
  | cons c cs =>
    simp only [tagToken]
    split
    next => exact Nat.succ_le_succ (quotedName_le cs)
    next =>
      split
      next => exact length_takeWhile_le _ _
      next => exact Nat.zero_le _

theorem numberToken_le (c : Char) (cs : List Char) : (numberToken c cs).2 ≤ cs.length := by
  unfold numberToken
  split
  next => exact Nat.zero_le _
  next found hfound =>
    have hlength := (Numeral.scan?_le hfound).2
    have htail := length_takeWhile_le Character.continuesName (cs.drop (found.length - 1))
    rw [List.length_drop] at htail
    rw [List.length_cons] at hlength
    dsimp only
    split
    next =>
      dsimp only
      omega
    next =>
      dsimp only
      omega

theorem symbolsToken_le (registry : Registry) (c : Char) (cs : List Char) :
    (symbolsToken registry c cs).2 ≤ cs.length := by
  unfold symbolsToken
  split
  next found count hfound =>
    simp only [Registry.findSymbols?, Option.bind_eq_bind, Option.bind_eq_some_iff] at hfound
    obtain ⟨length, hlength, known, -, hfound⟩ := hfound
    cases hfound
    exact Nat.pred_le_pred (SymbolSet.longest?_le hlength).2
  next => exact Nat.zero_le _

/-- A token takes no more characters than there are. -/
theorem scan_le (registry : Registry) (afterOperand : Bool) (c : Char) (cs : List Char) :
    (scan registry afterOperand c cs).2 ≤ cs.length := by
  have hreads := scan_reads registry afterOperand c cs
  generalize scan registry afterOperand c cs = found at hreads
  cases hreads with
  | lineBreak hcount => exact hcount
  | blanks => exact length_takeWhile_le _ _
  | punctuation _ => exact Nat.zero_le _
  | note =>
    unfold noteToken
    split
    next hbody => exact noteBody?_le hbody
    next => exact Nat.le_refl _
  | tag => exact tagToken_le cs
  | text =>
    unfold textToken
    split
    next hbody => exact textBody?_le hbody
    next => exact Nat.le_refl _
  | quoted => exact quotedName_le cs
  | number => exact numberToken_le c cs
  | word _ =>
    unfold wordToken
    dsimp only
    split <;> exact length_takeWhile_le _ _
  | symbols => exact symbolsToken_le registry c cs
  | unexpected => exact Nat.zero_le _

/-! ## Token after token -/

variable {registry : Registry}

/-- At the end of the text only the mark of the end is left, with an empty span. -/
theorem tokensFrom_nil (offset : Nat) (afterOperand : Bool) :
    tokensFrom registry offset afterOperand [] = [⟨.endOfCode, .ofOffsets offset offset⟩] := by
  rw [tokensFrom]

/-- The first token takes its characters, and the others are read from there. -/
theorem tokensFrom_cons {afterOperand : Bool} {c : Char} {cs : List Char} {kind : TokenKind}
    {count offset : Nat} (h : scan registry afterOperand c cs = (kind, count)) :
    tokensFrom registry offset afterOperand (c :: cs) =
      ⟨kind, .ofOffsets offset (offset + byteLength (c :: cs.take count))⟩ ::
        tokensFrom registry (offset + byteLength (c :: cs.take count))
          (if kind.isTrivia then afterOperand else kind.canEndOperand) (cs.drop count) := by
  rw [tokensFrom.eq_def]
  simp only [h]

end Lexer

end CommandScript
