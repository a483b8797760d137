import CommandScript.Proofs.LexicalScope
import CommandScript.Value.Equality
import Mathlib.Data.List.Perm.Basic

/-!
# Equality is an equivalence

Equality of values is reflexive, symmetric and transitive.  For most values this is so part by part.
Records are the exception.  Each field of one record is looked up in the other, and nothing asks for
the fields of the other.  It is enough that both have unique keys and the same number of fields:
then two records are equal just when the fields of one are those of the other in some order, with
equal keys and equal values.

Lists, pairs, commands and coercions pass on what holds of their parts, so the three laws are shown
together, for one value at a time.
-/

namespace CommandScript

/-! ## Relations that equate things -/

/-- Seen from one thing, a relation is reflexive, symmetric and transitive among the things with a
property. -/
structure Equates {α : Type} (R : α → α → Prop) (P : α → Prop) (a : α) : Prop where
  /-- The thing is related to itself. -/
  refl : R a a
  /-- Whatever it is related to is related to it. -/
  symm : ∀ {b}, P b → R a b → R b a
  /-- It is related to whatever that is related to. -/
  trans : ∀ {b c}, P b → P c → R a b → R b c → R a c

namespace Equates

variable {α β ι : Type} {R S : α → α → Prop} {P : α → Prop} {a : α}

/-- Things are equated by what they have in common. -/
theorem of_eq (f : α → β) (hR : ∀ x y, R x y ↔ f x = f y) (a : α) : Equates R P a where
  refl := (hR a a).2 rfl
  symm _ h := (hR _ _).2 ((hR _ _).1 h).symm
  trans _ _ h h' := (hR _ _).2 (((hR _ _).1 h).trans ((hR _ _).1 h'))

/-- A thing is equated that is related to itself only. -/
theorem alone (h : ∀ b, R a b ↔ a = b) : Equates R P a where
  refl := (h a).2 rfl
  symm _ hab := by
    obtain rfl := (h _).1 hab
    exact hab
  trans _ _ hab hbc := by
    obtain rfl := (h _).1 hab
    exact hbc

theorem and (h : Equates R P a) (h' : Equates S P a) :
    Equates (fun x y => R x y ∧ S x y) P a where
  refl := ⟨h.refl, h'.refl⟩
  symm hb hab := ⟨h.symm hb hab.1, h'.symm hb hab.2⟩
  trans hb hc hab hbc := ⟨h.trans hb hc hab.1 hbc.1, h'.trans hb hc hab.2 hbc.2⟩

/-- Things are equated by a part of them. -/
theorem part (f : ι → α) {x : ι} (h : Equates R P (f x)) :
    Equates (fun x y => R (f x) (f y)) (fun x => P (f x)) x where
  refl := h.refl
  symm hb hab := h.symm hb hab
  trans hb hc hab hbc := h.trans hb hc hab hbc

/-- Fewer things to compare with leave the laws as they are. -/
theorem mono {Q : α → Prop} (h : Equates R P a) (hQ : ∀ x, Q x → P x) : Equates R Q a where
  refl := h.refl
  symm hb hab := h.symm (hQ _ hb) hab
  trans hb hc hab hbc := h.trans (hQ _ hb) (hQ _ hc) hab hbc

/-- What is made of equated things, and is related to such things only, is equated by them. -/
theorem made (f : ι → α) {T : ι → ι → Prop} {Q : ι → Prop} {x : ι} (h : Equates T Q x)
    (hx : P (f x)) (hR : ∀ {y z}, P (f y) → P (f z) → (R (f y) (f z) ↔ T y z))
    (honly : ∀ {y b}, R (f y) b → ∃ z, b = f z) (hQ : ∀ {y}, P (f y) → Q y) :
    Equates R P (f x) where
  refl := (hR hx hx).2 h.refl
  symm := by
    intro b hb hab
    obtain ⟨y, rfl⟩ := honly hab
    exact (hR hb hx).2 (h.symm (hQ hb) ((hR hx hb).1 hab))
  trans := by
    intro b c hb hc hab hbc
    obtain ⟨y, rfl⟩ := honly hab
    obtain ⟨z, rfl⟩ := honly hbc
    exact (hR hx hc).2 (h.trans (hQ hb) (hQ hc) ((hR hx hb).1 hab) ((hR hb hc).1 hbc))

/-- What is made of something, and is compared by what that has in common with others. -/
theorem named (f : ι → α) (name : ι → β) (hR : ∀ {y z}, R (f y) (f z) ↔ name y = name z)
    (honly : ∀ {y b}, R (f y) b → ∃ z, b = f z) (x : ι) : Equates R P (f x) :=
  have h : Equates R (fun _ => True) (f x) :=
    made f (Q := fun _ => True) (of_eq name (fun _ _ => Iff.rfl) x) trivial (fun _ _ => hR) honly
      fun _ => trivial
  h.mono fun _ _ => trivial

/-! ### Lists -/

/-- Lists are equated item by item. -/
theorem forall₂ {as : List α} (h : ∀ a ∈ as, Equates R P a) :
    Equates (List.Forall₂ R) (fun xs => ∀ x ∈ xs, P x) as where
  refl := List.forall₂_same.2 fun a ha => (h a ha).refl
  symm := by
    intro bs hP hR
    induction hR with
    | nil => exact .nil
    | cons hab _ ih =>
      obtain ⟨hfirst, hrest⟩ := List.forall_mem_cons.1 h
      obtain ⟨hb, hbs⟩ := List.forall_mem_cons.1 hP
      exact .cons (hfirst.symm hb hab) (ih hrest hbs)
  trans := by
    intro bs cs hP hP' hR hR'
    induction hR generalizing cs with
    | nil => exact hR'
    | cons hab _ ih =>
      cases hR' with
      | cons hbc hrest' =>
        obtain ⟨hfirst, hrest⟩ := List.forall_mem_cons.1 h
        obtain ⟨hb, hbs⟩ := List.forall_mem_cons.1 hP
        obtain ⟨hc, hcs⟩ := List.forall_mem_cons.1 hP'
        exact .cons (hfirst.trans hb hc hab hbc) (ih hrest hbs hcs hrest')

end Equates

/-- The items of one list are those of another in some order, up to a relation. -/
def Reorders {α : Type} (R : α → α → Prop) (as bs : List α) : Prop :=
  ∃ cs, cs.Perm bs ∧ List.Forall₂ R as cs

theorem exists_mem_of_forall₂ {α : Type} {R : α → α → Prop} {as bs : List α}
    (h : List.Forall₂ R as bs) : ∀ a ∈ as, ∃ b ∈ bs, R a b := by
  induction h with
  | nil => exact nofun
  | cons hab _ ih =>
    refine List.forall_mem_cons.2 ⟨⟨_, List.mem_cons_self, hab⟩, fun a ha => ?_⟩
    obtain ⟨b, hb, hR⟩ := ih a ha
    exact ⟨b, List.mem_cons_of_mem _ hb, hR⟩

/-- Lists are equated item by item, in any order. -/
theorem Equates.reorders {α : Type} {R : α → α → Prop} {P : α → Prop} {as : List α}
    (h : ∀ a ∈ as, Equates R P a) : Equates (Reorders R) (fun xs => ∀ x ∈ xs, P x) as where
  refl := ⟨as, .refl as, (Equates.forall₂ h).refl⟩
  symm := by
    rintro bs hP ⟨cs, hperm, hR⟩
    have hcs : ∀ c ∈ cs, P c := fun c hc => hP c (hperm.mem_iff.1 hc)
    obtain ⟨ds, hback, hperm'⟩ :=
      List.perm_comp_forall₂ hperm.symm ((Equates.forall₂ h).symm hcs hR)
    exact ⟨ds, hperm', hback⟩
  trans := by
    rintro bs cs hP hP' ⟨bs', hperm, hR⟩ ⟨cs', hperm', hR'⟩
    have hbs : ∀ b ∈ bs', P b := fun b hb => hP b (hperm.mem_iff.1 hb)
    obtain ⟨ds, hon, hperm''⟩ := List.perm_comp_forall₂ hperm hR'
    have hds : ∀ d ∈ ds, P d := fun d hd => hP' d ((hperm''.trans hperm').mem_iff.1 hd)
    exact ⟨ds, hperm''.trans hperm', (Equates.forall₂ h).trans hbs hds hR hon⟩

/-! ## Keys -/

theorem TextValue.beq_iff (t u : TextValue) : (t == u) = true ↔ t.content = u.content := by
  change (t.content == u.content) = true ↔ _
  exact beq_iff_eq

namespace Key

/-- What equal keys have in common: the characters of a text, and a tag in small letters. -/
def identity : Key → String ⊕ String
  | .text t => .inl t.content
  | .tag name => .inr (Text.lowercase name.text)

/-- Keys are equal if they are identical: texts as they are, tags without their case. -/
theorem beq_iff (k l : Key) : (k == l) = true ↔ k.identity = l.identity := by
  cases k with
  | text t =>
    cases l with
    | text u =>
      refine (TextValue.beq_iff t u).trans ?_
      rw [identity, identity, Sum.inl.injEq]
    | tag name => exact ⟨nofun, nofun⟩
  | tag name =>
    cases l with
    | text u => exact ⟨nofun, nofun⟩
    | tag other =>
      refine (Name.beq_iff name other).trans ?_
      rw [name.key_eq, other.key_eq, identity, identity, Sum.inr.injEq]

end Key

/-! ## Fields -/

/-- Two values are equal. -/
def Value.Equal (a b : Value) : Prop := a.equals b = true

namespace Record

variable {as bs : List (Key × Value)}

/-- Two fields with equal keys and equal values. -/
def FieldsEqual (a b : Key × Value) : Prop :=
  a.1.identity = b.1.identity ∧ a.2.Equal b.2

theorem uniqueKeys_cons {a : Key × Value} :
    UniqueKeys (a :: as) ↔ (∀ later ∈ as, later.1.identity ≠ a.1.identity) ∧ UniqueKeys as := by
  simp only [UniqueKeys, List.pairwise_cons, ← Bool.not_eq_true, Key.beq_iff, ne_eq]

/-- The field that a look-up finds, with the fields before and behind it. -/
theorem exists_of_lookup {key : Key} {value : Value} (h : bs.lookup key = some value) :
    ∃ front found back, bs = front ++ found :: back ∧ key.identity = found.1.identity ∧
      found.2 = value := by
  induction bs with
  | nil => cases h
  | cons b bs ih =>
    obtain ⟨other, first⟩ := b
    rw [List.lookup_cons] at h
    cases hkey : key == other with
    | true =>
      rw [hkey] at h
      exact ⟨[], (other, first), bs, rfl, (Key.beq_iff _ _).1 hkey, Option.some.inj h⟩
    | false =>
      rw [hkey] at h
      obtain ⟨front, found, back, rfl, hfound⟩ := ih h
      exact ⟨(other, first) :: front, found, back, rfl, hfound⟩

/-- Among unique keys each field is found. -/
theorem lookup_of_mem (hunique : UniqueKeys bs) {key : Key} {b : Key × Value} (hb : b ∈ bs)
    (hkey : key.identity = b.1.identity) : bs.lookup key = some b.2 := by
  induction bs with
  | nil => cases hb
  | cons first bs ih =>
    obtain ⟨hfirst, hrest⟩ := uniqueKeys_cons.1 hunique
    rw [List.lookup_cons]
    rcases List.mem_cons.1 hb with rfl | hmem
    · rw [(Key.beq_iff _ _).2 hkey]
    · have hother : (key == first.1) = false := by
        rw [← Bool.not_eq_true, Key.beq_iff, hkey]
        exact hfirst b hmem
      rw [hother]
      exact ih hrest hmem

/-- Every field is found under its key, with an equal value. -/
theorem fieldsFound_iff : fieldsFound bs as = true ↔
    ∀ a ∈ as, ∃ other, bs.lookup a.1 = some other ∧ a.2.Equal other := by
  induction as with
  | nil => exact iff_of_true rfl nofun
  | cons a as ih =>
    rw [fieldsFound, Bool.and_eq_true, ih, List.forall_mem_cons]
    refine and_congr_left' ?_
    cases bs.lookup a.1 with
    | none => exact ⟨nofun, nofun⟩
    | some other => exact ⟨fun h => ⟨other, rfl, h⟩, fun ⟨_, hother, h⟩ => by cases hother; exact h⟩

/-- Fields with unique keys that are all found among as many others are these in some order. -/
theorem reorders_of_found (hunique : UniqueKeys as) (hlength : as.length = bs.length)
    (hfound : ∀ a ∈ as, ∃ b ∈ bs, FieldsEqual a b) : Reorders FieldsEqual as bs := by
  induction as generalizing bs with
  | nil => exact ⟨[], by rw [List.length_eq_zero_iff.1 hlength.symm], .nil⟩
  | cons a as ih =>
    obtain ⟨hfirst, hrest⟩ := uniqueKeys_cons.1 hunique
    obtain ⟨⟨b, hb, hab⟩, hothers⟩ := List.forall_mem_cons.1 hfound
    obtain ⟨front, back, rfl⟩ := List.append_of_mem hb
    -- The field found for `a` is found for no other, so it can be taken out.
    have hothers' : ∀ a' ∈ as, ∃ b' ∈ front ++ back, FieldsEqual a' b' := by
      intro a' ha'
      obtain ⟨b', hb', hab'⟩ := hothers a' ha'
      refine ⟨b', ?_, hab'⟩
      rcases List.mem_append.1 hb' with hfront | hback
      · exact List.mem_append_left _ hfront
      · rcases List.mem_cons.1 hback with rfl | hback
        · exact absurd (hab'.1.trans hab.1.symm) (hfirst a' ha')
        · exact List.mem_append_right _ hback
    have hlength' : as.length = (front ++ back).length := by
      simp only [List.length_append, List.length_cons] at hlength ⊢
      omega
    obtain ⟨cs, hperm, hcs⟩ := ih hrest hlength' hothers'
    exact ⟨b :: cs, (hperm.cons b).trans List.perm_middle.symm, .cons hab hcs⟩

/-- Records with unique keys are equal when the fields of one are those of the other in some
order. -/
theorem equals_iff_reorders (has : UniqueKeys as) (hbs : UniqueKeys bs) :
    (Record.fields as).equals (.fields bs) = true ↔ Reorders FieldsEqual as bs := by
  rw [Record.equals, Bool.and_eq_true, beq_iff_eq, fieldsFound_iff]
  constructor
  · rintro ⟨hlength, hfound⟩
    refine reorders_of_found has hlength fun a ha => ?_
    obtain ⟨other, hlookup, hequal⟩ := hfound a ha
    obtain ⟨front, b, back, rfl, hkey, rfl⟩ := exists_of_lookup hlookup
    exact ⟨b, by simp, hkey, hequal⟩
  · rintro ⟨cs, hperm, hequal⟩
    refine ⟨hequal.length_eq.trans hperm.length_eq, fun a ha => ?_⟩
    obtain ⟨c, hc, hkey, hvalue⟩ := exists_mem_of_forall₂ hequal a ha
    exact ⟨c.2, lookup_of_mem hbs (hperm.mem_iff.1 hc) hkey, hvalue⟩

end Record

/-! ## Values -/

/-- A value in which no record has the same key twice.  What is compared by a number may hold
anything. -/
inductive Value.Keyed : Value → Prop where
  | nothing : Keyed .nothing
  | didNothing : Keyed .didNothing
  | boolean {flag : Bool} : Keyed (.boolean flag)
  | text {content : TextValue} : Keyed (.text content)
  | tag {name : Name} : Keyed (.tag name)
  | list {items : List Value} : (∀ item ∈ items, Keyed item) → Keyed (.list items)
  | fields {entries : List (Key × Value)} : Record.UniqueKeys entries →
      (∀ entry ∈ entries, Keyed entry.2) → Keyed (.record (.fields entries))
  | computed {pairs : List (Value × Value)} : (∀ pair ∈ pairs, Keyed pair.1) →
      (∀ pair ∈ pairs, Keyed pair.2) → Keyed (.record (.computed pairs))
  | pair {key value : Value} : Keyed key → Keyed value → Keyed (.pair key value)
  | identifier {name : Name} : Keyed (.identifier name)
  | command {c : Command} : (∀ argument ∈ c.arguments, Keyed argument.value) → Keyed (.command c)
  | block {items : List Value} : (∀ item ∈ items, Keyed item) → Keyed (.block items)
  | thunk {number : Nat} {body : Value} {scope : Scope} {wanted : Coercion} :
      Keyed (.thunk number body scope wanted)
  | coercion {c : Coercion} : (∀ fallback inner, .default fallback inner ∈ c.parts →
      Keyed fallback) → Keyed (.coercion c)
  | handler {h : Handler} : Keyed (.handler h)
  | closure {h : Handler} {scope : Scope} : Keyed (.closure h scope)
  | reference {number : Nat} {target : Target} : Keyed (.reference number target)

/-- Two arguments have equal labels and equal values. -/
def Argument.Equal (a b : Argument) : Prop :=
  (a.label == b.label) = true ∧ a.value.Equal b.value

section Lists

variable {as bs : List Value}

/-- Lists are equal item by item. -/
theorem itemsEqual_iff : itemsEqual as bs = true ↔ List.Forall₂ Value.Equal as bs := by
  induction as generalizing bs with
  | nil => cases bs <;> simp [itemsEqual]
  | cons a as ih => cases bs <;> simp [itemsEqual, ih, Value.Equal]

theorem pairsEqual_iff {as bs : List (Value × Value)} : pairsEqual as bs = true ↔
    List.Forall₂ (fun a b => a.1.Equal b.1 ∧ a.2.Equal b.2) as bs := by
  induction as generalizing bs with
  | nil => cases bs <;> simp [pairsEqual]
  | cons a as ih => cases bs <;> simp [pairsEqual, ih, Value.Equal]

theorem argumentsEqual_iff {as bs : List Argument} :
    argumentsEqual as bs = true ↔ List.Forall₂ Argument.Equal as bs := by
  induction as generalizing bs with
  | nil => cases bs <;> simp [argumentsEqual]
  | cons a as ih =>
    obtain ⟨label, value⟩ := a
    cases bs with
    | nil => simp [argumentsEqual]
    | cons b bs =>
      obtain ⟨other, value'⟩ := b
      simp [argumentsEqual, ih, Argument.Equal, Value.Equal]

end Lists

/-! ### Coercions -/

namespace Coercion

/-- Two coercions are equal. -/
def Equal (a b : Coercion) : Prop := a.equals b = true

/-- Every value that may stand in, somewhere in the coercion, has a property. -/
def Defaults (P : Value → Prop) (c : Coercion) : Prop :=
  ∀ fallback inner, .default fallback inner ∈ c.parts → P fallback

theorem Defaults.of_subset {P : Value → Prop} {c inner : Coercion} (h : c.Defaults P)
    (hsub : ∀ part ∈ inner.parts, part ∈ c.parts) : inner.Defaults P :=
  fun fallback given hpart => h fallback given (hsub _ hpart)

theorem equal_iff_of_plain {c d : Coercion} (hc : c.buildsCoercion = false) :
    c.Equal d ↔ c = d := by
  cases c with
  | list _ | record _ | optional _ | lazy _ | default _ _ => cases hc
  | _ => cases d <;> simp [Equal, Coercion.equals]

/-- The coercion is equated among those whose defaults have unique keys. -/
def Equated (c : Coercion) : Prop := Equates Coercion.Equal (Defaults Value.Keyed) c

section Built

variable {build : Coercion → Coercion} (hbuild : build ∈ [Coercion.list, .record, .optional, .lazy])

include hbuild

theorem parts_built (c : Coercion) : ∀ part ∈ c.parts, part ∈ (build c).parts := by
  simp only [List.mem_cons, List.not_mem_nil, or_false] at hbuild
  obtain rfl | rfl | rfl | rfl := hbuild
  all_goals exact fun _ hpart => List.mem_cons_of_mem _ hpart

/-- A coercion that is built on one other is equated by it. -/
theorem equated_built {c : Coercion} (hkeyed : (build c).Defaults Value.Keyed) (h : c.Equated) :
    (build c).Equated := by
  refine Equates.made build h hkeyed (fun _ _ => ?_) (fun {inner other} hequal => ?_)
    fun hbuilt => hbuilt.of_subset (parts_built hbuild _)
  all_goals
    simp only [List.mem_cons, List.not_mem_nil, or_false] at hbuild
    obtain rfl | rfl | rfl | rfl := hbuild
  all_goals first | exact Iff.rfl | cases other <;> first | cases hequal | exact ⟨_, rfl⟩

end Built

/-- A coercion with a default is equated by the default and what it is built on. -/
theorem equated_default {fallback : Value} {c : Coercion}
    (hkeyed : (Coercion.default fallback c).Defaults Value.Keyed)
    (hfallback : Equates Value.Equal Value.Keyed fallback) (h : c.Equated) :
    (Coercion.default fallback c).Equated := by
  let build (x : Value × Coercion) : Coercion := .default x.1 x.2
  have hparts : Equates (fun x y : Value × Coercion => x.1.Equal y.1 ∧ x.2.Equal y.2)
      (fun x => x.1.Keyed ∧ x.2.Defaults Value.Keyed) (fallback, c) :=
    ((hfallback.part Prod.fst).mono fun _ hx => hx.1).and
      ((Equates.part Prod.snd (x := (fallback, c)) h).mono fun _ hx => hx.2)
  refine Equates.made build hparts hkeyed (fun _ _ => ?_) (fun {_ other} hequal => ?_)
    fun hx => ⟨?_, ?_⟩
  · simp [build, Equal, Coercion.equals, Value.Equal]
  · cases other <;> first | cases hequal | exact ⟨(_, _), rfl⟩
  · exact hx _ _ (mem_parts_self _)
  · exact hx.of_subset fun _ hpart => List.mem_cons_of_mem _ hpart

/-- A coercion is equated if the values are that may stand in. -/
theorem equated : ∀ {c : Coercion}, c.Defaults Value.Keyed →
    c.Defaults (Equates Value.Equal Value.Keyed) → c.Equated
  | .list c, hkeyed, h => by
    have hsub := @parts_built .list (by simp) c
    exact equated_built (by simp) hkeyed (equated (hkeyed.of_subset hsub) (h.of_subset hsub))
  | .record c, hkeyed, h => by
    have hsub := @parts_built .record (by simp) c
    exact equated_built (by simp) hkeyed (equated (hkeyed.of_subset hsub) (h.of_subset hsub))
  | .optional c, hkeyed, h => by
    have hsub := @parts_built .optional (by simp) c
    exact equated_built (by simp) hkeyed (equated (hkeyed.of_subset hsub) (h.of_subset hsub))
  | .lazy c, hkeyed, h => by
    have hsub := @parts_built .lazy (by simp) c
    exact equated_built (by simp) hkeyed (equated (hkeyed.of_subset hsub) (h.of_subset hsub))
  | .default fallback c, hkeyed, h => by
    have hsub : ∀ part ∈ c.parts, part ∈ (Coercion.default fallback c).parts :=
      fun _ hpart => List.mem_cons_of_mem _ hpart
    exact equated_default hkeyed (h _ _ (mem_parts_self _))
      (equated (hkeyed.of_subset hsub) (h.of_subset hsub))
  | .anything, _, _ | .value, _, _ | .expression, _, _ | .boolean, _, _ | .text, _, _
  | .number, _, _ | .integer, _, _ | .real, _, _ | .tag, _, _ | .recordKey, _, _
  | .noResult, _, _ | .coercion, _, _ | .handler, _, _ | .reference, _, _ =>
    .alone fun _ => equal_iff_of_plain rfl
termination_by structural c => c

end Coercion

/-! ### The three laws -/

/-- A name is compared in small letters, and so is a label that may be missing. -/
theorem label_beq_iff (a b : Option Name) : (a == b) = true ↔ a.map Name.key = b.map Name.key := by
  cases a with
  | none => cases b <;> simp
  | some a => cases b <;> simp

namespace Value

variable {value : Value}

/-- The value is equated among those in which no record has the same key twice. -/
def Equated (value : Value) : Prop := Equates Equal Keyed value

section Made

variable {ι β : Type} (f : ι → Value)

theorem equated_made {T : ι → ι → Prop} {Q : ι → Prop} {x : ι} (h : Equates T Q x)
    (hkeyed : (f x).Keyed)
    (hequal : ∀ {y z}, (f y).Keyed → (f z).Keyed → ((f y).equals (f z) = true ↔ T y z))
    (honly : ∀ {y b}, (f y).Equal b → ∃ z, b = f z) (hQ : ∀ {y}, (f y).Keyed → Q y) :
    (f x).Equated := Equates.made f h hkeyed hequal honly hQ

/-- A value is equated that is compared by a part of it that is no value. -/
theorem equated_named (name : ι → β) (hequal : ∀ {y z}, (f y).equals (f z) = true ↔ name y = name z)
    (honly : ∀ {y b}, (f y).Equal b → ∃ z, b = f z) (x : ι) : (f x).Equated :=
  Equates.named f name hequal honly x

end Made

theorem equated_list {items : List Value} (hkeyed : (Value.list items).Keyed)
    (h : ∀ item ∈ items, item.Equated) : (Value.list items).Equated := by
  refine equated_made .list (Equates.forall₂ h) hkeyed (fun _ _ => itemsEqual_iff)
    (fun {_ b} hb => ?_) fun hx => ?_
  · cases b <;> first | cases hb | exact ⟨_, rfl⟩
  · cases hx with
    | list hitems => exact hitems

theorem equated_block {items : List Value} (hkeyed : (Value.block items).Keyed)
    (h : ∀ item ∈ items, item.Equated) : (Value.block items).Equated := by
  refine equated_made .block (Equates.forall₂ h) hkeyed (fun _ _ => itemsEqual_iff)
    (fun {_ b} hb => ?_) fun hx => ?_
  · cases b <;> first | cases hb | exact ⟨_, rfl⟩
  · cases hx with
    | block hitems => exact hitems

/-- The laws hold of a record if they hold of its values, whatever the order of its fields. -/
theorem equated_fields {entries : List (Key × Value)}
    (hkeyed : (Value.record (.fields entries)).Keyed) (h : ∀ entry ∈ entries, entry.2.Equated) :
    (Value.record (.fields entries)).Equated := by
  have hentries : ∀ entry ∈ entries,
      Equates Record.FieldsEqual (fun entry => entry.2.Keyed) entry := by
    intro entry hentry
    have hkey : Equates (fun a b : Key × Value => a.1.identity = b.1.identity)
        (fun entry => entry.2.Keyed) entry := .of_eq _ (fun _ _ => Iff.rfl) entry
    exact hkey.and (Equates.part Prod.snd (h entry hentry))
  refine equated_made (fun entries => .record (.fields entries)) (Equates.reorders hentries)
    hkeyed (fun hy hz => ?_) (fun {_ b} hb => ?_) fun hx => ?_
  · cases hy with
    | fields hunique _ =>
      cases hz with
      | fields hunique' _ => exact Record.equals_iff_reorders hunique hunique'
  · cases b with
    | record record =>
      cases record with
      | fields others => exact ⟨others, rfl⟩
      | computed _ => cases hb
    | _ => cases hb
  · cases hx with
    | fields _ hentries => exact hentries

theorem equated_computed {pairs : List (Value × Value)}
    (hkeyed : (Value.record (.computed pairs)).Keyed) (hkeys : ∀ pair ∈ pairs, pair.1.Equated)
    (hvalues : ∀ pair ∈ pairs, pair.2.Equated) : (Value.record (.computed pairs)).Equated := by
  have hpairs : ∀ pair ∈ pairs, Equates
      (fun a b : Value × Value => a.1.Equal b.1 ∧ a.2.Equal b.2)
      (fun pair => pair.1.Keyed ∧ pair.2.Keyed) pair := fun pair hpair =>
    ((Equates.part Prod.fst (hkeys pair hpair)).mono fun _ hx => hx.1).and
      ((Equates.part Prod.snd (hvalues pair hpair)).mono fun _ hx => hx.2)
  refine equated_made (fun pairs => .record (.computed pairs)) (Equates.forall₂ hpairs) hkeyed
    (fun _ _ => pairsEqual_iff) (fun {_ b} hb => ?_) fun hx => ?_
  · cases b with
    | record record =>
      cases record with
      | fields _ => cases hb
      | computed others => exact ⟨others, rfl⟩
    | _ => cases hb
  · cases hx with
    | computed hkeys hvalues => exact fun pair hpair => ⟨hkeys pair hpair, hvalues pair hpair⟩

theorem equated_pair {key value : Value} (hkeyed : (Value.pair key value).Keyed)
    (hkey : key.Equated) (hvalue : value.Equated) : (Value.pair key value).Equated := by
  have hparts : Equates (fun a b : Value × Value => a.1.Equal b.1 ∧ a.2.Equal b.2)
      (fun pair => pair.1.Keyed ∧ pair.2.Keyed) (key, value) :=
    ((Equates.part Prod.fst (x := (key, value)) hkey).mono fun _ hx => hx.1).and
      ((Equates.part Prod.snd (x := (key, value)) hvalue).mono fun _ hx => hx.2)
  refine equated_made (fun pair : Value × Value => .pair pair.1 pair.2) hparts hkeyed
    (fun _ _ => by simp [Equal, equals]) (fun {_ b} hb => ?_) fun hx => ?_
  · cases b <;> first | cases hb | exact ⟨(_, _), rfl⟩
  · cases hx with
    | pair hkey hvalue => exact ⟨hkey, hvalue⟩

theorem equated_command {c : Command} (hkeyed : (Value.command c).Keyed)
    (h : ∀ argument ∈ c.arguments, argument.value.Equated) : (Value.command c).Equated := by
  have harguments : ∀ argument ∈ c.arguments,
      Equates Argument.Equal (fun argument => argument.value.Keyed) argument := by
    intro argument hargument
    have hlabel : Equates (fun a b : Argument => (a.label == b.label) = true)
        (fun argument => argument.value.Keyed) argument :=
      .of_eq (fun a : Argument => a.label.map Name.key) (fun _ _ => label_beq_iff _ _) argument
    exact hlabel.and (Equates.part Argument.value (h argument hargument))
  have hname : Equates (fun c d : Command => (c.name == d.name) = true)
      (fun c => ∀ argument ∈ c.arguments, argument.value.Keyed) c :=
    .of_eq (fun c : Command => c.name.key) (fun _ _ => Name.beq_iff _ _) c
  have huse : Equates (fun c d : Command => (c.writtenAs == d.writtenAs) = true)
      (fun c => ∀ argument ∈ c.arguments, argument.value.Keyed) c :=
    .of_eq Command.writtenAs (fun _ _ => beq_iff_eq) c
  have hparts := hname.and ((Equates.part Command.arguments (Equates.forall₂ harguments)).and huse)
  refine equated_made .command hparts hkeyed (fun {c d} _ _ => ?_) (fun {_ b} hb => ?_) fun hx => ?_
  · obtain ⟨name, arguments, use⟩ := c
    obtain ⟨name', arguments', use'⟩ := d
    simp [equals, Command.equals, argumentsEqual_iff, and_assoc]
  · cases b <;> first | cases hb | exact ⟨_, rfl⟩
  · cases hx with
    | command harguments => exact harguments

theorem equated_coercion {c : Coercion} (hkeyed : (Value.coercion c).Keyed)
    (h : c.Defaults Equated) : (Value.coercion c).Equated := by
  have hdefaults {c : Coercion} (hx : (Value.coercion c).Keyed) : c.Defaults Keyed := by
    cases hx with
    | coercion hdefaults => exact hdefaults
  refine equated_made .coercion (Coercion.equated (hdefaults hkeyed) h) hkeyed
    (fun _ _ => Iff.rfl) (fun {_ b} hb => ?_) hdefaults
  cases b <;> first | cases hb | exact ⟨_, rfl⟩

/-- A value is equated by its parts, if no record in it has the same key twice. -/
theorem Keyed.equated (h : value.Keyed) : value.Equated := by
  induction h with
  | nothing => exact Equates.alone fun b => by cases b <;> simp [Equal, equals]
  | didNothing => exact Equates.alone fun b => by cases b <;> simp [Equal, equals]
  | boolean =>
    refine equated_named .boolean id (by simp [equals]) (fun {_ b} hb => ?_) _
    cases b <;> first | cases hb | exact ⟨_, rfl⟩
  | text =>
    refine equated_named .text TextValue.content (TextValue.beq_iff _ _) (fun {_ b} hb => ?_) _
    cases b <;> first | cases hb | exact ⟨_, rfl⟩
  | tag =>
    refine equated_named .tag Name.key (Name.beq_iff _ _) (fun {_ b} hb => ?_) _
    cases b <;> first | cases hb | exact ⟨_, rfl⟩
  | identifier =>
    refine equated_named .identifier Name.key (Name.beq_iff _ _) (fun {_ b} hb => ?_) _
    cases b <;> first | cases hb | exact ⟨_, rfl⟩
  | @thunk number body scope wanted =>
    let wait (t : Nat × Value × Scope × Coercion) : Value := .thunk t.1 t.2.1 t.2.2.1 t.2.2.2
    refine equated_named wait Prod.fst beq_iff_eq (fun {_ b} hb => ?_) (number, body, scope, wanted)
    cases b <;> first | cases hb | exact ⟨(_, _, _, _), rfl⟩
  | handler =>
    refine equated_named .handler Handler.id beq_iff_eq (fun {_ b} hb => ?_) _
    cases b <;> first | cases hb | exact ⟨_, rfl⟩
  | @closure given scope =>
    refine equated_named (fun t : Handler × Scope => .closure t.1 t.2) (fun t => t.1.id) beq_iff_eq
      (fun {_ b} hb => ?_) (given, scope)
    cases b <;> first | cases hb | exact ⟨(_, _), rfl⟩
  | @reference number target =>
    refine equated_named (fun t : Nat × Target => .reference t.1 t.2) Prod.fst beq_iff_eq
      (fun {_ b} hb => ?_) (number, target)
    cases b <;> first | cases hb | exact ⟨(_, _), rfl⟩
  | list hitems ih => exact equated_list (.list hitems) ih
  | block hitems ih => exact equated_block (.block hitems) ih
  | fields hunique hentries ih => exact equated_fields (.fields hunique hentries) ih
  | computed hkeys hvalues ih ih' => exact equated_computed (.computed hkeys hvalues) ih ih'
  | pair hkey hvalue ih ih' => exact equated_pair (.pair hkey hvalue) ih ih'
  | command harguments ih => exact equated_command (.command harguments) ih
  | coercion hdefaults ih => exact equated_coercion (.coercion hdefaults) ih

/-- What is built from fields has no key twice, if the values of the fields don't. -/
theorem keyed_ofFields {entries : List (Key × Value)} {record : Record}
    (h : Record.ofFields entries = .ok record) (hentries : ∀ entry ∈ entries, entry.2.Keyed) :
    (Value.record record).Keyed := by
  unfold Record.ofFields at h
  split at h
  next => cases h
  next hunique =>
    cases h
    exact .fields (Record.uniqueKeys_of_repeatedKey? hunique).1 hentries

/-- Among values whose records have no key twice, equality is an equivalence.  Two records with
known keys are equal just when the fields of one are those of the other in some order, with keys
that are the same text or, in small letters, the same tag, and with equal values. -/
theorem equals_equivalence :
    Equivalence (fun a b : {value : Value // value.Keyed} => a.1.equals b.1 = true) ∧
    ∀ as bs : {entries : List (Key × Value) // Record.UniqueKeys entries},
      (Value.record (.fields as.1)).equals (.record (.fields bs.1)) = true ↔
        ∃ cs, cs.Perm bs.1 ∧ List.Forall₂ (fun a c : Key × Value =>
          a.1.identity = c.1.identity ∧ a.2.equals c.2 = true) as.1 cs := by
  refine ⟨⟨fun a => ?_, fun {a b} hab => ?_, fun {a b c} hab hbc => ?_⟩, fun as bs => ?_⟩
  · exact a.2.equated.refl
  · exact a.2.equated.symm b.2 hab
  · exact a.2.equated.trans b.2 c.2 hab hbc
  · exact Record.equals_iff_reorders as.2 bs.2

end Value

end CommandScript
