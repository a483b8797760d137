import CommandScript.Text.Case
import CommandScript.Text.Quoted

/-!
# Names

Identifiers, tags, labels, handlers and operators have names.  A name remembers how it was written
and is compared by its key, the same text in small letters.
-/

namespace CommandScript

/-- A name as written, with the key it is compared by. -/
structure Name where
  /-- The name as written. -/
  text : String
  /-- The name in small letters. -/
  key : String
  /-- The key is determined by the text. -/
  key_eq : key = Text.lowercase text

namespace Name

/-- The name with a given spelling. -/
def ofString (text : String) : Name := ⟨text, Text.lowercase text, rfl⟩

/-- Names are equal when their keys are. -/
instance : BEq Name where
  beq a b := a.key == b.key

instance : Inhabited Name := ⟨ofString ""⟩

/-- A name with its quotes, for diagnostics. -/
def describe (name : Name) : String := "Name(" ++ Text.quoted name.text ++ ")"

/-- Two names written alike are the same name. -/
theorem ext_text {a b : Name} (h : a.text = b.text) : a = b := by
  obtain ⟨t, k, hk⟩ := a
  obtain ⟨u, l, hl⟩ := b
  obtain rfl : t = u := h
  obtain rfl : k = l := hk.trans hl.symm
  rfl

instance : DecidableEq Name := fun a b =>
  if h : a.text = b.text then isTrue (ext_text h) else isFalse fun e => h (congrArg text e)

@[simp] theorem beq_iff (a b : Name) : (a == b) = true ↔ a.key = b.key := by
  change (a.key == b.key) = true ↔ _
  exact beq_iff_eq

end Name

end CommandScript
