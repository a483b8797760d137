/-!
# Byte offsets in a list of characters

A source text is read as a list of characters, and places in it are counted in bytes of its UTF-8
form.
-/

namespace CommandScript

/-- The number of bytes of some characters. -/
def byteLength (cs : List Char) : Nat := cs.foldr (fun c count => c.utf8Size + count) 0

/-- The characters that fill the first `count` bytes, if they fill them exactly, and the rest. -/
def splitBytes? : (count : Nat) → List Char → Option (List Char × List Char)
  | 0, cs => some ([], cs)
  | _ + 1, [] => none
  | count + 1, c :: cs =>
    if c.utf8Size ≤ count + 1 then
      (splitBytes? (count + 1 - c.utf8Size) cs).map fun (front, rest) => (c :: front, rest)
    else
      none
termination_by structural _ cs => cs

/-- The characters between two byte offsets, if both fall between characters. -/
def sliceBytes? (cs : List Char) (start stop : Nat) : Option (List Char) := do
  let (_, rest) ← splitBytes? start cs
  if stop < start then none
  else
    let (front, _) ← splitBytes? (stop - start) rest
    some front

/-- No characters take no bytes. -/
@[simp] theorem byteLength_nil : byteLength [] = 0 := rfl

@[simp] theorem byteLength_cons (c : Char) (cs : List Char) :
    byteLength (c :: cs) = c.utf8Size + byteLength cs := rfl

/-- The bytes of two texts, one behind the other, add up. -/
@[simp] theorem byteLength_append (as bs : List Char) :
    byteLength (as ++ bs) = byteLength as + byteLength bs := by
  induction as with
  | nil => simp
  | cons a as ih => simp [ih, Nat.add_assoc]

/-- A character over and over takes its bytes as often. -/
theorem byteLength_replicate (count : Nat) (c : Char) :
    byteLength (List.replicate count c) = count * c.utf8Size := by
  induction count with
  | zero => rw [List.replicate_zero, byteLength_nil, Nat.zero_mul]
  | succ count ih => rw [List.replicate_succ, byteLength_cons, ih, Nat.succ_mul, Nat.add_comm]

end CommandScript
