/-!
# Texts and byte strings

A text is a list of Unicode scalar values, a byte string a list of octets.
Functions on them recurse on the list, and a place in a text is the number of
bytes that the UTF-8 form of everything before it takes.
-/

namespace TextKit

/-- A sequence of Unicode scalar values. -/
abbrev Text := List Char

/-- A sequence of octets. -/
abbrev Bytes := List UInt8

namespace Text

/-- The length of the UTF-8 form. Offsets in messages are measured by it. -/
def byteLength (t : Text) : Nat := t.foldr (fun c length => c.utf8Size + length) 0

@[simp] theorem byteLength_nil : byteLength [] = 0 := rfl

@[simp] theorem byteLength_cons (c : Char) (t : Text) :
    byteLength (c :: t) = c.utf8Size + byteLength t := rfl

@[simp] theorem byteLength_append (s t : Text) :
    byteLength (s ++ t) = byteLength s + byteLength t := by
  induction s with
  | nil => simp
  | cons c s ih => rw [List.cons_append, byteLength_cons, byteLength_cons, ih, Nat.add_assoc]

/-- Drop the longest ending whose characters all satisfy `p`. -/
def dropEndWhile (p : Char → Bool) (t : Text) : Text :=
  (t.reverse.dropWhile p).reverse

/-- Drop such characters at both ends. -/
def trimWhile (p : Char → Bool) (t : Text) : Text :=
  dropEndWhile p (t.dropWhile p)

end Text
end TextKit
