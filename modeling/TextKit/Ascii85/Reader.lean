import TextKit.Ascii85.Group
import TextKit.FormatError
import TextKit.Number.Word

/-!
# Reading Ascii85

The reader goes through the text once. It holds the group that is open: how many
digits it has and the word they amount to, each digit weighted by its place in
the group. A digit whose weight takes the word past four bytes is refused at
once, since no later digit can take anything away.

At the end an open group of two to four digits is filled up with the greatest
digit, and one byte fewer than it had digits is kept. Filling up may also go
past four bytes; this is found out at the end of the text.
-/

namespace TextKit.Ascii85

/-- The weight of each place in a group. -/
def weights : Vector UInt32 5 := #v[85 * 85 * 85 * 85, 85 * 85 * 85, 85 * 85, 85, 1]

/-- The digit value that fills up a last group. -/
def padDigit : UInt32 := 84

/-- The word `value` with a digit added at `place`, unless it does not fit a word. -/
def accumulate? (value digit : UInt32) (place : Fin 5) : Option UInt32 :=
  (Word.product? (weights.get place) digit).bind (Word.sum? value)

/-- A group that is not complete: how many digits it has, and their weighted sum. -/
structure OpenGroup where
  count : Fin 5
  value : UInt32
  deriving DecidableEq, Repr

namespace OpenGroup

/-- The group before its first digit. -/
def empty : OpenGroup := ⟨0, 0⟩

/-- Take one more digit. The fifth completes the group and gives its bytes. -/
def add (g : OpenGroup) (digit : UInt32) (position : Nat) :
    Except FormatError (Bytes × OpenGroup) :=
  match accumulate? g.value digit g.count with
  | none => .error (.overflow position)
  | some value =>
    if h : g.count.val + 1 < 5 then .ok ([], ⟨⟨g.count.val + 1, h⟩, value⟩)
    else .ok (bytesOfWord value.toNat, empty)

/-- Read the character at byte offset `position`. Gives the bytes of the group that
it completes, if it does, and the group that is open behind it. -/
def step (g : OpenGroup) (position : Nat) (c : Char) : Except FormatError (Bytes × OpenGroup) :=
  if c = zeroGroup then
    if g.count = 0 then .ok (bytesOfWord 0, g) else .error (.misplacedZeroGroup position)
  else match digit? c with
    | none => .error (.invalidCharacter c position)
    | some digit => g.add digit position

/-- The word of a group with the greatest digit in all places that are free. -/
def fill? (g : OpenGroup) : Option UInt32 :=
  ((List.finRange 5).drop g.count.val).foldlM (fun value => accumulate? value padDigit) g.value

/-- The bytes of a group that the end of the text at `position` leaves open. -/
def close (g : OpenGroup) (position : Nat) : Except FormatError Bytes :=
  if g.count = 0 then .ok []
  else if g.count = 1 then .error .truncatedGroup
  else match g.fill? with
    | none => .error (.overflow position)
    | some value => .ok ((bytesOfWord value.toNat).take (g.count.val - 1))

end OpenGroup

/-- Read on from byte offset `position`, with `done` already read and `g` open. -/
def decodeFrom (done : Array UInt8) (g : OpenGroup) (position : Nat) :
    Text → Except FormatError Bytes
  | [] => (g.close position).map (done.toList ++ ·)
  | c :: cs =>
    match g.step position c with
    | .error e => .error e
    | .ok (bytes, g') => decodeFrom (done ++ bytes) g' (position + c.utf8Size) cs

/-- The bytes of an Ascii85 text, or the earliest fault. -/
def decode (t : Text) : Except FormatError Bytes := decodeFrom #[] .empty 0 t

end TextKit.Ascii85
