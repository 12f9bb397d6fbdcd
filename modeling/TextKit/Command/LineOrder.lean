import TextKit.Command.SortKey
import TextKit.Number.Decimal
import TextKit.Sorting.Sequence
import TextKit.Text.Utf8

/-!
# Ordering lines

Each sort key is one level of the order of lines. A text field is compared by the
bytes of its UTF-8 form. A numeric field is read as a decimal number, with blanks
around it ignored; fields that are no number are equal to each other and come
before all numbers. Without keys, whole lines are compared as texts.
-/

namespace TextKit.Command

open Sorting

/-- The order of byte strings by their first difference, a beginning of another
string being smaller. -/
def compareBytes (l r : Bytes) : Ordering := List.compareLex compare l r

/-- The order of numeric fields. -/
def compareNumbers : Option Binary64 → Option Binary64 → Ordering
  | some l, some r => l.totalOrder r
  | some _, none => .gt
  | none, some _ => .lt
  | none, none => .eq

/-- The number in a field. -/
def numberOf (field : Text) : Option Binary64 := Decimal.read? (Text.trim field)

/-- The direction of a key. -/
def SortKey.direction (key : SortKey) : Direction :=
  if key.descending then .descending else .ascending

/-- The level of a key. -/
def SortKey.level (key : SortKey) (delimiter : Option Char) : Level Text :=
  if key.numeric then
    { key := fun line => numberOf (key.select delimiter line)
      compare := compareNumbers
      direction := key.direction }
  else
    { key := fun line => Utf8.encode (key.select delimiter line)
      compare := compareBytes
      direction := key.direction }

/-- The level that compares whole lines. -/
def wholeLine : Level Text where
  key := Utf8.encode
  compare := compareBytes
  direction := .ascending

/-- The levels of a list of keys. -/
def levelsOf (keys : List SortKey) (delimiter : Option Char) : List (Level Text) :=
  match keys with
  | [] => [wholeLine]
  | _ => keys.map (·.level delimiter)

/-- Lines with the order of a list of keys. -/
def lineSequence (lines : List Text) (keys : List SortKey) (delimiter : Option Char)
    (seed : Option UInt64) : Sequence Text where
  items := lines
  levels := levelsOf keys delimiter
  seed := seed

end TextKit.Command
