import TextKit.Number.Numeral
import TextKit.Text.Pieces

/-!
# Sort keys

A sort key selects one field of a line. It is written as the number of the field,
counted from one, followed by flags: `n` to compare the field as a number, and `r`
to sort in descending order. Flags may come in any order and may be repeated; the
written form of a key has each at most once, `n` first.
-/

namespace TextKit.Command

/-- A field of a line and how it is compared. -/
structure SortKey where
  field : UInt64
  numeric : Bool
  descending : Bool
  field_pos : 0 < field.toNat
  deriving DecidableEq, Repr

namespace SortKey

/-- Why a text is no sort key. -/
inductive Fault where
  /-- The text does not begin with digits that make up a word. -/
  | noField (text : Text)
  | zeroField
  | unknownFlag (flag : Char)
  deriving DecidableEq, Repr

/-- The wording of a fault. -/
def Fault.message : Fault → String
  | .noField text => "key '" ++ String.ofList text ++ "' must start with a field number"
  | .zeroField => "field numbers start at 1"
  | .unknownFlag flag => "unknown key flag '" ++ String.ofList [flag] ++ "' (expected n or r)"

/-- Add flags to a key. -/
def addFlags (key : SortKey) : Text → Except Fault SortKey
  | [] => .ok key
  | c :: cs =>
    if c = 'n' then addFlags { key with numeric := true } cs
    else if c = 'r' then addFlags { key with descending := true } cs
    else .error (.unknownFlag c)

/-- The key with the given written form. -/
def parse (t : Text) : Except Fault SortKey :=
  match Numeral.readDigits (t.takeWhile Char.isDigit) with
  | .error _ => .error (.noField t)
  | .ok field =>
    if h : 0 < field.toNat then
      addFlags ⟨field, false, false, h⟩ (t.dropWhile Char.isDigit)
    else .error .zeroField

/-- The written form of a key. -/
def print (key : SortKey) : Text :=
  Numeral.write key.field ++ (if key.numeric then ['n'] else []) ++
    (if key.descending then ['r'] else [])

/-- The fields of a line: the pieces between delimiters, or without a delimiter
the words. -/
def fieldsOf (delimiter : Option Char) (line : Text) : List Text :=
  match delimiter with
  | some c => Text.delimited c line
  | none => Text.words line

/-- The field that a key selects, empty if the line is shorter. -/
def select (key : SortKey) (delimiter : Option Char) (line : Text) : Text :=
  (fieldsOf delimiter line)[key.field.toNat - 1]?.getD []

end SortKey
end TextKit.Command
