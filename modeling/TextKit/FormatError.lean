import TextKit.Text.Quoted

/-!
# Malformed text

The causes for which a text is not the encoded form of anything. A cause that
lies at a place carries the byte offset of that place, and a cause that is a
character carries the character. Two errors are equal when all of this agrees.
-/

namespace TextKit

/-- Why an encoded text is malformed. -/
inductive FormatError where
  /-- A character outside the alphabet. -/
  | invalidCharacter (ch : Char) (position : Nat)
  /-- The short form of a zero group inside another group. -/
  | misplacedZeroGroup (position : Nat)
  /-- A group whose value does not fit in four bytes, found out at `position`. -/
  | overflow (position : Nat)
  /-- A last group of one character, which holds no whole byte. -/
  | truncatedGroup
  /-- The escape character at the end of the text. -/
  | danglingEscape
  /-- A character after the escape character that is no escape letter. -/
  | unexpectedEscape (ch : Char) (position : Nat)
  deriving DecidableEq, Repr

namespace FormatError

/-- The wording of an error. -/
def message : FormatError → String
  | invalidCharacter ch position =>
    "Invalid character " ++ String.ofList (Text.quoted ch) ++ " at position " ++ toString position
  | misplacedZeroGroup position =>
    "'z' at position " ++ toString position ++ " is only allowed at the start of a group"
  | overflow position =>
    "The group ending at position " ++ toString position ++
      " decodes to a value greater than u32::MAX"
  | truncatedGroup => "The final Ascii85 group must contain more than one character"
  | danglingEscape => "'~' cannot be the last character of the encoded string"
  | unexpectedEscape ch position =>
    "Unexpected character following '~': " ++ String.ofList (Text.quoted ch) ++
      " at position " ++ toString position

/-- The error found `offset` bytes further on. -/
def shift (offset : Nat) : FormatError → FormatError
  | invalidCharacter ch position => invalidCharacter ch (offset + position)
  | misplacedZeroGroup position => misplacedZeroGroup (offset + position)
  | overflow position => overflow (offset + position)
  | truncatedGroup => truncatedGroup
  | danglingEscape => danglingEscape
  | unexpectedEscape ch position => unexpectedEscape ch (offset + position)

end FormatError
end TextKit
