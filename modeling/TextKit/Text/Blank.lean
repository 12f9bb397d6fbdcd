import TextKit.Text.Basic

/-!
# Blank characters

The characters with the Unicode property White_Space, and trimming by them.
The property covers the ASCII blanks, the next-line and no-break controls, and
the spaces of other scripts; zero-width characters and the byte order mark are
not blank.
-/

namespace TextKit.Text

/-- The ranges of code points with the property, ascending. -/
def blankRanges : List (Nat × Nat) :=
  [(0x09, 0x0D), (0x20, 0x20), (0x85, 0x85), (0xA0, 0xA0), (0x1680, 0x1680), (0x2000, 0x200A),
   (0x2028, 0x2029), (0x202F, 0x202F), (0x205F, 0x205F), (0x3000, 0x3000)]

/-- Whether a character is blank. -/
def isBlank (c : Char) : Bool :=
  blankRanges.any fun r => r.1 ≤ c.toNat && c.toNat ≤ r.2

/-- Drop the blank characters at both ends. -/
def trim (t : Text) : Text := trimWhile isBlank t

/-- Whether a character is one of the two that end a line. -/
def isLineEnd (c : Char) : Bool := c == '\r' || c == '\n'

/-- Drop all line ends at the end of a text. Other blanks stay. -/
def trimLineEnds (t : Text) : Text := dropEndWhile isLineEnd t

end TextKit.Text
