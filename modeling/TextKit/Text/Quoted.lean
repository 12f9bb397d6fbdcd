import TextKit.Text.Basic
import TextKit.Text.GraphemeExtend
import TextKit.Text.Printable

/-!
# Quoted characters

A message shows a character between single quotes. Six characters have a short
escape; of the rest, those that would attach to the opening quote or would not
be visible appear by their code point in hexadecimal, all others as themselves.
The double quote is not special here.
-/

namespace TextKit.Text

/-- The two-character escape of a character that has one. -/
def shortEscape? (c : Char) : Option Char :=
  if c = '\x00' then some '0'
  else if c = '\t' then some 't'
  else if c = '\r' then some 'r'
  else if c = '\n' then some 'n'
  else if c = '\'' then some '\''
  else if c = '\\' then some '\\'
  else none

/-- Whether a character is shown by its code point. -/
def isHidden (c : Char) : Bool := isExtender c || ! isPrintable c

/-- A character as it appears between the quotes. -/
def escaped (c : Char) : Text :=
  match shortEscape? c with
  | some e => ['\\', e]
  | none =>
    if isHidden c then ['\\', 'u', '{'] ++ Nat.toDigits 16 c.toNat ++ ['}']
    else [c]

/-- A character in single quotes. -/
def quoted (c : Char) : Text := '\'' :: escaped c ++ ['\'']

end TextKit.Text
