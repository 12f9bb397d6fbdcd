import TextKit.Text.Basic

/-!
# Texts for terminals

Some characters are commands to a terminal: the control characters, and the
sequences that begin with the escape character. Such commands set off parts of a
message by style. `visible` is what remains of a text where there is no terminal
to obey them.

Layout (tab, line feed, form feed, carriage return) is not a command. It remains
also when it stands in a sequence whose text it cannot be part of. The sequence
then rests: it goes on after the first later character that does not remain.
-/

namespace TextKit.Text

/-- What the characters so far make of the next one. -/
inductive TerminalMode where
  | plain
  /-- After the escape character. -/
  | escape
  /-- After the escape character and intermediate characters. -/
  | escapeIntermediate
  /-- In a control sequence. -/
  | control
  /-- In an operating system command. -/
  | command
  /-- At the beginning of a device control string. -/
  | device
  | deviceParameter
  | deviceIntermediate
  /-- In a string that only the octet 9C or a new command ends. -/
  | string
  deriving DecidableEq, Repr

/-- Whether a character moves the place of writing and is kept for that. -/
def isLayout (c : Char) : Bool := c == '\t' || c == '\n' || c == '\x0c' || c == '\r'

/-- Whether the UTF-8 form of a character holds the octet that ends strings. -/
def endsString (c : Char) : Bool := (String.utf8EncodeChar c).contains 0x9C

namespace TerminalMode

/-- Whether a character remains. -/
def keeps (m : TerminalMode) (c : Char) : Bool :=
  match m with
  | plain => isLayout c || (' ' ≤ c && c != '\x7f')
  | escape | escapeIntermediate | control => isLayout c
  | command | device | deviceParameter | deviceIntermediate | string => false

/-- The mode after a character that neither begins a sequence nor breaks one off. -/
def advance (m : TerminalMode) (c : Char) : TerminalMode :=
  if '\x7f' ≤ c then
    if m = string ∧ endsString c then plain else m
  else if c < ' ' then
    if m = command ∧ c = '\x07' then plain else m
  else
    match m with
    | plain => plain
    | escape =>
      if c ≤ '/' then escapeIntermediate
      else if c = '[' then control
      else if c = ']' then command
      else if c = 'P' then device
      else if c = 'X' ∨ c = '^' ∨ c = '_' then string
      else plain
    | escapeIntermediate => if c ≤ '/' then escapeIntermediate else plain
    | control => if c ≤ '?' then control else plain
    | command => command
    | device =>
      if c ≤ '/' then deviceIntermediate
      else if c ≤ '?' then deviceParameter
      else string
    | deviceParameter =>
      if c ≤ '/' then deviceIntermediate
      else if c ≤ ';' then deviceParameter
      else string
    | deviceIntermediate => if c ≤ '/' then deviceIntermediate else string
    | string => string

/-- The mode after a character that does not remain. The escape character begins a
sequence wherever it stands, cancel and substitute break one off. -/
def after (m : TerminalMode) (c : Char) : TerminalMode :=
  if c = '\x1b' then escape
  else if c = '\x18' ∨ c = '\x1a' then plain
  else m.advance c

end TerminalMode

/-- What remains of a text from a mode on. While a sequence rests, characters are
kept as in plain text, and one beyond ASCII makes an end of the sequence. -/
def visibleFrom (m : TerminalMode) (resting : Bool) : Text → Text
  | [] => []
  | c :: t =>
    if (if resting then .plain else m).keeps c then
      c :: visibleFrom (if c ≤ '\x7f' then m else .plain) true t
    else visibleFrom (m.after c) false t

/-- A text without the commands to a terminal. -/
def visible (t : Text) : Text := visibleFrom .plain false t

/-- A text set off from what surrounds it by a style, given by its number. -/
def styled (style : Nat) (t : Text) : Text :=
  ['\x1b', '['] ++ Nat.toDigits 10 style ++ ['m'] ++ t ++ ['\x1b', '[', '0', 'm']

end TextKit.Text
