import TextKit.Ascii85.Reader
import TextKit.Ascii85.Writer

/-!
# Ascii85 inside a header value

Fifteen of the Ascii85 digits are separators that the tokens of a header may not
hold. Five of them have a substitute, a printable character that is no digit;
the other ten are written as `~` and a letter. White space and `z` are the same
in both forms.

Escaping accepts the Ascii85 alphabet and white space only. Unescaping is
lenient: it maps the codes back, copies every other character, and leaves it to
the reader of the result to refuse what is not Ascii85.
-/

namespace TextKit.HeaderSafe

/-- The character in front of an escape letter. -/
def escapeChar : Char := '~'

/-- The separators that have a substitute. -/
def substitutes : List (Char × Char) :=
  [('(', 'v'), (')', 'w'), ('<', 'x'), ('>', 'y'), ('@', '|')]

/-- The separators that have an escape letter. -/
def escapeLetters : List (Char × Char) :=
  [(',', 'a'), (';', 'b'), (':', 'c'), ('\\', 'd'), ('"', 'e'), ('/', 'f'), ('[', 'g'), (']', 'h'),
   ('?', 'i'), ('=', 'j')]

/-- What is copied although it is no digit. -/
def copied : List Char := [' ', '\n', '\r', '\t', Ascii85.zeroGroup]

/-- The separator with the given code in a table. -/
def separator? (table : List (Char × Char)) (code : Char) : Option Char :=
  (table.find? (·.2 == code)).map (·.1)

/-- The header-safe form of one character. -/
def escapeOne (c : Char) : Text :=
  match substitutes.lookup c with
  | some s => [s]
  | none =>
    match escapeLetters.lookup c with
    | some letter => [escapeChar, letter]
    | none => [c]

/-- Whether a character may be escaped. -/
def isEscapable (c : Char) : Bool := copied.contains c || Ascii85.isDigit c

/-- Escape on from byte offset `position`, with `done` already written. -/
def escapeFrom (done : Array Char) (position : Nat) : Text → Except FormatError Text
  | [] => .ok done.toList
  | c :: cs =>
    if isEscapable c then escapeFrom (done ++ escapeOne c) (position + c.utf8Size) cs
    else .error (.invalidCharacter c position)

/-- The header-safe form of an Ascii85 text. -/
def escape (t : Text) : Except FormatError Text := escapeFrom #[] 0 t

/-- Unescape on from byte offset `position`, with `done` already written. -/
def unescapeFrom (done : Array Char) (position : Nat) : Text → Except FormatError Text
  | [] => .ok done.toList
  | c :: cs =>
    if c = escapeChar then
      match cs with
      | [] => .error .danglingEscape
      | letter :: rest =>
        match separator? escapeLetters letter with
        | some s => unescapeFrom (done.push s) (position + c.utf8Size + letter.utf8Size) rest
        | none => .error (.unexpectedEscape letter (position + c.utf8Size))
    else
      unescapeFrom (done.push ((separator? substitutes c).getD c)) (position + c.utf8Size) cs

/-- The Ascii85 text with the given header-safe form. -/
def unescape (t : Text) : Except FormatError Text := unescapeFrom #[] 0 t

/-- The header-safe text of a byte string. Every character that the writer of
Ascii85 uses may be escaped, so nothing is refused. -/
def encode (bytes : Bytes) : Text := (Ascii85.encode bytes).flatMap escapeOne

/-- The bytes of a header-safe text. Faults found after unescaping are placed in
the unescaped text. -/
def decode (t : Text) : Except FormatError Bytes := do
  Ascii85.decode (← unescape t)

end TextKit.HeaderSafe
