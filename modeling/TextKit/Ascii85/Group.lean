import TextKit.Text.Basic

/-!
# Base-85 digits and groups

A digit is a character from `!` to `u` and stands for its distance from `!`.
Four bytes, read with the most significant first, are a word below `2 ^ 32`; five
digits, most significant first, suffice to write it. The character `z`, which is
no digit, is the short form of the word zero.
-/

namespace TextKit.Ascii85

/-- The digit of value 0. -/
def firstChar : Char := '!'

/-- The digit of value 84. -/
def lastChar : Char := 'u'

/-- The short form of a group of four zero bytes. -/
def zeroGroup : Char := 'z'

/-- Whether a character is a digit. -/
def isDigit (c : Char) : Bool := firstChar ≤ c && c ≤ lastChar

/-- The value of a digit, as a machine word. -/
def digit? (c : Char) : Option UInt32 :=
  if isDigit c then some (c.val - firstChar.val) else none

/-- The digit of a value below 85. -/
def digitChar (d : Nat) : Char := Char.ofNat (firstChar.toNat + d)

/-- The five digit values of a word. -/
def digits (word : Nat) : List Nat :=
  [word / 85 / 85 / 85 / 85 % 85, word / 85 / 85 / 85 % 85, word / 85 / 85 % 85, word / 85 % 85,
   word % 85]

@[simp] theorem length_digits (word : Nat) : (digits word).length = 5 := rfl

/-- The number that bytes denote when the most significant comes first. -/
def wordOfBytes (bytes : Bytes) : Nat := bytes.foldl (fun value b => value * 256 + b.toNat) 0

/-- The four bytes of a word. -/
def bytesOfWord (word : Nat) : Bytes :=
  [UInt8.ofNat (word / 256 / 256 / 256), UInt8.ofNat (word / 256 / 256), UInt8.ofNat (word / 256),
   UInt8.ofNat word]

@[simp] theorem length_bytesOfWord (word : Nat) : (bytesOfWord word).length = 4 := rfl

end TextKit.Ascii85
