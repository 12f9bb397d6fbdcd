import TextKit.Text.Basic

/-!
# Unsigned decimal numerals

Numerals stand for numbers that fit a 64-bit word. Reading looks at the digits
from left to right, so of a bad character and an overflow the first in the text
is reported; leading zeros do no harm.
-/

namespace TextKit.Numeral

/-- Why a text is no numeral. -/
inductive Fault where
  | empty
  | invalidDigit
  | tooLarge
  deriving DecidableEq, Repr

/-- The wording of a fault. -/
def Fault.message : Fault → String
  | .empty => "cannot parse integer from empty string"
  | .invalidDigit => "invalid digit found in string"
  | .tooLarge => "number too large to fit in target type"

/-- Read on, after digits that amount to `value`. -/
def readFrom (value : UInt64) : Text → Except Fault UInt64
  | [] => .ok value
  | c :: cs =>
    if c.isDigit then
      let next := value.toNat * 10 + (c.toNat - '0'.toNat)
      if h : next < UInt64.size then readFrom (UInt64.ofNatLT next h) cs else .error .tooLarge
    else .error .invalidDigit

/-- The number of a numeral without a sign. -/
def readDigits (t : Text) : Except Fault UInt64 :=
  if t.isEmpty then .error .empty else readFrom 0 t

/-- The number of a numeral, which may have a plus sign before its digits. -/
def read : Text → Except Fault UInt64
  | ['+'] => .error .invalidDigit
  | '+' :: digits => readDigits digits
  | t => readDigits t

/-- The shortest numeral of a number. -/
def write (n : UInt64) : Text := Nat.toDigits 10 n.toNat

end TextKit.Numeral
