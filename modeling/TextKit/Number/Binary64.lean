import TextKit.Number.Rounding

/-!
# Binary floating-point numbers of 64 bits

A number is its bit pattern: a sign, eleven exponent bits, and 52 fraction bits.
Without the sign, patterns of finite numbers grow with the number, and the
pattern after the greatest finite one is infinity. Patterns past infinity are
not numbers.

All patterns have a total order. Patterns with the sign come first, in reverse,
so negative zero is before positive zero, and the patterns that are not numbers
stand at the two ends.
-/

namespace TextKit

/-- A bit pattern. -/
structure Binary64 where
  bits : UInt64
  deriving DecidableEq, Repr

namespace Binary64

/-- The least exponent of the last place. -/
def minExponent : Int := -1074

/-- The pattern of infinity. -/
def infinityBits : Nat := 0x7FF0000000000000

/-- The pattern of the number that is not a number. -/
def nanBits : Nat := 0x7FF8000000000000

/-- The pattern of the sign. -/
def signBits : Nat := 0x8000000000000000

/-- The pattern of the number nearest to `num / den`, ties to even. A quotient
too large for every finite number is infinite. -/
def nearestBits (num den : Nat) : Nat :=
  if num = 0 then 0
  else
    let exponent := max (log2Quotient num den - 52) minExponent
    let significand := match exponent with
      | .ofNat e => roundHalfEven num (den <<< e)
      | .negSucc e => roundHalfEven (num <<< (e + 1)) den
    min (((exponent - minExponent).toNat <<< 52) + significand) infinityBits

/-- A pattern with a sign. -/
def signed (negative : Bool) (magnitude : Nat) : Binary64 :=
  ⟨UInt64.ofNat (if negative then signBits + magnitude else magnitude)⟩

/-- Whether a pattern has the sign. -/
def isNegative (x : Binary64) : Bool := signBits ≤ x.bits.toNat

/-- The pattern without the sign. -/
def magnitude (x : Binary64) : Nat := x.bits.toNat % signBits

/-- Position in the total order. -/
def orderKey (x : Binary64) : Int :=
  if x.isNegative then -(x.magnitude : Int) - 1 else x.magnitude

/-- The total order of patterns. -/
def totalOrder (x y : Binary64) : Ordering := compare x.orderKey y.orderKey

/-- The value of a finite pattern without sign, as a quotient. -/
def toQuotient (magnitude : Nat) : Nat × Nat :=
  let fraction := magnitude % (1 <<< 52)
  match magnitude >>> 52 with
  | 0 => (fraction, 1 <<< 1074)
  | e + 1 =>
    let significand := fraction + (1 <<< 52)
    if 1074 ≤ e then (significand <<< (e - 1074), 1) else (significand, 1 <<< (1074 - e))

end Binary64
end TextKit
