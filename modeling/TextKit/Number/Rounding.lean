/-!
# Rounding quotients

Quotients of natural numbers are rounded to the nearest whole number. A quotient
half-way between two whole numbers goes to the even one.
-/

namespace TextKit

/-- The whole number nearest to `num / den`, ties to even. -/
def roundHalfEven (num den : Nat) : Nat :=
  let whole := num / den
  let rest := 2 * (num % den)
  if den < rest ∨ (den = rest ∧ whole % 2 = 1) then whole + 1 else whole

/-- The exponent of the greatest power of two that is at most `num / den`, for a
quotient that is not zero. -/
def log2Quotient (num den : Nat) : Int :=
  let estimate : Int := num.log2 - den.log2
  let fits : Bool := match estimate with
    | .ofNat e => den <<< e ≤ num
    | .negSucc e => den ≤ num <<< (e + 1)
  if fits then estimate else estimate - 1

end TextKit
