import TextKit.Number.Binary64

/-!
# Percentages

A percentage is computed in binary floating point, first the quotient and then
its hundredfold, each rounded to the nearest number. It is shown with one decimal,
rounded from the exact value of the result.
-/

namespace TextKit

/-- `part` of `whole` in percent, as a pattern without sign. Of nothing, it is zero. -/
def percentage (part whole : Nat) : Nat :=
  if whole = 0 then 0
  else
    let ratio := Binary64.toQuotient (Binary64.nearestBits part whole)
    Binary64.nearestBits (100 * ratio.1) ratio.2

/-- A finite pattern without sign in decimal notation with one place. A tie goes
to the even digit. -/
def showTenths (magnitude : Nat) : String :=
  let value := Binary64.toQuotient magnitude
  let tenths := roundHalfEven (10 * value.1) value.2
  toString (tenths / 10) ++ "." ++ toString (tenths % 10)

end TextKit
