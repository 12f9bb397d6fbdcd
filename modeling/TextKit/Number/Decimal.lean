import TextKit.Number.Binary64
import TextKit.Text.Basic

/-!
# Decimal numbers as text

A decimal number is an optional sign and then either a word for infinity or for
no number, in any case, or digits with at most one point, at least one digit,
and an optional exponent. The point may come first or last. An exponent is `e`
or `E`, an optional sign, and digits.

It is read as the nearest binary number. The value of the digits and the power
of ten is exact; powers so large or so small that no digits matter are cut short.
-/

namespace TextKit.Decimal

/-- What stands after the sign. -/
inductive Magnitude where
  | infinity
  | nan
  /-- The number `digits * 10 ^ exponent`. -/
  | finite (digits : Nat) (exponent : Int)
  deriving DecidableEq, Repr

/-- The value of a run of digits. -/
def digitsValue (ds : Text) : Nat := Nat.ofDigitChars 10 ds 0

/-- The exponent in a text that holds nothing else. -/
def exponent? (t : Text) : Option Int :=
  let (negative, ds) : Bool × Text := match t with
    | '-' :: rest => (true, rest)
    | '+' :: rest => (false, rest)
    | rest => (false, rest)
  if ds.isEmpty || ! ds.all Char.isDigit then none
  else some (if negative then -(digitsValue ds : Int) else digitsValue ds)

/-- Digits with an optional point and exponent. -/
def finite? (t : Text) : Option Magnitude :=
  let whole := t.takeWhile Char.isDigit
  let afterWhole := t.dropWhile Char.isDigit
  let (places, rest) : Text × Text := match afterWhole with
    | '.' :: more => (more.takeWhile Char.isDigit, more.dropWhile Char.isDigit)
    | more => ([], more)
  if whole.isEmpty && places.isEmpty then none
  else
    let exponent : Option Int := match rest with
      | [] => some 0
      | c :: more => if c = 'e' ∨ c = 'E' then exponent? more else none
    exponent.map fun e => .finite (digitsValue (whole ++ places)) (e - places.length)

/-- What stands after the sign. -/
def magnitude? (t : Text) : Option Magnitude :=
  let lower := t.map Char.toLower
  if lower = "inf".toList ∨ lower = "infinity".toList then some .infinity
  else if lower = "nan".toList then some .nan
  else finite? t

/-- Beyond this power of ten in either direction only zero and infinity are left. -/
def exponentReach : Nat := 400

/-- The pattern of the nearest binary number, without a sign. -/
def Magnitude.nearestBits : Magnitude → Nat
  | infinity => Binary64.infinityBits
  | nan => Binary64.nanBits
  | finite digits exponent =>
    if digits = 0 then 0
    else if (exponentReach : Int) < exponent then Binary64.infinityBits
    else if exponent + digits.log2 < -(exponentReach : Int) then 0
    else match exponent with
      | .ofNat e => Binary64.nearestBits (digits * Nat.pow 10 e) 1
      | .negSucc e => Binary64.nearestBits digits (Nat.pow 10 (e + 1))

/-- The binary number nearest to a decimal number, if the text is one. -/
def read? (t : Text) : Option Binary64 :=
  let (negative, rest) : Bool × Text := match t with
    | '-' :: rest => (true, rest)
    | '+' :: rest => (false, rest)
    | rest => (false, rest)
  (magnitude? rest).map fun m => .signed negative m.nearestBits

end TextKit.Decimal
