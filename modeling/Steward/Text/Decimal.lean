import Steward.Text.Numeral

/-!
# Decimals beyond the doubles

A decimal `d · 10^e` is *too large* when the nearest double to it is infinite, that is from the
midpoint `(2^54 - 1) · 2^970` between the largest double and the next power of two upward.
-/

namespace Steward.Text

/-- The least real that rounds to infinity. -/
def doubleLimit : Nat := (Nat.pow 2 54 - 1) * Nat.pow 2 970

/-- Whether `digits · 10^exponent` rounds to an infinite double. The magnitude settles all but the
values with 309 digits before the point, so that no huge power is ever computed. -/
def exceedsDouble (digits : List Char) (exponent : Int) : Bool :=
  let significant := digits.dropWhile (· == '0')
  let magnitude : Int := significant.length + exponent
  if significant.isEmpty || magnitude < 309 then false
  else if 309 < magnitude then true
  else
    let value := (digitsFrom 10 0 significant).getD 0
    if 0 ≤ exponent then doubleLimit ≤ value * Nat.pow 10 exponent.toNat
    else doubleLimit * Nat.pow 10 (-exponent).toNat ≤ value

end Steward.Text
