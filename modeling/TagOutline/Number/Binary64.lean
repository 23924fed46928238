/-!
# Binary floating-point numbers

The numbers of a double-precision format, held by their exact value. `ofDecimal` rounds a decimal
number to the nearest of them, a tie to the even mantissa, as the format's standard asks; all of it
is exact arithmetic on natural numbers.
-/

namespace TagOutline

/-- A binary64 number. A finite one is `± mantissa * 2 ^ exponent`, with the least exponent that
keeps the mantissa below `2 ^ 53`, but none below `-1074`. -/
inductive Binary64 where
  | finite (negative : Bool) (mantissa : Nat) (exponent : Int)
  | infinite (negative : Bool)
  | nan
  deriving DecidableEq, Inhabited

namespace Binary64

/-- The integer nearest to `num / den`, the even one of two. -/
def nearestEven (num den : Nat) : Nat :=
  let q := num / den
  let r := num % den
  if 2 * r < den then q
  else if den < 2 * r then q + 1
  else if q % 2 = 0 then q else q + 1

/-- `a * 2 ^ e ≤ b`, for any integer `e`. -/
def scaledLe (a : Nat) (e : Int) (b : Nat) : Bool :=
  if 0 ≤ e then a * Nat.pow 2 e.toNat ≤ b else a ≤ b * Nat.pow 2 (-e).toNat

/-- The exponent `k` with `2 ^ k ≤ num / den < 2 ^ (k + 1)`, for positive `num` and `den`. -/
def floorLog2 (num den : Nat) : Int :=
  let k : Int := (num.log2 : Int) - (den.log2 : Int)
  if scaledLe den k num then k else k - 1

/-- The number nearest to `± num / den`. -/
def ofRatio (negative : Bool) (num den : Nat) : Binary64 :=
  if num = 0 then .finite negative 0 (-1074)
  else
    let e : Int := max (floorLog2 num den - 52) (-1074)
    let m :=
      if 0 ≤ e then nearestEven num (den * Nat.pow 2 e.toNat)
      else nearestEven (num * Nat.pow 2 (-e).toNat) den
    let (m, e) := if m = Nat.pow 2 53 then (Nat.pow 2 52, e + 1) else (m, e)
    if 971 < e then .infinite negative else .finite negative m e

/-- The number nearest to `± digits * 10 ^ exponent`. Exponents far outside the format's range are
settled without computing the power. -/
def ofDecimal (negative : Bool) (digits : Nat) (exponent : Int) : Binary64 :=
  let magnitude := ((Nat.toDigits 10 digits).length : Int) + exponent
  if digits = 0 then .finite negative 0 (-1074)
  else if 310 < magnitude then .infinite negative
  else if magnitude < -330 then .finite negative 0 (-1074)
  else if 0 ≤ exponent then ofRatio negative (digits * Nat.pow 10 exponent.toNat) 1
  else ofRatio negative digits (Nat.pow 10 (-exponent).toNat)

/-- The integer that a number is equal to, if there is one. -/
def toInt? : Binary64 → Option Int
  | .finite negative m e =>
    let sign : Int := if negative then -1 else 1
    if 0 ≤ e then some (sign * (m * Nat.pow 2 e.toNat : Nat))
    else if m % Nat.pow 2 (-e).toNat = 0 then some (sign * (m / Nat.pow 2 (-e).toNat : Nat))
    else none
  | _ => none

/-- Whether the number is zero, of either sign. -/
def isZero : Binary64 → Bool
  | .finite _ m _ => m == 0
  | _ => false

end Binary64

end TagOutline
