import TagOutline.Number.Binary64

/-!
# Shortest decimals

The decimal text of a floating-point number: the fewest digits that read back as the number, and of
several such texts the one nearest to it. Numbers from `10 ^ (-4)` up to `10 ^ 16` are written
positionally, others with a power of ten.
-/

namespace TagOutline.Binary64

/-- The reals between which every number reads back as `m * 2 ^ e`, and that number itself, all
three in units of `2 ^ (e - 2)`. The gap below a power of two is half as wide. -/
def neighbourhood (m : Nat) (e : Int) : Nat × Nat × Nat :=
  let below := if m = Nat.pow 2 52 ∧ -1074 < e then 1 else 2
  (4 * m - below, 4 * m, 4 * m + 2)

/-- Compares `c * 10 ^ p` with `x * 2 ^ q`. -/
def compareScaled (c : Nat) (p : Int) (x : Nat) (q : Int) : Ordering :=
  let left := c * Nat.pow 10 p.toNat * Nat.pow 2 (-q).toNat
  let right := x * Nat.pow 2 q.toNat * Nat.pow 10 (-p).toNat
  compare left right

/-- Whether `c * 10 ^ p` reads back as `m * 2 ^ e`. The ends of the interval do so when the
mantissa is even. -/
def readsBack (m : Nat) (e : Int) (c : Nat) (p : Int) : Bool :=
  let (low, _, high) := neighbourhood m e
  match compareScaled c p low (e - 2), compareScaled c p high (e - 2) with
  | .gt, .lt => true
  | .eq, _ => m % 2 == 0
  | _, .eq => m % 2 == 0
  | _, _ => false

/-- The largest `c` with `c * 10 ^ p ≤ m * 2 ^ e`. -/
def floorAt (m : Nat) (e p : Int) : Nat :=
  m * Nat.pow 2 e.toNat * Nat.pow 10 (-p).toNat / (Nat.pow 10 p.toNat * Nat.pow 2 (-e).toNat)

/-- The least `j` from `start` on, within `fuel` steps, for which `m * 2 ^ e * 10 ^ j` is at least
one. -/
def leadingZeros (m : Nat) (e : Int) (start : Nat) : Nat → Nat
  | 0 => start
  | fuel + 1 => if floorAt m e (-start) = 0 then leadingZeros m e (start + 1) fuel else start

/-- The exponent `k` with `10 ^ k ≤ m * 2 ^ e < 10 ^ (k + 1)`, for a positive `m`. -/
def floorLog10 (m : Nat) (e : Int) : Int :=
  let whole := floorAt m e 0
  if whole = 0 then -(leadingZeros m e 1 330 : Int)
  else ((Nat.toDigits 10 whole).length : Int) - 1

/-- Of the two neighbours of `m * 2 ^ e` among the multiples of `10 ^ p`, the one that reads back
as it; of two the nearer, and the even one at a tie. -/
def neighbour? (m : Nat) (e p : Int) : Option Nat :=
  let c := floorAt m e p
  match readsBack m e c p, readsBack m e (c + 1) p with
  | true, true =>
    match compareScaled (2 * c + 1) p (2 * m) e with
    | .gt => some c
    | .lt => some (c + 1)
    | .eq => if c % 2 = 0 then some c else some (c + 1)
  | true, false => some c
  | false, true => some (c + 1)
  | false, false => none

/-- Searches the grids of `17 - fuel + 1` and more significant digits. -/
def shortestFrom (m : Nat) (e : Int) (top : Int) : Nat → Nat × Int
  | 0 => (floorAt m e (top - 16), top - 16)
  | fuel + 1 =>
    let p := top - (16 - (fuel : Int))
    match neighbour? m e p with
    | some c => (c, p)
    | none => shortestFrom m e top fuel

/-- The digits and the power of ten of the shortest decimal, for a positive `m`. -/
def shortest (m : Nat) (e : Int) : Nat × Int :=
  shortestFrom m e (floorLog10 m e) 17

/-- Without the zeros at the end, and how many they were. -/
def stripZeros (digits : List Char) : List Char × Nat :=
  let kept := (digits.reverse.dropWhile (· == '0')).reverse
  (kept, digits.length - kept.length)

/-- The power of ten, with a sign and at least two digits. -/
def exponentText (e : Int) : List Char :=
  let digits := Nat.toDigits 10 e.natAbs
  (if e < 0 then '-' else '+') :: (if digits.length < 2 then '0' :: digits else digits)

/-- The digits `ds`, of which the first `point` stand before the point. -/
def layout (ds : List Char) (point : Int) : List Char :=
  let size : Int := ds.length
  if -4 < point ∧ point ≤ 16 then
    if point ≤ 0 then '0' :: '.' :: List.replicate (-point).toNat '0' ++ ds
    else if size ≤ point then ds ++ List.replicate (point - size).toNat '0' ++ ['.', '0']
    else ds.take point.toNat ++ '.' :: ds.drop point.toNat
  else
    match ds with
    | [] => []
    | [d] => d :: 'e' :: exponentText (point - 1)
    | d :: more => d :: '.' :: more ++ 'e' :: exponentText (point - 1)

/-- The text of a finite number without its sign. -/
def magnitudeText (m : Nat) (e : Int) : List Char :=
  if m = 0 then ['0', '.', '0']
  else
    let (c, p) := shortest m e
    let (ds, zeros) := stripZeros (Nat.toDigits 10 c)
    layout ds (p + zeros + ds.length)

/-- The text of a number, given the words for the three that are not finite. -/
def text (nanWord infinityWord : String) : Binary64 → String
  | .nan => nanWord
  | .infinite negative => if negative then "-" ++ infinityWord else infinityWord
  | .finite negative m e =>
    String.ofList (if negative then '-' :: magnitudeText m e else magnitudeText m e)

end TagOutline.Binary64
