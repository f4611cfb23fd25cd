import EnumForge.Number.Binary64

/-!
The shortest decimal text of a binary64 number that reads back as it: of the decimals with the
fewest digits between the two neighbouring numbers' midpoints, the nearest one.
-/

namespace EnumForge.Number

/-- A decimal `digits * 10 ^ exponent`. -/
structure Decimal where
  digits : Nat
  exponent : Int
  deriving DecidableEq

/-- The fraction that is `num / den / 10 ^ e`. -/
def shiftedByTen (num den : Nat) (e : Int) : Nat × Nat :=
  if 0 ≤ e then (num, den * Nat.pow 10 e.toNat) else (num * Nat.pow 10 (-e).toNat, den)

/-- How many decimal places a positive quotient has before the point; not positive if the first
digit that is not zero comes after it. -/
def decimalPlaces (num den : Nat) : Int :=
  if den ≤ num then (Nat.toDigits 10 (num / den)).length
  else 1 - ((List.range 400).find? fun j => den ≤ num * Nat.pow 10 j).getD 0

namespace Binary64

/-- Four times the distances from the number down and up to where the next numbers begin, in units
of its last binary place. Below a power of two the numbers lie twice as close. -/
def margins (x : Binary64) : Nat × Nat :=
  (if x.significand = 1 <<< 52 && -1074 < x.exponent then 1 else 2, 2)

/-- The decimal with its last digit at place `e` that reads back as the number, if there is one. An
even significand keeps the midpoints too. -/
def onGrid? (x : Binary64) (e : Int) : Option Decimal :=
  let (num, den) := x.ratio
  let (below, above) := x.margins
  let unit := num / x.significand
  let (low, d) := shiftedByTen (4 * num - below * unit) (4 * den) e
  let (high, _) := shiftedByTen (4 * num + above * unit) (4 * den) e
  let (mid, _) := shiftedByTen (4 * num) (4 * den) e
  let within (n : Nat) : Bool :=
    if x.significand % 2 = 0 then low ≤ n * d && n * d ≤ high else low < n * d && n * d < high
  let n := mid / d
  let nearest := roundQuotient mid d
  if within nearest then some ⟨nearest, e⟩
  else if within n then some ⟨n, e⟩
  else if within (n + 1) then some ⟨n + 1, e⟩
  else none

/-- The shortest decimal of a positive number. Seventeen digits are always enough. -/
def shortest (x : Binary64) : Decimal :=
  let places := decimalPlaces x.ratio.1 x.ratio.2
  ((List.range 17).findSome? fun (k : Nat) => x.onGrid? (places - 1 - k)).getD ⟨0, 0⟩

end Binary64

/-! ### The written form -/

/-- The digits without zeros at the end. -/
def significantDigits (n : Nat) : List Char :=
  ((Nat.toDigits 10 n).reverse.dropWhile (· == '0')).reverse

def zeros (n : Nat) : List Char := List.replicate n '0'

/-- A text of digits `0.d₁d₂…` times `10 ^ point`. It is positional from `1e-5` up to `1e16`, with
at least one digit on both sides of the point, and has an exponent with a sign elsewhere. -/
def positional (ds : List Char) (point : Int) : List Char :=
  if 0 < point && point ≤ 16 then
    let n := point.toNat
    if ds.length ≤ n then ds ++ zeros (n - ds.length) ++ ['.', '0']
    else ds.take n ++ '.' :: ds.drop n
  else if -4 ≤ point && point ≤ 0 then '0' :: '.' :: (zeros (-point).toNat ++ ds)
  else
    let fraction := if ds.length ≤ 1 then [] else '.' :: ds.drop 1
    let power := point - 1
    let sign := if power < 0 then '-' else '+'
    ds.take 1 ++ fraction ++ 'e' :: sign :: Nat.toDigits 10 power.natAbs

/-- The shortest text of a number with its sign. -/
def text (negative : Bool) (x : Binary64) : String :=
  let body :=
    if x.significand = 0 then "0.0".toList
    else
      let s := x.shortest
      positional (significantDigits s.digits) ((Nat.toDigits 10 s.digits).length + s.exponent)
  .ofList (if negative then '-' :: body else body)

end EnumForge.Number
