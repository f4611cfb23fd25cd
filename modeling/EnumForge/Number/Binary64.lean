/-!
The finite numbers of the binary64 format that are not negative, with arithmetic that rounds the
exact result to the nearest of them, a tie to the even one.
-/

namespace EnumForge.Number

/-- The number `significand * 2 ^ exponent`. -/
structure Binary64 where
  significand : Nat
  exponent : Int
  deriving DecidableEq

/-- The quotient rounded to the nearest whole number, a half to the even one. -/
def roundQuotient (num den : Nat) : Nat :=
  let q := num / den
  let r := num % den
  if den < 2 * r || (2 * r = den && q % 2 = 1) then q + 1 else q

/-- The fraction that is `num / den / 2 ^ e`. -/
def shifted (num den : Nat) (e : Int) : Nat × Nat :=
  if 0 ≤ e then (num, den <<< e.toNat) else (num <<< (-e).toNat, den)

namespace Binary64

def zero : Binary64 := ⟨0, -1074⟩

/-- The number as a fraction. -/
def ratio (x : Binary64) : Nat × Nat := shifted x.significand 1 (-x.exponent)

/-- The exponent that leaves the quotient 53 binary digits, or fewer if it is very small. -/
def gridExponent (num den : Nat) : Int :=
  let e := max (-1074) ((num.log2 : Int) - den.log2 - 53)
  let (n, d) := shifted num den e
  if n / d < 1 <<< 53 then e else e + 1

/-- The number nearest to a quotient; `none` if it is too large. -/
def ofRatio (num den : Nat) : Option Binary64 :=
  if num = 0 then some zero
  else
    let e := gridExponent num den
    let (n, d) := shifted num den e
    let q := roundQuotient n d
    let x : Binary64 := if q = 1 <<< 53 then ⟨1 <<< 52, e + 1⟩ else ⟨q, e⟩
    if 971 < x.exponent then none else some x

def mul (x y : Binary64) : Option Binary64 :=
  ofRatio (x.ratio.1 * y.ratio.1) (x.ratio.2 * y.ratio.2)

def div (x y : Binary64) : Option Binary64 :=
  ofRatio (x.ratio.1 * y.ratio.2) (x.ratio.2 * y.ratio.1)

/-- The number nearest to a power of ten up to the 308th. -/
def powerOfTen (k : Nat) : Binary64 := (ofRatio (Nat.pow 10 k) 1).getD zero

/-- The number times a power of ten, in steps of at most 308 places, each of which rounds; `none` if
it becomes too large. -/
def scaleByTen (x : Binary64) (k : Int) : Option Binary64 :=
  if 0 ≤ k then
    if k ≤ 308 then x.mul (powerOfTen k.toNat)
    else if x.significand = 0 then some x
    else none
  else if k < -308 ∧ x.significand = 0 then some x
  else
    match x.div (powerOfTen (min 308 (-k).toNat)) with
    | none => none
    | some y => if k < -308 then y.scaleByTen (k + 308) else some y
termination_by (-k).toNat
decreasing_by omega

end Binary64

end EnumForge.Number
