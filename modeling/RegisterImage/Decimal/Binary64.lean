/-!
# Binary floating-point numbers with 53 significant bits

Finite numbers of the IEEE format binary64, held exactly as a mantissa and a power of two.
Every operation computes the exact quotient and rounds it once.

## Main definitions

* `Magnitude` — a number without its sign.
* `roundRatio?` — the nearest magnitude to a quotient of naturals, ties to the even mantissa.
* `Magnitude.mul?`, `Magnitude.div?` — product and quotient, rounded; none on overflow.
* `Magnitude.scale?` — a number shifted by a power of ten, one rounded power at a time.
* `Binary64` — a magnitude with a sign.
-/

namespace RegisterImage

/-- The number `mantissa * 2 ^ exponent`. -/
structure Magnitude where
  mantissa : Nat
  exponent : Int
  deriving DecidableEq, Repr

structure Binary64 where
  negative : Bool
  magnitude : Magnitude
  deriving DecidableEq, Repr

/-! ## Rounding -/

/-- The quotient rounded to the nearest natural, a half to the even neighbour. -/
def roundHalfEven (num den : Nat) : Nat :=
  let q := num / den
  let r := num % den
  if 2 * r < den then q
  else if den < 2 * r then q + 1
  else if q % 2 = 0 then q else q + 1

/-- Numerator and denominator of `num / (den * 2 ^ e)`. -/
def scaleRatio (num den : Nat) (e : Int) : Nat × Nat :=
  (num * Nat.pow 2 (-e).toNat, den * Nat.pow 2 e.toNat)

/-- The exponent at which the quotient has 53 bits, but at least the smallest one. -/
def roundingExponent (num den : Nat) : Int :=
  let e : Int := (num.log2 : Int) - den.log2 - 53
  let (n, d) := scaleRatio num den e
  max (if n / d < 0x20000000000000 then e else e + 1) (-1074)

def roundRatio? (num den : Nat) : Option Magnitude :=
  let e := roundingExponent num den
  let (n, d) := scaleRatio num den e
  let m := roundHalfEven n d
  let rounded : Magnitude :=
    if m = 0 then ⟨0, -1074⟩
    else if m = 0x20000000000000 then ⟨0x10000000000000, e + 1⟩
    else ⟨m, e⟩
  if rounded.exponent ≤ 971 then some rounded else none

namespace Magnitude

/-- Numerator and denominator of the number. -/
def ratio (x : Magnitude) : Nat × Nat :=
  scaleRatio x.mantissa 1 (-x.exponent)

def mul? (x y : Magnitude) : Option Magnitude :=
  roundRatio? (x.ratio.1 * y.ratio.1) (x.ratio.2 * y.ratio.2)

def div? (x y : Magnitude) : Option Magnitude :=
  roundRatio? (x.ratio.1 * y.ratio.2) (x.ratio.2 * y.ratio.1)

/-- The nearest magnitude to a power of ten. -/
def powerOfTen? (k : Nat) : Option Magnitude :=
  roundRatio? (Nat.pow 10 k) 1

/-- The largest power of ten with a finite rounded value. -/
def maxPower : Nat := 308

/-- `x` divided by `10 ^ k`, `times` times over. -/
def divRepeatedly? (k : Nat) : Nat → Magnitude → Option Magnitude
  | 0, x => some x
  | times + 1, x =>
    if x.mantissa = 0 then some x
    else (powerOfTen? k >>= x.div?) >>= divRepeatedly? k times

/-- `x * 10 ^ e`: multiplied or divided by one rounded power of ten; a number to be made
smaller than that allows is first divided by the largest power. None on overflow. -/
def scale? (x : Magnitude) (e : Int) : Option Magnitude :=
  if x.mantissa = 0 then some x
  else if 0 ≤ e then
    if e ≤ maxPower then powerOfTen? e.toNat >>= x.mul? else none
  else do
    let times := ((-e).toNat - 1) / maxPower
    let x ← divRepeatedly? maxPower times x
    divRepeatedly? ((-e).toNat - times * maxPower) 1 x

end Magnitude

end RegisterImage
