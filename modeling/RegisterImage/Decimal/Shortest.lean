import RegisterImage.Decimal.Binary64
import RegisterImage.Text.Numeral

/-!
# Shortest decimal text of a binary number

A binary number is written with the fewest decimal digits that no other binary number is
nearer to; of the decimals with that many digits the nearest one is taken, and of two
equally near ones the one with an even last digit.

## Main definitions

* `Magnitude.ReadsBack` — the decimals that round to a given number.
* `Magnitude.shortest` — digits and position of the decimal point.
* `Binary64.text` — the written form.
-/

namespace RegisterImage

/-- Whether `a * 10 ^ u ≤ b * 2 ^ q`. -/
def decimalLe (a : Nat) (u : Int) (b : Nat) (q : Int) : Bool :=
  a * Nat.pow 10 u.toNat * Nat.pow 2 (-q).toNat ≤
    b * Nat.pow 2 q.toNat * Nat.pow 10 (-u).toNat

/-- Whether `b * 2 ^ q ≤ a * 10 ^ u`. -/
def binaryLe (b : Nat) (q : Int) (a : Nat) (u : Int) : Bool :=
  b * Nat.pow 2 q.toNat * Nat.pow 10 (-u).toNat ≤
    a * Nat.pow 10 u.toNat * Nat.pow 2 (-q).toNat

namespace Magnitude

/-- Four times the mantissa of the point halfway to the next smaller number. The gap below a
power of two is half as wide as the gap above it. -/
def lowerBound (x : Magnitude) : Nat :=
  if x.mantissa = 0x10000000000000 ∧ -1074 < x.exponent then 4 * x.mantissa - 1
  else 4 * x.mantissa - 2

def upperBound (x : Magnitude) : Nat :=
  4 * x.mantissa + 2

/-- Whether `c * 10 ^ u` rounds to `x`. A point halfway between two numbers rounds to the one
with the even mantissa. -/
def ReadsBack (x : Magnitude) (c : Nat) (u : Int) : Bool :=
  let q := x.exponent - 2
  if x.mantissa % 2 = 0 then
    binaryLe x.lowerBound q c u && decimalLe c u x.upperBound q
  else
    !decimalLe c u x.lowerBound q && !binaryLe x.upperBound q c u

/-- The number of digits in front of the decimal point; zero or less for a fraction. -/
def pointPosition (x : Magnitude) : Int :=
  let (num, den) := x.ratio
  let p : Int := ((digits 10 num).length : Int) - (digits 10 den).length
  if decimalLe 1 p x.mantissa x.exponent then p + 1 else p

/-- The nearest multiple of `10 ^ u` that rounds to `x`, of its two neighbours. -/
def nearestOnGrid? (x : Magnitude) (u : Int) : Option Nat :=
  let (num, den) := x.ratio
  let low := (num * Nat.pow 10 (-u).toNat) / (den * Nat.pow 10 u.toNat)
  match x.ReadsBack low u, x.ReadsBack (low + 1) u with
  | true, true =>
    let above := decimalLe (2 * low + 1) u x.mantissa (x.exponent + 1)
    let below := binaryLe x.mantissa (x.exponent + 1) (2 * low + 1) u
    if above && below then some (if low % 2 = 0 then low else low + 1)
    else some (if below then low else low + 1)
  | true, false => some low
  | false, true => some (low + 1)
  | false, false => none

/-- The first grid with a hit, among the grids of 1 to 17 digits. -/
def firstOnGrid (x : Magnitude) (point : Int) : List Nat → Nat × Int
  | [] => (0, 0)
  | n :: ns =>
    match x.nearestOnGrid? (point - n) with
    | some c => (c, point - n)
    | none => firstOnGrid x point ns

/-- The digits without zeros at the end and the position of the decimal point. -/
def shortest (x : Magnitude) : List Nat × Int :=
  let (c, u) := x.firstOnGrid x.pointPosition (List.range' 1 17)
  let ds := digits 10 c
  ((ds.reverse.dropWhile (· = 0)).reverse, u + ds.length)

/-- Positional from a hundred-thousandth up to below ten quadrillions, with at least one digit
on either side of the point; outside with an exponent. -/
def text (x : Magnitude) : List Char :=
  if x.mantissa = 0 then ['0', '.', '0']
  else
    let (ds, point) := x.shortest
    let ds := ds.map digitChar
    if 0 < point ∧ point ≤ 16 then
      let whole := ds.take point.toNat
      let fraction := ds.drop point.toNat
      whole ++ List.replicate (point.toNat - whole.length) '0' ++ '.' ::
        (if fraction.isEmpty then ['0'] else fraction)
    else if -5 < point ∧ point ≤ 0 then
      '0' :: '.' :: List.replicate (-point).toNat '0' ++ ds
    else
      let fraction := ds.drop 1
      let e := point - 1
      ds.take 1 ++ (if fraction.isEmpty then [] else '.' :: fraction) ++
        ['e', if e < 0 then '-' else '+'] ++ numeral 10 e.natAbs

end Magnitude

def Binary64.text (x : Binary64) : List Char :=
  if x.negative then '-' :: x.magnitude.text else x.magnitude.text

end RegisterImage
