import MarkerIndex.Toml.Decimal
/-!
Numbers of double precision. A decimal fraction stands for the nearest of them, and for the one with
the even significand where two are equally near. A number is written with the fewest digits that
stand for it, and of these with the nearest.
-/

namespace MarkerIndex.Toml

/-- The number `significand * 2 ^ exponent`. The significand is below `2 ^ 53`, and below `2 ^ 52`
only at the least exponent. -/
structure Double where
  significand : Nat
  exponent : Int
  deriving DecidableEq

/-- A fraction `above / below` of whole numbers. -/
structure Fraction where
  above : Nat
  below : Nat

namespace Fraction

/-- The fraction times a power. -/
def scale (f : Fraction) (base : Nat) (exponent : Int) : Fraction :=
  if 0 ≤ exponent then ⟨f.above * base.pow exponent.toNat, f.below⟩
  else ⟨f.above, f.below * base.pow exponent.natAbs⟩

def floor (f : Fraction) : Nat := f.above / f.below

/-- The nearest whole number, and the even one where two are equally near. -/
def round (f : Fraction) : Nat :=
  let twice := 2 * (f.above % f.below)
  if twice < f.below || (twice = f.below && f.floor % 2 = 0) then f.floor else f.floor + 1

end Fraction

namespace Double

def leastExponent : Int := -1074

def greatestExponent : Int := 971

def zero : Double := ⟨0, leastExponent⟩

/-- The number nearest to a fraction above zero, unless the fraction is too great. -/
def nearest? (f : Fraction) : Option Double :=
  let estimate : Int := (f.above.log2 : Int) - f.below.log2 - 52
  let exact :=
    if (f.scale 2 (-estimate)).floor < Nat.pow 2 52 then estimate - 1 else estimate
  let exponent := max leastExponent exact
  let significand := (f.scale 2 (-exponent)).round
  let found : Double :=
    if significand = Nat.pow 2 53 then ⟨Nat.pow 2 52, exponent + 1⟩ else ⟨significand, exponent⟩
  if greatestExponent < found.exponent then none else some found

/-- The number that a decimal fraction stands for, unless the fraction is too great. No number has
400 digits in front of the point, and none above zero has 400 zeros behind it. -/
def ofDecimal? (d : Decimal) : Option Double :=
  let value := digitsValue 10 d.digits
  if value = 0 || d.magnitude < -400 then some zero
  else if 400 < d.magnitude then none
  else nearest? (Fraction.scale ⟨value, 1⟩ 10 d.exponent)

/-- Whether a number lies between two others, which themselves belong there if it is `closed`. -/
def isWithin (low high : Nat) (closed : Bool) (n : Nat) : Bool :=
  if closed then low ≤ n && n ≤ high else low < n && n < high

/-- The nearest decimal with so many digits from the first one on, if it stands for the number. All
is counted in fourths of the last place, because numbers lie half as far apart below a power of two
as above it. -/
def withDigits? (d : Double) (magnitude : Int) (count : Nat) : Option Decimal :=
  let place := magnitude - count
  let unit := Fraction.scale (Fraction.scale ⟨1, 1⟩ 2 (d.exponent - 2)) 10 (-place)
  let fourths (n : Nat) : Nat := n * unit.above
  let value := 4 * d.significand
  let beneath := if d.significand = Nat.pow 2 52 && leastExponent < d.exponent then 1 else 2
  let stands (digits : Nat) : Bool :=
    isWithin (fourths (value - beneath)) (fourths (value + 2)) (d.significand % 2 = 0)
      (digits * unit.below)
  let lower := fourths value / unit.below
  let remainder := fourths value % unit.below
  let written (digits : Nat) : Decimal := ⟨Nat.toDigits 10 digits, place⟩
  match stands lower, stands (lower + 1) with
  | true, true =>
    some (written (if 2 * remainder < unit.below then lower else lower + 1))
  | true, false => some (written lower)
  | false, true => some (written (lower + 1))
  | false, false => none

/-- The number of digits in front of the point. No number above zero has 400 zeros behind it. -/
def magnitude (d : Double) : Int :=
  let shifted := Fraction.scale (Fraction.scale ⟨d.significand, 1⟩ 2 d.exponent) 10 400
  (Nat.toDigits 10 shifted.floor).length - (400 : Int)

/-- The shortest decimal that stands for the number. Seventeen digits are always enough. -/
def toDecimal (d : Double) : Decimal :=
  if d.significand = 0 then ⟨[], 0⟩
  else
    ((List.range 17).findSome? fun count => d.withDigits? d.magnitude (count + 1)).getD ⟨[], 0⟩

/-- The positional notation of the number. -/
def text (d : Double) : String := d.toDecimal.text

end Double

end MarkerIndex.Toml
