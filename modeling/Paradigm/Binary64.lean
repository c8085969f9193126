/-
Module: Paradigm.Binary64
Layer: Data
Purpose: Binary floating-point numbers of 64 bits as their three fields, with an exact reading in
  whole units of 2^-1074, the distance between the smallest numbers. Every finite value is a whole
  number of units, so comparing, rounding and testing for wholeness are questions about naturals.
Imports: none
Main exports: Binary64, Binary64.units, Binary64.ofUnits, Binary64.ofRatio, Binary64.ofInt,
  Binary64.isWhole, Binary64.gtInt, Binary64.leInt, Binary64.geInt
-/

namespace Paradigm

/-- A 64-bit floating-point number: sign, biased exponent and fraction. -/
structure Binary64 where
  negative : Bool
  exponent : Fin 2048
  fraction : Fin 4503599627370496
deriving DecidableEq, Inhabited

namespace Binary64

/-- How many fractions there are for each exponent: `2^52`. -/
def fractions : Nat := 4503599627370496

/-- The units per one: `1 = 2^1074` units. -/
def unitsPerOne : Nat := Nat.pow 2 1074

/-- Neither infinite nor a NaN. -/
def isFinite (x : Binary64) : Bool := x.exponent.val != 2047

/-- Not a number at all. -/
def isNaN (x : Binary64) : Bool := x.exponent.val == 2047 && x.fraction.val != 0

/-- The magnitude in units, for a finite number. Exponent zero holds the evenly spaced smallest
numbers; above it each exponent doubles the spacing. -/
def units (x : Binary64) : Nat :=
  if x.exponent.val = 0 then x.fraction.val
  else (fractions + x.fraction.val) * Nat.pow 2 (x.exponent.val - 1)

/-- Positive or negative zero. -/
def isZero (x : Binary64) : Bool := x.exponent.val == 0 && x.fraction.val == 0

/-- The value of a finite number in signed units. -/
def signedUnits (x : Binary64) : Int := if x.negative then -(x.units : Int) else x.units

/-- Zero with a sign. -/
def zero (negative : Bool) : Binary64 := ⟨negative, 0, 0⟩

/-- Infinity with a sign. -/
def infinity (negative : Bool) : Binary64 := ⟨negative, 2047, 0⟩

/-- The NaN that reading produces. -/
def nan : Binary64 := ⟨false, 2047, 2251799813685248⟩

/-- The number of a given magnitude, which has to be representable: below `2^53` units anything
is, above it the low bits are dropped. A magnitude past the largest finite one gives infinity. -/
def ofUnits (negative : Bool) (u : Nat) : Binary64 :=
  if u < fractions then ⟨negative, 0, Fin.ofNat _ u⟩
  else
    let shift := u.log2 - 52
    if shift + 1 < 2047 then
      ⟨negative, Fin.ofNat _ (shift + 1), Fin.ofNat _ (u / Nat.pow 2 shift - fractions)⟩
    else infinity negative

/-- A quotient rounded to the nearest whole number, a tie going to the even one. -/
def roundDiv (num den : Nat) : Nat :=
  let q := num / den
  let r := num % den
  if 2 * r < den then q else if den < 2 * r then q + 1 else q + q % 2

/-- The number nearest to `num / den` for a positive `den`; ties go to the even fraction and
what is too large becomes infinite. -/
def ofRatio (negative : Bool) (num den : Nat) : Binary64 :=
  let scaled := num * unitsPerOne
  let shift := (scaled / den).log2 - 52
  ofUnits negative (roundDiv scaled (den * Nat.pow 2 shift) * Nat.pow 2 shift)

/-- The number nearest to an integer. -/
def ofInt (i : Int) : Binary64 := ofRatio (i < 0) i.natAbs 1

/-- The product of finite numbers. -/
def mul (x y : Binary64) : Binary64 :=
  ofRatio (x.negative != y.negative) (x.units * y.units) (unitsPerOne * unitsPerOne)

/-- The quotient of finite numbers, the second one not zero. -/
def div (x y : Binary64) : Binary64 :=
  ofRatio (x.negative != y.negative) x.units y.units

/-- The same magnitude with the other sign. -/
def neg (x : Binary64) : Binary64 := { x with negative := !x.negative }

/-- Strictly above a whole bound. Nothing is above or below by comparison with a NaN. -/
def gtInt (x : Binary64) (bound : Int) : Bool :=
  if x.isNaN then false
  else if x.isFinite then bound * unitsPerOne < x.signedUnits
  else !x.negative

/-- At most a whole bound. -/
def leInt (x : Binary64) (bound : Int) : Bool :=
  if x.isNaN then false
  else if x.isFinite then x.signedUnits ≤ bound * unitsPerOne
  else x.negative

/-- At least a whole bound. -/
def geInt (x : Binary64) (bound : Int) : Bool :=
  if x.isNaN then false
  else if x.isFinite then bound * unitsPerOne ≤ x.signedUnits
  else !x.negative

/-- A finite number without a fractional part. -/
def isWhole (x : Binary64) : Bool := x.isFinite && x.units % unitsPerOne == 0

/-- Equality as numbers: a NaN equals nothing and the two zeros are equal. -/
def sameNumber (x y : Binary64) : Bool :=
  !x.isNaN && !y.isNaN && (x == y || (x.isZero && y.isZero))

/-- One, and the two zeros, in units. -/
example : (ofInt 1).units = unitsPerOne ∧ (zero true).units = 0 := by decide +kernel

end Binary64

end Paradigm
