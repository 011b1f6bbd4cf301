import ReportFlow.Numeric.Power

/-!
Finite binary64 numbers. A magnitude is a whole number of units of 2 ^ -1074, so every operation
rounds one exact quotient of natural numbers to the nearest magnitude, halves going to the even one.
-/

namespace ReportFlow

attribute [local instance] corePower

/-- The sign is the top bit; below it stand 11 exponent bits and 52 fraction bits. -/
structure Double where
  bits : UInt64
  finite : bits.toNat / 2 ^ (52 : Nat) % 2 ^ (11 : Nat) ≠ 2047
  deriving DecidableEq

namespace Double

def zero : Double := ⟨0, by decide⟩

instance : Inhabited Double := ⟨zero⟩

def isNegative (d : Double) : Bool := decide (2 ^ (63 : Nat) ≤ d.bits.toNat)

def exponentField (d : Double) : Nat := d.bits.toNat / 2 ^ (52 : Nat) % 2 ^ (11 : Nat)

def fraction (d : Double) : Nat := d.bits.toNat % 2 ^ (52 : Nat)

def significand (d : Double) : Nat :=
  if d.exponentField = 0 then d.fraction else 2 ^ (52 : Nat) + d.fraction

/-- Neighbouring magnitudes lie 2 ^ `step` units apart. -/
def step (d : Double) : Nat := d.exponentField - 1

def units (d : Double) : Nat := d.significand * 2 ^ d.step

def isZero (d : Double) : Bool := d.units == 0

/-- The quotient rounded to a whole number, a half going to the even neighbour. -/
def roundHalfEven (num den : Nat) : Nat :=
  let floor := num / den
  let twice := 2 * (num % den)
  if twice < den then floor
  else if den < twice then floor + 1
  else floor + floor % 2

/-- The bit pattern of the magnitude nearest to `num / den` units, infinity included. -/
def nearestPattern (num den : Nat) : Nat :=
  let drop := Nat.log2 (num / den) - 52
  drop * 2 ^ (52 : Nat) + roundHalfEven num (den * 2 ^ drop)

def ofPattern? (negative : Bool) (pattern : Nat) : Option Double :=
  let bits := UInt64.ofNat (if negative then 2 ^ (63 : Nat) + pattern else pattern)
  if h : pattern < 2047 * 2 ^ (52 : Nat) ∧ bits.toNat / 2 ^ (52 : Nat) % 2 ^ (11 : Nat) ≠ 2047 then
    some ⟨bits, h.2⟩
  else none

/-- The number nearest to `num / den` units; `none` when it exceeds every finite number. -/
def ofUnits? (negative : Bool) (num den : Nat) : Option Double :=
  ofPattern? negative (nearestPattern num den)

def unitsPerOne : Nat := 2 ^ (1074 : Nat)

def ofNat? (negative : Bool) (n : Nat) : Option Double :=
  ofUnits? negative (n * unitsPerOne) 1

def greatest : Double := ⟨0x7fefffffffffffff, by decide⟩

/-- The number nearest to a natural number. -/
def ofNat (n : Nat) : Double := (ofNat? false n).getD greatest

def ofInt (i : Int) : Double := (ofNat? (decide (i < 0)) i.natAbs).getD zero

def mul? (a b : Double) : Option Double :=
  ofUnits? (a.isNegative != b.isNegative) (a.units * b.units) unitsPerOne

def div? (a b : Double) : Option Double :=
  ofUnits? (a.isNegative != b.isNegative) (a.units * unitsPerOne) b.units

/-- The whole part as a word. A number that no word holds becomes the nearest one that does. -/
def toUInt64 (d : Double) : UInt64 :=
  if d.isNegative then 0 else .ofNatClamp (d.units / unitsPerOne)

end Double

end ReportFlow
