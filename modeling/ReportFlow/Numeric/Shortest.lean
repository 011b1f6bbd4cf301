import ReportFlow.Numeric.Double

/-!
The fewest decimal digits that read back as a given number, and their text.
-/

namespace ReportFlow

attribute [local instance] corePower

/-- The positive decimal `digits * 10 ^ exponent`. -/
structure Decimal where
  digits : Nat
  exponent : Int
  deriving DecidableEq, Repr

namespace Decimal

/-- The same number without trailing zeros; each turn drops one of at most `fuel` zeros. -/
def trim (fuel : Nat) (d : Decimal) : Decimal :=
  match fuel with
  | 0 => d
  | fuel + 1 =>
    if d.digits % 10 = 0 then trim fuel ⟨d.digits / 10, d.exponent + 1⟩ else d

end Decimal

namespace Double

/-- The reals that round to a number, in quarters of a unit; the ends belong to it when its
significand is even. -/
structure Interval where
  low : Nat
  mid : Nat
  high : Nat
  closed : Bool

def interval (d : Double) : Interval where
  low := 4 * d.units - (if d.fraction = 0 ∧ 1 < d.exponentField then 1 else 2) * 2 ^ d.step
  mid := 4 * d.units
  high := 4 * d.units + 2 * 2 ^ d.step
  closed := d.significand % 2 = 0

def quartersPerOne : Nat := 4 * unitsPerOne

namespace Interval

/-- Of the two neighbours of the middle on the grid of multiples of `10 ^ exponent`, the one in the
interval, and of two the nearer, of two equally near ones the even. -/
def gridPoint? (i : Interval) (exponent : Int) : Option Nat :=
  let cell := if 0 ≤ exponent then 10 ^ exponent.toNat * quartersPerOne else quartersPerOne
  let scale := if 0 ≤ exponent then 1 else 10 ^ (-exponent).toNat
  let mid := i.mid * scale
  let below := mid / cell
  let above := below + 1
  let belowFits := if i.closed then decide (i.low * scale ≤ below * cell) else decide (i.low * scale < below * cell)
  let aboveFits := if i.closed then decide (above * cell ≤ i.high * scale) else decide (above * cell < i.high * scale)
  match belowFits, aboveFits with
  | true, true =>
    let down := mid - below * cell
    let up := above * cell - mid
    if down < up then some below
    else if up < down then some above
    else if below % 2 = 0 then some below else some above
  | true, false => some below
  | false, true => some above
  | false, false => none

/-- Tries grids of ever more digits, `fuel` of them at most. -/
def search (i : Interval) (exponent : Int) : Nat → Decimal
  | 0 => ⟨i.mid, 0⟩
  | fuel + 1 =>
    match i.gridPoint? exponent with
    | some digits => ⟨digits, exponent⟩
    | none => search i (exponent - 1) fuel

end Interval

/-- `10 ^ exponent` units of one do not exceed the magnitude. -/
def atLeastPower (d : Double) (exponent : Int) : Bool :=
  if 0 ≤ exponent then decide (10 ^ exponent.toNat * unitsPerOne ≤ d.units)
  else decide (unitsPerOne ≤ d.units * 10 ^ (-exponent).toNat)

/-- The exponent of the leading decimal digit of a nonzero number: the binary exponent gives it up
to one, a comparison decides. -/
def leadingExponent (d : Double) : Int :=
  let guess := (((Nat.log2 d.units : Int) - 1074) * 30103) / 100000
  if d.atLeastPower (guess + 1) then guess + 1
  else if d.atLeastPower guess then guess
  else guess - 1

/-- The shortest decimal that reads back as a nonzero number. -/
def shortest (d : Double) : Decimal :=
  (d.interval.search d.leadingExponent 17).trim 17

end Double

namespace Decimal

def zeros (n : Nat) : String := String.ofList (List.replicate n '0')

/-- Positional text, always with a fraction; `digits` holds the significant digits and `lead` the
exponent of the first. -/
def positional (digits : List Char) (lead : Int) : String :=
  if lead < 0 then
    "0." ++ zeros ((-lead).toNat - 1) ++ String.ofList digits
  else
    let whole := lead.toNat + 1
    let after := digits.drop whole
    String.ofList (digits.take whole) ++ zeros (whole - digits.length) ++ "." ++
      (if after.isEmpty then "0" else String.ofList after)

/-- Scientific text with a signed exponent. -/
def scientific (digits : List Char) (lead : Int) : String :=
  String.ofList (digits.take 1) ++
    (if digits.length ≤ 1 then "" else "." ++ String.ofList (digits.drop 1)) ++
    "e" ++ (if lead < 0 then "-" else "+") ++ toString lead.natAbs

/-- Leading digits from 10 ^ -5 to 10 ^ 15 are written positionally. -/
def text (d : Decimal) : String :=
  let digits := Nat.toDigits 10 d.digits
  let lead := d.exponent + (digits.length - 1 : Nat)
  if -5 ≤ lead ∧ lead ≤ 15 then positional digits lead else scientific digits lead

end Decimal

def Double.text (d : Double) : String :=
  let magnitude := if d.isZero then "0.0" else d.shortest.text
  if d.isNegative then "-" ++ magnitude else magnitude

end ReportFlow
