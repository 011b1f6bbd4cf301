import ReportFlow.Json.Basic
import ReportFlow.Json.Fault
import ReportFlow.Numeric.Shortest

/-!
Numbers as JSON writes them. A numeral without fraction and exponent is an integer while it fits 64
bits. Every other one is a double: its leading digits, as many as fit 64 bits, are rounded once and
then multiplied or divided by rounded powers of ten.
-/

namespace ReportFlow

attribute [local instance] corePower

structure Numeral where
  negative : Bool
  whole : List Char
  point : Option (List Char)
  exponent : Option (Bool × List Char)
  deriving DecidableEq, Repr

namespace Numeral

def takeDigits (cs : List Char) : List Char × List Char :=
  (cs.takeWhile Char.isDigit, cs.dropWhile Char.isDigit)

/-- A numeral broken off; at the end of the text a reader asks for more. -/
def broken (rest : List Char) : Fault where
  read := if rest.isEmpty then .eofValue else .invalidNumber
  skip := some .invalidNumber
  tag := .expectedValue

def splitExponent (n : Numeral) : List Char → Except Fault (Numeral × List Char)
  | c :: rest =>
    if c = 'e' ∨ c = 'E' then
      let (negative, rest) := match rest with
        | '+' :: r => (false, r)
        | '-' :: r => (true, r)
        | r => (false, r)
      let (digits, rest) := takeDigits rest
      if digits.isEmpty then .error (broken rest)
      else .ok ({ n with exponent := some (negative, digits) }, rest)
    else .ok (n, c :: rest)
  | [] => .ok (n, [])

def splitPoint (n : Numeral) : List Char → Except Fault (Numeral × List Char)
  | '.' :: rest =>
    let (digits, rest) := takeDigits rest
    if digits.isEmpty then .error (broken rest)
    else splitExponent { n with point := some digits } rest
  | rest => splitExponent n rest

/-- The numeral at the head of a text, and the text after it. No digit follows a leading zero. -/
def split (cs : List Char) : Except Fault (Numeral × List Char) :=
  let (negative, cs) := match cs with
    | '-' :: r => (true, r)
    | r => (false, r)
  match cs with
  | '0' :: rest =>
    if (rest.head?.map Char.isDigit).getD false then .error (broken rest)
    else splitPoint ⟨negative, ['0'], none, none⟩ rest
  | rest =>
    let (digits, rest) := takeDigits rest
    if digits.isEmpty then .error (broken rest)
    else splitPoint ⟨negative, digits, none, none⟩ rest

def digit (c : Char) : Nat := c.toNat - '0'.toNat

def wordLimit : Nat := 2 ^ (64 : Nat)

/-- Whole digits as long as they fit; every further one raises the power of ten. -/
def wholePart (significand : Nat) : List Char → Nat × Nat
  | [] => (significand, 0)
  | c :: rest =>
    if significand * 10 + digit c < wordLimit then wholePart (significand * 10 + digit c) rest
    else (significand, rest.length + 1)

/-- Fraction digits as long as they fit, with their number; the others are dropped. -/
def pointPart (significand : Nat) : List Char → Nat × Nat
  | [] => (significand, 0)
  | c :: rest =>
    if significand * 10 + digit c < wordLimit then
      let (s, count) := pointPart (significand * 10 + digit c) rest
      (s, count + 1)
    else (significand, 0)

def powerOfTen (n : Nat) : Double := Double.ofNat (10 ^ n)

/-- Multiplies by `10 ^ exponent` in steps of at most 308; `none` above every finite number. -/
def scale (d : Double) (exponent : Int) : Option Double :=
  if exponent.natAbs ≤ 308 then
    if 0 ≤ exponent then d.mul? (powerOfTen exponent.natAbs)
    else d.div? (powerOfTen exponent.natAbs)
  else if d.isZero then some d
  else if 0 ≤ exponent then none
  else (d.div? (powerOfTen 308)).bind fun q => scale q (exponent + 308)
termination_by exponent.natAbs
decreasing_by omega

def decimal (digits : List Char) : Nat := digits.foldl (fun n c => n * 10 + digit c) 0

def maxExponent : Nat := 2 ^ (31 : Nat) - 1

def double? (n : Numeral) : Option Double :=
  let (whole, raised) := wholePart 0 n.whole
  let (significand, lowered) := pointPart whole (n.point.getD [])
  let exponent : Int := raised - lowered
  let magnitude? : Option Double :=
    match n.exponent with
    | none => scale (Double.ofNat significand) exponent
    | some (negative, digits) =>
      let size := decimal digits
      if maxExponent < size then
        if significand ≠ 0 ∧ !negative then none else some .zero
      else scale (Double.ofNat significand) (if negative then exponent - size else exponent + size)
  magnitude?.bind fun d => Double.ofPattern? n.negative (d.bits.toNat % 2 ^ (63 : Nat))

/-- The number a numeral stands for; `none` when it is too large for a double. -/
def value? (n : Numeral) : Option Number :=
  match n.point, n.exponent with
  | none, none =>
    let size := decimal n.whole
    if n.negative then
      if size ≠ 0 ∧ size ≤ 2 ^ (63 : Nat) then some (.integer (-size)) else n.double?.map .double
    else if size < wordLimit then some (.integer size)
    else n.double?.map .double
  | _, _ => n.double?.map .double

end Numeral

/-- Integers in decimal, doubles as `Double.text`. -/
def Number.text : Number → String
  | integer i => toString i
  | double d => d.text

end ReportFlow
