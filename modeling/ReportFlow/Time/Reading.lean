import ReportFlow.Time.Timestamp
import ReportFlow.Text.Blank
import ReportFlow.Json.Codec

/-!
Reads instants. Space may stand before every number, before each separator and before the offset;
fields need no padding; ranges are checked as the fields are read.
-/

namespace ReportFlow

attribute [local instance] corePower

inductive TimestampFault where
  | tooShort
  | invalid
  | outOfRange
  | tooLong
  | impossible
  deriving DecidableEq, Repr

def TimestampFault.message : TimestampFault → String
  | tooShort => "premature end of input"
  | invalid => "input contains invalid characters"
  | outOfRange => "input is out of range"
  | tooLong => "trailing input"
  | impossible => "no possible date and time matching input"

namespace Timestamp

abbrev Reading (α : Type) := Except TimestampFault α

def dropSpace (cs : List Char) : List Char := cs.dropWhile Text.isSpace

def digitValue (c : Char) : Nat := c.toNat - '0'.toNat

def decimal (digits : List Char) : Nat := digits.foldl (fun n c => n * 10 + digitValue c) 0

/-- One digit at least, and of more at most `width`; the value fits a signed word. -/
def number (width : Option Nat) (cs : List Char) : Reading (Nat × List Char) :=
  let run := cs.takeWhile Char.isDigit
  let digits := match width with
    | some w => run.take w
    | none => run
  if cs.isEmpty then .error .tooShort
  else if digits.isEmpty then .error .invalid
  else if 2 ^ (63 : Nat) ≤ decimal digits then .error .outOfRange
  else .ok (decimal digits, cs.drop digits.length)

/-- A field of one or two digits within its range. -/
def field (low high : Nat) (cs : List Char) : Reading (Nat × List Char) := do
  let (n, rest) ← number (some 2) (dropSpace cs)
  if low ≤ n ∧ n ≤ high then return (n, rest) else throw .outOfRange

/-- A year may have a sign, and then any number of digits. -/
def year (cs : List Char) : Reading (Int × List Char) := do
  let (n, rest) ← match dropSpace cs with
    | '-' :: r => (number none r).map fun (n, rest) => (-(n : Int), rest)
    | '+' :: r => (number none r).map fun (n, rest) => ((n : Int), rest)
    | r => (number (some 4) r).map fun (n, rest) => ((n : Int), rest)
  if -(2 ^ (31 : Nat)) ≤ n ∧ n < 2 ^ (31 : Nat) then return (n, rest) else throw .outOfRange

def separator (c : Char) (cs : List Char) : Reading (List Char) :=
  match dropSpace cs with
  | [] => .error .tooShort
  | d :: rest => if d = c then .ok rest else .error .invalid

/-- Digits beyond the ninth are dropped. -/
def fractionPart : List Char → Reading (Nat × List Char)
  | '.' :: rest => do
    let (n, _) ← number (some 9) rest
    let digits := rest.takeWhile Char.isDigit
    return (n * 10 ^ (9 - digits.length), rest.dropWhile Char.isDigit)
  | rest => .ok (0, rest)

/-- Two digits, where a text of one byte has ended too early. -/
def twoDigits (cs : List Char) : Reading (Nat × Nat × List Char) :=
  match cs with
  | a :: b :: rest =>
    if a.isDigit ∧ b.isDigit then .ok (digitValue a, digitValue b, rest) else .error .invalid
  | [a] => if a.utf8Size < 2 then .error .tooShort else .error .invalid
  | [] => .error .tooShort

/-- Hours and minutes east of universal time, in seconds. -/
def signedOffset (cs : List Char) : Reading (Int × List Char) := do
  let (negative, rest) ← match cs with
    | [] => throw .tooShort
    | c :: rest =>
      if c = '+' then pure (false, rest)
      else if c = '-' ∨ c = '\u2212' then pure (true, rest)
      else throw .invalid
  let (a, b, rest) ← twoDigits rest
  let (m, n, rest) ← twoDigits (rest.dropWhile fun c => c = ':' || Text.isSpace c)
  if 6 ≤ m then throw .outOfRange
  let seconds : Int := (a * 10 + b) * 3600 + (m * 10 + n) * 60
  return (if negative then -seconds else seconds, rest)

def offset (cs : List Char) : Reading (Int × List Char) :=
  match cs with
  | a :: b :: c :: rest =>
    if [a, b, c].map Char.toLower = ['u', 't', 'c'] then .ok (0, rest)
    else if a = 'Z' ∨ a = 'z' then .ok (0, b :: c :: rest)
    else signedOffset cs
  | a :: rest => if a = 'Z' ∨ a = 'z' then .ok (0, rest) else signedOffset cs
  | [] => .error .tooShort

/-- A local time at an offset, as an instant. -/
def ofLocal (date : Date) (hour minute second nano : Nat) (offset : Int) : Reading Timestamp :=
  if !date.isValid then .error .outOfRange
  else if secondsPerDay ≤ offset.natAbs then .error .outOfRange
  else
    let leap := second = 60
    let clock : Int := hour * 3600 + minute * 60 + (if leap then 59 else second) - offset
    let day := date.dayNumber + clock / secondsPerDay
    let nano := if leap then nano + nanosPerSecond else nano
    if (Date.mk Date.minYear 1 1).dayNumber ≤ day ∧ day ≤ (Date.mk Date.maxYear 12 31).dayNumber then
      .ok ⟨day, (clock % secondsPerDay).toNat, nano⟩
    else .error .impossible

def read (s : String) : Reading Timestamp := do
  let (y, rest) ← year s.toList
  let rest ← separator '-' rest
  let (month, rest) ← field 1 12 rest
  let rest ← separator '-' rest
  let (day, rest) ← field 1 31 rest
  let rest ← match rest with
    | [] => throw .tooShort
    | c :: rest => if c = 'T' ∨ c = 't' ∨ c = ' ' then pure rest else throw .invalid
  let (hour, rest) ← field 0 23 rest
  let rest ← separator ':' rest
  let (minute, rest) ← field 0 59 rest
  let rest ← separator ':' rest
  let (second, rest) ← field 0 60 rest
  let (nano, rest) ← fractionPart rest
  let (shift, rest) ← offset (dropSpace rest)
  if !(dropSpace rest).isEmpty then throw .tooLong
  ofLocal ⟨y, month, day⟩ hour minute second nano shift

def codec : Codec Timestamp where
  encode t := .string t.text
  decode
    | _, .string s => (read s).mapError fun f => .badInstant f.message
    | _, s => Codec.wrong "an RFC 3339 formatted date and time string" s

end Timestamp

end ReportFlow
