import ReportFlow.Time.Calendar

/-!
Instants of universal time, their order and their text.
-/

namespace ReportFlow

/-- A day, a second of that day and a part of that second. A leap second is written as the second
before it with a part of one second or more. -/
structure Timestamp where
  day : Int
  second : Nat
  nano : Nat
  deriving DecidableEq, Repr

namespace Timestamp

def nanosPerSecond : Nat := 1000000000

def secondsPerDay : Nat := 86400

def before (a b : Timestamp) : Bool :=
  decide (a.day < b.day) ||
  (a.day == b.day && (decide (a.second < b.second) ||
    (a.second == b.second && decide (a.nano < b.nano))))

def latest (a b : Timestamp) : Timestamp := if a.before b then b else a

/-- Counts seconds on the clock face. A leap second that is left forwards counts as the second
before it, one that is left backwards as the second after it. -/
def addSeconds (t : Timestamp) (seconds : Int) : Timestamp :=
  if seconds = 0 then t
  else
    let leap := decide (nanosPerSecond ≤ t.nano)
    let total := t.second + seconds + (if leap ∧ seconds < 0 then 1 else 0)
    ⟨t.day + total / secondsPerDay, (total % secondsPerDay).toNat,
      if leap then t.nano - nanosPerSecond else t.nano⟩

def padded (width n : Nat) : String :=
  let digits := Nat.toDigits 10 n
  String.ofList (List.replicate (width - digits.length) '0' ++ digits)

/-- Four digits; a year outside them has a sign. -/
def yearText (year : Int) : String :=
  if 0 ≤ year ∧ year ≤ 9999 then padded 4 year.toNat
  else (if year < 0 then "-" else "+") ++ padded 4 year.natAbs

/-- No, three, six or nine digits, the fewest that lose nothing. -/
def fractionText (nano : Nat) : String :=
  if nano = 0 then ""
  else if nano % 1000000 = 0 then "." ++ padded 3 (nano / 1000000)
  else if nano % 1000 = 0 then "." ++ padded 6 (nano / 1000)
  else "." ++ padded 9 nano

def text (t : Timestamp) : String :=
  let date := Date.ofDayNumber t.day
  let leap := t.nano / nanosPerSecond
  yearText date.year ++ "-" ++ padded 2 date.month ++ "-" ++ padded 2 date.day ++ "T" ++
    padded 2 (t.second / 3600) ++ ":" ++ padded 2 (t.second / 60 % 60) ++ ":" ++
    padded 2 (t.second % 60 + leap) ++ fractionText (t.nano % nanosPerSecond) ++ "Z"

end Timestamp

end ReportFlow
