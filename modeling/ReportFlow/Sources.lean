import ReportFlow.Time.Timestamp

/-!
Where the time and new identifiers come from. Both are sequences, so what a run reads is fixed by
how many readings were taken before.
-/

namespace ReportFlow

/-- The instant of each reading. -/
abbrev Clock := Nat → Timestamp

/-- The identifier minted at each turn under a stem. -/
abbrev IdSource := Nat → String → String

namespace Clock

/-- The same instant at every reading. -/
def fixed (t : Timestamp) : Clock := fun _ => t

/-- Each reading lies a fixed number of seconds after the one before. -/
def stepping (start : Timestamp) (seconds : Int) : Clock := fun n => start.addSeconds (n * seconds)

end Clock

/-- `stem-1`, `stem-2` and so on, one count for all stems. -/
def IdSource.sequential : IdSource := fun n stem => stem ++ "-" ++ toString (n + 1)

/-- A clock and an id source, and how often each has been used. -/
structure Sources where
  clock : Clock
  ids : IdSource
  readings : Nat
  minted : Nat

namespace Sources

def start (clock : Clock) (ids : IdSource) : Sources := ⟨clock, ids, 0, 0⟩

def now (s : Sources) : Timestamp := s.clock s.readings

def tick (s : Sources) : Sources := { s with readings := s.readings + 1 }

def nextId (s : Sources) (stem : String) : String := s.ids s.minted stem

def mint (s : Sources) : Sources := { s with minted := s.minted + 1 }

end Sources

end ReportFlow
