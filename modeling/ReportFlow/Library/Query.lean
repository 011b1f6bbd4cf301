import ReportFlow.Library.Basic
import ReportFlow.Text.Lowercase
import ReportFlow.Text.Occurrence

/-!
What can be asked of a library: summaries, searches and counts.
-/

namespace ReportFlow

structure Summary where
  id : String
  name : String
  description : String
  primaryEntity : String
  tags : List String
  updatedAt : Timestamp
  reportVersion : UInt32
  deriving DecidableEq

namespace Summary

def ofDefinition (d : Definition) : Summary :=
  ⟨d.id, d.name, d.description, d.primaryEntity, d.tags, d.updatedAt, d.reportVersion⟩

def encode (s : Summary) : Json :=
  .object [("id", .string s.id), ("name", .string s.name), ("description", .string s.description),
    ("primaryEntity", .string s.primaryEntity), ("tags", .array (s.tags.map .string)),
    ("updatedAt", Timestamp.codec.encode s.updatedAt),
    ("reportVersion", Codec.uint32.encode s.reportVersion)]

end Summary

structure EntityCount where
  entity : String
  count : Nat
  deriving DecidableEq, Repr

namespace EntityCount

/-- Larger counts first; entities of equal count ascend. -/
def precedes (a b : EntityCount) : Bool :=
  decide (b.count < a.count) || (a.count == b.count && decide (a.entity ≤ b.entity))

/-- Counted entities in the order they are shown, whatever order they come in. -/
def ranked (counts : List (String × Nat)) : List EntityCount :=
  (counts.map fun (entity, count) => ⟨entity, count⟩).mergeSort precedes

end EntityCount

structure Statistics where
  totalReports : Nat
  totalEntities : Nat
  totalTags : Nat
  lastUpdated : Option Timestamp
  entityBreakdown : List EntityCount
  deriving DecidableEq, Repr

namespace Statistics

def count (n : Nat) : Json := .number (.integer n)

def encode (s : Statistics) : Json :=
  .object [("totalReports", count s.totalReports), ("totalEntities", count s.totalEntities),
    ("totalTags", count s.totalTags), ("lastUpdated", Timestamp.codec.option.encode s.lastUpdated),
    ("entityBreakdown", .array (s.entityBreakdown.map fun e =>
      .object [("entity", .string e.entity), ("count", count e.count)]))]

end Statistics

/-- Of equal texts that follow one another, only the first. -/
def dropRepeats : List String → List String
  | a :: b :: rest => if a = b then dropRepeats (b :: rest) else a :: dropRepeats (b :: rest)
  | texts => texts

/-- The different texts of a list, ascending. -/
def distinct (texts : List String) : List String :=
  dropRepeats (texts.mergeSort fun a b => a ≤ b)

/-- The counts after one more occurrence of a text. -/
def counted (counts : List (String × Nat)) (text : String) : List (String × Nat) :=
  Keyed.put text ((Keyed.get? text counts).getD 0 + 1) counts

/-- How often each text occurs, counted in one pass. -/
def tally (texts : List String) : List (String × Nat) := texts.foldl counted []

namespace Library

variable {σ : Type} [ReportStore σ]

def summaries (l : Library σ) : List Summary := l.list.map .ofDefinition

def matching (l : Library σ) (p : Definition → Bool) : List Summary :=
  (l.list.filter p).map .ofDefinition

/-- A lower-cased query stands in one of the lower-cased texts of a report. -/
def matchesQuery (query : String) (d : Definition) : Bool :=
  let needle := Text.lower query
  (d.name :: d.description :: d.primaryEntity :: d.tags).any fun text =>
    Text.occursIn needle.toList (Text.lower text).toList

def search (l : Library σ) (query : String) : List Summary := l.matching (matchesQuery query)

def byEntity (l : Library σ) (entity : String) : List Summary :=
  l.matching (·.primaryEntity == entity)

def byTag (l : Library σ) (tag : String) : List Summary := l.matching (·.tags.contains tag)

def allTags (l : Library σ) : List String := distinct (l.list.flatMap (·.tags))

def allEntities (l : Library σ) : List String := distinct (l.list.map (·.primaryEntity))

def breakdown (l : Library σ) : List EntityCount :=
  EntityCount.ranked (tally (l.list.map (·.primaryEntity)))

def lastUpdated (l : Library σ) : Option Timestamp :=
  l.list.foldl (fun acc d => some (match acc with
    | none => d.updatedAt
    | some t => t.latest d.updatedAt)) none

def statistics (l : Library σ) : Statistics where
  totalReports := l.list.length
  totalEntities := l.breakdown.length
  totalTags := l.allTags.length
  lastUpdated := l.lastUpdated
  entityBreakdown := l.breakdown

end Library

end ReportFlow
