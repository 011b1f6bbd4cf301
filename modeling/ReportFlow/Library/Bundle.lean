import ReportFlow.Library.Basic

/-!
Bundles of reports: exporting some of a library, and importing each valid record of a bundle. A
faulty record is reported and does not affect the others.
-/

namespace ReportFlow

structure Bundle where
  version : String
  reports : List Definition
  exportedAt : Timestamp
  exportedBy : String
  deriving DecidableEq

namespace Bundle

def currentVersion : String := "1.0.0"

def standardExporter : String := "Excel Generator User"

def codec : Codec Bundle :=
  .record "ExportBundle"
    (.cons (.required "version" .string) <|
      .cons (.required "reports" (.list Definition.codec)) <|
      .cons (.required "exportedAt" Timestamp.codec) <| .cons (.required "exportedBy" .string) .nil)
    (fun b => (b.version, b.reports, b.exportedAt, b.exportedBy, ()))
    (fun (version, reports, exportedAt, exportedBy, _) =>
      ⟨version, reports, exportedAt, exportedBy⟩)

end Bundle

inductive ImportError where
  | malformed (fault : JsonFault)
  | noReports
  deriving DecidableEq, Repr

def ImportError.message : ImportError → String
  | malformed fault => "Failed to parse import file: " ++ fault.message
  | noReports => "Invalid import file format: missing reports array"

inductive RecordError where
  | incomplete
  | undecodable (cause : DecodeError)
  | unstored (cause : StoreError)

namespace RecordError

def message : RecordError → String
  | incomplete => "Missing required fields"
  | undecodable cause => cause.message
  | unstored cause => cause.message

/-- Records are counted from one. -/
def report (number : Nat) (e : RecordError) : String :=
  "Report " ++ toString number ++ ": " ++ e.message

end RecordError

/-- What became of the records of a bundle. -/
structure Import where
  imported : Nat
  errors : List String
  deriving DecidableEq, Repr

namespace Record

def requiredFields : List String := ["id", "name", "schemaVersion"]

def isComplete (record : Json) : Bool :=
  requiredFields.all fun field => ((record.get? field).bind Json.string?).any (· ≠ "")

/-- A record with the fields an import sets itself. -/
def reset (record : Json) (now : Timestamp) : Json :=
  match record with
  | .object members =>
    let time := Timestamp.codec.encode now
    let members := Keyed.put "createdAt" time members
    let members := Keyed.put "updatedAt" time members
    let members := Keyed.put "reportVersion" (.number (.integer 1)) members
    let hasEntity := ((Keyed.get? "primaryEntity" members).bind Json.string?).isSome
    .object (if hasEntity then members else Keyed.put "primaryEntity" (.string "") members)
  | other => other

/-- The entity of the first entity node. -/
def firstEntity? (nodes : List ReportNode) : Option String :=
  nodes.findSome? fun n => match n.data with
    | .entity data => some data.entity
    | _ => none

/-- An empty primary entity becomes that of the first entity node. -/
def withEntity (d : Definition) : Definition :=
  if d.primaryEntity = "" then
    { d with primaryEntity := (firstEntity? d.graph.nodes).getD unknownEntity }
  else d

/-- The definition that a record holds, as of an instant. -/
def definition (record : Json) (now : Timestamp) : Except RecordError Definition :=
  if isComplete record then
    ((Definition.codec.ofJson? (reset record now)).mapError .undecodable).map withEntity
  else .error .incomplete

/-- The same report under its id with a minted suffix. -/
def renamed (d : Definition) (s : Sources) : Definition :=
  { d with id := d.id ++ "-" ++ s.nextId "imported", name := d.name ++ " (Imported)" }

end Record

namespace Library

variable {σ : Type} [ReportStore σ]

/-- The reports of the given ids, or all of them, in the order of the store. -/
def selected (l : Library σ) (ids : Option (List String)) : List Definition :=
  match ids with
  | none => l.list
  | some ids => l.list.filter fun d => ids.contains d.id

def bundle (l : Library σ) (ids : Option (List String)) : Bundle :=
  ⟨Bundle.currentVersion, l.selected ids, l.sources.now, Bundle.standardExporter⟩

/-- Exporting reads the clock once. -/
def afterExport (l : Library σ) : Library σ := { l with sources := l.sources.tick }

/-- The clock is read for a complete record; an id is minted when the record's id is taken. -/
def importRecord (l : Library σ) (record : Json) : Outcome σ RecordError String :=
  if !Record.isComplete record then ⟨l, .error .incomplete, []⟩
  else
    let sources := l.sources.tick
    match Record.definition record l.sources.now with
    | .error e => ⟨{ l with sources := sources }, .error e, []⟩
    | .ok d =>
      let taken := ReportStore.contains l.store d.id
      let report := if taken then Record.renamed d sources else d
      let attempt := ReportStore.put report l.store
      { library := ⟨attempt.store, if taken then sources.mint else sources⟩
        result := (attempt.result.mapError .unstored).map fun _ => report.id
        events := attempt.events }

/-- Imports records one by one; `number` is that of the first. -/
def importRecords (l : Library σ) (number : Nat) : List Json → Outcome σ ImportError Import
  | [] => ⟨l, .ok ⟨0, []⟩, []⟩
  | record :: rest =>
    let first := l.importRecord record
    let others := first.library.importRecords (number + 1) rest
    match first.result with
    | .ok id =>
      { library := others.library
        result := others.result.map fun i => { i with imported := i.imported + 1 }
        events := first.events ++
          .debug ("Imported report " ++ toString number ++ " as '" ++ id ++ "'") :: others.events }
    | .error e =>
      { library := others.library
        result := others.result.map fun i => { i with errors := e.report number :: i.errors }
        events := first.events ++ .warn (e.report number) :: others.events }

def importSummary (i : Import) : Event :=
  .info ("Imported " ++ toString i.imported ++ " of " ++ toString (i.imported + i.errors.length) ++
    " reports (" ++ toString i.errors.length ++ " rejected)")

def importDocument (l : Library σ) (document : Json) : Outcome σ ImportError Import :=
  match (document.get? "reports").bind Json.items? with
  | none => ⟨l, .error .noReports, []⟩
  | some records =>
    let outcome := l.importRecords 1 records
    match outcome.result with
    | .ok i => { outcome with events := outcome.events ++ [importSummary i] }
    | .error _ => outcome

/-- Imports the text of a bundle. -/
def importText (l : Library σ) (text : String) : Outcome σ ImportError Import :=
  match Json.ofText text with
  | .error fault => ⟨l, .error (.malformed fault), []⟩
  | .ok document => l.importDocument document

end Library

end ReportFlow
