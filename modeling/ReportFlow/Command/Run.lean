import ReportFlow.Command.Invocation
import ReportFlow.Compilation
import ReportFlow.Definition.Integrity
import ReportFlow.Flow.Canvas
import ReportFlow.Library.Bundle
import ReportFlow.Library.Query
import ReportFlow.Reopening
import ReportFlow.Sample
import ReportFlow.Store.Directory
import ReportFlow.Structure.Validation

/-!
What each command does, given the files it can see.
-/

namespace ReportFlow

/-- The files and directories around a command, by their paths. -/
structure Surroundings where
  body : String → Except OsError ByteArray
  site : String → Site
  /-- Why a file could not be written. -/
  refusal : String → Option OsError

/-- What a command leaves behind. -/
structure Effects where
  code : Nat
  out : String
  err : String
  written : Option (String × String)
  site : Option (String × Site)

namespace Effects

def none : Effects := ⟨0, "", "", .none, .none⟩

def printed (e : Effects) (line : String) : Effects := { e with out := e.out ++ line ++ "\n" }

/-- Each problem on a line of its own. -/
def listed (e : Effects) (problems : List String) : Effects :=
  { e with err := e.err ++ String.join (problems.map fun p => "  - " ++ p ++ "\n") }

def failed (e : Effects) (message : String) : Effects :=
  { e with code := 1, err := e.err ++ "\nError: " ++ message ++ "\n" }

/-- Writes indented JSON to the output file, or prints it. -/
def emitted (e : Effects) (around : Surroundings) (output : Option String) (value : Json) : Effects :=
  match output with
  | .none => e.printed value.pretty
  | some path =>
    match around.refusal path with
    | .none => { e with written := some (path, value.pretty) }
    | some cause => e.failed ("Failed to write '" ++ path ++ "': " ++ cause.message)

end Effects

namespace Command

def text (around : Surroundings) (path : String) : Except String String :=
  match around.body path with
  | .error cause => .error ("Failed to read file '" ++ path ++ "': " ++ cause.message)
  | .ok body =>
    (textOf body).mapError fun cause =>
      "Failed to read file '" ++ path ++ "': " ++ cause.message

def decoded {α : Type} (around : Surroundings) (path noun : String) (codec : Codec α) :
    Except String α := do
  let content ← text around path
  (codec.ofText? content).mapError fun e => "Failed to parse " ++ noun ++ " JSON: " ++ e.message

def definition (around : Surroundings) (path : String) : Except String Definition :=
  decoded around path "definition" Definition.codec

def flow (around : Surroundings) (path : String) (canvas : Bool) : Except String Flow :=
  if canvas then do
    let document ← decoded around path "canvas" Canvas.codec
    document.toFlow.mapError fun e => "Failed to convert canvas: " ++ e.message
  else decoded around path "graph" Flow.codec

/-- A failure ends the command. -/
def orFail {α : Type} (r : Except String α) (go : α → Effects) : Effects :=
  match r with
  | .error message => Effects.none.failed message
  | .ok a => go a

/-- The prior of a compilation: that of a definition, under the given name. -/
def priorOf (d : Option Definition) (name : Option String) : Prior :=
  let prior := (d.map Prior.ofDefinition).getD .none
  match name with
  | none => prior
  | some _ => { prior with name := name }

def runCompile (around : Surroundings) (sources : Sources) (output : Option String) (path : String)
    (canvas : Bool) (prior name : Option String) : Effects :=
  orFail (flow around path canvas) fun g =>
    let validation := g.validate
    if validation.isValid then
      orFail (prior.mapM (definition around)) fun d =>
        let compiled := g.compile (some (priorOf d name)) sources
        Effects.none.emitted around output (Definition.codec.encode compiled.definition)
    else
      (Effects.none.listed (validation.errors.map (·.message))).failed
        "Graph failed validation; nothing was compiled"

def runValidate (around : Surroundings) (output : Option String) (path : String)
    (canvas isDefinition : Bool) : Effects :=
  let validation :=
    if isDefinition then (definition around path).map (·.validate)
    else (flow around path canvas).map (·.validate)
  orFail validation fun v =>
    let e := Effects.none.emitted around output v.encode
    if e.code = 0 ∧ !v.isValid then { e with code := 2 } else e

def runCheck (around : Surroundings) (path : String) : Effects :=
  orFail (definition around path) fun d =>
    match d.check with
    | [] => Effects.none.printed "Definition is well-formed."
    | errors =>
      (Effects.none.listed (errors.map (·.message))).failed
        (toString errors.length ++ " integrity problem(s) found")

/-- Blanks up to a width, counted in characters. -/
def padded (width : Nat) (s : String) : String :=
  s ++ String.ofList (List.replicate (width - s.length) ' ')

def summaryLine (s : Summary) : String :=
  padded 40 s.id ++ " v" ++ padded 4 (toString s.reportVersion.toNat) ++ " " ++
    padded 16 s.primaryEntity ++ " " ++ s.name

def printSummaries (summaries : List Summary) : Effects :=
  if summaries.isEmpty then Effects.none.printed "No reports found."
  else summaries.foldl (fun e s => e.printed (summaryLine s)) .none

/-- An action on a library that has been loaded, with the library after it. -/
def runAction (around : Surroundings) (output : Option String) (l : Library DirectoryStore) :
    LibraryAction → Effects × Library DirectoryStore
  | .list => (printSummaries l.summaries, l)
  | .search query => (printSummaries (l.search query), l)
  | .stats => (Effects.none.emitted around output l.statistics.encode, l)
  | .add path =>
    match definition around path with
    | .error message => (Effects.none.failed message, l)
    | .ok d =>
      let outcome := l.save d
      (match outcome.result with
        | .ok _ => Effects.none.printed ("Stored report '" ++ d.id ++ "'")
        | .error e => Effects.none.failed ("Failed to store report: " ++ e.message), outcome.library)
  | .duplicate id name =>
    let outcome := l.duplicate id name
    (match outcome.result with
      | .ok (some copy) => Effects.none.printed ("Created '" ++ copy.name ++ "' (" ++ copy.id ++ ")")
      | .ok none => Effects.none.failed ("No report with id '" ++ id ++ "'")
      | .error e => Effects.none.failed ("Failed to duplicate report: " ++ e.message),
      outcome.library)
  | .delete id =>
    let outcome := l.delete id
    (match outcome.result with
      | .ok true => Effects.none.printed ("Deleted report '" ++ id ++ "'")
      | .ok false => Effects.none.failed ("No report with id '" ++ id ++ "'")
      | .error e => Effects.none.failed ("Failed to delete report: " ++ e.message), outcome.library)
  | .exportSome ids =>
    let bundle := l.bundle (if ids.isEmpty then none else some ids)
    (Effects.none.emitted around output (Bundle.codec.encode bundle), l.afterExport)
  | .importFrom path =>
    match text around path with
    | .error message => (Effects.none.failed message, l)
    | .ok content =>
      let outcome := l.importText content
      (match outcome.result with
        | .ok i =>
          (Effects.none.printed ("Imported " ++ toString i.imported ++ " report(s)")).listed i.errors
        | .error e => Effects.none.failed e.message, outcome.library)

def runLibrary (around : Surroundings) (sources : Sources) (output : Option String) (dir : String)
    (action : LibraryAction) : Effects :=
  let attempt := (DirectoryStore.atPath dir (.sound (around.site dir))).load
  match attempt.result with
  | .error e => Effects.none.failed ("Failed to load library: " ++ e.message)
  | .ok _ =>
    let (e, l) := runAction around output ⟨attempt.store, sources⟩ action
    { e with site := some (dir, l.store.disk.site) }

def usage : Effects := { Effects.none with code := 2, err := "error: invalid arguments\n" }

end Command

open Command in
def Invocation.run (around : Surroundings) (sources : Sources) (i : Invocation) : Effects :=
  match i.command with
  | .compile path canvas prior name => runCompile around sources i.output path canvas prior name
  | .decompile path =>
    orFail (definition around path) fun d =>
      match d.reopen with
      | .error e => Effects.none.failed ("Decompilation failed: " ++ e.message)
      | .ok g => Effects.none.emitted around i.output (Flow.codec.encode g)
  | .validate path canvas isDefinition => runValidate around i.output path canvas isDefinition
  | .check path => runCheck around path
  | .blank name entity =>
    Effects.none.emitted around i.output
      (Definition.codec.encode (Definition.blank name entity sources).1)
  | .sample =>
    Effects.none.emitted around i.output (Definition.codec.encode (Definition.sample sources).1)
  | .library dir action => runLibrary around sources i.output dir action

/-- Runs a command line. -/
def Command.ofArguments (around : Surroundings) (sources : Sources) (args : List String) : Effects :=
  match Invocation.ofArguments? args with
  | some i => i.run around sources
  | none => Command.usage

end ReportFlow
