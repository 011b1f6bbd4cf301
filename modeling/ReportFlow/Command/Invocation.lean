/-!
Command lines: a command, its options in any order, and an output file that every command takes.
-/

namespace ReportFlow

inductive LibraryAction where
  | list
  | search (query : String)
  | stats
  | add (path : String)
  | duplicate (id : String) (name : Option String)
  | delete (id : String)
  | exportSome (ids : List String)
  | importFrom (path : String)
  deriving DecidableEq, Repr

inductive Command where
  | compile (path : String) (canvas : Bool) (prior name : Option String)
  | decompile (path : String)
  | validate (path : String) (canvas definition : Bool)
  | check (path : String)
  | blank (name entity : String)
  | sample
  | library (dir : String) (action : LibraryAction)
  deriving DecidableEq, Repr

structure Invocation where
  output : Option String
  command : Command
  deriving DecidableEq, Repr

/-- The files that a command reads, and the directory that it works in. -/
def Command.inputs : Command → List String × Option String
  | compile path _ prior _ => (path :: prior.toList, none)
  | decompile path | validate path _ _ | check path => ([path], none)
  | blank _ _ | sample => ([], none)
  | library dir (.add path) | library dir (.importFrom path) => ([path], some dir)
  | library dir _ => ([], some dir)

namespace Invocation

/-- An option that a command takes; the path options refuse an empty value. -/
structure Spec where
  long : String
  short : Option Char
  takesValue : Bool
  isPath : Bool
  deriving DecidableEq, Repr

def outputSpec : Spec := ⟨"output", some 'o', true, true⟩
def canvasSpec : Spec := ⟨"canvas", none, false, false⟩
def definitionSpec : Spec := ⟨"definition", none, false, false⟩
def priorSpec : Spec := ⟨"prior", none, true, true⟩
def nameSpec : Spec := ⟨"name", none, true, false⟩
def entitySpec : Spec := ⟨"entity", none, true, false⟩
def dirSpec : Spec := ⟨"dir", none, true, true⟩

/-- What was scanned: options with their values, words, and the arguments left over. -/
structure Scanned where
  options : List (String × String)
  words : List String
  rest : List String

namespace Scanned

def value? (s : Scanned) (spec : Spec) : Option String := s.options.lookup spec.long

def has (s : Scanned) (spec : Spec) : Bool := (s.value? spec).isSome

/-- No option may be given twice. -/
def addOption (s : Scanned) (spec : Spec) (value : String) : Option Scanned :=
  if s.has spec ∨ (spec.isPath ∧ value.isEmpty) then none
  else some { s with options := (spec.long, value) :: s.options }

def addWord (s : Scanned) (word : String) : Scanned := { s with words := word :: s.words }

end Scanned

/-- The parts of an option: its name, and a value joined to it. -/
def splitOption (specs : List Spec) (arg : String) : Option (Spec × Option String) :=
  match arg.toList with
  | '-' :: '-' :: rest =>
    let name := rest.takeWhile (· ≠ '=')
    let joined := match rest.dropWhile (· ≠ '=') with
      | [] => none
      | _ :: value => some (String.ofList value)
    (specs.find? (·.long == String.ofList name)).map fun spec => (spec, joined)
  | '-' :: c :: rest =>
    let joined := match rest with
      | [] => none
      | '=' :: value => some (String.ofList value)
      | value => some (String.ofList value)
    (specs.find? (·.short == some c)).map fun spec => (spec, joined)
  | _ => none

def looksLikeOption (arg : String) : Bool := arg.startsWith "-" && arg ≠ "-"

/-- Scans options and words. With `nested` set, the first word names a command of its own and ends
the scan. -/
def scan (specs : List Spec) (nested : Bool) : List String → Scanned → Option Scanned
  | [], s => some s
  | arg :: rest, s =>
    if arg = "--" then
      if nested then some { s with rest := rest }
      else some { s with words := rest.reverse ++ s.words }
    else if looksLikeOption arg then
      match splitOption specs arg with
      | none => none
      | some (spec, some value) =>
        if spec.takesValue then do
          let s ← s.addOption spec value
          scan specs nested rest s
        else none
      | some (spec, none) =>
        if spec.takesValue then
          match rest with
          | [] => none
          | value :: rest =>
            if looksLikeOption value then none
            else do
              let s ← s.addOption spec value
              scan specs nested rest s
        else do
          let s ← s.addOption spec ""
          scan specs nested rest s
    else if nested then some { s with rest := arg :: rest }
    else scan specs nested rest (s.addWord arg)

def scanAll (specs : List Spec) (nested : Bool) (args : List String) : Option Scanned :=
  (scan (outputSpec :: specs) nested args ⟨[], [], []⟩).map fun s =>
    { s with words := s.words.reverse }

/-- The inner output file counts. -/
def join (outer : Option String) (s : Scanned) (command : Command) : Invocation :=
  ⟨(s.value? outputSpec).or outer, command⟩

def path? (word : String) : Option String := if word.isEmpty then none else some word

/-- The specification, the words and the meaning of each action of a library. -/
def action? (outer : Option String) (dir name : String) (args : List String) : Option Invocation :=
  let scanned (specs : List Spec) := scanAll specs false args
  let made (s : Scanned) (action : LibraryAction) := some (join outer s (.library dir action))
  match name with
  | "list" => do
    let s ← scanned []
    if s.words.isEmpty then made s .list else none
  | "stats" => do
    let s ← scanned []
    if s.words.isEmpty then made s .stats else none
  | "search" => do
    let s ← scanned []
    match s.words with
    | [query] => made s (.search query)
    | _ => none
  | "add" => do
    let s ← scanned []
    match s.words with
    | [path] => (path? path).bind fun path => made s (.add path)
    | _ => none
  | "duplicate" => do
    let s ← scanned [nameSpec]
    match s.words with
    | [id] => made s (.duplicate id (s.value? nameSpec))
    | _ => none
  | "delete" => do
    let s ← scanned []
    match s.words with
    | [id] => made s (.delete id)
    | _ => none
  | "export" => do
    let s ← scanned []
    made s (.exportSome s.words)
  | "import" => do
    let s ← scanned []
    match s.words with
    | [path] => (path? path).bind fun path => made s (.importFrom path)
    | _ => none
  | _ => none

def command? (outer : Option String) (name : String) (args : List String) : Option Invocation :=
  match name with
  | "compile" => do
    let s ← scanAll [canvasSpec, priorSpec, nameSpec] false args
    match s.words with
    | [word] =>
      let path ← path? word
      return join outer s (.compile path (s.has canvasSpec) (s.value? priorSpec) (s.value? nameSpec))
    | _ => none
  | "decompile" => do
    let s ← scanAll [] false args
    match s.words with
    | [word] => (path? word).map fun path => join outer s (.decompile path)
    | _ => none
  | "validate" => do
    let s ← scanAll [canvasSpec, definitionSpec] false args
    match s.words with
    | [word] =>
      let path ← path? word
      return join outer s (.validate path (s.has canvasSpec) (s.has definitionSpec))
    | _ => none
  | "check" => do
    let s ← scanAll [] false args
    match s.words with
    | [word] => (path? word).map fun path => join outer s (.check path)
    | _ => none
  | "blank" => do
    let s ← scanAll [nameSpec, entitySpec] false args
    if s.words.isEmpty then
      return join outer s (.blank ((s.value? nameSpec).getD "New Report")
        ((s.value? entitySpec).getD "account"))
    else none
  | "sample" => do
    let s ← scanAll [] false args
    if s.words.isEmpty then return join outer s .sample else none
  | "library" => do
    let s ← scanAll [dirSpec] true args
    match s.rest with
    | [] => none
    | action :: rest =>
      action? ((s.value? outputSpec).or outer) ((s.value? dirSpec).getD ".reports") action rest
  | _ => none

/-- The meaning of a command line; `none` when it is not well formed. -/
def ofArguments? (args : List String) : Option Invocation := do
  let s ← scanAll [] true args
  match s.rest with
  | [] => none
  | name :: rest => command? (s.value? outputSpec) name rest

end Invocation

end ReportFlow
