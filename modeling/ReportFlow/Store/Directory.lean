import ReportFlow.Json.Printer
import ReportFlow.Store.Basic
import ReportFlow.Store.FileName
import ReportFlow.Text.Quoted

/-!
A store in a directory: one file of indented JSON for each definition, with a copy in memory that
all reading uses. The directory is made by the first write.
-/

namespace ReportFlow

/-- The copies stand in ascending order of their ids. -/
structure DirectoryStore where
  path : String
  reports : List (String × Definition)
  disk : Disk

namespace DirectoryStore

def atPath (path : String) (disk : Disk) : DirectoryStore := ⟨path, [], disk⟩

def list (s : DirectoryStore) : List Definition := s.reports.map (·.2)

/-- The path of an entry of a directory. -/
def entryPath (path name : String) : String :=
  if path.isEmpty || path.endsWith "/" then path ++ name else path ++ "/" ++ name

def pathOf (s : DirectoryStore) (name : String) : String := entryPath s.path name

/-- The text of the file of a definition. -/
def text (d : Definition) : String := (Definition.codec.encode d).pretty

def fail {α : Type} (s : DirectoryStore) (disk : Disk) (path : String) (cause : OsError) :
    Attempt DirectoryStore α :=
  ⟨{ s with disk := disk }, .error (.io path cause), []⟩

/-- The file is written before the copy is kept, so a failure leaves both as they were. -/
def put (d : Definition) (s : DirectoryStore) : Attempt DirectoryStore Unit :=
  match s.disk.run Site.create with
  | (.error cause, disk) => s.fail disk s.path cause
  | (.ok _, disk) =>
    let path := s.pathOf (FileName.ofId d.id)
    match disk.run (Site.write (FileName.ofId d.id) (text d)) with
    | (.error cause, disk) => s.fail disk path cause
    | (.ok _, disk) =>
      { store := { s with reports := Keyed.put d.id d s.reports, disk := disk }
        result := .ok ()
        events := [.debug ("Saved report '" ++ d.id ++ "' to " ++ Text.quoted path)] }

def drop (id : String) (s : DirectoryStore) (events : List Event) : Attempt DirectoryStore Bool where
  store := { s with reports := Keyed.erase id s.reports }
  result := .ok (Keyed.get? id s.reports).isSome
  events := events

/-- A file that cannot be looked for counts as none. -/
def delete (id : String) (s : DirectoryStore) : Attempt DirectoryStore Bool :=
  let name := FileName.ofId id
  match s.disk.asks (Site.lookFor name) with
  | (false, disk) => drop id { s with disk := disk } []
  | (true, disk) =>
    let path := s.pathOf name
    match disk.run (Site.remove name) with
    | (.error cause, disk) => s.fail disk path cause
    | (.ok _, disk) =>
      drop id { s with disk := disk }
        [.debug ("Deleted report '" ++ id ++ "' from " ++ Text.quoted path)]

instance : ReportStore DirectoryStore where
  list := list
  put := put
  delete := delete

/-- Takes in the text of a file, which is passed over when it holds no definition. -/
def take (name text : String) (count : Nat) (s : DirectoryStore) : DirectoryStore × Nat × Event :=
  let path := Text.quoted (s.pathOf name)
  match Definition.codec.ofText? text with
  | .ok d =>
    ({ s with reports := Keyed.put d.id d s.reports }, count + 1,
      .info ("Loaded report '" ++ d.id ++ "' from " ++ path))
  | .error e =>
    (s, count, .warn ("Skipping " ++ path ++ ": not a report definition: " ++ e.message))

def loadFiles (count : Nat) (s : DirectoryStore) : List String → Attempt DirectoryStore Nat
  | [] => ⟨s, .ok count, []⟩
  | name :: rest =>
    if FileName.isDefinition name then
      match s.disk.run (Site.read name) with
      | (.error cause, disk) => s.fail disk (s.pathOf name) cause
      | (.ok text, disk) =>
        let (s, count, event) := take name text count { s with disk := disk }
        let attempt := loadFiles count s rest
        { attempt with events := event :: attempt.events }
    else loadFiles count s rest

/-- Takes in every definition of the directory and tells their number. A directory that cannot be
looked for counts as none. -/
def load (s : DirectoryStore) : Attempt DirectoryStore Nat :=
  match s.disk.asks Site.look with
  | (false, disk) => ⟨{ s with disk := disk }, .ok 0, []⟩
  | (true, disk) =>
    match disk.run Site.list with
    | (.error cause, disk) => s.fail disk s.path cause
    | (.ok names, disk) => loadFiles 0 { s with disk := disk } names

end DirectoryStore

end ReportFlow
