import ReportFlow.Command.Run

/-!
A tree of files that commands can run on: paths, reading and writing, and the effects of a command.
-/

namespace ReportFlow

/-- The entries of the directory that commands start in. -/
structure FileTree where
  entries : List (String × Entry)

namespace FileTree

def empty : FileTree := ⟨[]⟩

/-- The steps of a path; empty ones and single dots lead nowhere. -/
def steps (path : String) : List String := (path.splitOn "/").filter fun s => s ≠ "" && s ≠ "."

/-- Follows steps down from some entries; `above` holds the directories passed, innermost first. -/
def follow (above : List (List (String × Entry))) (entries : List (String × Entry)) :
    List String → Except OsError Entry
  | [] => .ok (.directory entries)
  | step :: rest =>
    if step = ".." then
      match above with
      | [] => .error .notFound
      | outer :: above => follow above outer rest
    else
      match Keyed.get? step entries with
      | none => .error .notFound
      | some (.directory inner) => follow (entries :: above) inner rest
      | some (.file body) => if rest.isEmpty then .ok (.file body) else .error .notDirectory

def entry (t : FileTree) (path : String) : Except OsError Entry :=
  match follow [] t.entries (steps path) with
  | .ok (.file body) => if path.endsWith "/" then .error .notDirectory else .ok (.file body)
  | other => other

/-- Puts an entry at the end of steps and makes the directories on the way; `none` when a file is in
the way. -/
def put (e : Entry) (entries : List (String × Entry)) : List String → Option (List (String × Entry))
  | [] => none
  | [name] => some (Keyed.put name e entries)
  | step :: rest =>
    match Keyed.get? step entries with
    | none => (put e [] rest).map fun inner => Keyed.put step (.directory inner) entries
    | some (.directory inner) =>
      (put e inner rest).map fun inner => Keyed.put step (.directory inner) entries
    | some (.file _) => none

/-- Steps without those that a later double dot takes back. -/
def straight (steps : List String) : List String :=
  (steps.foldl (fun acc step => if step = ".." then acc.drop 1 else step :: acc) []).reverse

def insert (t : FileTree) (path : String) (e : Entry) : FileTree :=
  ⟨(put e t.entries (straight (steps path))).getD t.entries⟩

def site (t : FileTree) (path : String) : Site :=
  match t.entry path with
  | .ok (.directory entries) => .directory entries
  | .ok (.file _) => .file
  | .error .notFound => .absent
  | .error cause => .blocked cause

/-- A file can be written where its directory stands and no directory has its name. -/
def refusal (t : FileTree) (path : String) : Option OsError :=
  let all := steps path
  match t.entry path with
  | .ok (.file _) => none
  | .ok (.directory _) => some .isDirectory
  | .error .notFound =>
    if path.endsWith "/" then some .isDirectory
    else match follow [] t.entries all.dropLast with
      | .ok (.directory _) =>
        if (all.getLast?.map (fun name => decide (maxNameLength < name.utf8ByteSize))).getD false then
          some .nameTooLong
        else none
      | .ok (.file _) => some .notDirectory
      | .error cause => some cause
  | .error cause => some cause

def surroundings (t : FileTree) : Surroundings where
  body path := (t.entry path).bind Entry.body
  site := t.site
  refusal := t.refusal

def withFile (t : FileTree) : Option (String × String) → FileTree
  | none => t
  | some (path, text) => t.insert path (.file text.toUTF8)

def withSite (t : FileTree) : Option (String × Site) → FileTree
  | some (path, .directory entries) => t.insert path (.directory entries)
  | _ => t

/-- The tree after a command. -/
def after (t : FileTree) (e : Effects) : FileTree := (t.withSite e.site).withFile e.written

mutual

/-- Every file under an entry, by its path. -/
def filesOf (path : String) : Entry → List (String × ByteArray)
  | .file body => [(path, body)]
  | .directory entries => filesIn (path ++ "/") entries

def filesIn (stem : String) : List (String × Entry) → List (String × ByteArray)
  | [] => []
  | (name, e) :: rest => filesOf (stem ++ name) e ++ filesIn stem rest

end

def files (t : FileTree) : List (String × ByteArray) := filesIn "" t.entries

end FileTree

end ReportFlow
