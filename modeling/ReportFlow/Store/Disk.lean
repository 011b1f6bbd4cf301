import ReportFlow.Keyed

/-!
The part of a disk that a store uses: what stands at one path, and operations on it that can fail.
-/

namespace ReportFlow

inductive OsError where
  | notFound
  | fileExists
  | notDirectory
  | isDirectory
  | nameTooLong
  | invalidText
  | other (text : String)
  deriving DecidableEq, Repr

namespace OsError

def message : OsError → String
  | notFound => "No such file or directory (os error 2)"
  | fileExists => "File exists (os error 17)"
  | notDirectory => "Not a directory (os error 20)"
  | isDirectory => "Is a directory (os error 21)"
  | nameTooLong => "File name too long (os error 36)"
  | invalidText => "stream did not contain valid UTF-8"
  | other text => text

end OsError

inductive Entry where
  | file (body : ByteArray)
  | directory (entries : List (String × Entry))

namespace Entry

def isDirectory : Entry → Bool
  | file _ => false
  | directory _ => true

/-- The bytes of a file. -/
def body : Entry → Except OsError ByteArray
  | file body => .ok body
  | directory _ => .error .isDirectory

end Entry

/-- A body as text, which it need not be. -/
def textOf (body : ByteArray) : Except OsError String :=
  match String.fromUTF8? body with
  | some s => .ok s
  | none => .error .invalidText

/-- What stands at a path. Nothing can be made at a blocked one. -/
inductive Site where
  | absent
  | blocked (cause : OsError)
  | file
  | directory (entries : List (String × Entry))

/-- The longest name of a file, in bytes. -/
def maxNameLength : Nat := 255

namespace Site

def isPresent : Site → Bool
  | file | directory _ => true
  | absent | blocked _ => false

def entries : Site → List (String × Entry)
  | directory entries => entries
  | _ => []

def entry? (s : Site) (name : String) : Option Entry := Keyed.get? name s.entries

/-- An operation gives a result and leaves a site, or fails and leaves the site as it was. -/
abbrev Operation (α : Type) := Site → Except OsError (α × Site)

def create : Operation Unit
  | absent => .ok ((), directory [])
  | blocked cause => .error cause
  | file => .error .fileExists
  | directory entries => .ok ((), directory entries)

def list : Operation (List String)
  | absent => .error .notFound
  | blocked cause => .error cause
  | file => .error .notDirectory
  | directory entries => .ok (entries.map (·.1), directory entries)

/-- Looks whether anything stands at the place. -/
def look : Operation Unit
  | absent => .error .notFound
  | blocked cause => .error cause
  | file => .ok ((), file)
  | directory entries => .ok ((), directory entries)

/-- Looks for an entry. -/
def lookFor (name : String) : Operation Unit := fun s =>
  match s.entry? name with
  | none => .error .notFound
  | some _ => .ok ((), s)

def read (name : String) : Operation String := fun s =>
  match s.entry? name with
  | none => .error .notFound
  | some entry => do
    let body ← entry.body
    let text ← textOf body
    return (text, s)

def write (name text : String) : Operation Unit := fun s =>
  match s with
  | directory entries =>
    if maxNameLength < name.utf8ByteSize then .error .nameTooLong
    else if (Keyed.get? name entries).any Entry.isDirectory then .error .isDirectory
    else .ok ((), directory (Keyed.put name (.file text.toUTF8) entries))
  | _ => .error .notFound

def remove (name : String) : Operation Unit := fun s =>
  match s with
  | directory entries =>
    match Keyed.get? name entries with
    | none => .error .notFound
    | some (.directory _) => .error .isDirectory
    | some (.file _) => .ok ((), directory (Keyed.erase name entries))
  | _ => .error .notFound

end Site

/-- A site whose operations are counted; the one at a turn fails if `failures` says so. -/
structure Disk where
  site : Site
  failures : Nat → Option OsError
  turn : Nat

namespace Disk

/-- A disk on which nothing fails by itself. -/
def sound (site : Site) : Disk := ⟨site, fun _ => none, 0⟩

def run {α : Type} (d : Disk) (op : Site.Operation α) : Except OsError α × Disk :=
  match d.failures d.turn with
  | some cause => (.error cause, { d with turn := d.turn + 1 })
  | none =>
    match op d.site with
    | .error cause => (.error cause, { d with turn := d.turn + 1 })
    | .ok (a, site) => (.ok a, { d with site := site, turn := d.turn + 1 })

/-- Whether an operation succeeds. One that fails is a no, whatever its cause. -/
def asks (d : Disk) (op : Site.Operation Unit) : Bool × Disk :=
  ((d.run op).1.isOk, (d.run op).2)

end Disk

end ReportFlow
