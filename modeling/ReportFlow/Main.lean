import ReportFlow.Command.Run
import Std.Time.DateTime.Timestamp

/-!
The command line. It gathers what a command can see, runs the command and leaves its effects.
-/

namespace ReportFlow.Main

def causeOf (e : IO.Error) : OsError :=
  match e with
  | .noFileOrDirectory .. => .notFound
  | .alreadyExists .. => .fileExists
  | e => .other (toString e)

def readBody (path : String) : IO (Except OsError ByteArray) := do
  try return .ok (← IO.FS.readBinFile path)
  catch e => return .error (causeOf e)

def readSite (path : String) : IO Site := do
  try
    let dir ← IO.FS.realPath path
    if ← dir.isDir then
      let listing ← dir.readDir
      let names := (listing.map (·.fileName)).toList.mergeSort
      let entries ← names.mapM fun name => do
        match ← readBody (DirectoryStore.entryPath path name) with
        | .ok body => return (name, Entry.file body)
        | .error _ => return (name, Entry.directory [])
      return .directory entries
    else if ← dir.pathExists then return .file
    else return .absent
  catch e =>
    match causeOf e with
    | .notFound => return .absent
    | cause => return .blocked cause

/-- A random identifier under a stem. -/
def identifier (bytes : List UInt8) (stem : String) : String :=
  let marked := bytes.mapIdx fun i b =>
    if i = 6 then b &&& 0x0f ||| 0x40 else if i = 8 then b &&& 0x3f ||| 0x80 else b
  let digits := marked.flatMap Blake3.hexByte
  let part (start count : Nat) := String.ofList ((digits.drop start).take count)
  stem ++ "-" ++ part 0 8 ++ "-" ++ part 8 4 ++ "-" ++ part 12 4 ++ "-" ++ part 16 4 ++ "-" ++
    part 20 12

/-- As many identifiers as a command can need for some bytes of input. -/
def readSources (count : Nat) : IO Sources := do
  let instant := (← Std.Time.Timestamp.now).toNanosecondsSinceUnixEpoch.val
  let seconds := instant / 1000000000
  let time : Timestamp :=
    ⟨seconds / 86400, (seconds % 86400).toNat, (instant % 1000000000).toNat⟩
  let random := (← IO.getRandomBytes (USize.ofNat (16 * count))).toList
  return .start (.fixed time) fun n stem => identifier ((random.drop (16 * n)).take 16) stem

def leaveSite (path : String) (old new : Site) : IO Unit := do
  if !old.isPresent && new.isPresent then IO.FS.createDirAll path
  for (name, e) in new.entries do
    match e, old.entry? name with
    | .file body, some (.file before) =>
      if body != before then IO.FS.writeBinFile (DirectoryStore.entryPath path name) body
    | .file body, _ => IO.FS.writeBinFile (DirectoryStore.entryPath path name) body
    | .directory _, _ => pure ()
  for (name, _) in old.entries do
    if (new.entry? name).isNone then IO.FS.removeFile (DirectoryStore.entryPath path name)

/-- Leaves what a command has made; a file that cannot be written is a failure of the command. -/
def leave (site : Site) (e : Effects) : IO Effects := do
  if let some (path, after) := e.site then leaveSite path site after
  match e.written with
  | none => return e
  | some (path, text) =>
    try
      IO.FS.writeFile path text
      return e
    catch cause =>
      return e.failed ("Failed to write '" ++ path ++ "': " ++ (causeOf cause).message)

def run (args : List String) : IO Effects := do
  let (paths, dir) := ((Invocation.ofArguments? args).map (·.command.inputs)).getD ([], none)
  let bodies ← paths.mapM fun path => do return (path, ← readBody path)
  let site ← dir.elim (pure Site.absent) readSite
  let size := bodies.foldl (fun n (_, body) => n + (body.map ByteArray.size).toOption.getD 0) 64
  let around : Surroundings :=
    ⟨fun path => (bodies.lookup path).getD (.error .notFound), fun _ => site, fun _ => none⟩
  leave site (Command.ofArguments around (← readSources size) args)

end ReportFlow.Main

def main (args : List String) : IO UInt32 := do
  let effects ← ReportFlow.Main.run args
  IO.print effects.out
  IO.eprint effects.err
  return UInt32.ofNat effects.code
