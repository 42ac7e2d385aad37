import GraphWalk.Cli.Run

/-!
# The program

Reads what a run can ask for into a disk, carries the run out, and writes back what it changed.
The stores of a data directory are kept as one JSON object of texts.
-/

namespace GraphWalk.Cli

/-- More questions than any query asks that comes to an end in a lifetime. -/
def runBound : Nat := 0x4000000000000000

def environmentNames : List String :=
  ["HOME", "XDG_DATA_HOME", "XDG_CONFIG_HOME", "PIPEGRAPH_CONFIG", "PIPEGRAPH_DATA_DIR"]

def getEnvironment : IO Environment :=
  environmentNames.foldlM (fun env name => do
    return match ← IO.getEnv name with
      | some value => env.insert name value
      | none => env) ∅

/-- What is at a place of the real disk; a file that is not text counts as empty. -/
def realNode? (p : Place) : IO (Option Node) := do
  try
    return some (.file (← IO.FS.readFile p.toString))
  catch
    | .noFileOrDirectory .. => return none
    | .inappropriateType .. => return some .directory
    | _ => return some (.file "")

/-- Puts what a path can lead to on the disk: the places that it passes, in whatever directories
exist on the way. -/
def withPath (d : Disk) (path : Path) : IO Disk := do
  let (d, _) ← path.parts.foldlM (fun ((d, p) : Disk × Place) part => do
    let next := p.step part
    if next.names.isEmpty || d.node? next.parent != some .directory then return (d, next)
    match ← realNode? next with
    | some node => return (d.put next node, next)
    | none => return (d, next)) (d, path.start)
  return d

def storePath (p : Place) : String := Environment.join p.toString "graphs.json"

/-- The store that a text holds. -/
def storeOfText (text : String) : Store :=
  match Json.ofString? text with
  | some (.obj fields) =>
    Table.ofList (fields.filterMap fun (k, v) => v.asString?.map fun s => (k, s))
  | _ => ∅

def textOfStore (s : Store) : String := (Json.ofTable (s.map .str)).compact

/-- The file that a command reads or writes besides the settings. -/
def Command.file? : Command → Option String
  | .importFile path _ => some path
  | .exportFile path _ => path
  | _ => none

/-- Whether a command opens a store. -/
def Command.usesStore : Command → Bool
  | .configGet _ | .configSet _ _ | .configUnset _ | .configList | .configPath | .configInit _
  | .completions _ => false
  | _ => true

/-- The store at a place of the real disk. -/
def realStore (p : Place) : IO Store := do
  try
    return storeOfText (← IO.FS.readFile (storePath p))
  catch _ =>
    return ∅

/-- Makes the directories and writes the files that one disk has and another has not. A directory
comes before what it holds, because its path is the beginning of theirs. -/
def writeChanges (before after : Disk) : IO Unit := do
  for (path, node) in after.nodes.entries do
    if before.nodes.get? path != some node then
      match node with
      | .directory => IO.FS.createDir path
      | .file text => IO.FS.writeFile path text

def finish (e : Ending) : IO UInt32 := do
  IO.print e.output
  match e.failure with
  | some cause => IO.eprintln s!"Error: {cause.message}"
  | none => if e.status = 2 then IO.eprintln "Usage: pipegraph [OPTIONS] <COMMAND>"
  return e.status.toUInt32

/-- Carries out a command between reading and writing the real disk. -/
def Invocation.carryOut (i : Invocation) (env : Environment) : IO UInt32 := do
  let before ← withPath ∅ env.settingsFile
  let before ← i.command.file?.toList.foldlM (withPath · <| .ofString ·) before
  let before ← withPath before (i.directory (loadSettings env before))
  let place := if i.command.usesStore then i.place? env before else none
  let before ← match place with
    | some p => before.putStore p <$> realStore p
    | none => pure before
  let ending := i.perform runBound env before
  writeChanges before ending.disk
  if let some p := place then
    IO.FS.writeFile (storePath p) (textOfStore (ending.disk.storeAt p))
  finish ending

end GraphWalk.Cli

open GraphWalk Cli in
def main (args : List String) : IO UInt32 := do
  let env ← getEnvironment
  match Invocation.read env args with
  | .ok i =>
    try
      i.carryOut env
    catch e =>
      IO.eprintln s!"Error: {e}"
      return 1
  | .error stop => finish (.stopped ∅ stop)
