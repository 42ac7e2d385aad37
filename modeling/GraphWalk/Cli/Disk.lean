import GraphWalk.Cli.Path
import GraphWalk.Store

/-!
# What the program sees of a disk

Text files and directories, and one store of graphs in every data directory. Making directories
can fail halfway; what was made by then stays.
-/

namespace GraphWalk.Cli

/-- Why a path does not lead to what is asked for. -/
inductive Fault
  | missing
  | notDirectory
  | isDirectory
  | taken
  deriving DecidableEq

def Fault.message : Fault → String
  | missing => "No such file or directory (os error 2)"
  | notDirectory => "Not a directory (os error 20)"
  | isDirectory => "Is a directory (os error 21)"
  | taken => "File exists (os error 17)"

inductive Node
  | file (text : String)
  | directory
  deriving DecidableEq

/-- Nodes and stores are kept under the shortest paths to their places. -/
structure Disk where
  nodes : Table Node
  stores : Table Store

namespace Disk

instance : EmptyCollection Disk := ⟨⟨∅, ∅⟩⟩

/-- What is at a place; the anchors are directories that always exist. -/
def node? (d : Disk) (p : Place) : Option Node :=
  if p.names.isEmpty then some .directory else d.nodes.get? p.toString

def put (d : Disk) (p : Place) (n : Node) : Disk :=
  { d with nodes := d.nodes.insert p.toString n }

/-- One step from a directory to another. -/
def enter (d : Disk) (p : Place) (part : PathPart) : Except Fault Place :=
  match d.node? (p.step part) with
  | some .directory => .ok (p.step part)
  | some (.file _) => .error .notDirectory
  | none => .error .missing

/-- Where a path leads: through directories that exist, to a place that may be free. -/
def locate (d : Disk) (p : Path) : Except Fault Place :=
  match p.parts.getLast? with
  | none => if p.absolute then .ok p.start else .error .missing
  | some last => (p.parts.dropLast.foldlM d.enter p.start).map (·.step last)

/-- What a path leads to; a slash at its end asks for a directory. -/
def find (d : Disk) (p : Path) : Except Fault Node := do
  match d.node? (← d.locate p) with
  | none => .error .missing
  | some .directory => .ok .directory
  | some (.file text) => if p.endsInSlash then .error .notDirectory else .ok (.file text)

def isDirectory (d : Disk) (p : Path) : Bool :=
  match d.find p with
  | .ok .directory => true
  | _ => false

/-- Whether a path leads to a file or a directory. -/
def isPresent (d : Disk) (p : Path) : Bool := (d.find p).isOk

/-- The text of a file. -/
def read (d : Disk) (p : Path) : Except Fault String := do
  match ← d.find p with
  | .file text => .ok text
  | .directory => .error .isDirectory

/-- Writes a file, over the one that is there. -/
def write (d : Disk) (p : Path) (text : String) : Except Fault Disk := do
  let place ← d.locate p
  if p.endsInSlash || d.node? place = some .directory then .error .isDirectory
  else .ok (d.put place (.file text))

/-- Makes one directory, at a place that is free. -/
def makeDirectory (d : Disk) (p : Path) : Except Fault Disk := do
  let place ← d.locate p
  match d.node? place with
  | some _ => .error .taken
  | none => .ok (d.put place .directory)

/-- Makes one directory, if it is not there. -/
def ensureDirectory (d : Disk) (p : Path) : Disk × Option Fault :=
  match d.makeDirectory p with
  | .ok d => (d, none)
  | .error fault => (d, if d.isDirectory p then none else some fault)

/-- Makes the first directory of a list; the others are made before it where they are missing. -/
def ensureFirst (d : Disk) : List Path → Disk × Option Fault
  | [] => (d, none)
  | p :: rest =>
    match d.ensureDirectory p with
    | (d, some .missing) =>
      match d.ensureFirst rest with
      | (d, none) => d.ensureDirectory p
      | failed => failed
    | done => done

/-- Makes a directory and those that lead to it. -/
def ensureDirectories (d : Disk) (p : Path) : Disk × Option Fault := d.ensureFirst p.lineage

/-- Writes a file, for which directories are made. -/
def save (d : Disk) (p : Path) (text : String) : Disk × Option Fault :=
  match (p.parent?.map d.ensureDirectories).getD (d, none) with
  | (d, some fault) => (d, some fault)
  | (d, none) =>
    match d.write p text with
    | .ok d => (d, none)
    | .error fault => (d, some fault)

/-- Makes a data directory and tells its place; the empty path stands for the current one. -/
def openDirectory (d : Disk) (p : Path) : Disk × Except Fault Place :=
  if p.isEmpty then (d, .ok .current)
  else
    match d.ensureDirectories p with
    | (d, some fault) => (d, .error fault)
    | (d, none) => (d, d.locate p)

/-- The store in a data directory, empty at first. -/
def storeAt (d : Disk) (p : Place) : Store := (d.stores.get? p.toString).getD ∅

def putStore (d : Disk) (p : Place) (s : Store) : Disk :=
  { d with stores := d.stores.insert p.toString s }

end Disk

end GraphWalk.Cli
