import GraphWalk.Cli.GraphCommand

/-!
# One run of the program

The arguments are read first. Commands on settings and completions leave the stores alone; all
others open the store of the data directory, which an argument, the environment or the settings
name in this order.
-/

namespace GraphWalk.Cli

/-- How a run ended: the exit status, what was printed, the cause of a failure, and the disk. -/
structure Ending where
  status : Nat
  output : String
  failure : Option Failure
  disk : Disk

namespace Ending

def success (output : String) (d : Disk) : Ending := ⟨0, output, none, d⟩

def failed (cause : Failure) (d : Disk) : Ending := ⟨1, "", some cause, d⟩

/-- What is printed in place of a command. -/
def stopped (d : Disk) : Stop → Ending
  | .badUsage => ⟨2, "", none, d⟩
  | .help => success "Usage: pipegraph [OPTIONS] <COMMAND>\n" d
  | .version => success "pipegraph 0.1.0\n" d

end Ending

def Environment.settingsFile (env : Environment) : Path := .ofString env.settingsPath

/-- The settings in force; a file that is missing or malformed counts for nothing. -/
def loadSettings (env : Environment) (d : Disk) : Settings :=
  ((d.read env.settingsFile).toOption.bind (Settings.ofToml? env)).getD (Settings.defaults env)

/-- Saves settings and prints a line. -/
def savedWith (env : Environment) (d : Disk) (s : Settings) (line : String) : Ending :=
  match d.save env.settingsFile s.toToml with
  | (d, none) => .success (line ++ "\n") d
  | (d, some fault) => .failed (.disk fault) d

def listSettings (env : Environment) (s : Settings) : Format → String
  | .json =>
    (Json.object (SettingKey.all.map fun key => (key.name, .str (s.get key)))).pretty ++ "\n"
  | .table => String.join (s!"# {env.settingsPath}\n"
      :: SettingKey.all.map fun key => s!"{key.name} = {s.get key}\n")

/-- A command on the settings; `none` for the others. -/
def Command.onSettings? (env : Environment) (d : Disk) (f : Format) : Command → Option Ending
  | .configGet key => some (.success ((loadSettings env d).get key ++ "\n") d)
  | .configSet key value =>
    some (match (loadSettings env d).set key value with
      | .error cause => .failed (.settings cause) d
      | .ok s => savedWith env d s s!"{key.name} = {s.get key}")
  | .configUnset key =>
    let s := (loadSettings env d).reset env key
    some (savedWith env d s s!"{key.name} = {s.get key} (default)")
  | .configList => some (.success (listSettings env (loadSettings env d) f) d)
  | .configPath => some (.success (env.settingsPath ++ "\n") d)
  | .configInit force =>
    some (if d.isPresent env.settingsFile && !force then
        .failed (.settingsExist env.settingsPath) d
      else
        savedWith env d (Settings.defaults env) s!"Wrote defaults to {env.settingsPath}")
  | .completions _ => some (.success "" d)
  | _ => none

/-- Files what a command leaves. -/
def Effect.settle (e : Effect) (d : Disk) (place : Place) : Ending :=
  let d := d.putStore place e.store
  match e.file with
  | none => .success e.output d
  | some (path, text) =>
    match d.write (.ofString path) text with
    | .ok d => .success e.output d
    | .error fault => .failed (.disk fault) d

/-- The data directory of a run. -/
def Invocation.directory (i : Invocation) (settings : Settings) : Path :=
  .ofString (i.dataDir.getD settings.dataDir)

/-- The place of the data directory, if it can be opened. -/
def Invocation.place? (i : Invocation) (env : Environment) (d : Disk) : Option Place :=
  (d.openDirectory (i.directory (loadSettings env d))).2.toOption

/-- Carries out a command; one run of a query may ask `bound` questions. -/
def Invocation.perform (i : Invocation) (bound : Nat) (env : Environment) (d : Disk) : Ending :=
  let format := Format.ofName i.format
  match i.command.onSettings? env d format with
  | some ending => ending
  | none =>
    let settings := loadSettings env d
    -- The directory stays also when the command fails.
    match d.openDirectory (i.directory settings) with
    | (d, .error fault) => .failed (.disk fault) d
    | (d, .ok place) =>
      let context : Context :=
        ⟨i.graph.getD settings.defaultGraph, format, d.read ∘ .ofString, bound⟩
      match i.command.onStore? context (d.storeAt place) with
      | some (.ok effect) => effect.settle d place
      | some (.error cause) => .failed cause d
      | none => .stopped d .badUsage

def run (bound : Nat) (env : Environment) (d : Disk) (args : List String) : Ending :=
  match Invocation.read env args with
  | .ok i => i.perform bound env d
  | .error stop => .stopped d stop

end GraphWalk.Cli
