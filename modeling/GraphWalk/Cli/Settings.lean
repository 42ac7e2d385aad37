import GraphWalk.Store
import GraphWalk.Toml.Document

/-!
# Settings

The settings file is a TOML document. Both settings have defaults, which stand in for a missing
entry, a missing file and a file that cannot be read; entries of other names are ignored.
-/

namespace GraphWalk.Cli

/-- Environment variables. -/
abbrev Environment := Table String

namespace Environment

/-- Puts a path behind a directory. -/
def join (directory path : String) : String :=
  if directory.isEmpty then path
  else if directory.toList.getLast? = some '/' then directory ++ path
  else directory ++ "/" ++ path

/-- A directory of the user: the one named by a variable, if that is absolute, or else one in
the home directory. -/
def userDirectory (env : Environment) (name inHome : String) : String :=
  match env.get? name with
  | some path =>
    if path.toList.head? = some '/' then path else inHomeDirectory
  | none => inHomeDirectory
where
  inHomeDirectory : String :=
    match env.get? "HOME" with
    | some home => if home.isEmpty then "." else join home inHome
    | none => "."

def defaultDataDir (env : Environment) : String :=
  join (env.userDirectory "XDG_DATA_HOME" ".local/share") "pipegraph"

/-- Where the settings file is. -/
def settingsPath (env : Environment) : String :=
  match env.get? "PIPEGRAPH_CONFIG" with
  | some path => path
  | none => join (join (env.userDirectory "XDG_CONFIG_HOME" ".config") "pipegraph") "config.toml"

end Environment

inductive SettingKey
  | dataDir
  | defaultGraph
  deriving DecidableEq

namespace SettingKey

def name : SettingKey → String
  | dataDir => "data_dir"
  | defaultGraph => "default_graph"

def all : List SettingKey := [dataDir, defaultGraph]

def ofName? (name : String) : Option SettingKey := all.find? fun key => key.name = name

end SettingKey

structure Settings where
  dataDir : String
  defaultGraph : String
  deriving DecidableEq

inductive SettingsError
  | emptyGraphName
  deriving DecidableEq

def SettingsError.message : SettingsError → String
  | emptyGraphName => "default_graph cannot be empty"

namespace Settings

def defaults (env : Environment) : Settings := ⟨env.defaultDataDir, Store.defaultName⟩

/-- A string entry, or the default if there is none; `none` for an entry of another type. -/
def entry? (entries : Toml.Entries) (name default : String) : Option String :=
  match Entries.find? name entries with
  | none => some default
  | some (.text s) => some s
  | some _ => none

/-- Reads a settings file. -/
def ofToml? (env : Environment) (text : String) : Option Settings := do
  let entries ← Toml.ofString? text
  let base := defaults env
  return ⟨← entry? entries "data_dir" base.dataDir,
    ← entry? entries "default_graph" base.defaultGraph⟩

def toToml (s : Settings) : String :=
  s!"data_dir = {Toml.writeString s.dataDir}\ndefault_graph = {Toml.writeString s.defaultGraph}\n"

def get (s : Settings) : SettingKey → String
  | .dataDir => s.dataDir
  | .defaultGraph => s.defaultGraph

/-- Changes one setting. A data directory is taken as it is given. -/
def set (s : Settings) (key : SettingKey) (value : String) : Except SettingsError Settings :=
  match key with
  | .dataDir => .ok { s with dataDir := value }
  | .defaultGraph =>
    if value.isEmpty then .error .emptyGraphName else .ok { s with defaultGraph := value }

/-- Puts one setting back to its default. -/
def reset (env : Environment) (s : Settings) : SettingKey → Settings
  | .dataDir => { s with dataDir := (defaults env).dataDir }
  | .defaultGraph => { s with defaultGraph := (defaults env).defaultGraph }

end Settings

end GraphWalk.Cli
