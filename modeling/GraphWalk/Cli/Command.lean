import GraphWalk.Cli.Settings
import GraphWalk.Cli.Usage

/-!
# Commands

The commands of the program and the grammar in which they are written.
-/

namespace GraphWalk.Cli

inductive Command
  | vertexAdd (id : Option String) (properties : List String)
  | vertexList (limit : Nat)
  | vertexGet (id : String)
  | edgeAdd (tail head : String) (label : Option String) (properties : List String)
  | edgeList (vertex : Option String) (direction : String) (label : Option String) (limit : Nat)
  | query (script : String) (chunks : Bool) (maxBatches : Nat)
  | graphList
  | graphDelete (name : String) (force : Bool)
  | graphStats
  | graphPipes
  | importFile (path : String) (merge : Bool)
  | exportFile (path : Option String) (compact : Bool)
  | configGet (key : SettingKey)
  | configSet (key : SettingKey) (value : String)
  | configUnset (key : SettingKey)
  | configList
  | configPath
  | configInit (force : Bool)
  | completions (shell : String)

/-- A command and the root options that concern it. -/
structure Invocation where
  graph : Option String
  dataDir : Option String
  format : String
  command : Command

namespace Command

def shells : List String := ["bash", "elvish", "fish", "powershell", "zsh"]

def settingNames : List String := SettingKey.all.map SettingKey.name

def grammar : Grammar :=
  let id : OptionSpec := ⟨"id", none, .single .text⟩
  let prop : OptionSpec := ⟨"prop", some 'p', .repeated .text⟩
  let label : OptionSpec := ⟨"label", some 'l', .single .text⟩
  let limit (letter : Char) : OptionSpec := ⟨"limit", some letter, .single .number⟩
  let flag (name : String) : OptionSpec := ⟨name, none, .flag⟩
  .group [
    ("vertex", .group [
      ("add", .leaf [id, prop] []),
      ("list", .leaf [limit 'l'] []),
      ("get", .leaf [] [.text])]),
    ("edge", .group [
      ("add", .leaf [label, prop] [.text, .text]),
      ("list", .leaf [⟨"vertex", none, .single .text⟩, ⟨"direction", none, .single .text⟩, label,
        limit 'n'] [])]),
    ("query", .leaf [flag "chunks", ⟨"max-batches", none, .single .number⟩] [.text]),
    ("graph", .group [
      ("list", .leaf [] []),
      ("delete", .leaf [flag "force"] [.text]),
      ("stats", .leaf [] []),
      ("pipetypes", .leaf [] [])]),
    ("import", .leaf [flag "merge"] [.path]),
    ("export", .leaf [⟨"output", some 'o', .single .path⟩, flag "compact"] []),
    ("config", .group [
      ("get", .leaf [] [.oneOf settingNames]),
      ("set", .leaf [] [.oneOf settingNames, .text]),
      ("unset", .leaf [] [.oneOf settingNames]),
      ("list", .leaf [] []),
      ("path", .leaf [] []),
      ("init", .leaf [flag "force"] [])]),
    ("completions", .leaf [⟨"bin-name", none, .single .text⟩] [.oneOf shells])]

/-- The count given for an option, or its default. -/
def countOf (s : Scan) (name : String) (default : Nat) : Nat :=
  ((s.value? name).bind readCount?).getD default

/-- The command of a complete scan. -/
def ofScan? (s : Scan) : Option Command :=
  match s.commands, s.words with
  | ["vertex", "add"], [] => some (vertexAdd (s.value? "id") (s.values "prop"))
  | ["vertex", "list"], [] => some (vertexList (countOf s "limit" 100))
  | ["vertex", "get"], [id] => some (vertexGet id)
  | ["edge", "add"], [tail, head] =>
    some (edgeAdd tail head (s.value? "label") (s.values "prop"))
  | ["edge", "list"], [] =>
    some (edgeList (s.value? "vertex") ((s.value? "direction").getD "both") (s.value? "label")
      (countOf s "limit" 100))
  | ["query"], [script] => some (query script (s.has "chunks") (countOf s "max-batches" 1000))
  | ["graph", "list"], [] => some graphList
  | ["graph", "delete"], [name] => some (graphDelete name (s.has "force"))
  | ["graph", "stats"], [] => some graphStats
  | ["graph", "pipetypes"], [] => some graphPipes
  | ["import"], [path] => some (importFile path (s.has "merge"))
  | ["export"], [] => some (exportFile (s.value? "output") (s.has "compact"))
  | ["config", "get"], [key] => (SettingKey.ofName? key).map configGet
  | ["config", "set"], [key, value] => (SettingKey.ofName? key).map (configSet · value)
  | ["config", "unset"], [key] => (SettingKey.ofName? key).map configUnset
  | ["config", "list"], [] => some configList
  | ["config", "path"], [] => some configPath
  | ["config", "init"], [] => some (configInit (s.has "force"))
  | ["completions"], [shell] => some (completions shell)
  | _, _ => none

end Command

/-- Reads the arguments of the program. A data directory that they do not give is taken from
the environment. -/
def Invocation.read (env : Environment) (args : List String) : Except Stop Invocation := do
  let s ← Command.grammar.read args
  match Command.ofScan? s with
  | some command =>
    return ⟨s.value? "graph", (s.value? "data-dir").or (env.get? "PIPEGRAPH_DATA_DIR"),
      (s.value? "format").getD "table", command⟩
  | none => .error .badUsage

end GraphWalk.Cli
