import GraphWalk.Cli.Disk
import GraphWalk.Cli.Settings
import GraphWalk.Cli.Word
import GraphWalk.Walk.Script

/-!
# Why a command fails

Each cause has one message, which the program prints behind `Error: `.
-/

namespace GraphWalk.Cli

inductive Failure
  | graph (cause : GraphError)
  | property (cause : PropertyError)
  | script (cause : ScriptError)
  | settings (cause : SettingsError)
  | disk (cause : Fault)
  | malformedFile
  | graphNotEmpty (name : String) (vertices : Nat)
  | unknownDirection (given : String)
  | noSuchVertex (word name : String)
  | settingsExist (path : String)
  | endlessQuery

namespace Failure

def message : Failure → String
  | graph cause => cause.message
  | property cause => cause.message
  | script cause => cause.message
  | settings cause => cause.message
  | disk cause => cause.message
  | malformedFile => GraphError.malformedText.message
  | graphNotEmpty name vertices =>
    s!"Graph '{name}' already has {vertices} vertices. Use --merge to add to existing data."
  | unknownDirection given => s!"Unknown direction '{given}': use out, in or both"
  | noSuchVertex word name => s!"Vertex '{word}' not found in graph '{name}'"
  | settingsExist path => s!"{path} exists; pass --force to replace it"
  | endlessQuery => "The query does not come to an end"

/-- Whether the cause is a text that is not the JSON it should be. -/
def isMalformedJson : Failure → Bool
  | graph .malformedText | malformedFile => true
  | _ => false

end Failure

end GraphWalk.Cli
