import GraphWalk.Graph.Record
import GraphWalk.Text.Blank

/-!
# Ids and properties as words

A word that reads as a 64-bit integer is an integer id, any other word a text id. A property is
a word `name=value`; the value is JSON where it reads as such and otherwise the text itself.
-/

namespace GraphWalk

/-- Decimal digits with an optional sign, between `-2^63` and `2^63 - 1`. -/
def readInteger? (word : List Char) : Option Int :=
  let (negative, digits) := match word with
    | '-' :: rest => (true, rest)
    | '+' :: rest => (false, rest)
    | rest => (false, rest)
  if digits.isEmpty || !digits.all Json.isDigit then none
  else
    let magnitude := digits.foldl (fun acc d => acc * 10 + Json.digitValue d) 0
    let n : Int := if negative then -magnitude else magnitude
    if VertexId.inRange n then some n else none

def VertexId.ofWord (word : String) : VertexId :=
  match readInteger? word.toList with
  | some n => .int n
  | none => .text word

namespace Cli

inductive PropertyError
  | noEquals (word : String)
  | noName (word : String)
  | reservedVertexName (name : String)
  | reservedEdgeName (name : String)
  deriving DecidableEq

namespace PropertyError

def message : PropertyError → String
  | noEquals word => s!"Expected key=value, got '{word}'"
  | noName word => s!"Empty property name in '{word}'"
  | reservedVertexName name =>
    s!"'{name}' is reserved and cannot be a vertex property; set the id with --id"
  | reservedEdgeName name =>
    s!"'{name}' is reserved and cannot be an edge property; " ++
      "give endpoints as arguments and the label with --label"

end PropertyError

/-- Reads `name=value`. The name ends at the first equals sign and is trimmed. -/
def readProperty (word : String) : Except PropertyError (String × Json) :=
  let cs := word.toList
  if '=' ∉ cs then .error (.noEquals word)
  else
    let name := Text.trim (cs.takeWhile (· ≠ '='))
    let value := String.ofList ((cs.dropWhile (· ≠ '=')).drop 1)
    if name.isEmpty then .error (.noName word)
    else .ok (String.ofList name, (Json.ofString? value).getD (.str value))

/-- Of a repeated name the last value stays. -/
def readProperties (words : List String) : Except PropertyError (Table Json) :=
  (words.mapM readProperty).map Table.ofList

/-- Properties for a new vertex. Reserved names are refused once all words are read. -/
def vertexProperties (words : List String) : Except PropertyError (Table Json) := do
  let props ← readProperties words
  match VertexRecord.reservedNames.find? props.contains with
  | some name => .error (.reservedVertexName name)
  | none => .ok props

/-- Properties for a new edge. Reserved names are refused once all words are read. -/
def edgeProperties (words : List String) : Except PropertyError (Table Json) := do
  let props ← readProperties words
  match EdgeRecord.reservedNames.find? props.contains with
  | some name => .error (.reservedEdgeName name)
  | none => .ok props

end Cli

end GraphWalk
