import GraphWalk.Graph.Id
import GraphWalk.Json.Reader

/-!
# Vertex and edge records, and the flat form of a graph

A record is one object: reserved names hold the id, or the endpoints and the label, and every
other name is an attribute. The flat form `V`, `E` lists the records of a whole graph. Reading
refuses a repeated reserved name, while of a repeated attribute the last value stays; members
of the flat form other than `V` and `E` are passed over without being read as values.
-/

namespace GraphWalk

/-- A vertex to be added, or as written. Without an id the graph assigns one. -/
structure VertexRecord where
  id : Option VertexId
  props : Table Json

/-- An edge from its tail to its head. -/
structure EdgeRecord where
  tail : VertexId
  head : VertexId
  label : Option String
  props : Table Json

structure FlatGraph where
  vertices : List VertexRecord
  edges : List EdgeRecord

namespace Json.Document

/-- The members of an object whose names all spell text. -/
def namedMembers? : Document → Option (List (String × Document))
  | object members => members.mapM fun (name, d) => name.map fun name => (name, d)
  | _ => none

/-- The member of a name that may be missing and must not be repeated. -/
def member? (members : List (String × Document)) (name : String) : Option (Option Document) :=
  match members.filter fun e => e.1 = name with
  | [] => some none
  | [e] => some (some e.2)
  | _ => none

/-- The values of the members whose names are not reserved. -/
def attributes? (room : Nat) (members : List (String × Document)) (reserved : List String) :
    Option (Table Json) := do
  let fields ← (members.filter fun e => e.1 ∉ reserved).mapM fun e =>
    (e.2.value? room).map fun v => (e.1, v)
  return Table.ofList fields

def id? (room : Nat) (d : Document) : Option VertexId := (d.value? room).bind VertexId.ofJson?

def isNull : Document → Bool
  | scalar (some .null) => true
  | _ => false

end Json.Document

open Json (Document)

namespace VertexRecord

/-- Names that no attribute of a stored vertex has. -/
def reservedNames : List String := ["_id", "_in", "_out"]

def toJson (r : VertexRecord) : Json :=
  .obj ((r.id.map fun id => ("_id", id.toJson)).toList ++ r.props.entries)

/-- Only `_id` is set apart here; a null id is an absent one. -/
def ofDocument? (room : Nat) (d : Document) : Option VertexRecord := do
  -- The record itself takes one level of nesting.
  let room + 1 := room | none
  let members ← d.namedMembers?
  let id ← match ← Document.member? members "_id" with
    | none => some none
    | some d => if d.isNull then some none else (d.id? room).map some
  return ⟨id, ← Document.attributes? room members ["_id"]⟩

def ofString? (text : String) : Option VertexRecord :=
  (Document.ofString? text).bind (ofDocument? Json.maxNesting)

end VertexRecord

namespace EdgeRecord

/-- Names that no attribute of a stored edge has. -/
def reservedNames : List String := ["_in", "_out", "_label"]

def toJson (r : EdgeRecord) : Json :=
  .obj (("_out", r.tail.toJson) :: ("_in", r.head.toJson)
    :: (r.label.map fun label => ("_label", Json.str label)).toList ++ r.props.entries)

/-- A label is a string; a null label is an absent one. -/
def label? : Document → Option (Option String)
  | .scalar (some .null) => some none
  | .scalar (some (.str s)) => some (some s)
  | _ => none

def ofDocument? (room : Nat) (d : Document) : Option EdgeRecord := do
  let room + 1 := room | none
  let members ← d.namedMembers?
  let tail ← (← Document.member? members "_out").bind (·.id? room)
  let head ← (← Document.member? members "_in").bind (·.id? room)
  let label ← match ← Document.member? members "_label" with
    | none => some none
    | some d => label? d
  return ⟨tail, head, label, ← Document.attributes? room members reservedNames⟩

def ofString? (text : String) : Option EdgeRecord :=
  (Document.ofString? text).bind (ofDocument? Json.maxNesting)

end EdgeRecord

/-- Equality of attributes, entry by entry. -/
def Table.same (s t : Table Json) : Bool := Json.sameFields s.entries t.entries

def VertexRecord.same (a b : VertexRecord) : Bool :=
  (match a.id, b.id with
    | none, none => true
    | some i, some j => i == j
    | _, _ => false) && a.props.same b.props

def EdgeRecord.same (a b : EdgeRecord) : Bool :=
  a.tail == b.tail && a.head == b.head && a.label == b.label && a.props.same b.props

namespace FlatGraph

/-- Equality of flat forms; ids are compared as names. -/
def same (a b : FlatGraph) : Bool :=
  a.vertices.length == b.vertices.length && a.edges.length == b.edges.length
    && (a.vertices.zip b.vertices).all (fun p => p.1.same p.2)
    && (a.edges.zip b.edges).all (fun p => p.1.same p.2)

def toJson (g : FlatGraph) : Json :=
  .obj [("V", .arr (g.vertices.map VertexRecord.toJson)),
    ("E", .arr (g.edges.map EdgeRecord.toJson))]

def text (g : FlatGraph) : String := g.toJson.compact

/-- A list of records; a missing list is an empty one, null is none. -/
def records? {α : Type} (read : Nat → Document → Option α) (room : Nat) :
    Option Document → Option (List α)
  | none => some []
  | some (.array items) => do
    let room + 1 := room | none
    items.mapM (read room)
  | some _ => none

/-- The object form, or the array form `[V, E]` of which the end may be missing. -/
def ofDocument? (room : Nat) (d : Document) : Option FlatGraph := do
  let room + 1 := room | none
  let (vertices, edges) ← match d with
    | .array [] => some (none, none)
    | .array [v] => some (some v, none)
    | .array [v, e] => some (some v, some e)
    | d => do
      let members ← d.namedMembers?
      pure (← Document.member? members "V", ← Document.member? members "E")
  return ⟨← records? VertexRecord.ofDocument? room vertices,
    ← records? EdgeRecord.ofDocument? room edges⟩

def ofString? (text : String) : Option FlatGraph :=
  (Document.ofString? text).bind (ofDocument? Json.maxNesting)

end FlatGraph

end GraphWalk
