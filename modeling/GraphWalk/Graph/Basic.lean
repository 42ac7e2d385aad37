import GraphWalk.Graph.Record

/-!
# The graph store

Vertices and edges are numbered in the order in which they were added, and refer to each other
by number. An index finds the vertex of an id key, and every vertex lists the numbers of the
edges that leave and enter it, oldest first. A failing insertion leaves no trace.
-/

namespace GraphWalk

inductive Direction
  | outgoing
  | incoming
  deriving DecidableEq

namespace Direction

def opposite : Direction → Direction
  | outgoing => incoming
  | incoming => outgoing

def name : Direction → String
  | outgoing => "out"
  | incoming => "in"

end Direction

inductive GraphError
  | vertexExists (id : VertexId)
  | missingEndpoint (side : Direction) (id : VertexId)
  | invalidId (given : Json)
  | unknownPipe (name : String)
  | malformedText

namespace GraphError

def message : GraphError → String
  | vertexExists id => s!"A vertex with id {id.key} already exists"
  | missingEndpoint side id => s!"That edge's {side.name} vertex wasn't found: {id.key}"
  | invalidId given => s!"Invalid vertex id: {given.compact}"
  | unknownPipe name => s!"Unrecognized pipe type: {name}"
  | malformedText => "Serialization error"

end GraphError

/-- What is reported without stopping the operation that met it. -/
inductive Notice
  | skippedVertex (cause : GraphError)
  | skippedEdge (cause : GraphError)
  | droppedAttribute (name : String)
  | ignoredSelector (cause : GraphError)
  | unknownPipe (name : String)
  | invalidFilter (shown : String)

namespace Notice

inductive Level
  | warning
  | error
  deriving DecidableEq

def level : Notice → Level
  | skippedVertex _ | skippedEdge _ | droppedAttribute _ | ignoredSelector _ => .warning
  | unknownPipe _ | invalidFilter _ => .error

def message : Notice → String
  | skippedVertex cause => s!"Skipping vertex: {cause.message}"
  | skippedEdge cause => s!"Skipping edge: {cause.message}"
  | droppedAttribute name => s!"Dropping reserved edge attribute '{name}'"
  | ignoredSelector cause => s!"Ignoring vertex selector: {cause.message}"
  | unknownPipe name => (GraphError.unknownPipe name).message
  | invalidFilter shown => s!"Filter arg is not a record or predicate: {shown}"

end Notice

def VertexId.parseJson (v : Json) : Except GraphError VertexId :=
  match VertexId.ofJson? v with
  | some id => .ok id
  | none => .error (.invalidId v)

structure Vertex where
  id : VertexId
  props : Table Json
  outEdges : Array Nat
  inEdges : Array Nat
  deriving Inhabited

/-- An edge; `tail` and `head` are vertex numbers. -/
structure Edge where
  label : Option String
  tail : Nat
  head : Nat
  props : Table Json
  deriving Inhabited

/-- Partial equality of records: every name asked for is present with an equal value. -/
def recordMatches (filter : List (String × Json)) (lookup : String → Option Json) : Bool :=
  filter.all fun (name, expected) => (lookup name).any (· == expected)

namespace Vertex

/-- An attribute; `_id` gives the id. -/
def get? (v : Vertex) (name : String) : Option Json :=
  if name = "_id" then some v.id.toJson else v.props.get? name

def fits (v : Vertex) (filter : List (String × Json)) : Bool := recordMatches filter v.get?

def toRecord (v : Vertex) : VertexRecord := ⟨some v.id, v.props⟩

/-- The numbers of the edges that leave or enter the vertex. -/
def edges (v : Vertex) : Direction → Array Nat
  | .outgoing => v.outEdges
  | .incoming => v.inEdges

def addOutEdge (v : Vertex) (number : Nat) : Vertex :=
  { v with outEdges := v.outEdges.push number }

def addInEdge (v : Vertex) (number : Nat) : Vertex :=
  { v with inEdges := v.inEdges.push number }

end Vertex

/-- The vertex at one end: the tail is where the edge is outgoing. -/
def Edge.endpoint (e : Edge) : Direction → Nat
  | .outgoing => e.tail
  | .incoming => e.head

structure Graph where
  vertices : Array Vertex
  edges : Array Edge
  index : Table Nat
  nextId : Nat

namespace Graph

def empty : Graph := ⟨#[], #[], ∅, 1⟩

instance : EmptyCollection Graph := ⟨empty⟩
instance : Inhabited Graph := ⟨empty⟩

/-- The number of the vertex that the id names. -/
def find? (g : Graph) (id : VertexId) : Option Nat := g.index.get? id.key

/-- The first number from `n` on whose id is not taken, within a bounded search. -/
def firstFree (taken : Nat → Bool) : Nat → Nat → Nat
  | 0, n => n
  | bound + 1, n => if taken n then firstFree taken bound (n + 1) else n

/-- The number that names the next vertex without an id of its own. More numbers are tried
than ids are taken, so the search finds a free one. -/
def freshNumber (g : Graph) : Nat :=
  firstFree (fun n => (g.find? (.int n)).isSome) (g.index.size + 1) g.nextId

def insertVertex (g : Graph) (id : VertexId) (props : Table Json) : Graph :=
  { g with
    vertices := g.vertices.push ⟨id, props.eraseAll VertexRecord.reservedNames, #[], #[]⟩
    index := g.index.insert id.key g.vertices.size }

theorem find?_insertVertex (g : Graph) (id k : VertexId) (props : Table Json) :
    (g.insertVertex id props).find? k =
      if id.key = k.key then some g.vertices.size else g.find? k :=
  Table.get?_insert g.index id.key k.key g.vertices.size

/-- Adds a vertex and gives its id. Reserved attributes are left out. -/
def addVertex (g : Graph) (r : VertexRecord) : Except GraphError (VertexId × Graph) :=
  match r.id with
  | some id =>
    if (g.find? id).isSome then .error (.vertexExists id) else .ok (id, g.insertVertex id r.props)
  | none =>
    let n := g.freshNumber
    let id := VertexId.int n
    .ok (id, { g with nextId := n + 1 }.insertVertex id r.props)

def insertEdge (g : Graph) (e : Edge) : Graph :=
  let number := g.edges.size
  { g with
    edges := g.edges.push e
    vertices := (g.vertices.modify e.tail (·.addOutEdge number)).modify e.head
      (·.addInEdge number) }

theorem find?_insertEdge (g : Graph) (e : Edge) (k : VertexId) :
    (g.insertEdge e).find? k = g.find? k := rfl

/-- Adds an edge between vertices that are present and gives its number. The head is looked up
first. Reserved attributes are left out. -/
def addEdge (g : Graph) (r : EdgeRecord) : Except GraphError (Nat × Graph) :=
  match g.find? r.head with
  -- When both ends are missing, the head is reported.
  | none => .error (.missingEndpoint .incoming r.head)
  | some head =>
    match g.find? r.tail with
    | none => .error (.missingEndpoint .outgoing r.tail)
    | some tail =>
      .ok (g.edges.size,
        g.insertEdge ⟨r.label, tail, head, r.props.eraseAll EdgeRecord.reservedNames⟩)

end Graph

/-- The attributes of an edge record that adding it leaves out. -/
def EdgeRecord.notices (r : EdgeRecord) : List Notice :=
  (EdgeRecord.reservedNames.filter r.props.contains).map .droppedAttribute

namespace Graph

/-- A graph after a series of insertions, the number of those that succeeded, and what was
reported on the way. -/
structure Bulk where
  graph : Graph
  added : Nat
  notices : List Notice

/-- Adds records one by one and passes over those that fail. -/
def addVertices (g : Graph) (records : List VertexRecord) : Bulk :=
  records.foldl (fun b r =>
    match b.graph.addVertex r with
    | .ok (_, g) => ⟨g, b.added + 1, b.notices⟩
    | .error cause => { b with notices := b.notices ++ [.skippedVertex cause] }) ⟨g, 0, []⟩

/-- Adds records one by one and passes over those that fail. -/
def addEdges (g : Graph) (records : List EdgeRecord) : Bulk :=
  records.foldl (fun b r =>
    match b.graph.addEdge r with
    | .ok (_, g) => ⟨g, b.added + 1, b.notices ++ r.notices⟩
    | .error cause => { b with notices := b.notices ++ r.notices ++ [.skippedEdge cause] })
    ⟨g, 0, []⟩

/-- All vertices first, then all edges; `added` counts both. -/
def addAll (g : Graph) (flat : FlatGraph) : Bulk :=
  let vertices := g.addVertices flat.vertices
  let edges := vertices.graph.addEdges flat.edges
  ⟨edges.graph, vertices.added + edges.added, vertices.notices ++ edges.notices⟩

def ofFlat (flat : FlatGraph) : Bulk := empty.addAll flat

/-- The graph and what was reported while it was rebuilt. -/
def ofString (text : String) : Except GraphError Bulk :=
  match FlatGraph.ofString? text with
  | some flat => .ok (ofFlat flat)
  | none => .error .malformedText

/-- The id of a vertex by its number. -/
def idOf (g : Graph) (v : Nat) : VertexId := (g.vertices[v]?.getD default).id

def toFlat (g : Graph) : FlatGraph where
  vertices := g.vertices.toList.map Vertex.toRecord
  edges := g.edges.toList.map fun e => ⟨g.idOf e.tail, g.idOf e.head, e.label, e.props⟩

def text (g : Graph) : String := g.toFlat.text

/-- The numbers of the vertices that fit a record. -/
def search (g : Graph) (filter : List (String × Json)) : List Nat :=
  (List.range g.vertices.size).filter fun v => (g.vertices[v]?).any (·.fits filter)

/-- The edges at a vertex in one direction, oldest first. -/
def adjacent (g : Graph) (v : Nat) (d : Direction) : List Nat :=
  ((g.vertices[v]?).map (·.edges d)).getD #[] |>.toList

/-- A property of an edge; `_label`, `_out` and `_in` give the label and the endpoint ids. -/
def edgeGet? (g : Graph) (e : Edge) (name : String) : Option Json :=
  if name = "_label" then e.label.map .str
  else if name = "_out" then some (g.idOf e.tail).toJson
  else if name = "_in" then some (g.idOf e.head).toJson
  else e.props.get? name

def edgeFits (g : Graph) (e : Edge) (filter : List (String × Json)) : Bool :=
  recordMatches filter (g.edgeGet? e)

end Graph

end GraphWalk
