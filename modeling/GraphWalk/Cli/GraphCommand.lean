import GraphWalk.Cli.Command
import GraphWalk.Cli.Failure
import GraphWalk.Cli.Report
import GraphWalk.Text.Lower
import GraphWalk.Text.Quoted
import GraphWalk.Walk.Query

/-!
# Commands on stored graphs

Every command loads what it needs from a store, and only then may fail; a command that changes
a graph stores it as its last act. A failing command therefore leaves the store as it was.
-/

namespace GraphWalk.Cli

/-- What a command works with: the name of the selected graph, the format of rows, the files
it can read, and how many questions one run of a query may ask. -/
structure Context where
  graphName : String
  format : Format
  readFile : String → Except Fault String
  bound : Nat

/-- What a command that succeeds leaves: the text it prints, the store, and a file to be written
as path and text. -/
structure Effect where
  output : String
  store : Store
  file : Option (String × String)

abbrev Attempt := Except Failure Effect

/-- A command that only prints lines. -/
def printed (s : Store) (lines : List String) : Effect :=
  ⟨String.join (lines.map (· ++ "\n")), s, none⟩

def lift {ε α : Type} (cause : ε → Failure) (r : Except ε α) : Except Failure α :=
  r.mapError cause

namespace Context

/-- The selected graph; one that is not stored is empty. -/
def load (c : Context) (s : Store) : Except Failure Graph :=
  match s.fetch (some c.graphName) with
  | .ok (some loaded) => .ok loaded.graph
  | .ok none => .ok ∅
  | .error cause => .error (.graph cause)

def save (c : Context) (s : Store) (g : Graph) : Store := s.put (some c.graphName) g

end Context

def unlabeled : String := "(unlabeled)"

def addVertex (c : Context) (s : Store) (id : Option String) (words : List String) : Attempt := do
  let g ← c.load s
  let props ← lift .property (vertexProperties words)
  let (id, g) ← lift .graph (g.addVertex ⟨id.map VertexId.ofWord, props⟩)
  return printed (c.save s g) [s!"Created vertex: {id.key}"]

def addEdge (c : Context) (s : Store) (tail head : String) (label : Option String)
    (words : List String) : Attempt := do
  let g ← c.load s
  let props ← lift .property (edgeProperties words)
  let (_, g) ← lift .graph (g.addEdge ⟨VertexId.ofWord tail, VertexId.ofWord head, label, props⟩)
  return printed (c.save s g) [s!"Created edge: {tail} -[{label.getD unlabeled}]-> {head}"]

/-- Rows as a report, or a sentence in place of no rows. -/
def rowsOr (c : Context) (rows : List Json) (columns : List String) (sentence : String) : String :=
  if rows.isEmpty then sentence else report rows columns c.format

def listVertices (c : Context) (s : Store) (limit : Nat) : Attempt := do
  let g ← c.load s
  let rows := (g.vertices.toList.take limit).map fun v =>
    Json.object [("_id", v.id.toJson), ("properties", Json.ofTable v.props)]
  return printed s
    [rowsOr c rows ["_id", "properties"] s!"No vertices found in graph '{c.graphName}'"]

def getVertex (c : Context) (s : Store) (word : String) : Attempt := do
  let g ← c.load s
  match (g.find? (VertexId.ofWord word)).bind (g.vertices[·]?) with
  | none => return printed s [s!"Vertex '{word}' not found in graph '{c.graphName}'"]
  | some v =>
    return printed s ([s!"Vertex: {v.id.key}"]
      ++ (v.props.entries.map fun (name, value) => s!"  {name}: {value.compact}")
      ++ [s!"  Out edges: {v.outEdges.size}", s!"  In edges: {v.inEdges.size}"])

def directionsOf (word : String) : Except Failure (List Direction) :=
  let word := Text.lower word
  if word = "out" then .ok [.outgoing]
  else if word = "in" then .ok [.incoming]
  else if word = "both" then .ok [.outgoing, .incoming]
  else .error (.unknownDirection word)

/-- The edges at a vertex in some directions, or all edges. -/
def listedEdges (c : Context) (g : Graph) (vertex : Option String)
    (directions : List Direction) : Except Failure (List Edge) :=
  match vertex with
  | none => .ok g.edges.toList
  | some word =>
    match g.find? (VertexId.ofWord word) with
    | none => .error (.noSuchVertex word c.graphName)
    | some v => .ok ((directions.flatMap (g.adjacent v)).filterMap (g.edges[·]?))

def edgeRow (g : Graph) (e : Edge) : Json :=
  Json.object [("_out", (g.idOf e.tail).toJson), ("_label", Json.ofOption (e.label.map .str)),
    ("_in", (g.idOf e.head).toJson), ("properties", Json.ofTable e.props)]

/-- The directions matter only with a vertex, but they are read in any case. -/
def listEdges (c : Context) (s : Store) (vertex : Option String) (direction : String)
    (label : Option String) (limit : Nat) : Attempt := do
  let g ← c.load s
  let directions ← directionsOf direction
  let edges ← listedEdges c g vertex directions
  let kept := (edges.filter fun e => label.isNone || e.label == label).take limit
  return printed s [rowsOr c (kept.map (edgeRow g)) ["_out", "_label", "_in", "properties"]
    s!"No edges found in graph '{c.graphName}'"]

def outputRows (g : Graph) (outputs : List Output) : List Json :=
  outputs.zipIdx.map fun (o, n) => Json.object [("#", .int (n + 1 : Nat)), ("result", o.toJson g)]

/-- Runs a query until a batch is empty, at most `left` times, and prints the batches. -/
def printBatches (c : Context) (chunks : Bool) (q : Query) (number : Nat) :
    Nat → Except Failure (List String)
  | 0 => .ok []
  | left + 1 =>
    match q.run c.bound with
    | none => .error .endlessQuery
    | some r =>
      let rows := outputRows q.graph r.outputs
      if rows.isEmpty then .ok (if number = 1 then ["No results"] else [])
      else do
        let rest ← printBatches c chunks r.query (number + 1) left
        return (if chunks then [s!"Batch {number}:"] else [])
          ++ report rows ["#", "result"] c.format :: rest

def runQuery (c : Context) (s : Store) (script : String) (chunks : Bool) (maxBatches : Nat) :
    Attempt := do
  -- Faults of the script are told before those of the stored text.
  let steps ← lift .script (Script.parse script)
  let g ← c.load s
  let q := Query.new g Registry.standard (Script.program steps)
  return printed s (← printBatches c chunks q 1 (if chunks then max 1 maxBatches else 1))

def listGraphs (c : Context) (s : Store) : Effect :=
  match s.graphNames with
  | [] =>
    printed s ["No graphs found. Add a vertex with 'pipegraph vertex add' or import one"]
  | names =>
    printed s (s!"Graphs ({names.length} found):"
      :: names.map fun name => s!"  {name}" ++ if name = c.graphName then " (current)" else "")

def deleteGraph (s : Store) (name : String) (force : Bool) : Attempt :=
  match s.fetch (some name) with
  | .error cause => .error (.graph cause)
  | .ok none => .ok (printed s [s!"Graph '{name}' not found"])
  | .ok (some loaded) =>
    let vertices := loaded.graph.vertices.size
    let edges := loaded.graph.edges.size
    if force then
      .ok (printed (s.remove (some name)).2
        [s!"Deleted graph: {name} ({vertices} vertices, {edges} edges)"])
    else
      .ok (printed s [s!"Graph '{name}' has {vertices} vertices and {edges} edges",
        "Use --force to confirm deletion"])

/-- How many edges carry each label; edges without one are counted under a stand-in. -/
def labelCounts (g : Graph) : Table Nat :=
  g.edges.toList.foldl (fun t e =>
    let label := e.label.getD unlabeled
    t.insert label ((t.get? label).getD 0 + 1)) ∅

def graphStats (c : Context) (s : Store) : Attempt := do
  let g ← c.load s
  return printed s ([s!"Stats for graph '{c.graphName}':", s!"  Vertices: {g.vertices.size}",
    s!"  Edges: {g.edges.size}"]
    ++ (labelCounts g).entries.map fun (label, count) => s!"    {label}: {count}")

def listPipes (c : Context) (s : Store) : Attempt := do
  let _ ← c.load s
  return printed s Registry.standard.names

def importFile (c : Context) (s : Store) (path : String) (merge : Bool) : Attempt := do
  -- The file is read and checked before the stored graph is loaded.
  let text ← lift .disk (c.readFile path)
  let flat ← match FlatGraph.ofString? text with
    | some flat => .ok flat
    | none => .error .malformedFile
  let g ← c.load s
  if 0 < g.vertices.size && !merge then
    throw (.graphNotEmpty c.graphName g.vertices.size)
  let vertices := g.addVertices flat.vertices
  let edges := vertices.graph.addEdges flat.edges
  return printed (c.save s edges.graph)
    [s!"Imported {vertices.added} vertices and {edges.added} edges from " ++
      s!"{Text.quoted path} into graph '{c.graphName}'"]

def exportFile (c : Context) (s : Store) (path : Option String) (compact : Bool) : Attempt := do
  let g ← c.load s
  let flat := g.toFlat.toJson
  let text := if compact then flat.compact else flat.pretty
  match path with
  | some path =>
    return { printed s [s!"Exported to {Text.quoted path}"] with file := some (path, text) }
  | none => return printed s [text]

/-- A command on stored graphs; `none` for commands that touch no store. -/
def Command.onStore? (c : Context) (s : Store) : Command → Option Attempt
  | .vertexAdd id words => some (addVertex c s id words)
  | .vertexList limit => some (listVertices c s limit)
  | .vertexGet word => some (getVertex c s word)
  | .edgeAdd tail head label words => some (addEdge c s tail head label words)
  | .edgeList vertex direction label limit => some (listEdges c s vertex direction label limit)
  | .query script chunks maxBatches => some (runQuery c s script chunks maxBatches)
  | .graphList => some (.ok (listGraphs c s))
  | .graphDelete name force => some (deleteGraph s name force)
  | .graphStats => some (Cli.graphStats c s)
  | .graphPipes => some (listPipes c s)
  | .importFile path merge => some (Cli.importFile c s path merge)
  | .exportFile path compact => some (Cli.exportFile c s path compact)
  | _ => none

end GraphWalk.Cli
