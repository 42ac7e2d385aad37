import GraphWalk.Walk.Machine
import GraphWalk.Walk.Registry

/-!
# Queries

A query is a program over one graph, with what its steps remember. The first run changes the
program with the passes of the registry; later runs go on where the one before stopped. The
steps of a program that no registry entry names hand every walker on.
-/

namespace GraphWalk

inductive Output
  | vertex (number : Nat)
  | value (v : Json)

namespace Output

/-- The result of a walker, or else the vertex at which it stands. -/
def ofWalker (w : Walker) : Output :=
  match w.result with
  | some v => value v
  | none => vertex w.vertex

/-- A vertex as one object of its id and its attributes. -/
def vertexJson (v : Vertex) : Json := Json.ofTable (v.props.insert "_id" v.id.toJson)

def toJson (g : Graph) : Output → Json
  | vertex number => vertexJson (g.vertices[number]?.getD default)
  | value v => v

end Output

/-- A program written as a chain from a graph, whose first step may go by its short name. -/
def Program.ofChain : Program → Program
  | step :: rest => (if step.pipe = "v" then { step with pipe := "vertex" } else step) :: rest
  | [] => []

structure Query where
  graph : Graph
  registry : Registry
  program : Program
  prepared : Bool
  memories : Array Memory
  origins : Origins

/-- What the steps of a running query share. `notices` stand newest first. -/
structure World where
  memories : Array Memory
  origins : Origins
  notices : List Notice

/-- A batch of outputs with the query as it stands afterwards, what was reported, and every
question that was asked, in order. -/
structure Run where
  query : Query
  outputs : List Output
  notices : List Notice
  history : List (Exchange Walker)

namespace Query

def new (g : Graph) (r : Registry) (program : Program) : Query :=
  ⟨g, r, program, false, #[], #[]⟩

/-- Transforms the program, unless that has been done, and provides a memory for every step. -/
def prepare (q : Query) : Query :=
  if q.prepared then q
  else
    let program := q.registry.transform q.program
    { q with program, prepared := true, memories := Array.replicate program.length .untouched }

/-- The pipe of every step, with its arguments. -/
def stages (q : Query) : Array (Pipe × List Arg) :=
  (q.program.map fun step =>
    ((q.registry.pipe? step.pipe).getD Pipe.passthrough, step.args)).toArray

/-- Asks one stage and files what it leaves behind. -/
def askStage (g : Graph) (stages : Array (Pipe × List Arg)) (i : Nat) (input : Option Walker)
    (w : World) : Reply Walker × World :=
  match stages[i]? with
  | none => (.nothing, w)
  | some (pipe, args) =>
    let a := pipe g args input (w.memories[i]?.getD .untouched) w.origins
    (a.reply, ⟨w.memories.setIfInBounds i a.memory, a.origins, a.notices.reverse ++ w.notices⟩)

def machine (q : Query) : Machine Walker World :=
  let stages := q.stages
  ⟨q.program.length - 1, askStage q.graph stages⟩

/-- Steps whose pipe is not registered. -/
def unknownPipes (q : Query) : List Notice :=
  (q.program.filter fun step => (q.registry.pipe? step.pipe).isNone).map (.unknownPipe ·.pipe)

/-- One run; `none` if it asks more than `bound` questions. -/
def run (q : Query) (bound : Nat) : Option Run :=
  let q := q.prepare
  -- An empty program has no last step to start at.
  if q.program.isEmpty then some ⟨q, [], [], []⟩
  else
    (q.machine.run bound ⟨q.memories, q.origins, []⟩).map fun s =>
      ⟨{ q with memories := s.world.memories, origins := s.world.origins },
        s.results.reverse.map Output.ofWalker,
        q.unknownPipes ++ s.world.notices.reverse, s.history.reverse⟩

end Query

end GraphWalk
