import GraphWalk.Walk.Argument
import GraphWalk.Walk.Reply

/-!
# Pipes

A pipe is asked for a walker, with or without one handed in from its left, and replies. What it
has to remember between two questions is its memory: the vertices or edges still to be offered,
next first, or what it has seen or counted. A pipe that finds the memory of another kind starts
anew.
-/

namespace GraphWalk

/-- What a step remembers. The lists hold what is still to be offered, next first; `own` is for
pipes that are registered by hand. -/
inductive Memory
  | untouched
  | candidates (vertices : List Nat)
  | crossing (source : Option Walker) (edges : List Nat)
  | seen (vertices : List Nat)
  | taken (count : Nat)
  | spread (source : Option Walker) (vertices : List Nat)
  | own (value : Json) (walkers : List Walker)
  deriving Inhabited

def Memory.isUntouched : Memory → Bool
  | untouched => true
  | _ => false

/-- The answer of a pipe, and what the question left behind. -/
structure Answer where
  reply : Reply Walker
  memory : Memory
  origins : Origins
  notices : List Notice

abbrev Pipe := Graph → List Arg → Option Walker → Memory → Origins → Answer

namespace Pipe

/-- A pipe that keeps nothing in mind: without a walker it pulls, and `act` decides about a
walker handed in. -/
def stateless
    (act : Graph → List Arg → Walker → Origins → Reply Walker × Origins × List Notice) : Pipe :=
  fun g args input memory origins =>
    match input with
    | none => ⟨.pull, memory, origins, []⟩
    | some w =>
      let (reply, origins, notices) := act g args w origins
      ⟨reply, memory, origins, notices⟩

/-- Hands every walker on. It stands in for a pipe that is not registered. -/
def passthrough : Pipe := stateless fun _ _ w origins => (.walker w, origins, [])

/-- Starts a walker at each selected vertex, the last one first. -/
def vertex : Pipe := fun g args _ memory origins =>
  let (waiting, notices) : List Nat × List Notice := match memory with
    | .candidates waiting => (waiting, [])
    -- The first question selects; later ones take from what is left.
    | _ =>
      let (selected, notices) := g.select args
      (selected.reverse, notices)
  match waiting with
  | [] => ⟨.done, .candidates [], origins, notices⟩
  | v :: rest =>
    let (w, origins) := origins.start v
    ⟨.walker w, .candidates rest, origins, notices⟩

/-- Whether an edge passes the argument of a crossing: a label, a list of labels or a record.
Anything else lets every edge pass. -/
def edgePasses (g : Graph) (e : Edge) : Option Arg → Bool
  | some (.value (.str label)) => e.label == some label
  | some (.value (.arr labels)) =>
    e.label.any fun label => labels.any fun v => v.asString? == some label
  | some (.value (.obj filter)) => g.edgeFits e filter
  | _ => true

/-- The edges that a walker at `v` crosses, oldest first. -/
def crossed (g : Graph) (args : List Arg) (d : Direction) (v : Nat) : List Nat :=
  (g.adjacent v d).filter fun n => (g.edges[n]?).any fun e => edgePasses g e args.head?

/-- The vertex that crossing an edge in a direction leads to. -/
def landing (g : Graph) (d : Direction) (edge : Nat) : Nat :=
  (g.edges[edge]?.getD default).endpoint d.opposite

/-- Leads a walker over each of its passing edges, the newest first. -/
def cross (d : Direction) : Pipe := fun g args input memory origins =>
  let (source, edges) : Option Walker × List Nat := match memory with
    | .crossing source edges => (source, edges)
    | _ => (none, [])
  match source, edges with
  | some w, edge :: rest =>
    ⟨.walker (w.goto (landing g d edge)), .crossing (some w) rest, origins, []⟩
  | source, _ =>
    match input with
    | none => ⟨.pull, .crossing source [], origins, []⟩
    | some w =>
      match (crossed g args d w.vertex).reverse with
      | [] => ⟨.pull, .crossing (some w) [], origins, []⟩
      | edge :: rest =>
        ⟨.walker (w.goto (landing g d edge)), .crossing (some w) rest, origins, []⟩

/-- Makes a property of the vertex the walker's result. A missing or null property drops the
walker. -/
def property : Pipe := stateless fun g args w origins =>
  let value := do (← g.vertices[w.vertex]?).get? (← firstString? args)
  match value with
  | some v =>
    (if v.isNull then .nothing else .walker { w with result := some v }, origins, [])
  | none => (.nothing, origins, [])

/-- Lets the first walker at each vertex pass. -/
def unique : Pipe := fun _ _ input memory origins =>
  match input with
  | none => ⟨.pull, memory, origins, []⟩
  | some w =>
    let seen : List Nat := match memory with
      | .seen vertices => vertices
      | _ => []
    if seen.contains w.vertex then ⟨.pull, .seen seen, origins, []⟩
    else ⟨.walker w, .seen (w.vertex :: seen), origins, []⟩

/-- Keeps walkers whose vertex fits a record or satisfies a predicate. Any other argument is
reported and keeps every walker. -/
def filter : Pipe := stateless fun g args w origins =>
  let v := g.vertices[w.vertex]?.getD default
  match args.head? with
  | some (.value (.obj wanted)) => (if v.fits wanted then .walker w else .pull, origins, [])
  | some (.predicate test) => (if test v (origins.sight w) then .walker w else .pull, origins, [])
  | other => (.walker w, origins, [.invalidFilter ((other.map Arg.shown).getD "nothing")])

/-- The count given as first argument, an integer that is not negative. -/
def limit? (args : List Arg) : Option Nat :=
  match args with
  | .value (.int n) :: _ => if 0 ≤ n then some n.toNat else none
  | _ => none

/-- Lets a number of walkers pass, then is done and counts anew. Without a number every walker
passes. -/
def take : Pipe := fun _ args input memory origins =>
  let count : Nat := match memory with
    | .taken count => count
    | _ => 0
  -- The limit is checked before the input, so a walker handed in beyond it is lost.
  if (limit? args).any (· ≤ count) then ⟨.done, .taken 0, origins, []⟩
  else
    match input with
    | none => ⟨.pull, .taken count, origins, []⟩
    | some w => ⟨.walker w, .taken (count + 1), origins, []⟩

/-- Binds the walker's vertex under a label. -/
def bind : Pipe := stateless fun _ args w origins =>
  match firstString? args with
  | some label => (.walker w, origins.bind w label, [])
  | none => (.walker w, origins, [])

/-- Leads a walker back to the vertex bound under a label; without one it is dropped. -/
def back : Pipe := stateless fun _ args w origins =>
  match (firstString? args).bind (origins.bound? w) with
  | some v => (.walker (w.goto v), origins, [])
  | none => (.pull, origins, [])

/-- Drops walkers that stand at the vertex bound under a label. -/
def except : Pipe := stateless fun _ args w origins =>
  if (firstString? args).bind (origins.bound? w) == some w.vertex then (.pull, origins, [])
  else (.walker w, origins, [])

/-- The vertices bound under the labels given; labels that are not bound are passed over. -/
def targets (args : List Arg) (origins : Origins) (w : Walker) : List Nat :=
  (args.filterMap Arg.string?).filterMap (origins.bound? w)

/-- Leads a walker to each vertex bound under the labels, the last one first. -/
def merge : Pipe := fun _ args input memory origins =>
  let (source, vertices) : Option Walker × List Nat := match memory with
    | .spread source vertices => (source, vertices)
    | _ => (none, [])
  match source, vertices with
  | some w, v :: rest => ⟨.walker (w.goto v), .spread (some w) rest, origins, []⟩
  | source, _ =>
    match input with
    | none => ⟨.pull, .spread source [], origins, []⟩
    | some w =>
      match (targets args origins w).reverse with
      | [] => ⟨.pull, .spread (some w) [], origins, []⟩
      | v :: rest => ⟨.walker (w.goto v), .spread (some w) rest, origins, []⟩

end Pipe

end GraphWalk
