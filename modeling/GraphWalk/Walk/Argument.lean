import GraphWalk.Walk.Walker

/-!
# Arguments of steps

An argument is a JSON value or a predicate. A predicate is a function of the vertex at which a
walker stands and of what can be seen of the walker. A list of arguments also selects vertices:
all of them, those that fit a record, or those named by a list of ids.
-/

namespace GraphWalk

/-- What a predicate sees of a walker. -/
structure Sight where
  vertex : Nat
  bindings : Bindings
  result : Option Json

def Origins.sight (o : Origins) (w : Walker) : Sight := ⟨w.vertex, o.bindings w, w.result⟩

abbrev Predicate := Vertex → Sight → Bool

namespace Predicate

def always (b : Bool) : Predicate := fun _ _ => b

def hasProperty (name : String) : Predicate := fun v _ => (v.get? name).isSome

def propertyIs (name : String) (value : Json) : Predicate := fun v _ =>
  (v.get? name).any (· == value)

def hasTextId : Predicate := fun v _ =>
  match v.id with
  | .text _ => true
  | .int _ => false

def isBound (label : String) : Predicate := fun _ s => s.bindings.contains label

def isAt (label : String) : Predicate := fun _ s => s.bindings.get? label == some s.vertex

def hasResult : Predicate := fun _ s => s.result.isSome

def negate (p : Predicate) : Predicate := fun v s => !p v s

end Predicate

inductive Arg
  | value (v : Json)
  | predicate (test : Predicate)

namespace Arg

def value? : Arg → Option Json
  | value v => some v
  | predicate _ => none

def string? : Arg → Option String
  | value (.str s) => some s
  | _ => none

/-- How an argument appears in messages and in a shown program. -/
def shown : Arg → String
  | value v => v.compact
  | predicate _ => "<predicate>"

end Arg

/-- One step of a program: the name of a pipe, and its arguments. -/
structure Step where
  pipe : String
  args : List Arg

abbrev Program := List Step

/-- The string given as first argument. -/
def firstString? (args : List Arg) : Option String := args.head?.bind Arg.string?

namespace Graph

/-- The ids among the arguments. Predicates are passed over, other values are reported. -/
def selectors : List Arg → List VertexId × List Notice
  | [] => ([], [])
  | .predicate _ :: rest => selectors rest
  | .value v :: rest =>
    let (ids, notices) := selectors rest
    match VertexId.parseJson v with
    | .ok id => (id :: ids, notices)
    | .error cause => (ids, .ignoredSelector cause :: notices)

/-- The numbers of the vertices named, in order; ids of no vertex are passed over. -/
def named (g : Graph) (ids : List VertexId) : List Nat := ids.filterMap g.find?

/-- The vertices that a list of arguments selects: all when it is empty, those that fit when it
begins with a record, and otherwise those named. -/
def select (g : Graph) (args : List Arg) : List Nat × List Notice :=
  match args with
  | [] => (List.range g.vertices.size, [])
  | .value (.obj filter) :: _ => (g.search filter, [])
  | args =>
    let (ids, notices) := selectors args
    (g.named ids, notices)

end Graph

end GraphWalk
