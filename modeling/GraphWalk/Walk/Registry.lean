import GraphWalk.Walk.Pipe

/-!
# Registries of pipes and passes

A registry names pipes and holds the passes that change a program before it first runs. Passes
stand in the order of falling priority, and passes of one priority in the order in which they
were added. An alias is both: a name that hands every walker on, and a pass that replaces it.
-/

namespace GraphWalk

/-- A change of whole programs. -/
structure Pass where
  priority : Int
  change : Program → Program

structure Registry where
  pipes : Table Pipe
  passes : List Pass

namespace Registry

def empty : Registry := ⟨∅, []⟩

instance : EmptyCollection Registry := ⟨empty⟩

def addPipe (r : Registry) (name : String) (pipe : Pipe) : Registry :=
  { r with pipes := r.pipes.insert name pipe }

def pipe? (r : Registry) (name : String) : Option Pipe := r.pipes.get? name

theorem pipe?_addPipe (r : Registry) (name n : String) (pipe : Pipe) :
    (r.addPipe name pipe).pipe? n = if name = n then some pipe else r.pipe? n :=
  Table.get?_insert r.pipes name n pipe

def find (r : Registry) (name : String) : Except GraphError Pipe :=
  match r.pipe? name with
  | some pipe => .ok pipe
  | none => .error (.unknownPipe name)

def names (r : Registry) : List String := r.pipes.keys

/-- In front of the first pass of lower priority. -/
def placePass (p : Pass) : List Pass → List Pass
  | [] => [p]
  | q :: rest => if q.priority < p.priority then p :: q :: rest else q :: placePass p rest

def addPass (r : Registry) (p : Pass) : Registry := { r with passes := placePass p r.passes }

/-- Every pass once, each on the result of the one before. -/
def transform (r : Registry) (program : Program) : Program :=
  r.passes.foldl (fun program p => p.change program) program

/-- Replaces a name; arguments that a step does not give are taken from the defaults. -/
def expandAlias (name target : String) (defaults : List Arg) (step : Step) : Step :=
  if step.pipe = name then ⟨target, step.args ++ defaults.drop step.args.length⟩ else step

def aliasPriority : Int := 100

def addAlias (r : Registry) (name target : String) (defaults : List Arg) : Registry :=
  (r.addPipe name Pipe.passthrough).addPass
    ⟨aliasPriority, List.map (expandAlias name target defaults)⟩

/-- The registry of the pipes that every graph knows. -/
def standard : Registry :=
  [("vertex", Pipe.vertex), ("in", Pipe.cross .incoming), ("out", Pipe.cross .outgoing),
    ("property", Pipe.property), ("unique", Pipe.unique), ("filter", Pipe.filter),
    ("take", Pipe.take), ("as", Pipe.bind), ("back", Pipe.back), ("except", Pipe.except),
    ("merge", Pipe.merge)].foldl (fun r e => r.addPipe e.1 e.2) empty

instance : Inhabited Registry := ⟨standard⟩

end Registry

/-- The program with its arguments as text. -/
def Program.shown (program : Program) : List (String × List String) :=
  program.map fun step => (step.pipe, step.args.map Arg.shown)

namespace Pass

def append (steps : Program) (program : Program) : Program := program ++ steps

def prepend (steps : Program) (program : Program) : Program := steps ++ program

def reverse (program : Program) : Program := List.reverse program

def without (name : String) (program : Program) : Program := program.filter (·.pipe ≠ name)

/-- Every step of the name stands twice. -/
def doubling (name : String) (program : Program) : Program :=
  program.flatMap fun step => if step.pipe = name then [step, step] else [step]

def clear (_ : Program) : Program := []

end Pass

end GraphWalk
