import GraphWalk.Walk.Reply

/-!
# Pulling walkers through a line of steps

The machine stands at one step of a line, at first the last, and asks it with the walker that
the previous question produced, if any. A step that pulls sends the machine one step to the
left, unless everything there is finished; then the step is finished itself, as it is when it
says so. Every other answer moves the machine to the right, and a walker carried past the end
is a result. The line is finished when its last step is.
-/

namespace GraphWalk

/-- Steps `0` to `last`, which share a world. -/
structure Machine (W σ : Type) where
  last : Nat
  ask : Nat → Option W → σ → Reply W × σ

/-- One question: the step, what it was handed, and its answer. -/
structure Exchange (W : Type) where
  step : Nat
  input : Option W
  reply : Reply W

namespace Machine

variable {W σ : Type}

/-- A run in progress; all up to step `finished` is finished. `results` and `history` stand
newest first. -/
structure State (W σ : Type) where
  position : Nat
  finished : Option Nat
  carried : Option W
  results : List W
  world : σ
  history : List (Exchange W)

def start (m : Machine W σ) (world : σ) : State W σ := ⟨m.last, none, none, [], world, []⟩

def State.isOver (m : Machine W σ) (s : State W σ) : Bool := s.finished == some m.last

/-- Whether there is a step to the left that is not finished. -/
def State.canPull (s : State W σ) : Bool :=
  0 < s.position && s.finished.all (· < s.position - 1)

/-- Moves right; past the end the walker carried becomes a result. -/
def State.advance (m : Machine W σ) (s : State W σ) : State W σ :=
  if s.position < m.last then { s with position := s.position + 1 }
  else { s with position := m.last, results := s.carried.toList ++ s.results, carried := none }

def State.react (m : Machine W σ) (s : State W σ) : Reply W → State W σ
  | .pull =>
    -- With nothing left to pull from, a step that pulls is finished.
    if s.canPull then { s with position := s.position - 1 }
    else State.advance m { s with finished := some s.position }
  | .done => State.advance m { s with finished := some s.position }
  | .walker w => State.advance m { s with carried := some w }
  | .nothing => State.advance m s

/-- One question and what follows from its answer. -/
def next (m : Machine W σ) (s : State W σ) : State W σ :=
  let (reply, world) := m.ask s.position s.carried s.world
  let exchange := ⟨s.position, s.carried, reply⟩
  State.react m { s with carried := none, world, history := exchange :: s.history } reply

/-- Asks until the run is over, at most `bound` times; `none` if that is too few. -/
def runFrom (m : Machine W σ) : Nat → State W σ → Option (State W σ)
  | 0, s => if s.isOver m then some s else none
  | bound + 1, s => if s.isOver m then some s else runFrom m bound (m.next s)

def run (m : Machine W σ) (bound : Nat) (world : σ) : Option (State W σ) :=
  m.runFrom bound (m.start world)

end Machine

end GraphWalk
