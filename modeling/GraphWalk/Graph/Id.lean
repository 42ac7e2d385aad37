import GraphWalk.Json.Printer

/-!
# Vertex ids

An id is an integer or a text. Both kinds share one space of keys: an integer and its decimal
text name the same vertex, while the kind in which an id was given is kept. Integers that are
read fit 64 signed bits.
-/

namespace GraphWalk

inductive VertexId
  | int (n : Int)
  | text (s : String)
  deriving DecidableEq, Inhabited

namespace VertexId

/-- What a graph files the id under. -/
def key : VertexId → String
  | int n => Int.repr n
  | text s => s

/-- Equality as names: ids of one kind by value, others by key. -/
def same : VertexId → VertexId → Bool
  | int a, int b => a == b
  | text a, text b => a == b
  | a, b => a.key == b.key

instance : BEq VertexId := ⟨same⟩

/-- What hashing the id makes of the state of a hash function that takes texts in by `feed`: the
key is all that goes in. -/
def hashInto {σ : Type u} (feed : String → σ → σ) (id : VertexId) (state : σ) : σ :=
  feed id.key state

def toJson : VertexId → Json
  | int n => .int n
  | text s => .str s

/-- Whether an integer fits 64 signed bits. -/
def inRange (n : Int) : Bool := -0x8000000000000000 ≤ n ∧ n < 0x8000000000000000

/-- A string, or an integer of 64 signed bits; nothing else is an id. -/
def ofJson? : Json → Option VertexId
  | .str s => some (text s)
  | .int n => if inRange n then some (int n) else none
  | _ => none

end VertexId

end GraphWalk
