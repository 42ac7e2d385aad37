import GraphWalk.Graph.Basic

/-!
# Walkers and their bindings

A walker stands at one vertex. All walkers that descend from one starting walker share a table
of labelled vertices; the tables of a query are kept by number, and a walker carries the number
of its own. So a label bound by one walker is seen by every relative, wherever it stands.
-/

namespace GraphWalk

/-- Label to vertex number. -/
abbrev Bindings := Table Nat

structure Walker where
  vertex : Nat
  origin : Nat
  result : Option Json

/-- The binding tables of all starting walkers so far. -/
abbrev Origins := Array Bindings

namespace Origins

/-- A walker with a binding table of its own, still empty. -/
def start (o : Origins) (vertex : Nat) : Walker × Origins :=
  (⟨vertex, o.size, none⟩, o.push ∅)

def bindings (o : Origins) (w : Walker) : Bindings := (o[w.origin]?).getD ∅

/-- The vertex bound under a label. -/
def bound? (o : Origins) (w : Walker) (label : String) : Option Nat := (o.bindings w).get? label

/-- Binds the walker's vertex under a label, for all its relatives. -/
def bind (o : Origins) (w : Walker) (label : String) : Origins :=
  o.modify w.origin (·.insert label w.vertex)

theorem bindings_start (o : Origins) (vertex : Nat) (w : Walker) :
    (o.start vertex).2.bindings w = o.bindings w := by
  simp only [bindings, start, Array.getElem?_push]
  split
  next h => simp [h]
  next => rfl

theorem bound?_bind (o : Origins) (w : Walker) (label l : String) (h : w.origin < o.size) :
    (o.bind w label).bound? w l = if label = l then some w.vertex else o.bound? w l := by
  simp [bound?, bindings, bind, h, Array.getElem_modify, Table.get?_insert]

/-- Binding is seen by the relatives of a walker only. -/
theorem bindings_bind_of_ne (o : Origins) {w v : Walker} (label : String)
    (h : w.origin ≠ v.origin) : (o.bind w label).bindings v = o.bindings v := by
  simp [bindings, bind, Array.getElem?_modify, h]

end Origins

namespace Walker

/-- Moving keeps the bindings and clears the result. -/
def goto (w : Walker) (vertex : Nat) : Walker := ⟨vertex, w.origin, none⟩

end Walker

end GraphWalk
