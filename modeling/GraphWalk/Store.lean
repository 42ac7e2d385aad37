import GraphWalk.Graph.Basic

/-!
# Stored graphs

A store holds texts under full keys. A graph is stored in its flat form, under its name behind
a fixed stem; keys without the stem are left alone and are no graph's. Looking a graph up reads
the text again, so a store can hold texts that are no graph.
-/

namespace GraphWalk

/-- Texts by full key. -/
abbrev Store := Table String

namespace Store

def keyStem : String := "PIPEGRAPH::"

def defaultName : String := "graph"

/-- The full key of a graph; without a name it is the default one. -/
def key (name : Option String) : String := keyStem ++ name.getD defaultName

/-- The name of the graph that a full key belongs to. -/
def nameOf? (key : String) : Option String :=
  (keyStem.toList.isPrefixOf? key.toList).map String.ofList

def put (s : Store) (name : Option String) (g : Graph) : Store := s.insert (key name) g.text

/-- The stored graph, if there is one, with what was reported while it was rebuilt. -/
def fetch (s : Store) (name : Option String) : Except GraphError (Option Graph.Bulk) :=
  match s.get? (key name) with
  | none => .ok none
  | some text => (Graph.ofString text).map some

/-- The store without a graph, and whether it was there. -/
def remove (s : Store) (name : Option String) : Bool × Store :=
  (s.contains (key name), s.erase (key name))

/-- The names of the stored graphs, in order. -/
def graphNames (s : Store) : List String := s.keys.filterMap nameOf?

/-- Behind its stem a key holds the name, so different names have different keys. -/
theorem nameOf?_key (name : String) : nameOf? (key (some name)) = some name := by
  have behind (stem rest : List Char) : stem.isPrefixOf? (stem ++ rest) = some rest := by
    induction stem with
    | nil => rfl
    | cons c stem ih => exact (if_pos (beq_self_eq_true c)).trans ih
  simp [nameOf?, key, behind]

theorem get?_put (s : Store) (name : Option String) (g : Graph) (k : String) :
    (s.put name g).get? k = if key name = k then some g.text else s.get? k :=
  Table.get?_insert s (key name) k g.text

theorem get?_remove (s : Store) (name : Option String) (k : String) :
    (s.remove name).2.get? k = if key name = k then none else s.get? k :=
  Table.get?_erase s (key name) k

end Store

end GraphWalk
