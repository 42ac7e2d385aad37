import GraphWalk.Proofs.Graph.Flat

/-!
# What a series adds

A series of records extends the flat form at its end, by the records that are accepted and in their
order: `Sound.toFlat_addVertices` and `toFlat_addEdges`.
-/

namespace GraphWalk.Graph

variable {g g' : Graph} {id : VertexId}

/-- The vertices that a series adds, as they are stored. -/
def accepted (g : Graph) : List VertexRecord → List VertexRecord
  | [] => []
  | r :: later =>
    match g.addVertex r with
    | .ok (id, g') =>
      ⟨some id, r.props.eraseAll VertexRecord.reservedNames⟩ :: g'.accepted later
    | .error _ => g.accepted later

/-- An edge as it is stored, if both its ends are. -/
def resolve? (g : Graph) (r : EdgeRecord) : Option EdgeRecord := do
  let head ← g.find? r.head
  let tail ← g.find? r.tail
  return ⟨g.idOf tail, g.idOf head, r.label, r.props.eraseAll EdgeRecord.reservedNames⟩

theorem resolve?_eq_some {r stored : EdgeRecord} :
    g.resolve? r = some stored ↔ ∃ tail head, g.find? r.tail = some tail ∧
      g.find? r.head = some head ∧
      stored = ⟨g.idOf tail, g.idOf head, r.label, r.props.eraseAll EdgeRecord.reservedNames⟩ := by
  unfold resolve?
  cases g.find? r.head with
  | none => simp
  | some head => cases g.find? r.tail <;> simp [eq_comm]

theorem Sound.toFlat_addVertex (h : g.Sound) {r : VertexRecord}
    (hadd : g.addVertex r = .ok (id, g')) :
    g'.toFlat = ⟨g.toFlat.vertices ++ [⟨some id, r.props.eraseAll VertexRecord.reservedNames⟩],
      g.toFlat.edges⟩ := by
  rcases addVertex_ok.mp hadd with ⟨-, -, rfl⟩ | ⟨-, -, rfl⟩
  · exact h.toFlat_insertVertex
  · exact h.toFlat_insertVertex

theorem Sound.toFlat_addVertices (h : g.Sound) (records : List VertexRecord) :
    (g.addVertices records).graph.toFlat =
      ⟨g.toFlat.vertices ++ g.accepted records, g.toFlat.edges⟩ := by
  induction records generalizing g with
  | nil => rw [accepted, List.append_nil]; rfl
  | cons r records ih =>
    rw [addVertices_cons, accepted]
    cases hadd : g.addVertex r with
    | error cause => exact ih h
    | ok added =>
      refine (ih (h.addVertex hadd)).trans ?_
      rw [h.toFlat_addVertex hadd, List.append_assoc]
      rfl

theorem resolve?_of_addEdge {r : EdgeRecord} {n : Nat} (hadd : g.addEdge r = .ok (n, g')) :
    ∃ stored, g.resolve? r = some stored ∧
      g'.toFlat = ⟨g.toFlat.vertices, g.toFlat.edges ++ [stored]⟩ ∧ g'.resolve? = g.resolve? := by
  obtain ⟨tail, head, htail, hhead, -, rfl⟩ := addEdge_ok.mp hadd
  refine ⟨_, resolve?_eq_some.mpr ⟨tail, head, htail, hhead, rfl⟩, toFlat_insertEdge g _, ?_⟩
  funext r'
  simp only [resolve?, find?_insertEdge, idOf_insertEdge]

theorem resolve?_eq_none {r : EdgeRecord} {cause : GraphError}
    (hadd : g.addEdge r = .error cause) : g.resolve? r = none := by
  refine Option.eq_none_iff_forall_ne_some.mpr fun stored hstored => ?_
  obtain ⟨tail, head, htail, hhead, -⟩ := resolve?_eq_some.mp hstored
  rcases addEdge_error.mp hadd with ⟨hnone, -⟩ | ⟨-, hnone, -⟩
  · exact nomatch hhead.symm.trans hnone
  · exact nomatch htail.symm.trans hnone

theorem toFlat_addEdges (g : Graph) (records : List EdgeRecord) :
    (g.addEdges records).graph.toFlat =
      ⟨g.toFlat.vertices, g.toFlat.edges ++ records.filterMap g.resolve?⟩ := by
  induction records generalizing g with
  | nil => rw [List.filterMap_nil, List.append_nil]; rfl
  | cons r records ih =>
    rw [addEdges_cons]
    cases hadd : g.addEdge r with
    | error cause => rw [List.filterMap_cons_none (resolve?_eq_none hadd)]; exact ih g
    | ok added =>
      obtain ⟨stored, hstored, hflat, hsame⟩ := resolve?_of_addEdge hadd
      rw [List.filterMap_cons_some hstored]
      refine (ih _).trans ?_
      show (⟨added.2.toFlat.vertices,
        added.2.toFlat.edges ++ records.filterMap added.2.resolve?⟩ : FlatGraph) = _
      rw [hflat, hsame, List.append_assoc]
      rfl

end GraphWalk.Graph
