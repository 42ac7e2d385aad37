import GraphWalk.Proofs.Graph.Fresh
import GraphWalk.Proofs.Graph.Series

/-!
# What bulk loading keeps

Which records of a series are added, and under which ids, follows from the keys that are stored and
the records themselves (`Keeps`, `EdgeRecord.resolved?`). `loaded_normal`: the flat form of a graph
grows by these records, in order; and what was loaded is loaded again without a change.
-/

namespace GraphWalk

/-- Of a list of records, those that are added where vertices of the keys are stored, with the ids
that they get and without their reserved attributes. -/
inductive VertexRecord.Keeps : List String → List VertexRecord → List VertexRecord → Prop
  | nil (keys : List String) : Keeps keys [] []
  | given {keys : List String} {r : VertexRecord} {id : VertexId} {later kept : List VertexRecord}
    (hid : r.id = some id) (hnew : id.key ∉ keys) (hlater : Keeps (keys ++ [id.key]) later kept) :
    Keeps keys (r :: later) (r.stored :: kept)
  | known {keys : List String} {r : VertexRecord} {id : VertexId} {later kept : List VertexRecord}
    (hid : r.id = some id) (hknown : id.key ∈ keys) (hlater : Keeps keys later kept) :
    Keeps keys (r :: later) kept
  | counted {keys : List String} {r : VertexRecord} {n : Nat} {later kept : List VertexRecord}
    (hid : r.id = none) (hn : Graph.LeastFree keys n)
    (hlater : Keeps (keys ++ [(VertexId.int n).key]) later kept) :
    Keeps keys (r :: later) ({ r.stored with id := some (.int n) } :: kept)

/-- The id of a key in the form in which one of the records has it. -/
def VertexRecord.shown? (records : List VertexRecord) (id : VertexId) : Option VertexId :=
  (records.filterMap (·.id)).find? (·.key = id.key)

/-- The edge as it is stored, if the keys of both its ends are among the records: the ends as they
are shown there, and without the reserved attributes. -/
def EdgeRecord.resolved? (vertices : List VertexRecord) (r : EdgeRecord) : Option EdgeRecord := do
  let tail ← VertexRecord.shown? vertices r.tail
  let head ← VertexRecord.shown? vertices r.head
  return ⟨tail, head, r.label, r.props.eraseAll reservedNames⟩

namespace VertexRecord.Keeps

variable {keys : List String} {records kept kept' : List VertexRecord}

/-- What is kept is determined. -/
theorem unique (h : Keeps keys records kept) (h' : Keeps keys records kept') : kept = kept' := by
  induction h generalizing kept' with
  | nil => cases h'; rfl
  | given hid hnew hlater ih =>
    cases h' with
    | given hid' hnew' hlater' =>
      obtain rfl := Option.some.inj (hid.symm.trans hid')
      rw [ih hlater']
    | known hid' hknown hlater' =>
      obtain rfl := Option.some.inj (hid.symm.trans hid')
      exact absurd hknown hnew
    | counted hid' => cases hid.symm.trans hid'
  | known hid hknown hlater ih =>
    cases h' with
    | given hid' hnew hlater' =>
      obtain rfl := Option.some.inj (hid.symm.trans hid')
      exact absurd hknown hnew
    | known hid' hknown' hlater' => exact ih hlater'
    | counted hid' => cases hid.symm.trans hid'
  | counted hid hn hlater ih =>
    cases h' with
    | given hid' => cases hid.symm.trans hid'
    | known hid' => cases hid.symm.trans hid'
    | counted hid' hn' hlater' =>
      obtain rfl := hn.unique hn'
      rw [ih hlater']

end VertexRecord.Keeps

namespace Graph

variable {g g' : Graph} {id : VertexId}

-- ---------------------------------------------------------------------------
-- Vertices
-- ---------------------------------------------------------------------------

theorem keys_addVertex {r : VertexRecord} (hadd : g.addVertex r = .ok (id, g')) :
    g'.keys = g.keys ++ [id.key] := by
  rcases addVertex_ok.mp hadd with ⟨-, -, rfl⟩ | ⟨-, -, rfl⟩ <;> simp [keys, insertVertex]

theorem Sound.keeps_accepted (h : g.Sound) (records : List VertexRecord) :
    VertexRecord.Keeps g.keys records (g.accepted records) := by
  induction records generalizing g with
  | nil => exact .nil _
  | cons r later ih =>
    rw [accepted]
    cases hadd : g.addVertex r with
    | error cause =>
      obtain ⟨id, hid, hfind, -⟩ := addVertex_error.mp hadd
      exact .known hid (h.mem_keys.mpr hfind) (ih h)
    | ok added =>
      obtain ⟨id, g'⟩ := added
      have hlater := ih (h.addVertex hadd)
      rw [keys_addVertex hadd] at hlater
      rcases addVertex_ok.mp hadd with ⟨hid, hfind, -⟩ | ⟨hid, rfl, -⟩
      · have hstored : r.stored = ⟨some id, r.props.eraseAll VertexRecord.reservedNames⟩ :=
          congrArg (VertexRecord.mk · _) hid
        have hkept := VertexRecord.Keeps.given hid (h.not_mem_keys.mpr hfind) hlater
        rwa [hstored] at hkept
      · exact .counted hid h.leastFree hlater

theorem added_addVertices (g : Graph) (records : List VertexRecord) :
    (g.addVertices records).added = (g.accepted records).length := by
  induction records generalizing g with
  | nil => rfl
  | cons r later ih =>
    rw [addVertices_cons, accepted]
    cases hadd : g.addVertex r with
    | error cause => exact (Nat.zero_add _).trans (ih g)
    | ok added => exact (Nat.add_comm 1 _).trans (congrArg (· + 1) (ih added.2))

-- ---------------------------------------------------------------------------
-- Edges
-- ---------------------------------------------------------------------------

theorem Sound.shown? (h : g.Sound) (id : VertexId) :
    VertexRecord.shown? g.toFlat.vertices id = (g.find? id).map g.idOf := by
  have hids : g.toFlat.vertices.filterMap (·.id) = g.vertices.toList.map (·.id) := by
    rw [toFlat, List.filterMap_map, ← List.filterMap_eq_map]
    rfl
  rw [VertexRecord.shown?, hids]
  cases hfind : g.find? id with
  | none =>
    refine List.find?_eq_none.mpr fun k hk hkey => h.not_mem_keys.mpr hfind ?_
    obtain ⟨v, hv, rfl⟩ := List.mem_map.mp hk
    exact List.mem_map.mpr ⟨v, hv, of_decide_eq_true hkey⟩
  | some n =>
    obtain ⟨v, hv, hkey⟩ := (h.index id.key n).mp hfind
    cases hshown : (g.vertices.toList.map (·.id)).find? (·.key = id.key) with
    | none =>
      have hmem : v.id ∈ g.vertices.toList.map (·.id) :=
        List.mem_map_of_mem (Array.mem_toList_iff.mpr (Array.mem_of_getElem? hv))
      exact absurd (decide_eq_true hkey) (List.find?_eq_none.mp hshown _ hmem)
    | some k =>
      have hk : k.key = id.key := by simpa using List.find?_some hshown
      obtain ⟨w, hw, rfl⟩ := List.mem_map.mp (List.mem_of_find?_eq_some hshown)
      obtain ⟨m, hm⟩ := Array.getElem?_of_mem (Array.mem_toList_iff.mp hw)
      -- no two vertices have the key
      have hsame := (h.index id.key m).mpr ⟨w, hm, hk⟩
      obtain rfl : n = m := Option.some.inj (hfind.symm.trans hsame)
      rw [Option.map_some, idOf_eq hm]

theorem Sound.resolved? (h : g.Sound) :
    EdgeRecord.resolved? g.toFlat.vertices = g.resolve? := by
  funext r
  rw [EdgeRecord.resolved?, h.shown?, h.shown?, resolve?]
  cases g.find? r.head <;> cases g.find? r.tail <;> rfl

theorem added_addEdges (g : Graph) (records : List EdgeRecord) :
    (g.addEdges records).added = (records.filterMap g.resolve?).length := by
  induction records generalizing g with
  | nil => rfl
  | cons r later ih =>
    rw [addEdges_cons]
    cases hadd : g.addEdge r with
    | error cause =>
      rw [List.filterMap_cons_none (resolve?_eq_none hadd)]
      exact (Nat.zero_add _).trans (ih g)
    | ok added =>
      obtain ⟨stored, hstored, -, hsame⟩ := resolve?_of_addEdge hadd
      rw [List.filterMap_cons_some hstored, ← hsame]
      exact (Nat.add_comm 1 _).trans (congrArg (· + 1) (ih added.2))

/-- A series of vertices and then one of edges extend the flat form at its ends, by the records that
are new at their turn and by the edges whose ends are stored then; as many are counted. And what has
been loaded is a flat form that loading leaves as it is. -/
theorem loaded_normal (h : g.Built) (V : List VertexRecord) (E : List EdgeRecord) :
    ∃ kept, (∀ kept', VertexRecord.Keeps g.keys V kept' ↔ kept' = kept) ∧
      let vertices := g.toFlat.vertices ++ kept
      let edges := E.filterMap (EdgeRecord.resolved? vertices)
      let loaded := (g.addVertices V).graph.addEdges E
      loaded.graph.toFlat = ⟨vertices, g.toFlat.edges ++ edges⟩ ∧
      (g.addVertices V).added = kept.length ∧ loaded.added = edges.length ∧
      (ofFlat loaded.graph.toFlat).graph.toFlat = loaded.graph.toFlat := by
  have hsound := h.sound
  have hafter := hsound.addVertices V
  have hvertices := hsound.toFlat_addVertices V
  have hresolved := hafter.resolved?
  rw [hvertices] at hresolved
  refine ⟨g.accepted V, fun kept' => ⟨fun hk => hk.unique (hsound.keeps_accepted V), ?_⟩, ?_, ?_,
    ?_, ?_⟩
  · rintro rfl
    exact hsound.keeps_accepted V
  · rw [toFlat_addEdges, hvertices, hresolved]
  · exact g.added_addVertices V
  · rw [added_addEdges, hresolved]
  · rw [(hafter.addEdges E).ofFlat_toFlat]
    rfl

/-- The id that a first record is given by counting is that of a second, a third has the key of a
vertex there was, and one of two edges leads to a vertex that is not stored. -/
theorem loaded_normal_counted :
    let g := ((∅ : Graph).insert (.vertex ⟨some (.text "1"), ∅⟩)).2
    let V : List VertexRecord := [⟨none, ∅⟩, ⟨some (.text "2"), ∅⟩, ⟨some (.int 1), ∅⟩]
    let E : List EdgeRecord := [⟨.int 1, .text "2", none, ∅⟩, ⟨.int 2, .int 3, none, ∅⟩]
    let loaded := (g.addVertices V).graph.addEdges E
    g.Built ∧ VertexRecord.Keeps g.keys V [⟨some (.int 2), ∅⟩] ∧
      loaded.graph.toFlat = ⟨[⟨some (.text "1"), ∅⟩, ⟨some (.int 2), ∅⟩],
        [⟨.text "1", .int 2, none, ∅⟩]⟩ ∧
      (g.addVertices V).added = 1 ∧ loaded.added = 1 ∧
      (ofFlat loaded.graph.toFlat).graph.toFlat = loaded.graph.toFlat := by
  intro g V E loaded
  have hbuilt : g.Built := .insert .empty _
  have hcounted : Graph.LeastFree g.keys 2 := by
    refine ⟨by decide, by decide, fun k hk hlt => ?_⟩
    obtain rfl : k = 1 := by omega
    decide
  have hkept : VertexRecord.Keeps g.keys V [⟨some (.int 2), ∅⟩] :=
    .counted rfl hcounted (.known rfl (by decide) (.known rfl (by decide) (.nil _)))
  obtain ⟨kept, hkeeps, hflat, hvertices, hedges, hfixed⟩ := loaded_normal hbuilt V E
  obtain rfl := (hkeeps _).mp hkept
  exact ⟨hbuilt, hkept, hflat, hvertices, hedges, hfixed⟩

end Graph

end GraphWalk
