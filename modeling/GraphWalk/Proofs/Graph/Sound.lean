import GraphWalk.Proofs.Graph.Counter

/-!
# What insertions keep

`Sound`: the index, the adjacency lists and the counter say what the vertices and the edges say.
Both ways of adding to a graph keep it (`Sound.addVertex`, `Sound.addEdge`).
-/

namespace GraphWalk.Graph

variable {g g' : Graph} {id : VertexId} {props : Table Json} {e : Edge}

/-- The edges that have the vertex at the end of the direction, oldest first. -/
def incident (g : Graph) (u : Nat) (d : Direction) : List Nat :=
  (List.range g.edges.size).filter fun n => (g.edges[n]?).any (·.endpoint d = u)

theorem mem_incident {u n : Nat} {d : Direction} :
    n ∈ g.incident u d ↔ ∃ e, g.edges[n]? = some e ∧ e.endpoint d = u := by
  rw [incident, List.mem_filter, List.mem_range]
  constructor
  · rintro ⟨hn, hany⟩
    rw [Array.getElem?_eq_getElem hn] at hany ⊢
    exact ⟨_, rfl, by simpa using hany⟩
  · rintro ⟨e, he, hend⟩
    exact ⟨(Array.getElem?_eq_some_iff.mp he).1, by simp [he, hend]⟩

theorem toList_edges (g : Graph) :
    g.edges.toList = (List.range g.edges.size).map (g.edges[·]?.getD default) := by
  refine List.ext_getElem (by simp) fun n hn _ => ?_
  have hn' : n < g.edges.size := by simpa using hn
  simp [hn']

/-- The edges at one end of a vertex, as they stand among all edges. -/
theorem filterMap_incident (g : Graph) (u : Nat) (d : Direction) :
    (g.incident u d).filterMap (g.edges[·]?) = g.edges.toList.filter (·.endpoint d = u) := by
  rw [incident, List.filterMap_filter, toList_edges, List.filter_map, ← List.filterMap_eq_map,
    List.filterMap_filter]
  refine List.filterMap_congr fun n hn => ?_
  have hn' : n < g.edges.size := List.mem_range.mp hn
  simp [hn']

structure Sound (g : Graph) : Prop where
  index : ∀ key n, g.index.get? key = some n ↔ ∃ v, g.vertices[n]? = some v ∧ v.id.key = key
  endpoint_lt : ∀ e ∈ g.edges, ∀ d, e.endpoint d < g.vertices.size
  edges : ∀ u v, g.vertices[u]? = some v → ∀ d, (v.edges d).toList = g.incident u d
  vertexProps : ∀ v ∈ g.vertices, ∀ name ∈ VertexRecord.reservedNames, v.props.get? name = none
  edgeProps : ∀ e ∈ g.edges, ∀ name ∈ EdgeRecord.reservedNames, e.props.get? name = none
  counted : g.Counted

theorem Sound.empty : Sound ∅ where
  index key n := by simp [EmptyCollection.emptyCollection, Graph.empty, Table.get?_empty]
  endpoint_lt e he := by simp [EmptyCollection.emptyCollection, Graph.empty] at he
  edges u v hv := by simp [EmptyCollection.emptyCollection, Graph.empty] at hv
  vertexProps v hv := by simp [EmptyCollection.emptyCollection, Graph.empty] at hv
  edgeProps e he := by simp [EmptyCollection.emptyCollection, Graph.empty] at he
  counted := ⟨Nat.le_refl 1, fun n hn hlt => absurd hlt (Nat.not_lt.mpr hn)⟩

-- ---------------------------------------------------------------------------
-- Vertices
-- ---------------------------------------------------------------------------

theorem isSome_find?_insertVertex {k : VertexId} (h : (g.find? k).isSome) :
    ((g.insertVertex id props).find? k).isSome := by
  rw [find?_insertVertex]
  split
  · rfl
  · exact h

theorem Counted.insertVertex (h : g.Counted) : (g.insertVertex id props).Counted :=
  ⟨h.pos, fun n hn hlt => isSome_find?_insertVertex (h.taken n hn hlt)⟩

theorem Sound.insertVertex (h : g.Sound) (hfree : g.find? id = none) :
    (g.insertVertex id props).Sound where
  index key n := by
    show (g.index.insert id.key g.vertices.size).get? key = some n ↔
      ∃ v, (g.vertices.push _)[n]? = some v ∧ v.id.key = key
    rw [Table.get?_insert, Array.getElem?_push]
    by_cases hkey : id.key = key
    · subst hkey
      by_cases hn : n = g.vertices.size
      · simp [hn]
      · -- an older vertex of the key would be in the index
        have hnone : ∀ v, g.vertices[n]? = some v → v.id.key ≠ id.key := by
          intro v hv heq
          have hfound := (h.index id.key n).mpr ⟨v, hv, heq⟩
          exact nomatch hfound.symm.trans hfree
        simpa [hn, Ne.symm hn] using hnone
    · rw [if_neg hkey, h.index]
      by_cases hn : n = g.vertices.size
      · simp [hn, hkey]
      · simp [hn]
  endpoint_lt e he d := by
    have hlt := h.endpoint_lt e he d
    simp only [Graph.insertVertex, Array.size_push]
    omega
  edges u v hv d := by
    have hincident : (g.insertVertex id props).incident u d = g.incident u d := rfl
    rw [hincident]
    simp only [Graph.insertVertex, Array.getElem?_push] at hv
    split at hv
    next hu =>
      obtain rfl := Option.some.inj hv
      have hnone : g.incident u d = [] := by
        refine List.eq_nil_iff_forall_not_mem.mpr fun n hn => ?_
        obtain ⟨e, he, hend⟩ := mem_incident.mp hn
        have hlt := h.endpoint_lt e (Array.mem_of_getElem? he) d
        omega
      rw [hnone]
      cases d <;> rfl
    next => exact h.edges u v hv d
  vertexProps v hv := by
    rcases Array.mem_push.mp hv with hv | rfl
    · exact h.vertexProps v hv
    · intro name hname
      rw [Table.get?_eraseAll, if_pos hname]
  edgeProps := h.edgeProps
  counted := h.counted.insertVertex

theorem Sound.withCounter (h : g.Sound) {n : Nat} (hcounted : Counted { g with nextId := n }) :
    Sound { g with nextId := n } :=
  ⟨h.index, h.endpoint_lt, h.edges, h.vertexProps, h.edgeProps, hcounted⟩

/-- With the fresh number stored, the counter may stand behind it. -/
theorem Counted.insert_fresh (h : g.Counted) (props : Table Json) :
    Counted { g.insertVertex (.int g.freshNumber) props with nextId := g.freshNumber + 1 } := by
  refine ⟨Nat.le_add_left 1 _, fun n hn hlt => ?_⟩
  show ((g.insertVertex (.int g.freshNumber) props).find? (.int n)).isSome
  rcases Nat.lt_or_eq_of_le (Nat.le_of_lt_succ hlt) with hbelow | rfl
  · exact isSome_find?_insertVertex (h.freshNumber_least hn hbelow)
  · rw [find?_insertVertex, if_pos rfl]
    rfl

theorem addVertex_ok {r : VertexRecord} :
    g.addVertex r = .ok (id, g') ↔
      r.id = some id ∧ g.find? id = none ∧ g' = g.insertVertex id r.props ∨
      r.id = none ∧ id = .int g.freshNumber ∧
        g' = { g.insertVertex id r.props with nextId := g.freshNumber + 1 } := by
  unfold addVertex
  cases hid : r.id with
  | none =>
    simp only [Except.ok.injEq, Prod.mk.injEq, reduceCtorEq, false_and, true_and, false_or]
    constructor
    · rintro ⟨rfl, rfl⟩
      exact ⟨rfl, rfl⟩
    · rintro ⟨rfl, rfl⟩
      exact ⟨rfl, rfl⟩
  | some given =>
    simp only [Option.some.injEq, reduceCtorEq, false_and, or_false]
    cases hfind : g.find? given with
    | some n =>
      simp only [Option.isSome_some, if_true, reduceCtorEq, false_iff]
      rintro ⟨rfl, hnone, -⟩
      rw [hfind] at hnone
      cases hnone
    | none =>
      simp only [Option.isSome_none, Bool.false_eq_true, if_false, Except.ok.injEq, Prod.mk.injEq]
      constructor
      · rintro ⟨rfl, rfl⟩
        exact ⟨rfl, hfind, rfl⟩
      · rintro ⟨rfl, -, rfl⟩
        exact ⟨rfl, rfl⟩

theorem addVertex_error {r : VertexRecord} {cause : GraphError} :
    g.addVertex r = .error cause ↔
      ∃ id, r.id = some id ∧ (g.find? id).isSome ∧ cause = .vertexExists id := by
  unfold addVertex
  cases hid : r.id with
  | none => simp
  | some given => by_cases hfind : (g.find? given).isSome <;> simp [hfind, eq_comm (b := cause)]

theorem Sound.addVertex (h : g.Sound) {r : VertexRecord} (hadd : g.addVertex r = .ok (id, g')) :
    g'.Sound := by
  rcases addVertex_ok.mp hadd with ⟨-, hfree, rfl⟩ | ⟨-, rfl, rfl⟩
  · exact h.insertVertex hfree
  · exact (h.insertVertex g.freshNumber_free).withCounter (h.counted.insert_fresh r.props)

-- ---------------------------------------------------------------------------
-- Edges
-- ---------------------------------------------------------------------------

theorem getElem?_insertEdge (g : Graph) (e : Edge) (u : Nat) :
    (g.insertEdge e).vertices[u]? = (g.vertices[u]?).map fun v =>
      { v with
        outEdges := if e.tail = u then v.outEdges.push g.edges.size else v.outEdges
        inEdges := if e.head = u then v.inEdges.push g.edges.size else v.inEdges } := by
  simp only [insertEdge, Array.getElem?_modify]
  cases g.vertices[u]? with
  | none => simp
  | some v =>
    by_cases htail : e.tail = u <;> by_cases hhead : e.head = u <;>
      simp [htail, hhead, Vertex.addOutEdge, Vertex.addInEdge]

theorem incident_insertEdge (g : Graph) (e : Edge) (u : Nat) (d : Direction) :
    (g.insertEdge e).incident u d =
      g.incident u d ++ if e.endpoint d = u then [g.edges.size] else [] := by
  have hold : ∀ n ∈ List.range g.edges.size,
      ((g.edges.push e)[n]?).any (·.endpoint d = u) = (g.edges[n]?).any (·.endpoint d = u) := by
    intro n hn
    rw [Array.getElem?_push, if_neg (Nat.ne_of_lt (List.mem_range.mp hn))]
  show (List.range (g.edges.push e).size).filter
    (fun n => ((g.edges.push e)[n]?).any (·.endpoint d = u)) = _
  rw [Array.size_push, List.range_succ, List.filter_append, List.filter_congr hold]
  by_cases hend : e.endpoint d = u <;> simp [incident, hend]

theorem Counted.insertEdge (h : g.Counted) (e : Edge) : (g.insertEdge e).Counted :=
  ⟨h.pos, h.taken⟩

theorem Sound.insertEdge (h : g.Sound) (hends : ∀ d, e.endpoint d < g.vertices.size)
    (hprops : ∀ name ∈ EdgeRecord.reservedNames, e.props.get? name = none) :
    (g.insertEdge e).Sound where
  index key n := by
    rw [getElem?_insertEdge]
    refine (h.index key n).trans ?_
    cases g.vertices[n]? <;> simp
  endpoint_lt e' he' d := by
    have hsize : (g.insertEdge e).vertices.size = g.vertices.size := by
      simp [Graph.insertEdge]
    rw [hsize]
    rcases Array.mem_push.mp he' with he' | rfl
    · exact h.endpoint_lt e' he' d
    · exact hends d
  edges u v' hv' d := by
    rw [getElem?_insertEdge, Option.map_eq_some_iff] at hv'
    obtain ⟨v, hv, rfl⟩ := hv'
    rw [incident_insertEdge, ← h.edges u v hv d]
    cases d with
    | outgoing => by_cases htail : e.tail = u <;> simp [Vertex.edges, Edge.endpoint, htail]
    | incoming => by_cases hhead : e.head = u <;> simp [Vertex.edges, Edge.endpoint, hhead]
  vertexProps v' hv' := by
    obtain ⟨u, hu⟩ := Array.getElem?_of_mem hv'
    rw [getElem?_insertEdge, Option.map_eq_some_iff] at hu
    obtain ⟨v, hv, rfl⟩ := hu
    exact h.vertexProps v (Array.mem_of_getElem? hv)
  edgeProps e' he' := by
    rcases Array.mem_push.mp he' with he' | rfl
    · exact h.edgeProps e' he'
    · exact hprops
  counted := h.counted.insertEdge e

theorem addEdge_ok {r : EdgeRecord} {n : Nat} :
    g.addEdge r = .ok (n, g') ↔ ∃ tail head, g.find? r.tail = some tail ∧
      g.find? r.head = some head ∧ n = g.edges.size ∧
      g' = g.insertEdge ⟨r.label, tail, head, r.props.eraseAll EdgeRecord.reservedNames⟩ := by
  unfold addEdge
  cases hhead : g.find? r.head with
  | none => simp
  | some head =>
    cases htail : g.find? r.tail with
    | none => simp
    | some tail => simp [eq_comm]

theorem addEdge_error {r : EdgeRecord} {cause : GraphError} :
    g.addEdge r = .error cause ↔
      g.find? r.head = none ∧ cause = .missingEndpoint .incoming r.head ∨
      (g.find? r.head).isSome ∧ g.find? r.tail = none ∧
        cause = .missingEndpoint .outgoing r.tail := by
  unfold addEdge
  cases hhead : g.find? r.head with
  | none => simp [eq_comm]
  | some head => cases htail : g.find? r.tail <;> simp [eq_comm]

/-- What the index finds is the number of a vertex. -/
theorem Sound.find?_lt (h : g.Sound) {n : Nat} (hfind : g.find? id = some n) :
    n < g.vertices.size := by
  obtain ⟨v, hv, -⟩ := (h.index id.key n).mp hfind
  exact (Array.getElem?_eq_some_iff.mp hv).1

/-- The numbers below the fresh one are all taken, each by a vertex of its own. -/
theorem Sound.freshNumber_le (h : g.Sound) : g.freshNumber ≤ g.vertices.size + 1 := by
  let numbers := List.range' 1 (g.freshNumber - 1)
  have hnodup : (numbers.map fun k : Nat => Int.repr k).Nodup := nodup_repr _ _
  have hsubset : (numbers.map fun k : Nat => Int.repr k) ⊆ g.vertices.toList.map (·.id.key) := by
    intro key hkey
    obtain ⟨k, hk, rfl⟩ := List.mem_map.mp hkey
    obtain ⟨hle, hlt⟩ := List.mem_range'_1.mp hk
    have htaken := h.counted.freshNumber_least hle (by omega)
    obtain ⟨n, hn⟩ := Option.isSome_iff_exists.mp htaken
    obtain ⟨v, hv, hvkey⟩ := (h.index (VertexId.int k).key n).mp hn
    exact List.mem_map.mpr ⟨v, Array.mem_toList_iff.mpr (Array.mem_of_getElem? hv), hvkey⟩
  have hlength := (List.subperm_of_subset hnodup hsubset).length_le
  simp only [numbers, List.length_map, List.length_range', Array.length_toList] at hlength
  omega

theorem Sound.adjacent (h : g.Sound) (u : Nat) (d : Direction) :
    g.adjacent u d = g.incident u d := by
  cases hv : g.vertices[u]? with
  | some v =>
    rw [Graph.adjacent, hv]
    exact h.edges u v hv d
  | none =>
    -- no edge has an end there
    have hnone : g.incident u d = [] := by
      refine List.eq_nil_iff_forall_not_mem.mpr fun n hn => ?_
      obtain ⟨e, he, rfl⟩ := mem_incident.mp hn
      have hlt := h.endpoint_lt e (Array.mem_of_getElem? he) d
      exact absurd hlt (Nat.not_lt.mpr (Array.getElem?_eq_none_iff.mp hv))
    rw [Graph.adjacent, hv, hnone]
    rfl

theorem Sound.addEdge (h : g.Sound) {r : EdgeRecord} {n : Nat}
    (hadd : g.addEdge r = .ok (n, g')) : g'.Sound := by
  obtain ⟨tail, head, htail, hhead, -, rfl⟩ := addEdge_ok.mp hadd
  refine h.insertEdge (fun d => ?_) fun name hname => ?_
  · cases d with
    | outgoing => exact h.find?_lt htail
    | incoming => exact h.find?_lt hhead
  · rw [Table.get?_eraseAll, if_pos hname]

end GraphWalk.Graph
