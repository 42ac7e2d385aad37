import GraphWalk.Proofs.Graph.Sound

/-!
# Graphs built by insertions

A graph is built by calls that add to the empty one (`Built`). `built_consistent`: its index, its
edges and its adjacency lists agree, no attribute has a reserved name, and a call fails for the
stated reasons only, without a trace.
-/

namespace GraphWalk

/-- A call that adds to a graph. -/
inductive Insertion
  | vertex (r : VertexRecord)
  | edge (r : EdgeRecord)
  | vertices (records : List VertexRecord)
  | edges (records : List EdgeRecord)

/-- What a call returns: an id, the number of an edge, how many records of a series were added, or
why the call failed. -/
inductive Insertion.Answer
  | vertex (id : VertexId)
  | edge (number : Nat)
  | added (count : Nat) (notices : List Notice)
  | failed (cause : GraphError)

namespace Graph

variable {g g' : Graph}

/-- The answer of a call and the graph afterwards. -/
def insert (g : Graph) : Insertion → Insertion.Answer × Graph
  | .vertex r =>
    match g.addVertex r with
    | .ok (id, g') => (.vertex id, g')
    | .error cause => (.failed cause, g)
  | .edge r =>
    match g.addEdge r with
    | .ok (number, g') => (.edge number, g')
    | .error cause => (.failed cause, g)
  | .vertices records => let b := g.addVertices records; (.added b.added b.notices, b.graph)
  | .edges records => let b := g.addEdges records; (.added b.added b.notices, b.graph)

/-- The graphs that a sequence of calls makes of the empty one. -/
inductive Built : Graph → Prop
  | empty : Built ∅
  | insert {g : Graph} (h : Built g) (call : Insertion) : Built (g.insert call).2

-- ---------------------------------------------------------------------------
-- Series
-- ---------------------------------------------------------------------------

namespace Bulk

/-- One series after another. -/
def andThen (b later : Bulk) : Bulk :=
  ⟨later.graph, b.added + later.added, b.notices ++ later.notices⟩

theorem andThen_assoc (a b c : Bulk) : (a.andThen b).andThen c = a.andThen (b.andThen c) := by
  simp [andThen, Nat.add_assoc]

/-- A step that only looks at the graph can forget what was counted and reported. -/
theorem foldl_andThen {α : Type} {step : Bulk → α → Bulk}
    (hstep : ∀ b r, step b r = b.andThen (step ⟨b.graph, 0, []⟩ r)) (b : Bulk)
    (records : List α) :
    records.foldl step b = b.andThen (records.foldl step ⟨b.graph, 0, []⟩) := by
  induction records generalizing b with
  | nil => simp [andThen]
  | cons r records ih =>
    rw [List.foldl_cons, List.foldl_cons, ih, ih (step ⟨b.graph, 0, []⟩ r), ← andThen_assoc,
      ← hstep b r, hstep b r]
    rfl

/-- The series of one insertion. -/
def one {α : Type} (g : Graph) (skipped : GraphError → Notice) (reported : List Notice) :
    Except GraphError (α × Graph) → Bulk
  | .ok (_, g') => ⟨g', 1, reported⟩
  | .error cause => ⟨g, 0, reported ++ [skipped cause]⟩

end Bulk

theorem addVertices_cons (g : Graph) (r : VertexRecord) (records : List VertexRecord) :
    g.addVertices (r :: records) =
      let b := Bulk.one g .skippedVertex [] (g.addVertex r)
      b.andThen (b.graph.addVertices records) := by
  have hfirst : Bulk.one g .skippedVertex [] (g.addVertex r) = g.addVertices [r] := by
    simp only [addVertices, List.foldl_cons, List.foldl_nil]
    cases g.addVertex r <;> rfl
  rw [hfirst]
  refine Bulk.foldl_andThen (fun b r => ?_) _ records
  dsimp only
  cases b.graph.addVertex r <;> simp [Bulk.andThen]

theorem addEdges_cons (g : Graph) (r : EdgeRecord) (records : List EdgeRecord) :
    g.addEdges (r :: records) =
      let b := Bulk.one g .skippedEdge r.notices (g.addEdge r)
      b.andThen (b.graph.addEdges records) := by
  have hfirst : Bulk.one g .skippedEdge r.notices (g.addEdge r) = g.addEdges [r] := by
    simp only [addEdges, List.foldl_cons, List.foldl_nil]
    cases g.addEdge r <;> rfl
  rw [hfirst]
  refine Bulk.foldl_andThen (fun b r => ?_) _ records
  dsimp only
  cases b.graph.addEdge r <;> simp [Bulk.andThen]

theorem Sound.addVertices (h : g.Sound) (records : List VertexRecord) :
    (g.addVertices records).graph.Sound := by
  induction records generalizing g with
  | nil => exact h
  | cons r records ih =>
    rw [addVertices_cons]
    refine ih ?_
    cases hadd : g.addVertex r with
    | ok added => exact h.addVertex hadd
    | error cause => exact h

theorem Sound.addEdges (h : g.Sound) (records : List EdgeRecord) :
    (g.addEdges records).graph.Sound := by
  induction records generalizing g with
  | nil => exact h
  | cons r records ih =>
    rw [addEdges_cons]
    refine ih ?_
    cases hadd : g.addEdge r with
    | ok added => exact h.addEdge hadd
    | error cause => exact h

-- ---------------------------------------------------------------------------
-- Sequences of calls
-- ---------------------------------------------------------------------------

theorem insert_failed {call : Insertion} {cause : GraphError}
    (h : (g.insert call).1 = .failed cause) : (g.insert call).2 = g := by
  cases call with
  | vertex r =>
    simp only [insert] at h ⊢
    split at h
    next => cases h
    next => rfl
  | edge r =>
    simp only [insert] at h ⊢
    split at h
    next => cases h
    next => rfl
  | vertices records => cases h
  | edges records => cases h

theorem Sound.insert (h : g.Sound) (call : Insertion) : (g.insert call).2.Sound := by
  cases call with
  | vertex r =>
    simp only [Graph.insert]
    split
    next hadd => exact h.addVertex hadd
    next => exact h
  | edge r =>
    simp only [Graph.insert]
    split
    next hadd => exact h.addEdge hadd
    next => exact h
  | vertices records => exact h.addVertices records
  | edges records => exact h.addEdges records

theorem Built.sound (h : g.Built) : g.Sound := by
  induction h with
  | empty => exact .empty
  | insert _ call ih => exact ih.insert call

/-- A vertex of the id's key is in the graph. -/
def Stores (g : Graph) (id : VertexId) : Prop := ∃ v ∈ g.vertices, v.id.key = id.key

theorem Sound.stores_iff (h : g.Sound) {id : VertexId} : g.Stores id ↔ (g.find? id).isSome := by
  rw [Option.isSome_iff_exists]
  constructor
  · rintro ⟨v, hv, hkey⟩
    obtain ⟨n, hn⟩ := Array.getElem?_of_mem hv
    exact ⟨n, (h.index id.key n).mpr ⟨v, hn, hkey⟩⟩
  · rintro ⟨n, hn⟩
    obtain ⟨v, hv, hkey⟩ := (h.index id.key n).mp hn
    exact ⟨v, Array.mem_of_getElem? hv, hkey⟩

/-- The redundant parts of a graph say the same. -/
structure Consistent (g : Graph) : Prop where
  keys : (g.vertices.toList.map (·.id.key)).Nodup
  index : ∀ key n, g.index.get? key = some n ↔ ∃ v, g.vertices[n]? = some v ∧ v.id.key = key
  endpoints : ∀ e ∈ g.edges, e.tail < g.vertices.size ∧ e.head < g.vertices.size
  /-- An edge is listed once at its tail and once at its head, and nowhere else. -/
  listed : ∀ (n : Nat) (e : Edge), g.edges[n]? = some e →
    ∀ (u : Nat) (v : Vertex), g.vertices[u]? = some v →
    v.outEdges.toList.count n = (if u = e.tail then 1 else 0) ∧
      v.inEdges.toList.count n = (if u = e.head then 1 else 0)
  known : ∀ v ∈ g.vertices, ∀ n, n ∈ v.outEdges ∨ n ∈ v.inEdges → n < g.edges.size
  increasing : ∀ v ∈ g.vertices,
    v.outEdges.toList.Pairwise (· < ·) ∧ v.inEdges.toList.Pairwise (· < ·)
  vertexProps : ∀ v ∈ g.vertices, ∀ name ∈ ["_id", "_in", "_out"], v.props.get? name = none
  edgeProps : ∀ e ∈ g.edges, ∀ name ∈ ["_in", "_out", "_label"], e.props.get? name = none

theorem Sound.keys_nodup (h : g.Sound) : (g.vertices.toList.map (·.id.key)).Nodup := by
  rw [List.nodup_iff_getElem?_ne_getElem?]
  intro i j hij hj heq
  have hj' : j < g.vertices.size := by simpa using hj
  have hi' : i < g.vertices.size := Nat.lt_trans hij hj'
  have hkey : g.vertices[i].id.key = g.vertices[j].id.key := by simpa [hi', hj'] using heq
  have hfirst := (h.index _ i).mpr ⟨_, Array.getElem?_eq_getElem hi', rfl⟩
  have hsecond := (h.index _ j).mpr ⟨_, Array.getElem?_eq_getElem hj', rfl⟩
  rw [hkey, hsecond] at hfirst
  exact Nat.ne_of_lt hij (Option.some.inj hfirst).symm

theorem count_incident {n : Nat} {e : Edge} (he : g.edges[n]? = some e) (u : Nat)
    (d : Direction) : (g.incident u d).count n = if u = e.endpoint d then 1 else 0 := by
  have hnodup : (g.incident u d).Nodup := List.nodup_range.filter _
  have hmem : n ∈ g.incident u d ↔ u = e.endpoint d := by simp [mem_incident, he, eq_comm]
  rw [hnodup.count]
  simp only [hmem]

theorem increasing_incident (g : Graph) (u : Nat) (d : Direction) :
    (g.incident u d).Pairwise (· < ·) :=
  List.pairwise_lt_range.filter _

theorem Sound.consistent (h : g.Sound) : g.Consistent where
  keys := h.keys_nodup
  index := h.index
  endpoints e he := ⟨h.endpoint_lt e he .outgoing, h.endpoint_lt e he .incoming⟩
  listed n e he u v hv := by
    refine ⟨?_, ?_⟩
    · exact (congrArg (List.count n) (h.edges u v hv .outgoing)).trans (count_incident he u _)
    · exact (congrArg (List.count n) (h.edges u v hv .incoming)).trans (count_incident he u _)
  known v hv n hn := by
    obtain ⟨u, hu⟩ := Array.getElem?_of_mem hv
    have hlt : ∀ d, n ∈ (v.edges d).toList → n < g.edges.size := by
      intro d hd
      rw [h.edges u v hu d] at hd
      obtain ⟨e, he, -⟩ := mem_incident.mp hd
      exact (Array.getElem?_eq_some_iff.mp he).1
    rcases hn with hn | hn
    · exact hlt .outgoing hn.val
    · exact hlt .incoming hn.val
  increasing v hv := by
    obtain ⟨u, hu⟩ := Array.getElem?_of_mem hv
    have hsorted : ∀ d, (v.edges d).toList.Pairwise (· < ·) := by
      intro d
      rw [h.edges u v hu d]
      exact increasing_incident g u d
    exact ⟨hsorted .outgoing, hsorted .incoming⟩
  vertexProps := h.vertexProps
  edgeProps := h.edgeProps

/-- Whatever was added, the parts of a graph agree. A vertex is refused only for an id whose key is
stored, an edge only for an end that is not, the head being looked up first; and a call or a
record of a series that fails leaves the graph as it was. -/
theorem built_consistent (h : g.Built) :
    g.Consistent ∧
    (∀ r cause, g.addVertex r = .error cause ↔
      ∃ id, r.id = some id ∧ g.Stores id ∧ cause = .vertexExists id) ∧
    (∀ r cause, g.addEdge r = .error cause ↔
      ¬ g.Stores r.head ∧ cause = .missingEndpoint .incoming r.head ∨
      g.Stores r.head ∧ ¬ g.Stores r.tail ∧ cause = .missingEndpoint .outgoing r.tail) ∧
    (∀ call cause, (g.insert call).1 = .failed cause → (g.insert call).2 = g) ∧
    (∀ r records cause, g.addVertex r = .error cause →
      (g.addVertices (r :: records)).graph = (g.addVertices records).graph) ∧
    (∀ r records cause, g.addEdge r = .error cause →
      (g.addEdges (r :: records)).graph = (g.addEdges records).graph) := by
  have hsound := h.sound
  refine ⟨hsound.consistent, fun r cause => ?_, fun r cause => ?_, fun call cause => ?_,
    fun r records cause hadd => ?_, fun r records cause hadd => ?_⟩
  · simp only [addVertex_error, hsound.stores_iff]
  · simp only [addEdge_error, hsound.stores_iff, Option.not_isSome_iff_eq_none]
  · exact insert_failed
  · rw [addVertices_cons, hadd]
    rfl
  · rw [addEdges_cons, hadd]
    rfl

/-- Two vertices, an edge from one to the other and one from that to itself. -/
def looped : Graph :=
  let vertices : Insertion := .vertices [⟨some (.text "1"), ∅⟩, ⟨none, ∅⟩]
  let edges : Insertion := .edges [⟨.int 1, .text "2", some "to", ∅⟩, ⟨.int 2, .int 2, none, ∅⟩]
  (((∅ : Graph).insert vertices).2.insert edges).2

theorem looped_built : looped.Built := .insert (.insert .empty _) _

theorem built_consistent_looped : looped.Built ∧ looped.edges.size = 2 ∧ looped.Consistent ∧
    looped.addVertex ⟨some (.int 2), ∅⟩ = .error (.vertexExists (.int 2)) := by
  obtain ⟨hconsistent, hvertex, -⟩ := built_consistent looped_built
  refine ⟨looped_built, rfl, hconsistent, (hvertex _ _).mpr ⟨_, rfl, ?_, rfl⟩⟩
  exact ⟨_, Array.mem_of_getElem? (show looped.vertices[1]? = some _ from rfl), rfl⟩

end Graph

end GraphWalk
