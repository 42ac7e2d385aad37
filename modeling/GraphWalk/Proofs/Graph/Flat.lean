import GraphWalk.Proofs.Graph.Built

/-!
# Rebuilding a graph from its flat form

The flat form forgets the index, the adjacency lists and the counter. `Sound.eq_of_toFlat`: all but
the counter can be told from it. `ofFlat_toFlat`: adding its records to the empty graph passes over
none of them, so it gives the graph back, counting from one.
-/

namespace GraphWalk

theorem Table.eraseAll_eq_self {α : Type} {t : Table α} {keys : List String}
    (h : ∀ key ∈ keys, t.get? key = none) : t.eraseAll keys = t := by
  refine Table.ext_get? fun key => ?_
  rw [Table.get?_eraseAll]
  split
  next hkey => exact (h key hkey).symm
  next => rfl

theorem Vertex.ext_edges {v w : Vertex} (hid : v.id = w.id) (hprops : v.props = w.props)
    (hedges : ∀ d, (v.edges d).toList = (w.edges d).toList) : v = w := by
  obtain ⟨id, props, out, into⟩ := v
  obtain ⟨id', props', out', into'⟩ := w
  obtain rfl : out = out' := Array.toList_inj.mp (hedges .outgoing)
  obtain rfl : into = into' := Array.toList_inj.mp (hedges .incoming)
  obtain rfl : id = id' := hid
  obtain rfl : props = props' := hprops
  rfl

/-- The record without the attributes that a stored vertex does not have. -/
def VertexRecord.stored (r : VertexRecord) : VertexRecord :=
  ⟨r.id, r.props.eraseAll VertexRecord.reservedNames⟩

theorem VertexRecord.stored_eq_self {r : VertexRecord}
    (h : ∀ name ∈ VertexRecord.reservedNames, r.props.get? name = none) : r.stored = r := by
  rw [stored, Table.eraseAll_eq_self h]

/-- All vertices have ids, of keys that are not repeated, the edges run between stored ids, and no
attribute has a reserved name. -/
structure FlatGraph.WellFormed (flat : FlatGraph) : Prop where
  ids : ∀ r ∈ flat.vertices, r.id.isSome
  keys : flat.vertices.Pairwise fun a b => ∀ i ∈ a.id, ∀ j ∈ b.id, i.key ≠ j.key
  ends : ∀ r ∈ flat.edges,
    some r.tail ∈ flat.vertices.map (·.id) ∧ some r.head ∈ flat.vertices.map (·.id)
  vertexProps : ∀ r ∈ flat.vertices, ∀ name ∈ VertexRecord.reservedNames, r.props.get? name = none
  edgeProps : ∀ r ∈ flat.edges, ∀ name ∈ EdgeRecord.reservedNames, r.props.get? name = none

namespace Graph

variable {g g' : Graph} {id : VertexId} {props : Table Json} {e : Edge}

-- ---------------------------------------------------------------------------
-- The flat form grows at its end
-- ---------------------------------------------------------------------------

theorem idOf_eq {n : Nat} {v : Vertex} (h : g.vertices[n]? = some v) : g.idOf n = v.id := by
  simp [idOf, h]

/-- Endpoints are shown by ids, which older edges keep when a vertex is added. -/
theorem Sound.toFlat_insertVertex (h : g.Sound) :
    (g.insertVertex id props).toFlat =
      ⟨g.toFlat.vertices ++ [⟨some id, props.eraseAll VertexRecord.reservedNames⟩],
        g.toFlat.edges⟩ := by
  have hidOf : ∀ n, n < g.vertices.size → (g.insertVertex id props).idOf n = g.idOf n := by
    intro n hn
    simp [idOf, Graph.insertVertex, Array.getElem?_push, Nat.ne_of_lt hn]
  have hedges : (g.insertVertex id props).toFlat.edges = g.toFlat.edges := by
    refine List.map_congr_left fun e he => ?_
    have hlt := h.endpoint_lt e (Array.mem_toList_iff.mp he)
    rw [hidOf e.tail (hlt .outgoing), hidOf e.head (hlt .incoming)]
  have hvertices : (g.insertVertex id props).toFlat.vertices =
      g.toFlat.vertices ++ [⟨some id, props.eraseAll VertexRecord.reservedNames⟩] := by
    simp [toFlat, Graph.insertVertex, Vertex.toRecord]
  rw [← hvertices, ← hedges]

theorem idOf_insertEdge (g : Graph) (e : Edge) (n : Nat) : (g.insertEdge e).idOf n = g.idOf n := by
  rw [idOf, idOf, getElem?_insertEdge]
  cases g.vertices[n]? <;> rfl

theorem toFlat_insertEdge (g : Graph) (e : Edge) :
    (g.insertEdge e).toFlat =
      ⟨g.toFlat.vertices,
        g.toFlat.edges ++ [⟨g.idOf e.tail, g.idOf e.head, e.label, e.props⟩]⟩ := by
  have hvertices : (g.insertEdge e).toFlat.vertices = g.toFlat.vertices := by
    refine List.ext_getElem? fun n => ?_
    simp only [toFlat, List.getElem?_map, Array.getElem?_toList, getElem?_insertEdge]
    cases g.vertices[n]? <;> rfl
  have hedges : (g.insertEdge e).toFlat.edges =
      g.toFlat.edges ++ [⟨g.idOf e.tail, g.idOf e.head, e.label, e.props⟩] := by
    simp only [toFlat, idOf_insertEdge]
    simp [Graph.insertEdge]
  rw [← hvertices, ← hedges]

/-- The id names a vertex and is the one stored with it. -/
def Shows (g : Graph) (id : VertexId) : Prop := ∃ n, g.find? id = some n ∧ g.idOf n = id

theorem Sound.shows_idOf (h : g.Sound) {n : Nat} (hn : n < g.vertices.size) :
    g.find? (g.idOf n) = some n := by
  have hv := Array.getElem?_eq_getElem hn
  rw [idOf_eq hv]
  exact (h.index _ n).mpr ⟨_, hv, rfl⟩

-- ---------------------------------------------------------------------------
-- Adding what is in order
-- ---------------------------------------------------------------------------

/-- Records with ids of their own are all stored, without their reserved attributes. -/
theorem Sound.addVertices_all (h : g.Sound) {records : List VertexRecord}
    (hids : ∀ r ∈ records, ∃ id, r.id = some id ∧ g.find? id = none)
    (hkeys : records.Pairwise fun a b => ∀ i ∈ a.id, ∀ j ∈ b.id, i.key ≠ j.key) :
    ∃ g', g.addVertices records = ⟨g', records.length, []⟩ ∧ g'.nextId = g.nextId ∧
      g'.toFlat = ⟨g.toFlat.vertices ++ records.map VertexRecord.stored, g.toFlat.edges⟩ := by
  induction records generalizing g with
  | nil => exact ⟨g, rfl, rfl, by simp⟩
  | cons r records ih =>
    obtain ⟨⟨id, hid, hfree⟩, hids⟩ := List.forall_mem_cons.mp hids
    obtain ⟨hfirst, hkeys⟩ := List.pairwise_cons.mp hkeys
    have hadd : g.addVertex r = .ok (id, g.insertVertex id r.props) :=
      addVertex_ok.mpr (.inl ⟨hid, hfree, rfl⟩)
    have hflat : (g.insertVertex id r.props).toFlat =
        ⟨g.toFlat.vertices ++ [r.stored], g.toFlat.edges⟩ := by
      rw [h.toFlat_insertVertex, VertexRecord.stored, hid]
    have hfree' : ∀ r' ∈ records, ∃ id', r'.id = some id' ∧
        (g.insertVertex id r.props).find? id' = none := by
      intro r' hr'
      obtain ⟨id', hid', hfree'⟩ := hids r' hr'
      refine ⟨id', hid', ?_⟩
      rw [find?_insertVertex, if_neg (hfirst r' hr' id hid id' hid'), hfree']
    obtain ⟨g', hrest, hcounter, hflat'⟩ := ih (h.insertVertex hfree) hfree' hkeys
    refine ⟨g', ?_, hcounter, ?_⟩
    · simp [addVertices_cons, hadd, hrest, Bulk.one, Bulk.andThen, Nat.add_comm]
    · simp [hflat', hflat]

theorem notices_eq_nil {r : EdgeRecord}
    (h : ∀ name ∈ EdgeRecord.reservedNames, r.props.get? name = none) : r.notices = [] := by
  have hnone : EdgeRecord.reservedNames.filter r.props.contains = [] :=
    List.filter_eq_nil_iff.mpr fun name hname => by simp [Table.contains, h name hname]
  rw [EdgeRecord.notices, hnone]
  rfl

/-- Edges between stored ids, without reserved attributes, are stored as they are. -/
theorem addEdges_all {records : List EdgeRecord}
    (hends : ∀ r ∈ records, g.Shows r.tail ∧ g.Shows r.head)
    (hprops : ∀ r ∈ records, ∀ name ∈ EdgeRecord.reservedNames, r.props.get? name = none) :
    ∃ g', g.addEdges records = ⟨g', records.length, []⟩ ∧ g'.nextId = g.nextId ∧
      g'.toFlat = ⟨g.toFlat.vertices, g.toFlat.edges ++ records⟩ := by
  induction records generalizing g with
  | nil => exact ⟨g, rfl, rfl, by simp⟩
  | cons r records ih =>
    obtain ⟨⟨⟨tail, htail, hshown⟩, ⟨head, hhead, hshown'⟩⟩, hends⟩ := List.forall_mem_cons.mp hends
    obtain ⟨hclean, hprops⟩ := List.forall_mem_cons.mp hprops
    have hadd := addEdge_ok.mpr ⟨tail, head, htail, hhead, rfl, rfl⟩
    rw [Table.eraseAll_eq_self hclean] at hadd
    have hflat : (g.insertEdge ⟨r.label, tail, head, r.props⟩).toFlat =
        ⟨g.toFlat.vertices, g.toFlat.edges ++ [r]⟩ := by
      rw [toFlat_insertEdge, hshown, hshown']
    have hends' : ∀ r' ∈ records,
        (g.insertEdge ⟨r.label, tail, head, r.props⟩).Shows r'.tail ∧
          (g.insertEdge ⟨r.label, tail, head, r.props⟩).Shows r'.head := by
      simpa only [Shows, find?_insertEdge, idOf_insertEdge] using hends
    obtain ⟨g', hrest, hcounter, hflat'⟩ := ih hends' hprops
    refine ⟨g', ?_, hcounter, ?_⟩
    · simp [addEdges_cons, hadd, notices_eq_nil hclean, hrest, Bulk.one, Bulk.andThen,
        Nat.add_comm]
    · simp [hflat', hflat]

-- ---------------------------------------------------------------------------
-- There and back
-- ---------------------------------------------------------------------------

theorem idOf_toFlat (g : Graph) (n : Nat) :
    g.idOf n = ((g.toFlat.vertices[n]?).bind (·.id)).getD (default : Vertex).id := by
  rw [idOf, toFlat, List.getElem?_map, Array.getElem?_toList]
  cases g.vertices[n]? <;> rfl

theorem size_toFlat (g : Graph) : g.toFlat.vertices.length = g.vertices.size := by simp [toFlat]

theorem Sound.index_iff (h : g.Sound) {key : String} {n : Nat} :
    g.index.get? key = some n ↔ n < g.vertices.size ∧ (g.idOf n).key = key := by
  rw [h.index]
  constructor
  · rintro ⟨v, hv, hkey⟩
    exact ⟨(Array.getElem?_eq_some_iff.mp hv).1, by rw [idOf_eq hv, hkey]⟩
  · rintro ⟨hn, hkey⟩
    have hv := Array.getElem?_eq_getElem hn
    exact ⟨_, hv, by rw [← idOf_eq hv, hkey]⟩

section
variable (h : g.Sound) (h' : g'.Sound) (hflat : g'.toFlat = g.toFlat)
include h h' hflat

theorem Sound.index_eq : g'.index = g.index := by
  refine Table.ext_get? fun key => Option.ext fun n => ?_
  have hsize : g'.vertices.size = g.vertices.size := by rw [← size_toFlat, ← size_toFlat, hflat]
  rw [h'.index_iff, h.index_iff, hsize, idOf_toFlat, idOf_toFlat, hflat]

/-- Endpoints that are shown by the same id are the same vertex. -/
theorem Sound.number_eq {n n' : Nat} (hn : n < g.vertices.size) (hn' : n' < g'.vertices.size)
    (hshown : g'.idOf n' = g.idOf n) : n' = n := by
  have hfound := h'.shows_idOf hn'
  rw [hshown, find?, h.index_eq h' hflat] at hfound
  exact Option.some.inj (hfound.symm.trans (h.shows_idOf hn))

theorem Sound.edges_eq : g'.edges = g.edges := by
  refine Array.ext_getElem? fun n => ?_
  have hrecord := congrArg (fun f : FlatGraph => f.edges[n]?) hflat
  simp only [toFlat, List.getElem?_map, Array.getElem?_toList] at hrecord
  cases he' : g'.edges[n]? with
  | none =>
    rw [he', Option.map_none, eq_comm, Option.map_eq_none_iff] at hrecord
    exact hrecord.symm
  | some e' =>
    rw [he', Option.map_some, eq_comm, Option.map_eq_some_iff] at hrecord
    obtain ⟨e, he, hsame⟩ := hrecord
    obtain ⟨htail, hhead, hlabel, hprops⟩ := EdgeRecord.mk.inj hsame
    have hlt := h.endpoint_lt e (Array.mem_of_getElem? he)
    have hlt' := h'.endpoint_lt e' (Array.mem_of_getElem? he')
    have htail' := h.number_eq h' hflat (hlt .outgoing) (hlt' .outgoing) htail.symm
    have hhead' := h.number_eq h' hflat (hlt .incoming) (hlt' .incoming) hhead.symm
    rw [he]
    cases e'
    cases e
    simp_all [Edge.endpoint]

theorem Sound.vertices_eq : g'.vertices = g.vertices := by
  refine Array.ext_getElem? fun u => ?_
  have hrecord := congrArg (fun f : FlatGraph => f.vertices[u]?) hflat
  simp only [toFlat, List.getElem?_map, Array.getElem?_toList] at hrecord
  cases hv' : g'.vertices[u]? with
  | none =>
    rw [hv', Option.map_none, eq_comm, Option.map_eq_none_iff] at hrecord
    exact hrecord.symm
  | some v' =>
    rw [hv', Option.map_some, eq_comm, Option.map_eq_some_iff] at hrecord
    obtain ⟨v, hv, hsame⟩ := hrecord
    obtain ⟨hid, hprops⟩ := VertexRecord.mk.inj hsame
    rw [hv]
    -- both list the edges that have them as an end
    refine congrArg some (Vertex.ext_edges (Option.some.inj hid.symm) hprops.symm fun d => ?_)
    rw [h'.edges u v' hv' d, h.edges u v hv d, incident, incident, h.edges_eq h' hflat]

/-- The flat form says everything about a graph but where it counts. -/
theorem Sound.eq_of_toFlat : g' = { g with nextId := g'.nextId } := by
  have hvertices := h.vertices_eq h' hflat
  have hedges := h.edges_eq h' hflat
  have hindex := h.index_eq h' hflat
  cases g'
  cases g
  simp_all

end

theorem idOf_mem_toFlat {n : Nat} (hn : n < g.vertices.size) :
    some (g.idOf n) ∈ g.toFlat.vertices.map (·.id) := by
  have hv := Array.getElem?_eq_getElem hn
  rw [idOf_eq hv, toFlat, List.map_map]
  exact List.mem_map.mpr ⟨g.vertices[n], by simp, rfl⟩

theorem Sound.toFlat_wellFormed (h : g.Sound) : g.toFlat.WellFormed where
  ids r hr := by
    obtain ⟨v, -, rfl⟩ := List.mem_map.mp hr
    rfl
  keys := by
    have hkeys := h.keys_nodup
    rw [List.Nodup, List.pairwise_map] at hkeys
    simpa [toFlat, List.pairwise_map, Vertex.toRecord] using hkeys
  ends r hr := by
    obtain ⟨e, he, rfl⟩ := List.mem_map.mp hr
    have hlt := h.endpoint_lt e (Array.mem_toList_iff.mp he)
    exact ⟨idOf_mem_toFlat (hlt .outgoing), idOf_mem_toFlat (hlt .incoming)⟩
  vertexProps r hr := by
    obtain ⟨v, hv, rfl⟩ := List.mem_map.mp hr
    exact h.vertexProps v (Array.mem_toList_iff.mp hv)
  edgeProps r hr := by
    obtain ⟨e, he, rfl⟩ := List.mem_map.mp hr
    exact h.edgeProps e (Array.mem_toList_iff.mp he)

theorem Sound.shows_of_mem (h : g.Sound) {id : VertexId}
    (hid : some id ∈ g.toFlat.vertices.map (·.id)) : g.Shows id := by
  obtain ⟨r, hr, hrid⟩ := List.mem_map.mp hid
  obtain ⟨v, hv, rfl⟩ := List.mem_map.mp hr
  obtain ⟨n, hn⟩ := Array.getElem?_of_mem (Array.mem_toList_iff.mp hv)
  obtain rfl : v.id = id := Option.some.inj hrid
  exact ⟨n, (h.index _ n).mpr ⟨v, hn, rfl⟩, idOf_eq hn⟩

/-- Loading a well-formed flat form passes over nothing, and gives a graph of that form. -/
theorem ofFlat_wellFormed {flat : FlatGraph} (h : flat.WellFormed) :
    ∃ g, ofFlat flat = ⟨g, flat.vertices.length + flat.edges.length, []⟩ ∧ g.Sound ∧
      g.nextId = 1 ∧ g.toFlat = flat := by
  have hids : ∀ r ∈ flat.vertices, ∃ id, r.id = some id ∧ empty.find? id = none := by
    intro r hr
    obtain ⟨id, hid⟩ := Option.isSome_iff_exists.mp (h.ids r hr)
    exact ⟨id, hid, rfl⟩
  obtain ⟨a, hvertices, hcounter, hflat⟩ := Sound.empty.addVertices_all hids h.keys
  have hstored : flat.vertices.map VertexRecord.stored = flat.vertices :=
    (List.map_congr_left fun r hr => VertexRecord.stored_eq_self (h.vertexProps r hr)).trans
      (List.map_id flat.vertices)
  have hflat : a.toFlat = ⟨flat.vertices, []⟩ := hstored ▸ hflat
  have ha : a.Sound := by
    have hsound := Sound.empty.addVertices flat.vertices
    rwa [hvertices] at hsound
  have hends : ∀ r ∈ flat.edges, a.Shows r.tail ∧ a.Shows r.head := by
    intro r hr
    obtain ⟨htail, hhead⟩ := h.ends r hr
    refine ⟨ha.shows_of_mem ?_, ha.shows_of_mem ?_⟩
    · rwa [hflat]
    · rwa [hflat]
  obtain ⟨b, hedges, hcounter', hflat'⟩ := addEdges_all hends h.edgeProps
  have hb : b.Sound := by
    have hsound := ha.addEdges flat.edges
    rwa [hedges] at hsound
  refine ⟨b, ?_, hb, hcounter'.trans hcounter, ?_⟩
  · have hvertices' : empty.addVertices flat.vertices = ⟨a, flat.vertices.length, []⟩ := hvertices
    simp only [ofFlat, addAll, hvertices', hedges, List.append_nil]
  · rw [hflat', hflat]
    rfl

/-- Rebuilding loses nothing but the place of the counter. -/
theorem Sound.ofFlat_toFlat (h : g.Sound) :
    ofFlat g.toFlat = ⟨{ g with nextId := 1 }, g.vertices.size + g.edges.size, []⟩ := by
  obtain ⟨g', hload, hsound, hcounter, hflat⟩ := ofFlat_wellFormed h.toFlat_wellFormed
  have heq := h.eq_of_toFlat hsound hflat
  rw [hcounter] at heq
  rw [hload, heq, size_toFlat]
  simp [toFlat]

end Graph

end GraphWalk
