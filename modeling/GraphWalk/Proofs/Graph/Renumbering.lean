import GraphWalk.Proofs.Graph.Series

/-!
# Graphs that differ in their numbers

The order of insertion decides how vertices and edges are numbered, and nothing else. `Renumbers`
relates graphs by what becomes of the vertex numbers. `Sound.renumbers`: graphs whose flat forms
list the same records are related so, and `renumbers_ofFlat`: so are those that the same records
make in two orders.
-/

namespace GraphWalk

/-- The edge between vertices that go by other numbers. -/
def Edge.renumber (ρ : Nat → Nat) (e : Edge) : Edge := { e with tail := ρ e.tail, head := ρ e.head }

theorem Edge.endpoint_renumber (ρ : Nat → Nat) (e : Edge) (d : Direction) :
    (e.renumber ρ).endpoint d = ρ (e.endpoint d) := by
  cases d <;> rfl

namespace Graph

/-- `g'` has the vertices of `g` under other numbers, and its edges in some order. Numbers of no
vertex stay numbers of no vertex. -/
structure Renumbers (ρ : Nat → Nat) (g g' : Graph) : Prop where
  injective : Function.Injective ρ
  record : ∀ u, (g'.vertices[ρ u]?).map Vertex.toRecord = (g.vertices[u]?).map Vertex.toRecord
  find? : ∀ id, g'.find? id = (g.find? id).map ρ
  range : (List.range g'.vertices.size).Perm ((List.range g.vertices.size).map ρ)
  edges : g'.edges.toList.Perm (g.edges.toList.map (Edge.renumber ρ))

variable {g g' : Graph} {id : VertexId} {u : Nat} {ρ : Nat → Nat}

theorem idOf_eq_of_record
    (h : (g'.vertices[ρ u]?).map Vertex.toRecord = (g.vertices[u]?).map Vertex.toRecord) :
    g'.idOf (ρ u) = g.idOf u := by
  unfold idOf
  cases hv : g.vertices[u]? <;> cases hv' : g'.vertices[ρ u]? <;>
    simp_all [Vertex.toRecord]

-- ---------------------------------------------------------------------------
-- Flat forms that list the same records
-- ---------------------------------------------------------------------------

/-- The number in `g'` of a vertex of `g`. -/
def numberIn (g g' : Graph) (u : Nat) : Nat :=
  if u < g.vertices.size then (g'.find? (g.idOf u)).getD u else u

theorem getElem?_toFlat (g : Graph) (u : Nat) :
    g.toFlat.vertices[u]? = (g.vertices[u]?).map Vertex.toRecord := by
  rw [toFlat, List.getElem?_map, Array.getElem?_toList]

section
variable (h : g.Sound) (h' : g'.Sound) (hvertices : g.toFlat.vertices.Perm g'.toFlat.vertices)
include hvertices

theorem size_eq_of_perm : g.vertices.size = g'.vertices.size := by
  rw [← size_toFlat, ← size_toFlat, hvertices.length_eq]

include h'

theorem Sound.record_numberIn (u : Nat) : (g'.vertices[g.numberIn g' u]?).map Vertex.toRecord =
    (g.vertices[u]?).map Vertex.toRecord := by
  by_cases hu : u < g.vertices.size
  · have hv := Array.getElem?_eq_getElem hu
    have hmem : g.vertices[u].toRecord ∈ g'.toFlat.vertices :=
      hvertices.mem_iff.mp (List.mem_of_getElem? (by rw [getElem?_toFlat, hv]; rfl))
    obtain ⟨n, hn⟩ := List.getElem?_of_mem hmem
    rw [getElem?_toFlat] at hn
    obtain ⟨v, hv', hrecord⟩ := Option.map_eq_some_iff.mp hn
    have hid : g.idOf u = v.id := by
      rw [idOf_eq hv]
      exact (Option.some.inj (VertexRecord.mk.inj hrecord).1).symm
    have hfound : g'.find? (g.idOf u) = some n := (h'.index _ n).mpr ⟨v, hv', by rw [hid]⟩
    rw [numberIn, if_pos hu, hfound, Option.getD_some, hn, hv, Option.map_some]
  · have hout := Nat.not_lt.mp hu
    have hout' : g'.vertices.size ≤ u := size_eq_of_perm hvertices ▸ hout
    rw [numberIn, if_neg hu, Array.getElem?_eq_none hout, Array.getElem?_eq_none hout']

theorem Sound.numberIn_lt_iff (u : Nat) :
    g.numberIn g' u < g'.vertices.size ↔ u < g.vertices.size := by
  have hrecord := congrArg Option.isSome (h'.record_numberIn hvertices u)
  rwa [Option.isSome_map, Option.isSome_map, Bool.eq_iff_iff, isSome_getElem?,
    isSome_getElem?] at hrecord

theorem Sound.idOf_numberIn (u : Nat) : g'.idOf (g.numberIn g' u) = g.idOf u :=
  idOf_eq_of_record (h'.record_numberIn hvertices u)

theorem Sound.find?_numberIn (hu : u < g.vertices.size) (hkey : (g.idOf u).key = id.key) :
    g'.find? id = some (g.numberIn g' u) :=
  h'.index_iff.mpr ⟨(h'.numberIn_lt_iff hvertices u).mpr hu, by
    rw [h'.idOf_numberIn hvertices, hkey]⟩

include h

theorem Sound.find?_of_perm (id : VertexId) :
    g'.find? id = (g.find? id).map (g.numberIn g') := by
  cases hfind : g.find? id with
  | some u =>
    obtain ⟨hu, hkey⟩ := h.index_iff.mp hfind
    exact h'.find?_numberIn hvertices hu hkey
  | none =>
    -- a vertex found in `g'` would be found in `g`, since they list the same records
    refine Option.eq_none_iff_forall_ne_some.mpr fun n hn => ?_
    obtain ⟨hlt, hkey⟩ := h'.index_iff.mp hn
    exact nomatch hfind.symm.trans (h.find?_numberIn hvertices.symm hlt hkey)

theorem Sound.numberIn_injective : Function.Injective (g.numberIn g') := by
  intro u v huv
  have hboth : u < g.vertices.size ↔ v < g.vertices.size := by
    rw [← h'.numberIn_lt_iff hvertices u, huv, h'.numberIn_lt_iff hvertices v]
  by_cases hu : u < g.vertices.size
  · have hids : g.idOf u = g.idOf v := by
      rw [← h'.idOf_numberIn hvertices u, huv, h'.idOf_numberIn hvertices v]
    have hfound := h.shows_idOf hu
    rw [hids, h.shows_idOf (hboth.mp hu)] at hfound
    exact (Option.some.inj hfound).symm
  · rwa [numberIn, numberIn, if_neg hu, if_neg (mt hboth.mpr hu)] at huv

theorem Sound.range_numberIn :
    (List.range g'.vertices.size).Perm ((List.range g.vertices.size).map (g.numberIn g')) := by
  have hnodup : ((List.range g.vertices.size).map (g.numberIn g')).Nodup :=
    List.nodup_range.map (h.numberIn_injective h' hvertices)
  refine ((List.subperm_of_subset hnodup fun n hn => ?_).perm_of_length_le ?_).symm
  · obtain ⟨u, hu, rfl⟩ := List.mem_map.mp hn
    exact List.mem_range.mpr ((h'.numberIn_lt_iff hvertices u).mpr (List.mem_range.mp hu))
  · simp [size_eq_of_perm hvertices]

end

/-- An edge record as an edge between vertices of the graph. -/
def edgeOf (g : Graph) (r : EdgeRecord) : Edge :=
  ⟨r.label, (g.find? r.tail).getD 0, (g.find? r.head).getD 0, r.props⟩

/-- The edges of a graph, read off a flat form and found in another graph. -/
theorem Sound.edgeOf_toFlat (h : g.Sound)
    (hfound : ∀ u, u < g.vertices.size → g'.find? (g.idOf u) = some (ρ u)) :
    g.toFlat.edges.map g'.edgeOf = g.edges.toList.map (Edge.renumber ρ) := by
  rw [toFlat, List.map_map]
  refine List.map_congr_left fun e he => ?_
  have hlt := h.endpoint_lt e (Array.mem_toList_iff.mp he)
  have htail : g'.find? (g.idOf e.tail) = some (ρ e.tail) := hfound _ (hlt .outgoing)
  have hhead : g'.find? (g.idOf e.head) = some (ρ e.head) := hfound _ (hlt .incoming)
  rw [Function.comp_apply, edgeOf, htail, hhead]
  rfl

theorem Sound.edges_of_perm (h : g.Sound) (h' : g'.Sound)
    (hvertices : g.toFlat.vertices.Perm g'.toFlat.vertices)
    (hedges : g.toFlat.edges.Perm g'.toFlat.edges) :
    g'.edges.toList.Perm (g.edges.toList.map (Edge.renumber (g.numberIn g'))) := by
  have hown : g'.toFlat.edges.map g'.edgeOf = g'.edges.toList.map (Edge.renumber id) :=
    h'.edgeOf_toFlat fun u hu => h'.shows_idOf hu
  have hother : g.toFlat.edges.map g'.edgeOf =
      g.edges.toList.map (Edge.renumber (g.numberIn g')) :=
    h.edgeOf_toFlat fun u hu => h'.find?_numberIn hvertices hu rfl
  have hsame : g'.edges.toList.map (Edge.renumber id) = g'.edges.toList := List.map_id _
  rw [← hother, ← hsame, ← hown]
  exact (hedges.map _).symm

/-- Graphs whose flat forms list the same records differ in their numbers only. -/
theorem Sound.renumbers (h : g.Sound) (h' : g'.Sound)
    (hvertices : g.toFlat.vertices.Perm g'.toFlat.vertices)
    (hedges : g.toFlat.edges.Perm g'.toFlat.edges) : Renumbers (g.numberIn g') g g' where
  injective := h.numberIn_injective h' hvertices
  record := h'.record_numberIn hvertices
  find? := h.find?_of_perm h' hvertices
  range := h.range_numberIn h' hvertices
  edges := h.edges_of_perm h' hvertices hedges

-- ---------------------------------------------------------------------------
-- The same records in two orders
-- ---------------------------------------------------------------------------

/-- Which edges are stored, and how, depends on the ids of the vertices alone. -/
theorem Renumbers.resolve? (h : Renumbers ρ g g') : g'.resolve? = g.resolve? := by
  funext r
  have hids : ∀ u, g'.idOf (ρ u) = g.idOf u := fun u => idOf_eq_of_record (h.record u)
  unfold Graph.resolve?
  rw [h.find?, h.find?]
  cases g.find? r.head <;> cases g.find? r.tail <;> simp [hids]

/-- What records with ids of their own make lists them in their order, without the edges that lack
an end. -/
theorem toFlat_ofFlat {V : List VertexRecord} (E : List EdgeRecord) (hids : ∀ r ∈ V, r.id.isSome)
    (hkeys : V.Pairwise fun a b => ∀ i ∈ a.id, ∀ j ∈ b.id, i.key ≠ j.key) :
    ∃ a : Graph, a.Sound ∧ a.toFlat = ⟨V.map VertexRecord.stored, []⟩ ∧
      (ofFlat ⟨V, E⟩).graph.toFlat = ⟨a.toFlat.vertices, E.filterMap a.resolve?⟩ := by
  have hfree : ∀ r ∈ V, ∃ id, r.id = some id ∧ empty.find? id = none := by
    intro r hr
    obtain ⟨id, hid⟩ := Option.isSome_iff_exists.mp (hids r hr)
    exact ⟨id, hid, rfl⟩
  obtain ⟨a, hvertices, -, hflat⟩ := Sound.empty.addVertices_all hfree hkeys
  have hflat : a.toFlat = ⟨V.map VertexRecord.stored, []⟩ := hflat
  have ha : a.Sound := by
    have hsound := Sound.empty.addVertices V
    rwa [hvertices] at hsound
  refine ⟨a, ha, hflat, ?_⟩
  have hvertices' : empty.addVertices V = ⟨a, V.length, []⟩ := hvertices
  rw [ofFlat, addAll, hvertices', toFlat_addEdges, hflat]
  rfl

theorem sound_ofFlat (flat : FlatGraph) : (ofFlat flat).graph.Sound :=
  (Sound.empty.addVertices flat.vertices).addEdges flat.edges

/-- In which order records are added decides about numbers only. -/
theorem renumbers_ofFlat {V V' : List VertexRecord} {E E' : List EdgeRecord}
    (hids : ∀ r ∈ V, r.id.isSome)
    (hkeys : V.Pairwise fun a b => ∀ i ∈ a.id, ∀ j ∈ b.id, i.key ≠ j.key)
    (hV : V.Perm V') (hE : E.Perm E') :
    ∃ ρ, Renumbers ρ (ofFlat ⟨V, E⟩).graph (ofFlat ⟨V', E'⟩).graph := by
  have hids' : ∀ r ∈ V', r.id.isSome := fun r hr => hids r (hV.mem_iff.mpr hr)
  have hkeys' : V'.Pairwise fun a b => ∀ i ∈ a.id, ∀ j ∈ b.id, i.key ≠ j.key :=
    hkeys.perm hV fun h i hi j hj => (h j hj i hi).symm
  obtain ⟨a, ha, hstored, hflat⟩ := toFlat_ofFlat E hids hkeys
  obtain ⟨b, hb, hstored', hflat'⟩ := toFlat_ofFlat E' hids' hkeys'
  have hvertices : a.toFlat.vertices.Perm b.toFlat.vertices := by
    rw [hstored, hstored']
    exact hV.map _
  -- before any edge is added, the graphs have the same vertices
  have hresolve : b.resolve? = a.resolve? :=
    (ha.renumbers hb hvertices (by rw [hstored, hstored'])).resolve?
  refine ⟨_, (sound_ofFlat ⟨V, E⟩).renumbers (sound_ofFlat ⟨V', E'⟩) ?_ ?_⟩
  · rw [hflat, hflat']
    exact hvertices
  · rw [hflat, hflat', hresolve]
    exact hE.filterMap _

end Graph

end GraphWalk
