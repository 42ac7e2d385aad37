import GraphWalk.Proofs.Graph.Text
import GraphWalk.Proofs.Json.Reading

/-!
# Graphs that were loaded

Whatever a text says, the records that are read from it are of kinds that a text can hold
(`FlatGraph.ofString?_readable`), and so is the graph that they are added to (`Loaded`). Adding one
more record to such a graph gives one whose text is read exactly where the attributes of the record
leave three levels of nesting to the shape of the text.
-/

namespace GraphWalk

open Json (Document)

-- ---------------------------------------------------------------------------
-- Records that were read
-- ---------------------------------------------------------------------------

/-- Attributes of the kind that is read where `room` arrays and objects may be nested. -/
def Table.Readable (room : Nat) (t : Table Json) : Prop :=
  ∀ e ∈ t.entries, e.2.Readable ∧ e.2.nesting ≤ room

structure VertexRecord.Readable (room : Nat) (r : VertexRecord) : Prop where
  id : ∀ id ∈ r.id, id.legible
  props : r.props.Readable room

structure EdgeRecord.Readable (room : Nat) (r : EdgeRecord) : Prop where
  tail : r.tail.legible
  head : r.head.legible
  props : r.props.Readable room

structure FlatGraph.Readable (room : Nat) (flat : FlatGraph) : Prop where
  vertices : ∀ r ∈ flat.vertices, r.Readable room
  edges : ∀ r ∈ flat.edges, r.Readable room

theorem mem_mapM {α β : Type} {read : α → Option β} {l : List α} {ys : List β}
    (h : l.mapM read = some ys) : ∀ y ∈ ys, ∃ x ∈ l, read x = some y := by
  induction l generalizing ys with
  | nil =>
    cases h
    simp
  | cons x l ih =>
    simp only [List.mapM_cons, Option.bind_eq_bind, Option.bind_eq_some_iff, Option.pure_def,
      Option.some.injEq] at h
    obtain ⟨y, hy, ys, hys, rfl⟩ := h
    refine List.forall_mem_cons.mpr ⟨⟨x, List.mem_cons_self, hy⟩, fun y' hy' => ?_⟩
    obtain ⟨x', hx', hread⟩ := ih hys y' hy'
    exact ⟨x', List.mem_cons_of_mem x hx', hread⟩

theorem VertexId.legible_ofJson? {v : Json} {id : VertexId} (h : ofJson? v = some id) :
    id.legible := by
  unfold ofJson? at h
  split at h
  · cases h
    rfl
  · split at h
    next hrange =>
      cases h
      exact hrange
    next => cases h
  · cases h

namespace Json.Document

variable {room : Nat} {d : Document} {members : List (String × Document)}

theorem Proper.namedMembers? (h : d.Proper) (hmembers : d.namedMembers? = some members) :
    ∀ e ∈ members, e.2.Proper := by
  cases h with
  | object h =>
    intro e he
    obtain ⟨m, hm, hnamed⟩ := mem_mapM hmembers e he
    obtain ⟨name, -, rfl⟩ := Option.map_eq_some_iff.mp hnamed
    exact h m hm
  | scalar => cases hmembers
  | array => cases hmembers

theorem mem_member? {name : String} (h : member? members name = some (some d)) :
    ∃ e ∈ members, e.2 = d := by
  unfold member? at h
  split at h
  · cases h
  next e hfilter =>
    cases h
    have hmem : e ∈ members.filter fun e => e.1 = name := hfilter ▸ List.mem_cons_self
    exact ⟨e, (List.mem_filter.mp hmem).1, rfl⟩
  · cases h

theorem legible_id? {id : VertexId} (h : d.id? room = some id) : id.legible := by
  obtain ⟨v, -, hid⟩ := Option.bind_eq_some_iff.mp h
  exact VertexId.legible_ofJson? hid

theorem readable_attributes? {reserved : List String} {t : Table Json}
    (hproper : ∀ e ∈ members, e.2.Proper) (h : attributes? room members reserved = some t) :
    t.Readable room := by
  unfold attributes? at h
  obtain ⟨fields, hfields, htable⟩ := Option.bind_eq_some_iff.mp h
  cases htable
  intro e he
  obtain ⟨m, hm, hread⟩ := mem_mapM hfields e (Table.mem_ofList he)
  obtain ⟨v, hv, rfl⟩ := Option.map_eq_some_iff.mp hread
  exact (hproper m (List.mem_filter.mp hm).1).value? room v hv

end Json.Document

theorem VertexRecord.readable_ofDocument? {room : Nat} {d : Document} {r : VertexRecord}
    (hd : d.Proper) (h : ofDocument? (room + 1) d = some r) : r.Readable room := by
  simp only [ofDocument?, Option.bind_eq_bind, Option.bind_eq_some_iff, Option.pure_def] at h
  obtain ⟨members, hmembers, member, -, h⟩ := h
  have hproper := hd.namedMembers? hmembers
  split at h
  next =>
    obtain ⟨props, hprops, rfl⟩ := by simpa [Option.bind_eq_some_iff] using h
    exact ⟨by rintro _ ⟨⟩, Document.readable_attributes? hproper hprops⟩
  next d =>
    split at h
    next =>
      obtain ⟨props, hprops, rfl⟩ := by simpa [Option.bind_eq_some_iff] using h
      exact ⟨by rintro _ ⟨⟩, Document.readable_attributes? hproper hprops⟩
    next =>
      obtain ⟨id, hid, props, hprops, rfl⟩ := by simpa [Option.bind_eq_some_iff] using h
      refine ⟨?_, Document.readable_attributes? hproper hprops⟩
      rintro _ ⟨rfl⟩
      exact Document.legible_id? hid

theorem EdgeRecord.readable_ofDocument? {room : Nat} {d : Document} {r : EdgeRecord}
    (hd : d.Proper) (h : ofDocument? (room + 1) d = some r) : r.Readable room := by
  simp only [ofDocument?, Option.bind_eq_bind, Option.bind_eq_some_iff, Option.pure_def] at h
  obtain ⟨members, hmembers, -, -, tail, ⟨out, -, htail⟩, -, -, head, ⟨into, -, hhead⟩, label, -,
    h⟩ := h
  have hproper := hd.namedMembers? hmembers
  split at h
  next =>
    obtain ⟨props, hprops, rfl⟩ := by simpa [Option.bind_eq_some_iff] using h
    exact ⟨Document.legible_id? htail, Document.legible_id? hhead,
      Document.readable_attributes? hproper hprops⟩
  next d =>
    obtain ⟨label, -, props, hprops, rfl⟩ := by simpa [Option.bind_eq_some_iff] using h
    exact ⟨Document.legible_id? htail, Document.legible_id? hhead,
      Document.readable_attributes? hproper hprops⟩

namespace FlatGraph

variable {room : Nat} {d : Document} {flat : FlatGraph}

theorem readable_records? {α : Type} {read : Nat → Document → Option α} {p : α → Prop}
    {records : List α} {o : Option Document} (hd : ∀ d ∈ o, d.Proper)
    (hread : ∀ d r, d.Proper → read room d = some r → p r)
    (h : records? read (room + 1) o = some records) : ∀ r ∈ records, p r := by
  unfold records? at h
  split at h
  · cases h
    simp
  next items =>
    intro r hr
    obtain ⟨d, hd', hr⟩ := mem_mapM h r hr
    cases hd _ rfl with
    | array hitems => exact hread d r (hitems d hd') hr
  · cases h

theorem readable_ofDocument? (hd : d.Proper) (h : ofDocument? (room + 3) d = some flat) :
    flat.Readable room := by
  have hrest : ∀ vertices edges : Option Document, (∀ d ∈ vertices, d.Proper) →
      (∀ d ∈ edges, d.Proper) →
      ((records? VertexRecord.ofDocument? (room + 2) vertices).bind fun vs =>
        (records? EdgeRecord.ofDocument? (room + 2) edges).bind fun es => some ⟨vs, es⟩) =
          some flat → flat.Readable room := by
    intro vertices edges hvertices hedges h
    simp only [Option.bind_eq_some_iff, Option.some.injEq] at h
    obtain ⟨vs, hvs, es, hes, rfl⟩ := h
    exact ⟨readable_records? hvertices (fun _ _ => VertexRecord.readable_ofDocument?) hvs,
      readable_records? hedges (fun _ _ => EdgeRecord.readable_ofDocument?) hes⟩
  simp only [ofDocument?, Option.bind_eq_bind, Option.pure_def] at h
  split at h
  next => exact hrest none none (by rintro _ ⟨⟩) (by rintro _ ⟨⟩) h
  next v =>
    cases hd with
    | array hitems => exact hrest (some v) none (by simpa using hitems) (by rintro _ ⟨⟩) h
  next v e =>
    cases hd with
    | array hitems =>
      obtain ⟨hv, he⟩ : v.Proper ∧ e.Proper := by simpa using hitems
      exact hrest (some v) (some e) (by simpa using hv) (by simpa using he) h
  next =>
    obtain ⟨members, hmembers, h⟩ := Option.bind_eq_some_iff.mp h
    obtain ⟨vertices, hvertices, h⟩ := Option.bind_eq_some_iff.mp h
    obtain ⟨edges, hedges, h⟩ := Option.bind_eq_some_iff.mp h
    have hproper := hd.namedMembers? hmembers
    refine hrest vertices edges ?_ ?_ h
    · rintro d ⟨rfl⟩
      obtain ⟨e, he, rfl⟩ := Document.mem_member? hvertices
      exact hproper e he
    · rintro d ⟨rfl⟩
      obtain ⟨e, he, rfl⟩ := Document.mem_member? hedges
      exact hproper e he

/-- The shape of a flat form takes three levels of nesting from those that the reader allows. -/
theorem ofString?_readable {text : String} (h : ofString? text = some flat) :
    flat.Readable 124 := by
  obtain ⟨d, hd, hflat⟩ := Option.bind_eq_some_iff.mp h
  exact readable_ofDocument? (Document.proper_ofString? hd) hflat

end FlatGraph

-- ---------------------------------------------------------------------------
-- Insertions
-- ---------------------------------------------------------------------------

theorem Table.fits_eraseAll {room : Nat} {t : Table Json} (h : t.fits room) (keys : List String) :
    (t.eraseAll keys).fits room :=
  List.all_eq_true.mpr fun e he => List.all_eq_true.mp h e (Table.mem_eraseAll he)

theorem Table.Readable.fits {room : Nat} {t : Table Json} (h : t.Readable room) : t.fits room :=
  List.all_eq_true.mpr fun e he => decide_eq_true (h e he).2

namespace Graph

variable {g g' : Graph} {id : VertexId} {props : Table Json} {e : Edge} {room : Nat}

theorem legible_idOf (h : g.toFlat.Storable) {n : Nat} (hn : n < g.vertices.size) :
    (g.idOf n).legible := by
  obtain ⟨r, hr, hid⟩ := List.mem_map.mp (idOf_mem_toFlat hn)
  exact (h.vertices r hr).id _ hid

theorem Sound.storable_insertVertex (hg : g.Sound) (h : g.toFlat.Storable) (hid : id.legible)
    (hprops : ∀ e ∈ props.entries, e.2.Readable) : (g.insertVertex id props).toFlat.Storable := by
  rw [hg.toFlat_insertVertex]
  refine ⟨List.forall_mem_append.mpr ⟨h.vertices, ?_⟩, h.edges⟩
  refine List.forall_mem_singleton.mpr ⟨?_, ?_, fun e he => hprops e (Table.mem_eraseAll he)⟩
  · rintro _ ⟨rfl⟩
    exact hid
  · simp [Table.get?_eraseAll, VertexRecord.reservedNames]

theorem Sound.fits_insertVertex (hg : g.Sound) :
    (g.insertVertex id props).toFlat.fits room =
      (g.toFlat.fits room && (props.eraseAll VertexRecord.reservedNames).fits room) := by
  simp [hg.toFlat_insertVertex, FlatGraph.fits, Bool.and_right_comm]

theorem storable_insertEdge (h : g.toFlat.Storable) (hends : ∀ d, e.endpoint d < g.vertices.size)
    (hclean : ∀ name ∈ EdgeRecord.reservedNames, e.props.get? name = none)
    (hprops : ∀ a ∈ e.props.entries, a.2.Readable) : (g.insertEdge e).toFlat.Storable := by
  rw [toFlat_insertEdge]
  refine ⟨h.vertices, List.forall_mem_append.mpr ⟨h.edges, ?_⟩⟩
  exact List.forall_mem_singleton.mpr
    ⟨legible_idOf h (hends .outgoing), legible_idOf h (hends .incoming), hclean, hprops⟩

theorem fits_insertEdge :
    (g.insertEdge e).toFlat.fits room = (g.toFlat.fits room && e.props.fits room) := by
  simp [toFlat_insertEdge, FlatGraph.fits, Bool.and_assoc]

/-- The fresh number of a vertex without an id is legible as long as there are fewer vertices than
64 signed bits can count. -/
theorem Sound.storable_addVertex (hg : g.Sound) (h : g.toFlat.Storable) {r : VertexRecord}
    (hadd : g.addVertex r = .ok (id, g')) (hid : ∀ id ∈ r.id, id.legible)
    (hprops : ∀ e ∈ r.props.entries, e.2.Readable) (hsize : g'.vertices.size < 2 ^ 63) :
    g'.toFlat.Storable := by
  rcases addVertex_ok.mp hadd with ⟨hgiven, -, rfl⟩ | ⟨-, rfl, rfl⟩
  · exact hg.storable_insertVertex h (hid id hgiven) hprops
  · have hgrown : g.vertices.size + 1 < 2 ^ 63 := by simpa [Graph.insertVertex] using hsize
    have hfresh := hg.freshNumber_le
    have hlegible : (VertexId.int g.freshNumber).legible := by
      simp only [VertexId.legible, VertexId.inRange, decide_eq_true_eq]
      omega
    exact hg.storable_insertVertex h hlegible hprops

theorem Sound.fits_addVertex (hg : g.Sound) {r : VertexRecord}
    (hadd : g.addVertex r = .ok (id, g')) (room : Nat) :
    g'.toFlat.fits room =
      (g.toFlat.fits room && (r.props.eraseAll VertexRecord.reservedNames).fits room) := by
  rcases addVertex_ok.mp hadd with ⟨-, -, rfl⟩ | ⟨-, rfl, rfl⟩
  · exact hg.fits_insertVertex
  · exact hg.fits_insertVertex

theorem Sound.storable_addEdge (hg : g.Sound) (h : g.toFlat.Storable) {r : EdgeRecord} {n : Nat}
    (hadd : g.addEdge r = .ok (n, g')) (hprops : ∀ e ∈ r.props.entries, e.2.Readable) :
    g'.toFlat.Storable := by
  obtain ⟨tail, head, htail, hhead, -, rfl⟩ := addEdge_ok.mp hadd
  refine storable_insertEdge h (fun d => ?_) (fun name hname => ?_) fun a ha => ?_
  · cases d with
    | outgoing => exact hg.find?_lt htail
    | incoming => exact hg.find?_lt hhead
  · rw [Table.get?_eraseAll, if_pos hname]
  · exact hprops a (Table.mem_eraseAll ha)

theorem fits_addEdge {r : EdgeRecord} {n : Nat} (hadd : g.addEdge r = .ok (n, g')) (room : Nat) :
    g'.toFlat.fits room =
      (g.toFlat.fits room && (r.props.eraseAll EdgeRecord.reservedNames).fits room) := by
  obtain ⟨tail, head, -, -, -, rfl⟩ := addEdge_ok.mp hadd
  exact fits_insertEdge

-- ---------------------------------------------------------------------------
-- Loading
-- ---------------------------------------------------------------------------

/-- What every graph is that was loaded. -/
structure Loaded (g : Graph) : Prop where
  sound : g.Sound
  storable : g.toFlat.Storable
  fits : g.toFlat.fits 124

theorem Loaded.empty : (∅ : Graph).Loaded := ⟨.empty, ⟨nofun, nofun⟩, rfl⟩

theorem size_addVertex {r : VertexRecord} (hadd : g.addVertex r = .ok (id, g')) :
    g'.vertices.size = g.vertices.size + 1 := by
  rcases addVertex_ok.mp hadd with ⟨-, -, rfl⟩ | ⟨-, rfl, rfl⟩ <;> simp [insertVertex]

theorem size_addEdge {r : EdgeRecord} {n : Nat} (hadd : g.addEdge r = .ok (n, g')) :
    g'.vertices.size = g.vertices.size := by
  obtain ⟨tail, head, -, -, -, rfl⟩ := addEdge_ok.mp hadd
  simp [insertEdge]

theorem size_le_addVertices (g : Graph) (records : List VertexRecord) :
    g.vertices.size ≤ (g.addVertices records).graph.vertices.size := by
  induction records generalizing g with
  | nil => exact Nat.le_refl _
  | cons r records ih =>
    rw [addVertices_cons]
    refine Nat.le_trans ?_ (ih _)
    cases hadd : g.addVertex r with
    | ok added => exact size_addVertex hadd ▸ Nat.le_succ _
    | error cause => exact Nat.le_refl _

theorem size_addEdges (g : Graph) (records : List EdgeRecord) :
    (g.addEdges records).graph.vertices.size = g.vertices.size := by
  induction records generalizing g with
  | nil => rfl
  | cons r records ih =>
    rw [addEdges_cons]
    refine (ih _).trans ?_
    cases hadd : g.addEdge r with
    | ok added => exact size_addEdge hadd
    | error cause => rfl

theorem Loaded.addVertices (h : g.Loaded) {records : List VertexRecord}
    (hrecords : ∀ r ∈ records, r.Readable 124)
    (hsize : (g.addVertices records).graph.vertices.size < 2 ^ 63) :
    (g.addVertices records).graph.Loaded := by
  induction records generalizing g with
  | nil => exact h
  | cons r records ih =>
    obtain ⟨hr, hrecords⟩ := List.forall_mem_cons.mp hrecords
    rw [addVertices_cons] at hsize ⊢
    refine ih ?_ hrecords hsize
    cases hadd : g.addVertex r with
    | error cause => exact h
    | ok added =>
      obtain ⟨id, g'⟩ := added
      rw [hadd] at hsize
      have hfits := Table.fits_eraseAll hr.props.fits VertexRecord.reservedNames
      refine ⟨h.sound.addVertex hadd, ?_, ?_⟩
      · exact h.sound.storable_addVertex h.storable hadd hr.id (fun e he => (hr.props e he).1)
          (Nat.lt_of_le_of_lt (size_le_addVertices g' records) hsize)
      · exact (h.sound.fits_addVertex hadd 124).trans (by rw [h.fits, hfits]; rfl)

theorem Loaded.addEdges (h : g.Loaded) {records : List EdgeRecord}
    (hrecords : ∀ r ∈ records, r.Readable 124) : (g.addEdges records).graph.Loaded := by
  induction records generalizing g with
  | nil => exact h
  | cons r records ih =>
    obtain ⟨hr, hrecords⟩ := List.forall_mem_cons.mp hrecords
    rw [addEdges_cons]
    refine ih ?_ hrecords
    cases hadd : g.addEdge r with
    | error cause => exact h
    | ok added =>
      have hfits := Table.fits_eraseAll hr.props.fits EdgeRecord.reservedNames
      refine ⟨h.sound.addEdge hadd, ?_, ?_⟩
      · exact h.sound.storable_addEdge h.storable hadd fun e he => (hr.props e he).1
      · exact (fits_addEdge hadd 124).trans (by rw [h.fits, hfits]; rfl)

theorem ofString_loaded {text : String} {b : Bulk} (h : ofString text = .ok b)
    (hsize : b.graph.vertices.size < 2 ^ 63) : b.graph.Loaded := by
  unfold ofString at h
  split at h
  next flat hflat =>
    cases h
    have hrecords := FlatGraph.ofString?_readable hflat
    have hvertices : (empty.addVertices flat.vertices).graph.vertices.size < 2 ^ 63 := by
      rwa [← size_addEdges _ flat.edges]
    exact (Loaded.empty.addVertices hrecords.vertices hvertices).addEdges hrecords.edges
  next => cases h

/-- The text of a graph of kinds that a text can hold is read exactly where no attribute needs the
levels of nesting that the shape of the text takes. -/
theorem ofString_text_iff (h : g.toFlat.Storable) :
    (∃ b, ofString g.text = .ok b) ↔ g.toFlat.fits 124 := by
  unfold ofString text
  rw [FlatGraph.ofString?_text_eq h]
  cases g.toFlat.fits 124 <;> simp

end Graph

end GraphWalk
