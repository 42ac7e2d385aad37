import GraphWalk.Proofs.Graph.Flat
import GraphWalk.Proofs.Graph.Record

/-!
# A graph's text is read back

The text of a flat form is read where no attribute nests too deep, and then it is read as that form
with every float replaced by what its text denotes (`FlatGraph.ofString?_text_eq`). The graphs that
insertions build can be stored as such forms, so `ofString_text`: without floats their texts lose
nothing.
-/

namespace GraphWalk

open Json (Document)

-- ---------------------------------------------------------------------------
-- Rereading
-- ---------------------------------------------------------------------------

theorem VertexId.reread_toJson (id : VertexId) : id.toJson.reread = id.toJson := by
  cases id <;> rfl

/-- With every float replaced by what its text denotes. -/
def VertexRecord.reread (r : VertexRecord) : VertexRecord := ⟨r.id, r.props.map Json.reread⟩

def EdgeRecord.reread (r : EdgeRecord) : EdgeRecord :=
  ⟨r.tail, r.head, r.label, r.props.map Json.reread⟩

theorem VertexRecord.reread_toJson (r : VertexRecord) : r.toJson.reread = r.reread.toJson := by
  obtain ⟨id, props⟩ := r
  cases id <;> simp [toJson, VertexRecord.reread, Json.reread, Json.rereadFields_eq, Table.map,
    VertexId.reread_toJson]

theorem EdgeRecord.reread_toJson (r : EdgeRecord) : r.toJson.reread = r.reread.toJson := by
  obtain ⟨tail, head, label, props⟩ := r
  cases label <;> simp [toJson, EdgeRecord.reread, Json.reread, Json.rereadFields_eq, Table.map,
    VertexId.reread_toJson]

theorem Table.fits_reread (room : Nat) (t : Table Json) :
    (t.map Json.reread).fits room = t.fits room := by
  simp [fits, Table.map, Json.nesting_reread, Function.comp_def]

theorem Table.get?_map_none {α β : Type} {f : α → β} {t : Table α} {name : String}
    (h : t.get? name = none) : (t.map f).get? name = none := by
  rw [get?_map, h, Option.map_none]

theorem VertexRecord.Storable.reread {r : VertexRecord} (h : r.Storable) : r.reread.Storable where
  id := h.id
  clean := Table.get?_map_none h.clean
  values := List.forall_mem_map.mpr fun e he => Json.readable_reread e.2 (h.values e he)

theorem EdgeRecord.Storable.reread {r : EdgeRecord} (h : r.Storable) : r.reread.Storable where
  tail := h.tail
  head := h.head
  clean name hname := Table.get?_map_none (h.clean name hname)
  values := List.forall_mem_map.mpr fun e he => Json.readable_reread e.2 (h.values e he)

namespace FlatGraph

variable {flat : FlatGraph} {room : Nat}

def reread (flat : FlatGraph) : FlatGraph :=
  ⟨flat.vertices.map VertexRecord.reread, flat.edges.map EdgeRecord.reread⟩

theorem reread_toJson (flat : FlatGraph) : flat.toJson.reread = flat.reread.toJson := by
  simp [toJson, FlatGraph.reread, Json.reread, Json.rereadFields, Json.rereadItems_eq,
    VertexRecord.reread_toJson, EdgeRecord.reread_toJson, Function.comp_def]

theorem fits_reread : flat.reread.fits room = flat.fits room := by
  simp [fits, reread, VertexRecord.reread, EdgeRecord.reread, Table.fits_reread,
    Function.comp_def]

theorem Storable.reread (h : flat.Storable) : flat.reread.Storable where
  vertices := List.forall_mem_map.mpr fun r hr => (h.vertices r hr).reread
  edges := List.forall_mem_map.mpr fun r hr => (h.edges r hr).reread

/-- The shape of the text takes three levels of nesting, the rest is left to the attributes. -/
theorem ofString?_text_eq (h : flat.Storable) :
    ofString? flat.text = if flat.fits 124 then some flat.reread else none := by
  have hwide : flat.toJson.wide := by
    refine all_toJson (fun _ => rfl) (fun _ => rfl) (fun _ => rfl) ?_ h fun v hv => hv.regular.wide
    intro id hid
    cases id with
    | int n =>
      have hrange : -2 ^ 63 ≤ n ∧ n < 2 ^ 63 := by
        simpa [VertexId.legible, VertexId.inRange] using hid
      have hwide : -2 ^ 63 ≤ n ∧ n < 2 ^ 64 := by omega
      simpa [VertexId.toJson, Json.isWide] using hwide
    | text s => rfl
  have hfinite : flat.toJson.finite := by
    refine all_toJson (fun _ => rfl) (fun _ => rfl) (fun _ => rfl) ?_ h fun v hv => hv.finite
    intro id _
    cases id <;> rfl
  have hdocument : Document.ofString? flat.text = some (Document.ofJson flat.reread.toJson) := by
    rw [Document.ofString?, text, Json.compact, String.toList_ofList,
      Document.ofChars?_compactChars hwide hfinite, reread_toJson]
  rw [ofString?, hdocument, Option.bind_some]
  exact (ofDocument?_toJson h.reread).trans (by rw [fits_reread])

end FlatGraph

-- ---------------------------------------------------------------------------
-- Flat forms without floats
-- ---------------------------------------------------------------------------

/-- Vertex records whose text reads as themselves where `room` arrays and objects may be nested in
a value. -/
structure VertexRecord.Legible (room : Nat) (r : VertexRecord) : Prop where
  id : ∀ id ∈ r.id, id.legible
  clean : r.props.get? "_id" = none
  values : ∀ e ∈ r.props.entries, e.2.Legible room

structure EdgeRecord.Legible (room : Nat) (r : EdgeRecord) : Prop where
  tail : r.tail.legible
  head : r.head.legible
  clean : ∀ name ∈ EdgeRecord.reservedNames, r.props.get? name = none
  values : ∀ e ∈ r.props.entries, e.2.Legible room

theorem Table.reread_legible {room : Nat} {t : Table Json}
    (h : ∀ e ∈ t.entries, e.2.Legible room) : t.map Json.reread = t := by
  have hsame : ∀ e ∈ t.entries, (e.1, e.2.reread) = e :=
    fun e he => congrArg (Prod.mk e.1) (Json.reread_floatless e.2 (h e he).floatless)
  exact Table.ext_entries ((List.map_congr_left hsame).trans (List.map_id' _))

theorem Table.fits_legible {room : Nat} {t : Table Json}
    (h : ∀ e ∈ t.entries, e.2.Legible room) : t.fits room :=
  List.all_eq_true.mpr fun e he => decide_eq_true (h e he).nesting

namespace FlatGraph

structure Legible (room : Nat) (flat : FlatGraph) : Prop where
  vertices : ∀ r ∈ flat.vertices, r.Legible room
  edges : ∀ r ∈ flat.edges, r.Legible room

variable {flat : FlatGraph} {room : Nat}

theorem Legible.storable (h : flat.Legible room) : flat.Storable where
  vertices r hr :=
    have hr := h.vertices r hr
    ⟨hr.id, hr.clean, fun e he => (hr.values e he).readable⟩
  edges r hr :=
    have hr := h.edges r hr
    ⟨hr.tail, hr.head, hr.clean, fun e he => (hr.values e he).readable⟩

theorem Legible.fits (h : flat.Legible room) : flat.fits room := by
  rw [FlatGraph.fits, Bool.and_eq_true, List.all_eq_true, List.all_eq_true]
  exact ⟨fun r hr => Table.fits_legible (h.vertices r hr).values,
    fun r hr => Table.fits_legible (h.edges r hr).values⟩

theorem Legible.reread (h : flat.Legible room) : flat.reread = flat := by
  have hvertices : ∀ r ∈ flat.vertices, r.reread = r := by
    intro r hr
    rw [VertexRecord.reread, Table.reread_legible (h.vertices r hr).values]
  have hedges : ∀ r ∈ flat.edges, r.reread = r := by
    intro r hr
    rw [EdgeRecord.reread, Table.reread_legible (h.edges r hr).values]
  rw [FlatGraph.reread, List.map_congr_left hvertices, List.map_congr_left hedges, List.map_id',
    List.map_id']

theorem ofString?_text (h : flat.Legible 124) : ofString? flat.text = some flat := by
  rw [ofString?_text_eq h.storable, if_pos h.fits, h.reread]

end FlatGraph

-- ---------------------------------------------------------------------------
-- Graphs
-- ---------------------------------------------------------------------------

namespace Graph

variable {g : Graph}

/-- The values of all attributes. -/
def values (g : Graph) : List Json :=
  (g.vertices.toList.flatMap fun v => v.props.entries.map (·.2)) ++
    g.edges.toList.flatMap fun e => e.props.entries.map (·.2)

theorem Sound.toFlat_legible (h : g.Sound) {room : Nat} (hids : ∀ v ∈ g.vertices, v.id.legible)
    (hvalues : ∀ v ∈ g.values, v.Legible room) : g.toFlat.Legible room where
  vertices r hr := by
    obtain ⟨v, hv, rfl⟩ := List.mem_map.mp hr
    refine ⟨?_, h.toFlat_wellFormed.vertexProps _ hr "_id" (by decide), fun e he => ?_⟩
    · rintro id ⟨rfl⟩
      exact hids v (Array.mem_toList_iff.mp hv)
    · exact hvalues e.2 (List.mem_append_left _
        (List.mem_flatMap.mpr ⟨v, hv, List.mem_map.mpr ⟨e, he, rfl⟩⟩))
  edges r hr := by
    obtain ⟨e, he, rfl⟩ := List.mem_map.mp hr
    have hlt := h.endpoint_lt e (Array.mem_toList_iff.mp he)
    have hidOf : ∀ n, n < g.vertices.size → (g.idOf n).legible := by
      intro n hn
      have hv := Array.getElem?_eq_getElem hn
      exact idOf_eq hv ▸ hids _ (Array.mem_of_getElem? hv)
    refine ⟨hidOf _ (hlt .outgoing), hidOf _ (hlt .incoming), h.toFlat_wellFormed.edgeProps _ hr,
      fun a ha => ?_⟩
    exact hvalues a.2 (List.mem_append_right _
      (List.mem_flatMap.mpr ⟨e, he, List.mem_map.mpr ⟨a, ha, rfl⟩⟩))

/-- Ids and attributes of a kind that can be read, without floats, are kept by the text of a graph
that leaves three levels of nesting to its own shape: it reads as a graph of the same flat form,
and no record is passed over. -/
theorem ofString_text (h : g.Built) (hids : ∀ v ∈ g.vertices, v.id.legible)
    (hregular : ∀ v ∈ g.values, v.Regular) (hfloat : ∀ v ∈ g.values, v.floatless)
    (hnesting : ∀ v ∈ g.values, v.nesting ≤ 124) :
    ∃ b, ofString g.text = .ok b ∧ b.added = g.vertices.size + g.edges.size ∧ b.notices = [] ∧
      b.graph.toFlat = g.toFlat := by
  have hsound := h.sound
  have hlegible : g.toFlat.Legible 124 :=
    hsound.toFlat_legible hids fun v hv => ⟨hregular v hv, hfloat v hv, hnesting v hv⟩
  refine ⟨ofFlat g.toFlat, ?_, ?_, ?_, ?_⟩
  · rw [ofString, text, FlatGraph.ofString?_text hlegible]
  · rw [hsound.ofFlat_toFlat]
  · rw [hsound.ofFlat_toFlat]
  · rw [hsound.ofFlat_toFlat]
    rfl

/-- Ids of both kinds, a text with characters that are escaped, and attributes that are set apart
on the other kind of record. -/
def annotated : Graph :=
  let vertices : Insertion := .vertices
    [⟨some (.text "a\"\n"), Table.ofList [("_label", .arr [.obj [("", .null)], .int (-7)])]⟩,
      ⟨some (.int 1), ∅⟩]
  let edges : Insertion := .edges
    [⟨.text "a\"\n", .text "1", none, Table.ofList [("_id", .str "e")]⟩,
      ⟨.int 1, .int 1, some "to", ∅⟩]
  (((∅ : Graph).insert vertices).2.insert edges).2

theorem annotated_built : annotated.Built := .insert (.insert .empty _) _

theorem ofString_text_annotated : annotated.Built ∧ (∀ v ∈ annotated.vertices, v.id.legible) ∧
    annotated.values = [.arr [.obj [("", .null)], .int (-7)], .str "e"] ∧
    (∀ v ∈ annotated.values, v.Regular) ∧ (∀ v ∈ annotated.values, v.floatless) ∧
    (∀ v ∈ annotated.values, v.nesting ≤ 124) ∧
    ∃ b, ofString annotated.text = .ok b ∧ b.added = 4 ∧ b.graph.toFlat = annotated.toFlat := by
  have hids : ∀ v ∈ annotated.vertices, v.id.legible := by decide
  have hregular : ∀ v ∈ annotated.values, v.Regular := by decide
  have hfloat : ∀ v ∈ annotated.values, v.floatless := by decide
  have hnesting : ∀ v ∈ annotated.values, v.nesting ≤ 124 := by decide
  obtain ⟨b, hread, hadded, -, hflat⟩ :=
    ofString_text annotated_built hids hregular hfloat hnesting
  exact ⟨annotated_built, hids, rfl, hregular, hfloat, hnesting, b, hread, hadded, hflat⟩

end Graph

end GraphWalk
