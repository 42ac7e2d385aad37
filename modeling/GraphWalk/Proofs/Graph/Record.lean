import GraphWalk.Graph.Record
import GraphWalk.Proofs.Json.Document

/-!
# Records are read back

The document that mirrors a record, or a flat form, is read as that record (`ofDocument?_toJson`),
if its ids are legible, no attribute has a name that reading sets apart, and the attributes leave
room for the nesting; without the room the whole flat form is refused.
-/

namespace GraphWalk

open Json (Document)

/-- Whether a table of attributes leaves the room free that its values need. -/
def Table.fits (room : Nat) (t : Table Json) : Bool :=
  t.entries.all fun e => e.2.nesting ≤ room

-- ---------------------------------------------------------------------------
-- Members
-- ---------------------------------------------------------------------------

namespace Json.Document

variable {fields : List (String × Json)} {room : Nat}

/-- The members that the fields of an object are written as. -/
def named (fields : List (String × Json)) : List (String × Document) :=
  fields.map fun e => (e.1, ofJson e.2)

theorem namedMembers?_ofJson (fields : List (String × Json)) :
    (ofJson (.obj fields)).namedMembers? = some (named fields) := by
  rw [ofJson, namedMembers?]
  induction fields with
  | nil => rfl
  | cons e rest ih => simp [ofFields, named, ih]

theorem filter_named (p : String → Bool) (fields : List (String × Json)) :
    (named fields).filter (fun e => p e.1) = named (fields.filter fun e => p e.1) := by
  rw [named, List.filter_map]
  rfl

theorem member?_absent {name : String} (h : (fields.filter fun e => e.1 = name) = []) :
    member? (named fields) name = some none := by
  rw [member?, filter_named (fun n => n = name), h]
  rfl

theorem member?_once {name : String} {e : String × Json}
    (h : (fields.filter fun e => e.1 = name) = [e]) :
    member? (named fields) name = some (some (ofJson e.2)) := by
  rw [member?, filter_named (fun n => n = name), h]
  rfl

/-- A series of readings succeeds where each of them does. -/
theorem mapM_ite {α β : Type} {read : α → Option β} {p : α → Bool} {f : α → β} {l : List α}
    (h : ∀ x ∈ l, read x = if p x then some (f x) else none) :
    l.mapM read = if l.all p then some (l.map f) else none := by
  induction l with
  | nil => rfl
  | cons x l ih =>
    obtain ⟨hx, hrest⟩ := List.forall_mem_cons.mp h
    rw [List.mapM_cons, hx, ih hrest, List.all_cons]
    cases p x <;> cases l.all p <;> rfl

theorem attributes?_named {t : Table Json} {reserved : List String}
    (hfields : (fields.filter fun e => e.1 ∉ reserved) = t.entries)
    (hordered : ∀ e ∈ t.entries, e.2.ordered) (room : Nat) :
    attributes? room (named fields) reserved = if t.fits room then some t else none := by
  have hread : ∀ e ∈ t.entries, ((ofJson e.2).value? room).map (fun v => (e.1, v)) =
      if decide (e.2.nesting ≤ room) then some e else none := by
    intro e he
    rw [value?_ofJson (hordered e he)]
    by_cases hroom : e.2.nesting ≤ room <;> simp [hroom]
  have hall : (named t.entries).mapM (fun e => (e.2.value? room).map fun v => (e.1, v)) =
      if t.fits room then some t.entries else none := by
    rw [named, List.mapM_map]
    exact (mapM_ite (f := id) hread).trans (by rw [List.map_id, Table.fits])
  have htable : Table.ofList t.entries = t := Table.ext_entries (Table.entries_ofList t.sorted)
  rw [attributes?, filter_named (fun n => n ∉ reserved), hfields, hall]
  cases t.fits room
  · rfl
  · exact congrArg some htable

end Json.Document

-- ---------------------------------------------------------------------------
-- Records
-- ---------------------------------------------------------------------------

/-- An integer id that can be read fits 64 signed bits. -/
def VertexId.legible : VertexId → Bool
  | .int n => inRange n
  | .text _ => true

theorem VertexId.id?_ofJson {id : VertexId} (h : id.legible) (room : Nat) :
    (Document.ofJson id.toJson).id? room = some id := by
  cases id with
  | int n =>
    have hrange : inRange n := h
    simp [toJson, Document.ofJson, Document.id?, Document.value?, ofJson?, hrange]
  | text s => rfl

theorem VertexId.isNull_ofJson (id : VertexId) : (Document.ofJson id.toJson).isNull = false := by
  cases id <;> rfl

/-- Vertex records that a text can hold: the id and the values are of kinds that can be read, and no
attribute has a name that reading sets apart. -/
structure VertexRecord.Storable (r : VertexRecord) : Prop where
  id : ∀ id ∈ r.id, id.legible
  clean : r.props.get? "_id" = none
  values : ∀ e ∈ r.props.entries, e.2.Readable

structure EdgeRecord.Storable (r : EdgeRecord) : Prop where
  tail : r.tail.legible
  head : r.head.legible
  clean : ∀ name ∈ EdgeRecord.reservedNames, r.props.get? name = none
  values : ∀ e ∈ r.props.entries, e.2.Readable

theorem VertexRecord.ofDocument?_toJson {r : VertexRecord} (h : r.Storable) (room : Nat) :
    ofDocument? (room + 1) (Document.ofJson r.toJson) =
      if r.props.fits room then some r else none := by
  obtain ⟨id, props⟩ := r
  have hname : (props.entries.filter fun e => e.1 = "_id") = [] := Table.filter_name h.clean
  have hothers : (props.entries.filter fun e => e.1 ∉ ["_id"]) = props.entries :=
    Table.filter_names (by simpa using h.clean)
  have hordered : ∀ e ∈ props.entries, e.2.ordered := fun e he => (h.values e he).regular.ordered
  cases id with
  | none =>
    have hid := Document.member?_absent hname
    have hprops := Document.attributes?_named hothers hordered room
    simp only [ofDocument?, toJson, Option.map_none, Option.toList_none, List.nil_append,
      Document.namedMembers?_ofJson, hid, hprops, Option.bind_eq_bind, Option.bind_some]
    cases props.fits room <;> rfl
  | some id =>
    let fields := ("_id", id.toJson) :: props.entries
    have hid : (fields.filter fun e => e.1 = "_id") = [("_id", id.toJson)] := by
      rw [List.filter_cons_of_pos rfl, hname]
    have hprops : (fields.filter fun e => e.1 ∉ ["_id"]) = props.entries := by
      rw [List.filter_cons_of_neg (by simp), hothers]
    have hmembers := Document.namedMembers?_ofJson fields
    have hid' := Document.member?_once hid
    have hprops' := Document.attributes?_named hprops hordered room
    have hread := VertexId.id?_ofJson (h.id id rfl) room
    have hnull := VertexId.isNull_ofJson id
    have hshown : toJson ⟨some id, props⟩ = .obj fields := rfl
    simp only [ofDocument?, hshown, hmembers, hid', hprops', hread, hnull, Option.bind_eq_bind,
      Option.bind_some, Bool.false_eq_true, if_false, Option.map_some]
    cases props.fits room <;> rfl

theorem EdgeRecord.ofDocument?_toJson {r : EdgeRecord} (h : r.Storable) (room : Nat) :
    ofDocument? (room + 1) (Document.ofJson r.toJson) =
      if r.props.fits room then some r else none := by
  obtain ⟨tail, head, label, props⟩ := r
  have hname : ∀ name ∈ reservedNames, (props.entries.filter fun e => e.1 = name) = [] :=
    fun name hname => Table.filter_name (h.clean name hname)
  have hothers : (props.entries.filter fun e => e.1 ∉ reservedNames) = props.entries :=
    Table.filter_names h.clean
  have hordered : ∀ e ∈ props.entries, e.2.ordered := fun e he => (h.values e he).regular.ordered
  let labels := (label.map fun label => ("_label", Json.str label)).toList
  let fields := ("_out", tail.toJson) :: ("_in", head.toJson) :: labels ++ props.entries
  have htail : (fields.filter fun e => e.1 = "_out") = [("_out", tail.toJson)] := by
    cases label <;> simp [fields, labels, hname "_out" (by decide)]
  have hhead : (fields.filter fun e => e.1 = "_in") = [("_in", head.toJson)] := by
    cases label <;> simp [fields, labels, hname "_in" (by decide)]
  have hlabel : (fields.filter fun e => e.1 = "_label") = labels := by
    cases label <;> simp [fields, labels, hname "_label" (by decide)]
  have hprops : (fields.filter fun e => e.1 ∉ reservedNames) = props.entries := by
    have hreserved : ∀ e ∈ ("_out", tail.toJson) :: ("_in", head.toJson) :: labels,
        e.1 ∈ reservedNames := by
      cases label <;> simp [labels, reservedNames]
    rw [List.filter_append, hothers, List.filter_eq_nil_iff.mpr, List.nil_append]
    simpa using hreserved
  have hprops' := Document.attributes?_named hprops hordered room
  have hmembers := Document.namedMembers?_ofJson fields
  have htail' := Document.member?_once htail
  have hhead' := Document.member?_once hhead
  have hread := VertexId.id?_ofJson h.tail room
  have hread' := VertexId.id?_ofJson h.head room
  have hshown : toJson ⟨tail, head, label, props⟩ = .obj fields := rfl
  cases label with
  | none =>
    have hlabel' := Document.member?_absent hlabel
    simp only [ofDocument?, hshown, hmembers, htail', hhead', hread, hread', hlabel', hprops',
      Option.bind_eq_bind, Option.bind_some]
    cases props.fits room <;> rfl
  | some label =>
    have hlabel' := Document.member?_once hlabel
    have htext : label? (Document.ofJson (.str label)) = some (some label) := rfl
    simp only [ofDocument?, hshown, hmembers, htail', hhead', hread, hread', hlabel', hprops',
      htext, Option.bind_eq_bind, Option.bind_some]
    cases props.fits room <;> rfl

-- ---------------------------------------------------------------------------
-- Flat forms
-- ---------------------------------------------------------------------------

namespace FlatGraph

/-- Whether every table of attributes fits into the room. -/
def fits (room : Nat) (flat : FlatGraph) : Bool :=
  (flat.vertices.all fun r => r.props.fits room) && flat.edges.all fun r => r.props.fits room

structure Storable (flat : FlatGraph) : Prop where
  vertices : ∀ r ∈ flat.vertices, r.Storable
  edges : ∀ r ∈ flat.edges, r.Storable

theorem records?_ofItems {α : Type} {read : Nat → Document → Option α} {toJson : α → Json}
    {p : α → Bool} {room : Nat} {records : List α}
    (h : ∀ r ∈ records, read room (Document.ofJson (toJson r)) = if p r then some r else none) :
    records? read (room + 1) (some (Document.ofJson (.arr (records.map toJson)))) =
      if records.all p then some records else none := by
  have hitems : ∀ items, Document.ofItems items = items.map Document.ofJson := by
    intro items
    induction items with
    | nil => rfl
    | cons v rest ih => simp [Document.ofItems, ih]
  have hread : (Document.ofItems (records.map toJson)).mapM (read room) =
      if records.all p then some records else none := by
    rw [hitems, List.map_map, List.mapM_map]
    exact (Document.mapM_ite (f := id) h).trans (by rw [List.map_id])
  simpa [Document.ofJson, records?] using hread

theorem ofDocument?_toJson {room : Nat} {flat : FlatGraph} (h : flat.Storable) :
    ofDocument? (room + 3) (Document.ofJson flat.toJson) =
      if flat.fits room then some flat else none := by
  let vertices := Json.arr (flat.vertices.map VertexRecord.toJson)
  let edges := Json.arr (flat.edges.map EdgeRecord.toJson)
  let fields := [("V", vertices), ("E", edges)]
  have hshown : Document.ofJson flat.toJson = .object (Document.ofFields fields) := rfl
  have hmembers : (Document.object (Document.ofFields fields)).namedMembers? = _ :=
    Document.namedMembers?_ofJson fields
  have hvertices : Document.member? (Document.named fields) "V" =
      some (some (Document.ofJson vertices)) := Document.member?_once (e := ("V", vertices)) rfl
  have hedges : Document.member? (Document.named fields) "E" =
      some (some (Document.ofJson edges)) := Document.member?_once (e := ("E", edges)) rfl
  have hread := records?_ofItems fun r hr =>
    VertexRecord.ofDocument?_toJson (h.vertices r hr) room
  have hread' := records?_ofItems fun r hr =>
    EdgeRecord.ofDocument?_toJson (h.edges r hr) room
  simp only [ofDocument?, hshown, hmembers, hvertices, hedges, vertices, edges, hread, hread',
    Option.bind_eq_bind, Option.bind_some, Option.pure_def, fits]
  by_cases hfits : flat.vertices.all fun r => r.props.fits room
  · by_cases hfits' : flat.edges.all fun r => r.props.fits room <;> simp [hfits, hfits']
  · simp [hfits]

/-- Tests that structure, strings and legible ids pass need only look at the attributes. -/
theorem all_toJson {p : Json → Bool} (hobj : ∀ fields, p (.obj fields))
    (harr : ∀ items, p (.arr items)) (hstr : ∀ s, p (.str s))
    (hid : ∀ id : VertexId, id.legible → p id.toJson) {flat : FlatGraph}
    (h : flat.Storable) (hvalues : ∀ v : Json, v.Readable → v.all p) :
    flat.toJson.all p := by
  have hids : ∀ id : VertexId, id.legible → id.toJson.all p := by
    intro id hlegible
    have hscalar : id.toJson.isScalar := by cases id <;> rfl
    exact Json.all_scalar (p := p) hscalar ▸ hid id hlegible
  have hvertices : ∀ r ∈ flat.vertices, r.toJson.all p := by
    intro r hr
    have hr := h.vertices r hr
    refine Json.all_obj.mpr ⟨hobj _, fun e he => ?_⟩
    rcases List.mem_append.mp he with he | he
    · obtain ⟨id, hsome, rfl⟩ : ∃ id, r.id = some id ∧ ("_id", id.toJson) = e := by simpa using he
      exact hids id (hr.id id hsome)
    · exact hvalues e.2 (hr.values e he)
  have hedges : ∀ r ∈ flat.edges, r.toJson.all p := by
    intro r hr
    have hr := h.edges r hr
    refine Json.all_obj.mpr ⟨hobj _, fun e he => ?_⟩
    rcases List.mem_append.mp he with he | he
    · rcases List.mem_cons.mp he with rfl | he
      · exact hids r.tail hr.tail
      · rcases List.mem_cons.mp he with rfl | he
        · exact hids r.head hr.head
        · obtain ⟨label, -, rfl⟩ : ∃ label, r.label = some label ∧
              ("_label", Json.str label) = e := by
            simpa using he
          exact hstr label
    · exact hvalues e.2 (hr.values e he)
  refine Json.all_obj.mpr ⟨hobj _, fun e he => ?_⟩
  simp only [List.mem_cons, List.not_mem_nil, or_false] at he
  rcases he with rfl | rfl
  · exact Json.all_arr.mpr ⟨harr _, by simpa using hvertices⟩
  · exact Json.all_arr.mpr ⟨harr _, by simpa using hedges⟩

end FlatGraph

end GraphWalk
