import GraphWalk.Proofs.Json.Spelling
import GraphWalk.Proofs.Table

/-!
# Reading a written value

The text of a float may denote a neighbour of it, so a value is read back as its `reread`, which is
the value itself where it has no floats. `ofChars?_compactChars`: the compact text of a value is
read as the document that mirrors its `reread`, even where names are not in order.
`value?_ofJson`: the value of a mirroring document is the value that it mirrors, if names are in
order and there is room for the nesting; without the room there is none. Together:
`ofString?_compact`.
-/

namespace GraphWalk.Json

-- ---------------------------------------------------------------------------
-- Rereading
-- ---------------------------------------------------------------------------

/-- What the text of a float denotes. -/
def rereadFloat (x : Float) : Json := (Numeral.ofFloat x).value?.getD null

mutual

/-- A value with every float replaced by what its text denotes. -/
def reread : Json → Json
  | float x => rereadFloat x
  | arr items => arr (rereadItems items)
  | obj fields => obj (rereadFields fields)
  | v => v

def rereadItems : List Json → List Json
  | [] => []
  | v :: rest => reread v :: rereadItems rest

def rereadFields : List (String × Json) → List (String × Json)
  | [] => []
  | (k, v) :: rest => (k, reread v) :: rereadFields rest

end

theorem rereadItems_eq (items : List Json) : rereadItems items = items.map reread := by
  induction items with
  | nil => rfl
  | cons v rest ih => simp [rereadItems, ih]

theorem rereadFields_eq (fields : List (String × Json)) :
    rereadFields fields = fields.map fun e => (e.1, e.2.reread) := by
  induction fields with
  | nil => rfl
  | cons e rest ih => simp [rereadFields, ih]

theorem readable_null : null.Readable := ⟨⟨rfl, rfl⟩, rfl⟩

theorem readable_rereadFloat (x : Float) : (rereadFloat x).isScalar ∧ (rereadFloat x).Readable := by
  unfold rereadFloat
  cases h : (Numeral.ofFloat x).value? with
  | none => exact ⟨rfl, readable_null⟩
  | some v => exact Numeral.value?_readable h

theorem isScalar_reread {v : Json} (h : v.isScalar) : v.reread.isScalar := by
  cases v with
  | float x => exact (readable_rereadFloat x).1
  | arr items => cases h
  | obj fields => cases h
  | _ => rfl

theorem reread_floatless (v : Json) : v.floatless → v.reread = v := by
  induction v using Json.induction with
  | scalar v hscalar =>
    intro hfloat
    cases v with
    | float x => cases hfloat
    | arr items => cases hscalar
    | obj fields => cases hscalar
    | _ => rfl
  | arr items ih =>
    intro hfloat
    have hitems := List.map_congr_left fun v hv => ih v hv ((all_arr.mp hfloat).2 v hv)
    rw [reread, rereadItems_eq, hitems, List.map_id']
  | obj fields ih =>
    intro hfloat
    have hfields : ∀ e ∈ fields, (e.1, e.2.reread) = e :=
      fun e he => congrArg (Prod.mk e.1) (ih e he ((all_obj.mp hfloat).2 e he))
    rw [reread, rereadFields_eq, List.map_congr_left hfields, List.map_id']

theorem readable_reread (v : Json) : v.Readable → v.reread.Readable := by
  induction v using Json.induction with
  | scalar v hscalar =>
    intro h
    cases v with
    | float x => exact (readable_rereadFloat x).2
    | arr items => cases hscalar
    | obj fields => cases hscalar
    | _ => exact h
  | arr items ih =>
    intro h
    rw [reread, rereadItems_eq, readable_arr, List.forall_mem_map]
    exact fun v hv => ih v hv (readable_arr.mp h v hv)
  | obj fields ih =>
    intro h
    obtain ⟨hsorted, hfields⟩ := readable_obj.mp h
    rw [reread, rereadFields_eq, readable_obj, List.forall_mem_map]
    refine ⟨?_, fun e he => ih e he (hfields e he)⟩
    simpa [Entries.Sorted, List.pairwise_map] using hsorted

theorem nesting_reread (v : Json) : ∀ n, v.reread.nesting ≤ n ↔ v.nesting ≤ n := by
  induction v using Json.induction with
  | scalar v hscalar =>
    intro n
    rw [nesting_scalar hscalar, nesting_scalar (isScalar_reread hscalar)]
  | arr items ih =>
    rintro (_ | n)
    · simp [reread, nesting]
    · rw [reread, rereadItems_eq, nesting_arr, nesting_arr, List.forall_mem_map]
      exact forall₂_congr fun v hv => ih v hv n
  | obj fields ih =>
    rintro (_ | n)
    · simp [reread, nesting]
    · rw [reread, rereadFields_eq, nesting_obj, nesting_obj, List.forall_mem_map]
      exact forall₂_congr fun e he => ih e he n

namespace Document

mutual

/-- A value as a document. -/
def ofJson : Json → Document
  | arr items => array (ofItems items)
  | obj fields => object (ofFields fields)
  | v => scalar (some v)

def ofItems : List Json → List Document
  | [] => []
  | v :: rest => ofJson v :: ofItems rest

def ofFields : List (String × Json) → List (Option String × Document)
  | [] => []
  | (k, v) :: rest => (some k, ofJson v) :: ofFields rest

end

theorem ofJson_scalar {v : Json} (h : v.isScalar) : ofJson v = scalar (some v) := by
  cases v with
  | arr items => cases h
  | obj fields => cases h
  | _ => rfl

-- ---------------------------------------------------------------------------
-- From tokens
-- ---------------------------------------------------------------------------

namespace Builder

/-- The tokens stand for the document wherever a value is expected. -/
def Builds (tokens : List Token) (d : Document) : Prop :=
  ∀ stack, tokens.foldlM step ⟨.value, stack⟩ = accept d stack

theorem word?_numeral {cs : List Char} {n : Numeral} (h : Numeral.ofChars? cs = some n) :
    word? cs = some (scalar n.value?) := by
  have hne : ∀ ds, Numeral.ofChars? ds = none → cs ≠ ds := by
    rintro ds hnone rfl
    cases h.symm.trans hnone
  rw [word?, if_neg (hne _ (by decide)), if_neg (hne _ (by decide)), if_neg (hne _ (by decide)),
    h, Option.map_some]

theorem word?_repr {n : Int} (h : isWide n) :
    word? (Int.repr n).toList = some (scalar (some (int n))) := by
  rw [word?_numeral (Numeral.ofChars?_repr n), Numeral.value?_repr h]

theorem word?_floatChars {x : Float} (h : x.isFinite) :
    word? (floatChars x) = some (scalar (some (rereadFloat x))) := by
  obtain ⟨v, hv⟩ := Numeral.exists_value?_ofFloat h
  rw [word?_numeral (Numeral.ofChars?_floatChars x), rereadFloat, hv, Option.getD_some]

theorem builds_word {cs : List Char} {d : Document} (h : word? cs = some d) :
    Builds [.word cs] d := by
  intro stack
  simp [step, value, h]

theorem builds_scalar {v : Json} (hscalar : v.isScalar) (hwide : v.wide) (hfinite : v.finite) :
    Builds v.tokens (scalar (some v.reread)) := by
  cases v with
  | null => exact builds_word rfl
  | bool b => cases b <;> exact builds_word rfl
  | int n => exact builds_word (word?_repr hwide)
  | float x => exact builds_word (word?_floatChars hfinite)
  | str s =>
    intro stack
    simp [tokens, step, value, Quoted.decode?_encode, reread]
  | arr items => cases hscalar
  | obj fields => cases hscalar

/-- No value begins with a closing bracket. -/
theorem tokens_head (v : Json) : ∃ t ts, v.tokens = t :: ts ∧ t ≠ .mark ']' := by
  cases v with
  | arr items => exact ⟨_, _, rfl, by decide⟩
  | obj fields => exact ⟨_, _, rfl, by decide⟩
  | _ => exact ⟨_, _, rfl, by simp⟩

theorem build_items {v : Json} {rest : List Json}
    (h : ∀ w ∈ v :: rest, Builds w.tokens (ofJson w.reread))
    (ds : List Document) (stack : List Frame) :
    (itemTokens (v :: rest)).foldlM step ⟨.value, .array ds :: stack⟩ =
      some ⟨.separator, .array ((ofItems (rereadItems (v :: rest))).reverse ++ ds) :: stack⟩ := by
  induction rest generalizing v ds with
  | nil =>
    rw [itemTokens, h v List.mem_cons_self]
    rfl
  | cons w rest ih =>
    obtain ⟨hv, hrest⟩ := List.forall_mem_cons.mp h
    show (v.tokens ++ .mark ',' :: itemTokens (w :: rest)).foldlM step _ = _
    have hcomma : step ⟨.separator, .array (ofJson v.reread :: ds) :: stack⟩ (.mark ',') =
        some ⟨.value, .array (ofJson v.reread :: ds) :: stack⟩ := rfl
    simp only [List.foldlM_append, hv (.array ds :: stack), accept, Option.bind_eq_bind,
      Option.bind_some, List.foldlM_cons, hcomma, ih hrest]
    simp [ofItems, rereadItems]

theorem build_member {k : String} {v : Json} (h : Builds v.tokens (ofJson v.reread))
    (ms : List (Option String × Document)) (stack : List Frame) :
    (.quoted (Quoted.encode k.toList) :: .mark ':' :: v.tokens).foldlM step
        ⟨.name, .object ms :: stack⟩ =
      some ⟨.separator, .object ((some k, ofJson v.reread) :: ms) :: stack⟩ := by
  have hname : step ⟨.name, .object ms :: stack⟩ (.quoted (Quoted.encode k.toList)) =
      some ⟨.colon, .member (some k) ms :: stack⟩ := by
    simp [step, name, Quoted.decode?_encode]
  have hcolon : step ⟨.colon, .member (some k) ms :: stack⟩ (.mark ':') =
      some ⟨.value, .member (some k) ms :: stack⟩ := rfl
  simp only [List.foldlM_cons, hname, hcolon, h (.member (some k) ms :: stack), accept,
    Option.bind_eq_bind, Option.bind_some]

theorem build_fields {e : String × Json} {rest : List (String × Json)}
    (h : ∀ e' ∈ e :: rest, Builds e'.2.tokens (ofJson e'.2.reread))
    (ms : List (Option String × Document)) (stack : List Frame) :
    (fieldTokens (e :: rest)).foldlM step ⟨.name, .object ms :: stack⟩ =
      some ⟨.separator,
        .object ((ofFields (rereadFields (e :: rest))).reverse ++ ms) :: stack⟩ := by
  induction rest generalizing e ms with
  | nil => exact build_member (h e List.mem_cons_self) ms stack
  | cons e' rest ih =>
    obtain ⟨hv, hrest⟩ := List.forall_mem_cons.mp h
    show ((.quoted (Quoted.encode e.1.toList) :: .mark ':' :: e.2.tokens) ++
      .mark ',' :: fieldTokens (e' :: rest)).foldlM step _ = _
    have hcomma : ∀ ms, step ⟨.separator, .object ms :: stack⟩ (.mark ',') =
        some ⟨.name, .object ms :: stack⟩ := fun _ => rfl
    simp only [List.foldlM_append, build_member hv, Option.bind_eq_bind, Option.bind_some,
      List.foldlM_cons, hcomma, ih hrest]
    simp [ofFields, rereadFields]

theorem foldlM_one (b : Builder) (t : Token) : [t].foldlM step b = step b t := by
  simp

/-- The first token begins an item and closes nothing. -/
theorem build_firstItem (v : Json) (rest : List Json) (stack : List Frame) :
    (itemTokens (v :: rest)).foldlM step ⟨.firstItem, stack⟩ =
      (itemTokens (v :: rest)).foldlM step ⟨.value, stack⟩ := by
  obtain ⟨t, ts, hhead, hne⟩ : ∃ t ts, itemTokens (v :: rest) = t :: ts ∧ t ≠ .mark ']' := by
    obtain ⟨t, ts, hhead, hne⟩ := tokens_head v
    cases rest with
    | nil => exact ⟨t, ts, hhead, hne⟩
    | cons w rest =>
      exact ⟨t, ts ++ .mark ',' :: itemTokens (w :: rest), by simp [itemTokens, hhead], hne⟩
  rw [hhead, List.foldlM_cons, List.foldlM_cons]
  simp [step, hne]

theorem build_firstName (e : String × Json) (rest : List (String × Json)) (stack : List Frame) :
    (fieldTokens (e :: rest)).foldlM step ⟨.firstName, stack⟩ =
      (fieldTokens (e :: rest)).foldlM step ⟨.name, stack⟩ := by
  cases rest <;> rfl

theorem builds_arr {items : List Json} (h : ∀ v ∈ items, Builds v.tokens (ofJson v.reread)) :
    Builds (arr items).tokens (ofJson (arr items).reread) := by
  intro stack
  have hopen : step ⟨.value, stack⟩ (.mark '[') = some ⟨.firstItem, .array [] :: stack⟩ := rfl
  rw [tokens, List.cons_append, List.foldlM_cons, hopen, Option.bind_eq_bind,
    Option.bind_some, List.foldlM_append]
  cases items with
  | nil => exact foldlM_one _ _
  | cons v rest =>
    have hclose : ∀ ds, step ⟨.separator, .array ds :: stack⟩ (.mark ']') =
        accept (array ds.reverse) stack := fun _ => rfl
    simp only [build_firstItem, build_items h, Option.bind_eq_bind, Option.bind_some,
      List.append_nil, foldlM_one, hclose, List.reverse_reverse, reread, ofJson]

theorem builds_obj {fields : List (String × Json)}
    (h : ∀ e ∈ fields, Builds e.2.tokens (ofJson e.2.reread)) :
    Builds (obj fields).tokens (ofJson (obj fields).reread) := by
  intro stack
  have hopen : step ⟨.value, stack⟩ (.mark '\x7b') = some ⟨.firstName, .object [] :: stack⟩ := rfl
  rw [tokens, List.cons_append, List.foldlM_cons, hopen, Option.bind_eq_bind,
    Option.bind_some, List.foldlM_append]
  cases fields with
  | nil => exact foldlM_one _ _
  | cons e rest =>
    have hclose : ∀ ms, step ⟨.separator, .object ms :: stack⟩ (.mark '\x7d') =
        accept (object ms.reverse) stack := fun _ => rfl
    simp only [build_firstName, build_fields h, Option.bind_eq_bind, Option.bind_some,
      List.append_nil, foldlM_one, hclose, List.reverse_reverse, reread, ofJson]

theorem builds_value (v : Json) : v.wide → v.finite → Builds v.tokens (ofJson v.reread) := by
  induction v using Json.induction with
  | scalar v hscalar =>
    intro hwide hfinite
    rw [ofJson_scalar (isScalar_reread hscalar)]
    exact builds_scalar hscalar hwide hfinite
  | arr items ih =>
    intro hwide hfinite
    exact builds_arr fun v hv =>
      ih v hv ((all_arr.mp hwide).2 v hv) ((all_arr.mp hfinite).2 v hv)
  | obj fields ih =>
    intro hwide hfinite
    exact builds_obj fun e he =>
      ih e he ((all_obj.mp hwide).2 e he) ((all_obj.mp hfinite).2 e he)

end Builder

theorem ofChars?_compactChars {v : Json} (hwide : v.wide) (hfinite : v.finite) :
    ofChars? v.compactChars = some (ofJson v.reread) := by
  have hbuilt := Builder.builds_value v hwide hfinite []
  rw [ofChars?, Token.ofChars?_compactChars, Option.bind_some, ofTokens?, Builder.start,
    hbuilt]
  rfl

-- ---------------------------------------------------------------------------
-- Values
-- ---------------------------------------------------------------------------

theorem items?_ofItems {room : Nat} {items : List Json}
    (h : ∀ v ∈ items, value? room (ofJson v) = some v) :
    items? room (ofItems items) = some items := by
  induction items with
  | nil => rfl
  | cons v rest ih =>
    obtain ⟨hv, hrest⟩ := List.forall_mem_cons.mp h
    simp [ofItems, items?, hv, ih hrest]

theorem members?_ofFields {room : Nat} {fields : List (String × Json)}
    (h : ∀ e ∈ fields, value? room (ofJson e.2) = some e.2) :
    members? room (ofFields fields) = some fields := by
  induction fields with
  | nil => rfl
  | cons e rest ih =>
    obtain ⟨hv, hrest⟩ := List.forall_mem_cons.mp h
    simp [ofFields, members?, hv, ih hrest]

theorem value?_ofJson_of_le (v : Json) :
    v.ordered → ∀ room, v.nesting ≤ room → value? room (ofJson v) = some v := by
  induction v using Json.induction with
  | scalar v hscalar =>
    intro _ room _
    rw [ofJson_scalar hscalar]
    rfl
  | arr items ih =>
    rintro hordered (_ | room) hroom
    · cases hroom
    · have hitems := items?_ofItems fun v hv =>
        ih v hv ((all_arr.mp hordered).2 v hv) room (nesting_arr.mp hroom v hv)
      simp [ofJson, value?, hitems]
  | obj fields ih =>
    rintro hordered (_ | room) hroom
    · cases hroom
    · have hfields := members?_ofFields fun e he =>
        ih e he ((all_obj.mp hordered).2 e he) room (nesting_obj.mp hroom e he)
      have hsorted : Entries.Sorted fields := by simpa using (all_obj.mp hordered).1
      simp [ofJson, value?, hfields, Json.object, Table.entries_ofList hsorted]

theorem exists_of_items? {room : Nat} {items ws : List Json}
    (h : items? room (ofItems items) = some ws) :
    ∀ v ∈ items, ∃ w, value? room (ofJson v) = some w := by
  induction items generalizing ws with
  | nil => simp
  | cons v rest ih =>
    simp only [ofItems, items?, Option.bind_eq_bind, Option.bind_eq_some_iff] at h
    obtain ⟨w, hw, ws, hws, -⟩ := h
    exact List.forall_mem_cons.mpr ⟨⟨w, hw⟩, ih hws⟩

theorem exists_of_members? {room : Nat} {fields es : List (String × Json)}
    (h : members? room (ofFields fields) = some es) :
    ∀ e ∈ fields, ∃ w, value? room (ofJson e.2) = some w := by
  induction fields generalizing es with
  | nil => simp
  | cons e rest ih =>
    simp only [ofFields, members?, Option.bind_eq_bind, Option.bind_eq_some_iff] at h
    obtain ⟨-, -, w, hw, es, hes, -⟩ := h
    exact List.forall_mem_cons.mpr ⟨⟨w, hw⟩, ih hes⟩

theorem nesting_le_of_value? (v : Json) :
    ∀ room w, value? room (ofJson v) = some w → v.nesting ≤ room := by
  induction v using Json.induction with
  | scalar v hscalar =>
    intro room w _
    exact nesting_scalar hscalar ▸ Nat.zero_le room
  | arr items ih =>
    rintro (_ | room) w h
    · cases h
    · simp only [ofJson, value?, Option.bind_eq_bind, Option.bind_eq_some_iff] at h
      obtain ⟨ws, hws, -⟩ := h
      refine nesting_arr.mpr fun v hv => ?_
      obtain ⟨w, hw⟩ := exists_of_items? hws v hv
      exact ih v hv room w hw
  | obj fields ih =>
    rintro (_ | room) w h
    · cases h
    · simp only [ofJson, value?, Option.bind_eq_bind, Option.bind_eq_some_iff] at h
      obtain ⟨es, hes, -⟩ := h
      refine nesting_obj.mpr fun e he => ?_
      obtain ⟨w, hw⟩ := exists_of_members? hes e he
      exact ih e he room w hw

/-- A value is read from the document that mirrors it exactly where there is room for it. -/
theorem value?_ofJson {v : Json} (h : v.ordered) (room : Nat) :
    value? room (ofJson v) = if v.nesting ≤ room then some v else none := by
  split
  next hroom => exact value?_ofJson_of_le v h room hroom
  next hroom =>
    refine Option.eq_none_iff_forall_not_mem.mpr fun w hw => ?_
    exact hroom (nesting_le_of_value? v room w hw)

end Document

/-- The text of a readable value is read where it nests no deeper than the reader allows. -/
theorem ofString?_compact {v : Json} (h : v.Readable) :
    ofString? v.compact = if v.nesting ≤ maxNesting then some v.reread else none := by
  have hroom := nesting_reread v maxNesting
  rw [ofString?, Document.ofString?, compact, String.toList_ofList,
    Document.ofChars?_compactChars h.regular.wide h.finite, Option.bind_some,
    Document.value?_ofJson (readable_reread v h).regular.ordered]
  simp only [hroom]

end GraphWalk.Json
