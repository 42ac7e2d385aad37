import GraphWalk.Json.Reader
import GraphWalk.Proofs.Json.Float
import GraphWalk.Proofs.Json.Value
import GraphWalk.Proofs.Table

/-!
# What is read

A document holds scalars of the kind that words and strings denote (`Document.Proper`), whatever
the text. So every value that is read is `Readable` and nests no deeper than the reader allows
(`Document.Proper.value?`).
-/

namespace GraphWalk.Json

namespace Document

/-- Every scalar that denotes a value denotes a readable one. -/
inductive Proper : Document → Prop
  | scalar {value : Option Json} (h : ∀ v ∈ value, v.isScalar ∧ v.Readable) : Proper (scalar value)
  | array {items : List Document} (h : ∀ d ∈ items, Proper d) : Proper (array items)
  | object {members : List (Option String × Document)} (h : ∀ e ∈ members, Proper e.2) :
    Proper (object members)

-- ---------------------------------------------------------------------------
-- Documents that were read
-- ---------------------------------------------------------------------------

/-- The documents in an open array or object. -/
def Frame.documents : Frame → List Document
  | .array items => items
  | .object members => members.map (·.2)
  | .member _ members => members.map (·.2)

namespace Builder

variable {b b' : Builder} {d : Document} {stack : List Frame} {t : Token}

/-- All that is complete is proper. -/
structure Proper (b : Builder) : Prop where
  frames : ∀ f ∈ b.stack, ∀ d ∈ f.documents, d.Proper
  finish : ∀ d, b.expected = .finish d → d.Proper

theorem proper_word {cs : List Char} (h : word? cs = some d) : d.Proper := by
  have hliteral : ∀ v : Json, v.isScalar → v.Readable → (scalar (some v)).Proper := by
    rintro v hscalar hreadable
    refine .scalar ?_
    rintro _ ⟨rfl⟩
    exact ⟨hscalar, hreadable⟩
  unfold word? at h
  split at h
  · cases h
    exact hliteral _ rfl ⟨⟨rfl, rfl⟩, rfl⟩
  · split at h
    · cases h
      exact hliteral _ rfl ⟨⟨rfl, rfl⟩, rfl⟩
    · split at h
      · cases h
        exact hliteral _ rfl ⟨⟨rfl, rfl⟩, rfl⟩
      · obtain ⟨n, -, rfl⟩ := Option.map_eq_some_iff.mp h
        exact .scalar fun v hv => Numeral.value?_readable hv

section
variable (hstack : ∀ f ∈ stack, ∀ d ∈ f.documents, d.Proper)
include hstack

theorem Proper.accept (hd : d.Proper) (h : accept d stack = some b) : b.Proper := by
  cases stack with
  | nil =>
    cases h
    exact ⟨nofun, by rintro _ ⟨rfl⟩; exact hd⟩
  | cons f stack =>
    obtain ⟨hf, hrest⟩ := List.forall_mem_cons.mp hstack
    cases f with
    | array items =>
      cases h
      exact ⟨List.forall_mem_cons.mpr ⟨List.forall_mem_cons.mpr ⟨hd, hf⟩, hrest⟩, nofun⟩
    | object members => cases h
    | member name members =>
      cases h
      exact ⟨List.forall_mem_cons.mpr ⟨List.forall_mem_cons.mpr ⟨hd, hf⟩, hrest⟩, nofun⟩

theorem Proper.value (h : value stack t = some b) : b.Proper := by
  unfold Builder.value at h
  split at h
  · obtain ⟨d, hd, haccept⟩ := Option.bind_eq_some_iff.mp h
    exact .accept hstack (proper_word hd) haccept
  · obtain ⟨s, -, haccept⟩ := Option.bind_eq_some_iff.mp h
    refine .accept hstack (.scalar fun v hv => ?_) haccept
    obtain ⟨s, -, rfl⟩ := Option.map_eq_some_iff.mp hv
    exact ⟨rfl, ⟨rfl, rfl⟩, rfl⟩
  · cases h
    exact ⟨List.forall_mem_cons.mpr ⟨nofun, hstack⟩, nofun⟩
  · cases h
    exact ⟨List.forall_mem_cons.mpr ⟨nofun, hstack⟩, nofun⟩
  · cases h

theorem Proper.name (h : name stack t = some b) : b.Proper := by
  unfold Builder.name at h
  split at h
  · split at h
    · obtain ⟨s, -, rfl⟩ := Option.map_eq_some_iff.mp h
      obtain ⟨hf, hstack⟩ := List.forall_mem_cons.mp hstack
      exact ⟨List.forall_mem_cons.mpr ⟨hf, hstack⟩, nofun⟩
    · cases h
  · cases h

theorem Proper.close (h : close stack t = some b) : b.Proper := by
  unfold Builder.close at h
  split at h
  · obtain ⟨hf, hstack⟩ := List.forall_mem_cons.mp hstack
    exact .accept hstack (.array fun d hd => hf d (List.mem_reverse.mp hd)) h
  · obtain ⟨hf, hstack⟩ := List.forall_mem_cons.mp hstack
    refine .accept hstack (.object fun e he => ?_) h
    exact hf e.2 (List.mem_map.mpr ⟨e, List.mem_reverse.mp he, rfl⟩)
  · cases h

end

theorem Proper.step (hb : b.Proper) (h : step b t = some b') : b'.Proper := by
  have hframes := hb.frames
  unfold Builder.step at h
  split at h
  · exact .value hframes h
  · split at h
    · exact .close hframes h
    · exact .value hframes h
  · split at h
    · exact .close hframes h
    · exact .name hframes h
  · exact .name hframes h
  · split at h
    · cases h
      exact ⟨hframes, nofun⟩
    · cases h
  · split at h
    · split at h <;> cases h <;> exact ⟨hframes, nofun⟩
    · exact .close hframes h
  · cases h

theorem Proper.steps {tokens : List Token} (hb : b.Proper)
    (h : tokens.foldlM Builder.step b = some b') : b'.Proper := by
  induction tokens generalizing b with
  | nil => cases h; exact hb
  | cons t tokens ih =>
    rw [List.foldlM_cons] at h
    obtain ⟨next, hnext, hrest⟩ := Option.bind_eq_some_iff.mp h
    exact ih (hb.step hnext) hrest

end Builder

theorem proper_ofString? {text : String} {d : Document} (h : ofString? text = some d) :
    d.Proper := by
  obtain ⟨tokens, -, hbuilt⟩ := Option.bind_eq_some_iff.mp h
  unfold ofTokens? at hbuilt
  split at hbuilt
  next d' _ hsteps =>
    cases hbuilt
    have hstart : Builder.start.Proper := ⟨nofun, nofun⟩
    exact (hstart.steps hsteps).finish d rfl
  next => cases hbuilt

-- ---------------------------------------------------------------------------
-- Values
-- ---------------------------------------------------------------------------

theorem mem_items? {room : Nat} {items : List Document} {vs : List Json}
    (h : items? room items = some vs) : ∀ v ∈ vs, ∃ d ∈ items, value? room d = some v := by
  induction items generalizing vs with
  | nil =>
    cases h
    simp
  | cons d rest ih =>
    simp only [items?, Option.bind_eq_bind, Option.bind_eq_some_iff, Option.pure_def,
      Option.some.injEq] at h
    obtain ⟨v, hv, ws, hws, rfl⟩ := h
    refine List.forall_mem_cons.mpr ⟨⟨d, List.mem_cons_self, hv⟩, fun w hw => ?_⟩
    obtain ⟨d', hd', hw⟩ := ih hws w hw
    exact ⟨d', List.mem_cons_of_mem d hd', hw⟩

theorem mem_members? {room : Nat} {members : List (Option String × Document)}
    {fields : List (String × Json)} (h : members? room members = some fields) :
    ∀ e ∈ fields, ∃ m ∈ members, value? room m.2 = some e.2 := by
  induction members generalizing fields with
  | nil =>
    cases h
    simp
  | cons m rest ih =>
    obtain ⟨name, d⟩ := m
    simp only [members?, Option.bind_eq_bind, Option.bind_eq_some_iff, Option.pure_def,
      Option.some.injEq] at h
    obtain ⟨name, -, v, hv, es, hes, rfl⟩ := h
    refine List.forall_mem_cons.mpr ⟨⟨_, List.mem_cons_self, hv⟩, fun e he => ?_⟩
    obtain ⟨m', hm', he⟩ := ih hes e he
    exact ⟨m', List.mem_cons_of_mem _ hm', he⟩

/-- A value that was read is readable and fits the room that there was for it. -/
theorem Proper.value? {d : Document} (h : d.Proper) :
    ∀ room v, d.value? room = some v → v.Readable ∧ v.nesting ≤ room := by
  induction h with
  | scalar h =>
    rintro room v hv
    simp only [Document.value?] at hv
    obtain ⟨hscalar, hreadable⟩ := h v hv
    refine ⟨hreadable, ?_⟩
    cases v with
    | arr items => cases hscalar
    | obj fields => cases hscalar
    | _ => exact Nat.zero_le _
  | array h ih =>
    rintro (_ | room) v hv
    · cases hv
    · simp only [Document.value?, Option.bind_eq_bind, Option.bind_eq_some_iff, Option.pure_def,
        Option.some.injEq] at hv
      obtain ⟨items, hitems, rfl⟩ := hv
      have hread : ∀ v ∈ items, v.Readable ∧ v.nesting ≤ room := by
        intro v hv
        obtain ⟨d, hd, hvalue⟩ := mem_items? hitems v hv
        exact ih d hd room v hvalue
      exact ⟨readable_arr.mpr fun v hv => (hread v hv).1,
        nesting_arr.mpr fun v hv => (hread v hv).2⟩
  | object h ih =>
    rintro (_ | room) v hv
    · cases hv
    · simp only [Document.value?, Option.bind_eq_bind, Option.bind_eq_some_iff, Option.pure_def,
        Option.some.injEq] at hv
      obtain ⟨fields, hfields, rfl⟩ := hv
      have hread : ∀ e ∈ (Table.ofList fields).entries, e.2.Readable ∧ e.2.nesting ≤ room := by
        intro e he
        obtain ⟨m, hm, hvalue⟩ := mem_members? hfields e (Table.mem_ofList he)
        exact ih m hm room e.2 hvalue
      have hsorted := (Table.ofList fields).sorted
      refine ⟨readable_obj.mpr ⟨hsorted, fun e he => (hread e he).1⟩, ?_⟩
      exact nesting_obj.mpr fun e he => (hread e he).2

end Document

theorem ofString?_readable {text : String} {v : Json} (h : ofString? text = some v) :
    v.Readable := by
  obtain ⟨d, hd, hv⟩ := Option.bind_eq_some_iff.mp h
  exact ((Document.proper_ofString? hd).value? maxNesting v hv).1

end GraphWalk.Json
