import GraphWalk.Cli.GraphCommand
import GraphWalk.Proofs.Except
import GraphWalk.Proofs.Graph.Stored

/-!
# Stored graphs after a write

A property is accepted where its text nests no deeper than the reader allows, but in a stored graph
it stands three levels deeper. `load_write_iff`: a graph that was loaded, and to which a vertex or
an edge was added, can be loaded again exactly if no accepted value needs those three levels.
-/

namespace GraphWalk.Cli

variable {c : Context} {s : Store} {g : Graph}

theorem lift_ok {ε α : Type} {cause : ε → Failure} {x : Except ε α} {a : α}
    (h : lift cause x = .ok a) : x = .ok a := by
  cases x with
  | error e => cases h
  | ok b =>
    cases h
    rfl

-- ---------------------------------------------------------------------------
-- Words
-- ---------------------------------------------------------------------------

theorem inRange_readInteger? {word : List Char} {n : Int} (h : readInteger? word = some n) :
    VertexId.inRange n := by
  unfold readInteger? at h
  dsimp only at h
  split at h
  all_goals
    simp only [Option.ite_none_left_eq_some, Option.ite_none_right_eq_some,
      Option.some.injEq] at h
    obtain ⟨-, hrange, rfl⟩ := h
    exact hrange

theorem legible_ofWord (word : String) : (VertexId.ofWord word).legible := by
  unfold VertexId.ofWord
  split
  next n hread => exact inRange_readInteger? hread
  next => rfl

theorem readable_readProperty {word : String} {e : String × Json}
    (h : readProperty word = .ok e) : e.2.Readable := by
  unfold readProperty at h
  dsimp only at h
  split at h
  · cases h
  · split at h
    · cases h
    · cases h
      cases hvalue : Json.ofString? _ with
      | none => exact ⟨⟨rfl, rfl⟩, rfl⟩
      | some v => exact Json.ofString?_readable hvalue

/-- The word that gives a property a value. -/
def propertyWord (name : List Char) (v : Json) : String :=
  String.ofList (name ++ '=' :: v.compactChars)

theorem readProperty_word {name : List Char} {v : Json} (hequals : '=' ∉ name)
    (htrim : Text.trim name = name) (hne : name ≠ []) (hv : v.Readable)
    (hnesting : v.nesting ≤ Json.maxNesting) :
    readProperty (propertyWord name v) = .ok (String.ofList name, v.reread) := by
  have hkeep : ∀ c ∈ name, decide (c ≠ '=') := by
    intro c hc
    exact decide_eq_true (fun heq => hequals (heq ▸ hc))
  have htake : (name ++ '=' :: v.compactChars).takeWhile (· ≠ '=') = name := by
    rw [List.takeWhile_append_of_pos hkeep]
    simp
  have hdrop : (name ++ '=' :: v.compactChars).dropWhile (· ≠ '=') = '=' :: v.compactChars := by
    rw [List.dropWhile_append_of_pos hkeep]
    simp
  have hread : Json.ofString? (String.ofList v.compactChars) = some v.reread :=
    (Json.ofString?_compact hv).trans (if_pos hnesting)
  have hempty : name.isEmpty = false := by simpa using hne
  unfold readProperty propertyWord
  simp only [String.toList_ofList, htake, hdrop, htrim, hempty, List.drop_one, List.tail_cons,
    hread]
  simp

theorem mem_mapM {ε α β : Type} {read : α → Except ε β} {l : List α} {ys : List β}
    (h : l.mapM read = .ok ys) : ∀ y ∈ ys, ∃ x ∈ l, read x = .ok y := by
  induction l generalizing ys with
  | nil =>
    cases h
    simp
  | cons x l ih =>
    rw [List.mapM_cons] at h
    obtain ⟨y, hy, h⟩ := bind_ok h
    obtain ⟨rest, hrest, h⟩ := bind_ok h
    cases h
    refine List.forall_mem_cons.mpr ⟨⟨x, List.mem_cons_self, hy⟩, fun y' hy' => ?_⟩
    obtain ⟨x', hx', hread⟩ := ih hrest y' hy'
    exact ⟨x', List.mem_cons_of_mem x hx', hread⟩

theorem readable_readProperties {words : List String} {props : Table Json}
    (h : readProperties words = .ok props) : ∀ e ∈ props.entries, e.2.Readable := by
  obtain ⟨pairs, hpairs, h⟩ := map_ok h
  subst h
  intro e he
  obtain ⟨word, -, hread⟩ := mem_mapM hpairs e (Table.mem_ofList he)
  exact readable_readProperty hread

/-- Accepted attributes are readable, and none has a reserved name. -/
structure Accepted (reserved : List String) (props : Table Json) : Prop where
  values : ∀ e ∈ props.entries, e.2.Readable
  clean : ∀ name ∈ reserved, props.get? name = none

theorem Accepted.of_find? {reserved : List String} {words : List String} {props : Table Json}
    (hread : readProperties words = .ok props) (hfind : reserved.find? props.contains = none) :
    Accepted reserved props where
  values := readable_readProperties hread
  clean name hname := by simpa [Table.contains] using List.find?_eq_none.mp hfind name hname

theorem accepted_vertexProperties {words : List String} {props : Table Json}
    (h : vertexProperties words = .ok props) : Accepted VertexRecord.reservedNames props := by
  obtain ⟨read, hread, h⟩ := bind_ok h
  split at h
  next => cases h
  next hfind =>
    cases h
    exact .of_find? hread hfind

theorem accepted_edgeProperties {words : List String} {props : Table Json}
    (h : edgeProperties words = .ok props) : Accepted EdgeRecord.reservedNames props := by
  obtain ⟨read, hread, h⟩ := bind_ok h
  split at h
  next => cases h
  next hfind =>
    cases h
    exact .of_find? hread hfind

-- ---------------------------------------------------------------------------
-- Nested values
-- ---------------------------------------------------------------------------

/-- An array in an array, and so on. -/
def nested : Nat → Json
  | 0 => .null
  | n + 1 => .arr [nested n]

theorem readable_nested (n : Nat) : (nested n).Readable ∧ (nested n).nesting = n := by
  induction n with
  | zero => exact ⟨Json.readable_null, rfl⟩
  | succ n ih =>
    refine ⟨Json.readable_arr.mpr (by simpa using ih.1), ?_⟩
    simp [nested, Json.nesting, Json.nestingItems, ih.2]

/-- A context without files. -/
def plain : Context := ⟨"g", .json, fun _ => .error .missing, 0⟩

def nestedWord (n : Nat) : String := propertyWord ['x'] (nested n)

theorem vertexProperties_nested {n : Nat} (h : n ≤ 127) :
    vertexProperties [nestedWord n] = .ok (Table.ofList [("x", (nested n).reread)]) := by
  obtain ⟨hreadable, hnesting⟩ := readable_nested n
  have hread : readProperty (nestedWord n) = .ok ("x", (nested n).reread) :=
    readProperty_word (by decide) (by decide) (by decide) hreadable (by rwa [hnesting])
  have hwords : readProperties [nestedWord n] = .ok (Table.ofList [("x", (nested n).reread)]) := by
    simp [readProperties, hread, Except.map, bind, Except.bind, pure, Except.pure]
  rw [vertexProperties, hwords]
  rfl

theorem addVertex_nested {n : Nat} (h : n ≤ 127) :
    ∃ effect, addVertex plain ∅ (some "1") [nestedWord n] = .ok effect := by
  unfold addVertex
  rw [vertexProperties_nested h]
  exact ⟨_, rfl⟩

-- ---------------------------------------------------------------------------
-- Stores
-- ---------------------------------------------------------------------------

theorem loaded_of_load (h : c.load s = .ok g) (hsize : g.vertices.size < 2 ^ 63) : g.Loaded := by
  unfold Context.load at h
  split at h
  next b hfetch =>
    cases h
    unfold Store.fetch at hfetch
    split at hfetch
    next => cases hfetch
    next text _ =>
      obtain ⟨b, htext, h⟩ := map_ok hfetch
      cases h
      exact Graph.ofString_loaded htext hsize
  next =>
    cases h
    exact .empty
  next => cases h

/-- What is saved is what the next command reads. -/
theorem load_save_iff (c : Context) (s : Store) (h : g.toFlat.Storable) :
    (∃ g', c.load (c.save s g) = .ok g') ↔ g.toFlat.fits 124 := by
  have hfetch : (c.save s g).fetch (some c.graphName) = (Graph.ofString g.text).map some := by
    unfold Context.save Store.fetch
    rw [Store.get?_put, if_pos rfl]
  rw [← Graph.ofString_text_iff h, Context.load, hfetch]
  cases Graph.ofString g.text with
  | ok b => simp [Except.map]
  | error cause => simp [Except.map]

/-- A graph that grew by one record out of `props` can be loaded exactly if they fit. -/
theorem load_grown_iff {g' : Graph} {reserved : List String} {props : Table Json} (c : Context)
    (s : Store) (hg : g.Loaded) (hstorable : g'.toFlat.Storable)
    (haccepted : Accepted reserved props)
    (hfits : g'.toFlat.fits 124 = (g.toFlat.fits 124 && (props.eraseAll reserved).fits 124)) :
    (∃ g'', c.load (c.save s g') = .ok g'') ↔ ∀ e ∈ props.entries, e.2.nesting ≤ 124 := by
  rw [load_save_iff c s hstorable, hfits, hg.fits, Table.eraseAll_eq_self haccepted.clean,
    Table.fits, Bool.true_and, List.all_eq_true]
  simp

/-- A write that succeeds leaves a graph that can be loaded, unless a value needs the three levels
of nesting that the shape of the text takes; and then no command can load it any more. The bound
keeps the ids that the graph gives away within 64 bits. -/
theorem load_write_iff (hload : c.load s = .ok g) (hsize : g.vertices.size < 2 ^ 63 - 1) :
    (∀ id words effect, addVertex c s id words = .ok effect →
      ∃ props, vertexProperties words = .ok props ∧
        ((∃ g', c.load effect.store = .ok g') ↔ ∀ e ∈ props.entries, e.2.nesting ≤ 124)) ∧
    (∀ tail head label words effect, addEdge c s tail head label words = .ok effect →
      ∃ props, edgeProperties words = .ok props ∧
        ((∃ g', c.load effect.store = .ok g') ↔ ∀ e ∈ props.entries, e.2.nesting ≤ 124)) := by
  have hloaded := loaded_of_load hload (by omega)
  have hsound := hloaded.sound
  constructor
  · rintro id words effect h
    obtain ⟨g₀, hg, h⟩ := bind_ok h
    obtain rfl : g = g₀ := Except.ok.inj (hload.symm.trans hg)
    obtain ⟨props, hprops, h⟩ := bind_ok h
    obtain ⟨⟨id', g'⟩, hadd, h⟩ := bind_ok h
    cases h
    have hprops := lift_ok hprops
    have hadd := lift_ok hadd
    have haccepted := accepted_vertexProperties hprops
    have hsize' := Graph.size_addVertex hadd
    have hstorable : g'.toFlat.Storable := by
      refine hsound.storable_addVertex hloaded.storable hadd ?_ haccepted.values (by omega)
      intro id hid
      obtain ⟨word, -, rfl⟩ := Option.map_eq_some_iff.mp hid
      exact legible_ofWord word
    exact ⟨props, hprops,
      load_grown_iff c s hloaded hstorable haccepted (hsound.fits_addVertex hadd 124)⟩
  · rintro tail head label words effect h
    obtain ⟨g₀, hg, h⟩ := bind_ok h
    obtain rfl : g = g₀ := Except.ok.inj (hload.symm.trans hg)
    obtain ⟨props, hprops, h⟩ := bind_ok h
    obtain ⟨⟨n, g'⟩, hadd, h⟩ := bind_ok h
    cases h
    have hprops := lift_ok hprops
    have hadd := lift_ok hadd
    have haccepted := accepted_edgeProperties hprops
    have hstorable := hsound.storable_addEdge hloaded.storable hadd haccepted.values
    exact ⟨props, hprops,
      load_grown_iff c s hloaded hstorable haccepted (Graph.fits_addEdge hadd 124)⟩

/-- With 124 levels a value can be loaded; with one more it is accepted, but not loaded. -/
theorem load_write_iff_nested :
    (∃ effect, addVertex plain ∅ (some "1") [nestedWord 124] = .ok effect ∧
      ∃ g, plain.load effect.store = .ok g) ∧
    (∃ effect, addVertex plain ∅ (some "1") [nestedWord 125] = .ok effect ∧
      ¬∃ g, plain.load effect.store = .ok g) := by
  have hwrite := (load_write_iff (c := plain) (s := ∅) (g := ∅) rfl (by decide)).1 (some "1")
  have hfits : ∀ n, (∀ e ∈ (Table.ofList [("x", (nested n).reread)]).entries, e.2.nesting ≤ 124) ↔
      n ≤ 124 := by
    intro n
    have hentries : (Table.ofList [("x", (nested n).reread)]).entries =
        [("x", (nested n).reread)] := rfl
    rw [hentries, List.forall_mem_singleton, Json.nesting_reread, (readable_nested n).2]
  constructor
  · obtain ⟨effect, h⟩ := addVertex_nested (n := 124) (by decide)
    obtain ⟨props, hprops, hload⟩ := hwrite _ effect h
    cases hprops.symm.trans (vertexProperties_nested (by decide))
    exact ⟨effect, h, hload.mpr ((hfits 124).mpr (by decide))⟩
  · obtain ⟨effect, h⟩ := addVertex_nested (n := 125) (by decide)
    obtain ⟨props, hprops, hload⟩ := hwrite _ effect h
    cases hprops.symm.trans (vertexProperties_nested (by decide))
    exact ⟨effect, h, fun hloaded => absurd ((hfits 125).mp (hload.mp hloaded)) (by decide)⟩

end GraphWalk.Cli
