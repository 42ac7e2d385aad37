import GraphWalk.Proofs.Cli.Stores
import GraphWalk.Proofs.Graph.Id

/-!
# Ids as words of the command line

A word that spells an integer of 64 bits is that integer. Integers have more than one spelling,
and the reader takes them all, while a vertex is filed under the one that is printed. So a word
gives the id of that very key, unless it is another spelling: `words_resolved` says which words
those are, and what they lead to.
-/

namespace GraphWalk

open Json (Digits isDigit)

/-- Another spelling of an integer of 64 bits than the printed one. -/
structure Respells (word : String) (n : Int) : Prop where
  spells : SpellsInt word.toList n
  inRange : VertexId.inRange n
  unprinted : Unprinted word.toList

variable {ds cs : List Char} {n : Int}

-- ---------------------------------------------------------------------------
-- Reading
-- ---------------------------------------------------------------------------

/-- The integer of a sign and digits, if there are digits alone and it fits 64 bits. -/
def signed? (negative : Bool) (ds : List Char) : Option Int :=
  if ds.isEmpty || !ds.all isDigit then none
  else
    let n : Int := if negative then -magnitude ds else magnitude ds
    if VertexId.inRange n then some n else none

theorem signed?_eq_some {negative : Bool} : signed? negative ds = some n ↔
    Digits ds ∧ n = (if negative then -magnitude ds else magnitude ds : Int) ∧
      VertexId.inRange n := by
  have hdigits : Digits ds ↔ ¬(ds.isEmpty || !ds.all isDigit) := by
    simp only [Bool.or_eq_true, List.isEmpty_iff, Bool.not_eq_true', List.all_eq_false, not_or,
      not_exists, not_and, not_not]
    exact ⟨fun h => ⟨h.ne_nil, h.digits⟩, fun h => ⟨h.1, h.2⟩⟩
  rw [hdigits, signed?, Option.ite_none_left_eq_some, Option.ite_none_right_eq_some,
    Option.some.injEq]
  refine and_congr_right fun _ => ⟨?_, ?_⟩
  · rintro ⟨hrange, rfl⟩
    exact ⟨rfl, hrange⟩
  · rintro ⟨rfl, hrange⟩
    exact ⟨hrange, rfl⟩

/-- Whether a minus sign stands in front, and what stands behind a sign. -/
def unsigned : List Char → Bool × List Char
  | '-' :: rest => (true, rest)
  | '+' :: rest => (false, rest)
  | rest => (false, rest)

theorem unsigned_of_digits (h : Digits ds) : unsigned ds = (false, ds) := by
  fun_cases unsigned ds with
  | case1 rest => exact absurd (h.digits '-' List.mem_cons_self) (by decide)
  | case2 rest => exact absurd (h.digits '+' List.mem_cons_self) (by decide)
  | case3 => rfl

theorem readInteger?_eq (cs : List Char) :
    readInteger? cs = signed? (unsigned cs).1 (unsigned cs).2 := by
  unfold readInteger?
  simp only [foldl_magnitude]
  rfl

theorem spells_unsigned (cs : List Char) : Digits (unsigned cs).2 → SpellsInt cs
    (if (unsigned cs).1 then -magnitude (unsigned cs).2 else magnitude (unsigned cs).2) := by
  fun_cases unsigned cs with
  | case1 rest => exact .minus
  | case2 rest => exact .plus
  | case3 => exact .plain

/-- A word is read as its integer exactly if it spells one of 64 bits. -/
theorem readInteger?_eq_some : readInteger? cs = some n ↔ SpellsInt cs n ∧ VertexId.inRange n := by
  rw [readInteger?_eq]
  constructor
  · intro h
    obtain ⟨hdigits, rfl, hrange⟩ := signed?_eq_some.mp h
    exact ⟨spells_unsigned cs hdigits, hrange⟩
  · rintro ⟨hspells, hrange⟩
    cases hspells with
    | plain h =>
      rw [unsigned_of_digits h]
      exact signed?_eq_some.mpr ⟨h, rfl, hrange⟩
    | plus h => exact signed?_eq_some.mpr ⟨h, rfl, hrange⟩
    | minus h => exact signed?_eq_some.mpr ⟨h, rfl, hrange⟩

namespace VertexId

theorem ofWord_of_spells {word : String} (h : SpellsInt word.toList n) (hrange : inRange n) :
    ofWord word = .int n := by
  rw [ofWord, readInteger?_eq_some.mpr ⟨h, hrange⟩]

/-- A word gives the id of that key unless it is another spelling of an integer. -/
theorem key_ofWord_iff (word : String) : (ofWord word).key = word ↔ ¬∃ n, Respells word n := by
  unfold ofWord
  split
  next n hread =>
    obtain ⟨hspells, hrange⟩ := readInteger?_eq_some.mp hread
    rw [key, ← String.toList_inj, hspells.repr_iff]
    refine ⟨fun hprinted => ?_, fun hword hmarked => hword ⟨n, hspells, hrange, hmarked⟩⟩
    rintro ⟨_, h⟩
    exact hprinted h.unprinted
  next hread =>
    refine ⟨fun _ => ?_, fun _ => rfl⟩
    rintro ⟨n, hspells, hrange, -⟩
    cases hread.symm.trans (readInteger?_eq_some.mpr ⟨hspells, hrange⟩)

end VertexId

namespace Cli

variable {c : Context} {s : Store} {g : Graph}

theorem find?_of_load (h : c.load s = .ok g) (id : VertexId) (i : Nat) :
    g.find? id = some i ↔ (g.vertices[i]?).map (·.id.key) = some id.key := by
  rw [Graph.find?, (loadedFrom_of_load h).sound.index, Option.map_eq_some_iff]

/-- A word is the id of that very key, and leads to the vertex of that key in a graph that was
loaded, unless it spells an integer as it is not printed. Then it leads to the vertex of the printed
integer, and a vertex that has the word for its key cannot be named. -/
theorem words_resolved (hload : c.load s = .ok g) (word : String) :
    ((VertexId.ofWord word).key = word ↔ ¬∃ n, Respells word n) ∧
    (∀ id : VertexId, id.key = word →
      ((VertexId.ofWord word == id) = true ↔ ¬∃ n, Respells word n)) ∧
    (∀ n, VertexId.inRange n → (VertexId.int n).key = word → VertexId.ofWord word = .int n) ∧
    ((¬∃ n, Respells word n) → ∀ i, g.find? (VertexId.ofWord word) = some i ↔
      (g.vertices[i]?).map (·.id.key) = some word) ∧
    ∀ n, Respells word n → Int.repr n ≠ word ∧ ∀ i, g.find? (VertexId.ofWord word) = some i ↔
      (g.vertices[i]?).map (·.id.key) = some (Int.repr n) := by
  have hkey := VertexId.key_ofWord_iff word
  refine ⟨hkey, ?_, ?_, fun hword i => ?_, fun n hword => ⟨?_, fun i => ?_⟩⟩
  · rintro id rfl
    rw [VertexId.beq_iff_key, hkey]
  · rintro n hrange rfl
    exact VertexId.ofWord_of_spells (spells_repr n) hrange
  · rw [find?_of_load hload, hkey.mpr hword]
  · rintro rfl
    exact not_unprinted_repr n hword.unprinted
  · rw [find?_of_load hload, VertexId.ofWord_of_spells hword.spells hword.inRange]
    rfl

/-- A store with a graph of two vertices. -/
def sevens : Store :=
  plain.save ∅ ((Graph.empty.insertVertex (.text "007") ∅).insertVertex (.int 7) ∅)

/-- Both words lead to the second vertex. -/
theorem words_resolved_sevens :
    VertexId.inRange 7 ∧ Respells "007" 7 ∧ (¬∃ n, Respells "7" n) ∧
      ∃ g, plain.load sevens = .ok g ∧ (g.vertices[0]?).map (·.id.key) = some "007" ∧
        g.find? (VertexId.ofWord "007") = some 1 ∧ g.find? (VertexId.ofWord "7") = some 1 := by
  have hrange : VertexId.inRange 7 := by decide +kernel
  have hdigits : Digits ['0', '0', '7'] := ⟨by decide, List.all_eq_true.mp (by decide)⟩
  have hword : Respells "007" 7 := ⟨.plain hdigits, hrange, .zero '0' ['7']⟩
  obtain ⟨g, hload, hkeys⟩ : ∃ g, plain.load sevens = .ok g ∧
      g.vertices.toList.map (·.id.key) = ["007", "7"] := by
    have hkeys : (plain.load sevens).toOption.map (fun g => g.vertices.toList.map (·.id.key)) =
        some ["007", "7"] := by decide +kernel
    cases hload : plain.load sevens with
    | ok g => exact ⟨g, rfl, by simpa [hload, Except.toOption] using hkeys⟩
    | error cause => simp [hload, Except.toOption] at hkeys
  have hat : ∀ i : Nat, (g.vertices[i]?).map (·.id.key) = ["007", "7"][i]? := by
    intro i
    rw [← hkeys, List.getElem?_map, Array.getElem?_toList]
  obtain ⟨-, -, -, -, hpadded⟩ := words_resolved hload "007"
  obtain ⟨hkey, -, hint, hplain, -⟩ := words_resolved hload "7"
  have hseven : ¬∃ n, Respells "7" n := hkey.mp (congrArg VertexId.key (hint 7 hrange rfl))
  exact ⟨hrange, hword, hseven, g, hload, hat 0, ((hpadded 7 hword).2 1).mpr (hat 1),
    (hplain hseven 1).mpr (hat 1)⟩

end Cli

end GraphWalk
