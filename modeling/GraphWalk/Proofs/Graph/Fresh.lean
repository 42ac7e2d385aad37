import GraphWalk.Proofs.Graph.Built
import Mathlib.Algebra.Group.Nat.Defs

/-!
# The counter for vertices without an id

A vertex without an id is named by counting on to the first number that is not taken (`Finds`).
`built_counter`: whatever was added before, all numbers behind the counter are taken, so counting
ends well before the counter does, at the least positive number that names no vertex. Where it
ends depends on nothing but the keys that are stored.
-/

namespace GraphWalk.Graph

variable {g g' : Graph} {top n m : Nat}

/-- Counting on from a number ends at another, on a counter that holds no number beyond `top`: the
counter is moved on from every number that is tried, also from the last. -/
inductive Finds (g : Graph) (top : Nat) : Nat → Nat → Prop
  | free {n : Nat} (hroom : n < top) (hfree : g.find? (.int n) = none) : Finds g top n n
  | taken {n m : Nat} (hroom : n < top) (htaken : (g.find? (.int n)).isSome)
    (hlater : Finds g top (n + 1) m) : Finds g top n m

/-- Counting ends at one number only. -/
theorem Finds.unique (h : g.Finds top n m) {m' : Nat} (h' : g.Finds top n m') : m = m' := by
  induction h with
  | free hroom hfree =>
    cases h' with
    | free => rfl
    | taken hroom htaken hlater => simp [hfree] at htaken
  | taken hroom htaken hlater ih =>
    cases h' with
    | free hroom hfree => simp [hfree] at htaken
    | taken hroom htaken hlater => exact ih hlater

/-- The keys of the vertices. -/
def keys (g : Graph) : List String := g.vertices.toList.map (·.id.key)

theorem Sound.mem_keys (h : g.Sound) {id : VertexId} : id.key ∈ g.keys ↔ (g.find? id).isSome := by
  rw [← h.stores_iff, keys, List.mem_map]
  simp only [Array.mem_toList_iff, Stores]

theorem Sound.not_mem_keys (h : g.Sound) {id : VertexId} :
    id.key ∉ g.keys ↔ g.find? id = none := by
  rw [h.mem_keys, Option.not_isSome_iff_eq_none]

/-- The least positive number whose text is none of the keys. -/
structure LeastFree (keys : List String) (n : Nat) : Prop where
  pos : 1 ≤ n
  free : (VertexId.int n).key ∉ keys
  least : ∀ k : Nat, 1 ≤ k → k < n → (VertexId.int k).key ∈ keys

theorem LeastFree.unique {keys : List String} (h : LeastFree keys n) (h' : LeastFree keys m) :
    n = m := by
  rcases Nat.lt_trichotomy n m with hlt | heq | hlt
  · exact absurd (h'.least n h.pos hlt) h.free
  · exact heq
  · exact absurd (h.least m h'.pos hlt) h'.free

theorem LeastFree.congr {keys keys' : List String} (hkeys : ∀ key, key ∈ keys ↔ key ∈ keys')
    (h : LeastFree keys n) : LeastFree keys' n where
  pos := h.pos
  free hmem := h.free ((hkeys _).mpr hmem)
  least k hk hlt := (hkeys _).mp (h.least k hk hlt)

theorem Sound.leastFree (h : g.Sound) : LeastFree g.keys g.freshNumber where
  pos := h.counted.le_freshNumber
  free := h.not_mem_keys.mpr g.freshNumber_free
  least _ hk hlt := h.mem_keys.mpr (h.counted.freshNumber_least hk hlt)

/-- From any positive number up to the least free one, counting ends there. -/
theorem Sound.finds (h : g.Sound) (hm : LeastFree g.keys m) (htop : m < top) (hn : 1 ≤ n)
    (hle : n ≤ m) : g.Finds top n m := by
  -- on the numbers between
  obtain ⟨between, rfl⟩ := Nat.exists_eq_add_of_le hle
  induction between generalizing n with
  | zero => exact .free htop (h.not_mem_keys.mp hm.free)
  | succ between ih =>
    have hlt : n < n + (between + 1) := Nat.lt_add_of_pos_right between.succ_pos
    have hstep : n + (between + 1) = n + 1 + between := by omega
    rw [hstep] at hm htop hlt ⊢
    exact .taken (Nat.lt_trans hlt htop) (h.mem_keys.mp (hm.least n hn hlt))
      (ih (Nat.le_add_left 1 n) hm htop (Nat.le_add_right _ _))

theorem Sound.finds_iff (h : g.Sound) (htop : g.vertices.size + 1 < top) :
    g.Finds top g.nextId m ↔ m = g.freshNumber := by
  have hfinds : g.Finds top g.nextId g.freshNumber :=
    h.finds h.leastFree (Nat.lt_of_le_of_lt h.freshNumber_le htop) h.counted.pos
      (le_firstFree _ _ _)
  constructor
  · exact fun hm => hm.unique hfinds
  · rintro rfl
    exact hfinds

/-- A vertex without an id is never refused. -/
theorem addVertex_fresh (g : Graph) {r : VertexRecord} (hr : r.id = none) :
    ∃ later, g.addVertex r = .ok (.int g.freshNumber, later) ∧
      later.nextId = g.freshNumber + 1 :=
  ⟨_, addVertex_ok.mpr (.inr ⟨hr, rfl, rfl⟩), rfl⟩

/-- Whatever was added before, every positive number behind the counter is a key, so the counter is
at most one ahead of the number of vertices. Counting on ends at the least free number, in 64
signed bits for fewer than 2 ^ 63 - 2 vertices, and names the next vertex without an id by it; every
graph of the same keys gives that vertex the same name. -/
theorem built_counter (h : g.Built) :
    (∀ n : Nat, 1 ≤ n → n < g.nextId → (VertexId.int n).key ∈ g.keys) ∧
    g.nextId ≤ g.vertices.size + 1 ∧
    ∃ n, LeastFree g.keys n ∧
      (∀ top, g.vertices.size + 1 < top → ∀ m, g.Finds top g.nextId m ↔ m = n) ∧
      (g.vertices.size < 2 ^ 63 - 2 → ∀ m, g.Finds (2 ^ 63 - 1) g.nextId m ↔ m = n) ∧
      (∀ r : VertexRecord, r.id = none →
        ∃ later, g.addVertex r = .ok (.int n, later) ∧ later.nextId = n + 1) ∧
      ∀ g' : Graph, g'.Built → (∀ key, key ∈ g.keys ↔ key ∈ g'.keys) →
        ∀ r : VertexRecord, r.id = none → ∃ later, g'.addVertex r = .ok (.int n, later) := by
  have hsound := h.sound
  have hends : ∀ top, g.vertices.size + 1 < top →
      ∀ m, g.Finds top g.nextId m ↔ m = g.freshNumber := fun top htop m => hsound.finds_iff htop
  refine ⟨fun n hn hlt => hsound.mem_keys.mpr (hsound.counted.taken n hn hlt),
    Nat.le_trans (le_firstFree _ _ _) hsound.freshNumber_le, g.freshNumber, hsound.leastFree,
    hends, fun hsize => hends _ (by omega), fun r hr => g.addVertex_fresh hr, ?_⟩
  intro g' hbuilt hsame r hr
  obtain ⟨later, hadd, -⟩ := g'.addVertex_fresh hr
  have hnumber := (hsound.leastFree.congr hsame).unique hbuilt.sound.leastFree
  exact ⟨later, hnumber ▸ hadd⟩

/-- After ids of both kinds, one of them refused, a third one taken by counting and one padded with
a zero. -/
def numbered : Graph :=
  let given (id : VertexId) : Insertion := .vertex ⟨some id, ∅⟩
  let calls := [given (.text "2"), given (.int 2), .vertex ⟨none, ∅⟩, given (.int (-3)),
    given (.text "03"), given (.text "4")]
  calls.foldl (fun g call => (g.insert call).2) ∅

theorem built_counter_numbered : numbered.Built ∧ numbered.nextId = 2 ∧
    LeastFree numbered.keys 3 ∧ (∀ m, numbered.Finds (2 ^ 63 - 1) 2 m ↔ m = 3) ∧
    ∃ later, numbered.addVertex ⟨none, ∅⟩ = .ok (.int 3, later) ∧ later.nextId = 4 := by
  have hbuilt : numbered.Built :=
    .insert (.insert (.insert (.insert (.insert (.insert .empty _) _) _) _) _) _
  obtain ⟨-, -, n, hleast, -, hends, hadd, -⟩ := built_counter hbuilt
  obtain ⟨later, hlater, hcounter⟩ := hadd ⟨none, ∅⟩ rfl
  have hgiven : numbered.addVertex ⟨none, ∅⟩ = .ok (.int (3 : Nat), _) := rfl
  obtain rfl : n = 3 := by
    rw [hgiven] at hlater
    exact Int.ofNat.inj (VertexId.int.inj (Prod.mk.inj (Except.ok.inj hlater)).1).symm
  exact ⟨hbuilt, rfl, hleast, hends (by decide), later, hlater, hcounter⟩

end GraphWalk.Graph
