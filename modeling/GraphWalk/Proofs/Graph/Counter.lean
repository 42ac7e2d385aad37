import GraphWalk.Graph.Basic
import GraphWalk.Proofs.Table
import Mathlib

/-!
# Numbers for vertices without an id

The bounded search of `freshNumber` always finds a number that is not taken. With every number
below the counter taken (`Counted`), it is the least positive one (`freshNumber_least`), so it
depends on nothing but the ids that are stored.
-/

namespace GraphWalk.Graph

variable {g : Graph}

section
variable {taken : Nat → Bool} {bound n : Nat}

theorem le_firstFree (taken : Nat → Bool) (bound n : Nat) : n ≤ firstFree taken bound n := by
  induction bound generalizing n with
  | zero => exact Nat.le_refl n
  | succ bound ih =>
    unfold firstFree
    split
    · exact Nat.le_of_succ_le (ih (n + 1))
    · exact Nat.le_refl n

theorem taken_of_lt_firstFree {k : Nat} (hn : n ≤ k) (hk : k < firstFree taken bound n) :
    taken k = true := by
  induction bound generalizing n with
  | zero => exact absurd hk (Nat.not_lt.mpr hn)
  | succ bound ih =>
    unfold firstFree at hk
    split at hk
    next htaken =>
      rcases Nat.eq_or_lt_of_le hn with rfl | hlt
      · exact htaken
      · exact ih hlt hk
    next => exact absurd hk (Nat.not_lt.mpr hn)

theorem firstFree_free (h : ∃ k, n ≤ k ∧ k < n + bound ∧ taken k = false) :
    taken (firstFree taken bound n) = false := by
  induction bound generalizing n with
  | zero =>
    obtain ⟨k, hle, hlt, -⟩ := h
    exact absurd hlt (Nat.not_lt.mpr hle)
  | succ bound ih =>
    unfold firstFree
    split
    next htaken =>
      obtain ⟨k, hle, hlt, hfree⟩ := h
      rcases Nat.eq_or_lt_of_le hle with rfl | hk
      · rw [htaken] at hfree
        cases hfree
      · exact ih ⟨k, hk, by omega, hfree⟩
    next hfree => simpa using hfree

end

theorem nodup_repr (n count : Nat) :
    ((List.range' n count).map fun k : Nat => Int.repr k).Nodup :=
  List.Nodup.map (fun _ _ h => Int.ofNat_inj.mp (Int.repr_inj.mp h)) (List.nodup_range' 1)

/-- Among more numbers than there are keys, one is not taken. -/
theorem exists_free (g : Graph) (n : Nat) :
    ∃ k, n ≤ k ∧ k < n + (g.index.size + 1) ∧ (g.find? (.int k)).isSome = false := by
  by_contra hall
  have htaken : ∀ k, n ≤ k → k < n + (g.index.size + 1) → (g.find? (.int k)).isSome = true := by
    intro k hle hlt
    by_contra hfree
    exact hall ⟨k, hle, hlt, by simpa using hfree⟩
  let numbers := List.range' n (g.index.size + 1)
  have hnodup : (numbers.map fun k : Nat => Int.repr k).Nodup := nodup_repr _ _
  have hsubset : (numbers.map fun k : Nat => Int.repr k) ⊆ g.index.keys := by
    intro key hkey
    obtain ⟨k, hk, rfl⟩ := List.mem_map.mp hkey
    obtain ⟨hle, hlt⟩ := List.mem_range'_1.mp hk
    by_contra hmissing
    have hfind : g.find? (.int k) = none := Table.get?_eq_none hmissing
    simpa [hfind] using htaken k hle hlt
  have hlength := (List.subperm_of_subset hnodup hsubset).length_le
  simp only [numbers, List.length_map, List.length_range', Table.keys, Table.size] at hlength
  omega

theorem freshNumber_free (g : Graph) : g.find? (.int g.freshNumber) = none := by
  have hfree := firstFree_free (exists_free g g.nextId)
  simpa [freshNumber] using hfree

/-- Every positive number below the counter is taken. -/
structure Counted (g : Graph) : Prop where
  pos : 1 ≤ g.nextId
  taken : ∀ n, 1 ≤ n → n < g.nextId → (g.find? (.int (n : Nat))).isSome

theorem Counted.le_freshNumber (h : g.Counted) : 1 ≤ g.freshNumber :=
  Nat.le_trans h.pos (le_firstFree _ _ _)

theorem Counted.freshNumber_least (h : g.Counted) {n : Nat} (hn : 1 ≤ n)
    (hlt : n < g.freshNumber) : (g.find? (.int n)).isSome := by
  by_cases hcounter : n < g.nextId
  · exact h.taken n hn hcounter
  · exact @taken_of_lt_firstFree (fun n => (g.find? (.int n)).isSome) _ g.nextId n
      (Nat.le_of_not_lt hcounter) hlt

/-- Where the same numbers are taken, the next one is the same, whatever the counters say. -/
theorem Counted.freshNumber_eq {g' : Graph} (h : g.Counted) (h' : g'.Counted)
    (hindex : g'.index = g.index) : g'.freshNumber = g.freshNumber := by
  have hfind : ∀ id, g'.find? id = g.find? id := fun id => by simp only [find?, hindex]
  refine Nat.le_antisymm ?_ ?_
  · by_contra hlt
    have htaken := h'.freshNumber_least h.le_freshNumber (Nat.lt_of_not_le hlt)
    simp [hfind, freshNumber_free] at htaken
  · by_contra hlt
    have htaken := h.freshNumber_least h'.le_freshNumber (Nat.lt_of_not_le hlt)
    simp [← hfind, freshNumber_free] at htaken

end GraphWalk.Graph
