import GraphWalk.Table

/-!
# Tables as functions

A table is determined by its look-ups (`ext_get?`), and has something under its keys only.
-/

namespace GraphWalk

namespace Entries

variable {α : Type u} {entries s t : List (String × α)} {key : String}

theorem find?_map {β : Type v} (f : α → β) (key : String) (entries : List (String × α)) :
    find? key (entries.map fun e => (e.1, f e.2)) = (find? key entries).map f := by
  induction entries with
  | nil => rfl
  | cons head rest ih =>
    obtain ⟨k, v⟩ := head
    simp only [List.map_cons, find?, ih]
    split <;> rfl

theorem find?_of_lt (h : ∀ e ∈ entries, key < e.1) : find? key entries = none := by
  induction entries with
  | nil => rfl
  | cons head rest ih =>
    obtain ⟨k, v⟩ := head
    have hk : key < k := h (k, v) List.mem_cons_self
    have hne : k ≠ key := fun heq => Std.lt_irrefl (heq ▸ hk)
    rw [find?, if_neg hne]
    exact ih fun e he => h e (List.mem_cons_of_mem _ he)

theorem Sorted.find?_before {k : String} {v : α} (h : Sorted ((k, v) :: entries))
    (hlt : key < k) : find? key ((k, v) :: entries) = none := by
  refine find?_of_lt fun e he => ?_
  obtain rfl | he := List.mem_cons.mp he
  · exact hlt
  · exact Std.lt_trans hlt ((List.pairwise_cons.mp h).1 e he)

theorem find?_eq_none (h : key ∉ entries.map (·.1)) : find? key entries = none := by
  induction entries with
  | nil => rfl
  | cons head rest ih =>
    obtain ⟨k, v⟩ := head
    rw [List.map_cons, List.mem_cons, not_or] at h
    rw [find?, if_neg (Ne.symm h.1)]
    exact ih h.2

theorem ne_of_find?_eq_none (h : find? key entries = none) : ∀ e ∈ entries, e.1 ≠ key := by
  induction entries with
  | nil => intro e he; cases he
  | cons head rest ih =>
    rw [find?] at h
    split at h
    next => cases h
    next hne => exact List.forall_mem_cons.mpr ⟨hne, ih h⟩

theorem Sorted.mem_iff {e : String × α} (h : Sorted entries) :
    e ∈ entries ↔ find? e.1 entries = some e.2 := by
  induction entries with
  | nil => simp [find?]
  | cons head rest ih =>
    obtain ⟨k, v⟩ := head
    obtain ⟨hhead, hrest⟩ := List.pairwise_cons.mp h
    by_cases hk : k = e.1
    · have hnone : find? e.1 rest = none := find?_of_lt fun e' he' => hk ▸ hhead e' he'
      rw [List.mem_cons, ih hrest, hnone, find?, if_pos hk]
      constructor
      · rintro (rfl | hmem)
        · rfl
        · cases hmem
      · intro hv
        exact .inl (Prod.ext hk.symm (Option.some.inj hv).symm)
    · rw [List.mem_cons, ih hrest, find?, if_neg hk]
      refine or_iff_right fun heq => hk ?_
      rw [heq]

theorem Sorted.ext (hs : Sorted s) (ht : Sorted t) (h : ∀ k, find? k s = find? k t) : s = t := by
  induction s generalizing t with
  | nil =>
    cases t with
    | nil => rfl
    | cons head rest =>
      have hhead := h head.1
      simp [find?] at hhead
  | cons head rest ih =>
    cases t with
    | nil =>
      have hhead := h head.1
      simp [find?] at hhead
    | cons head' rest' =>
      obtain ⟨k, v⟩ := head
      obtain ⟨k', v'⟩ := head'
      obtain ⟨hrest, hs'⟩ := List.pairwise_cons.mp hs
      obtain ⟨hrest', ht'⟩ := List.pairwise_cons.mp ht
      have hkey : k = k' := by
        obtain hlt | heq | hlt := Std.lt_trichotomy k k'
        · have hk := h k
          rw [ht.find?_before hlt] at hk
          simp [find?] at hk
        · exact heq
        · have hk := h k'
          rw [hs.find?_before hlt] at hk
          simp [find?] at hk
      subst hkey
      have hvalue : v = v' := by simpa [find?] using h k
      subst hvalue
      refine congrArg _ (ih hs' ht' fun q => ?_)
      by_cases hq : k = q
      · subst hq
        rw [find?_of_lt hrest, find?_of_lt hrest']
      · simpa [find?, hq] using h q

theorem insert_last {value : α} (h : ∀ e ∈ entries, e.1 < key) :
    insert key value entries = entries ++ [(key, value)] := by
  induction entries with
  | nil => rfl
  | cons head rest ih =>
    obtain ⟨k, v⟩ := head
    have hk : k < key := h (k, v) List.mem_cons_self
    have hne : key ≠ k := fun heq => Std.lt_irrefl (heq ▸ hk)
    rw [insert, if_neg hne, if_neg (Std.not_lt.mpr (Std.le_of_lt hk)),
      ih fun e he => h e (List.mem_cons_of_mem _ he)]
    rfl

end Entries

namespace Table

variable {α : Type u}

theorem mem_ofList {pairs : List (String × α)} {e : String × α}
    (h : e ∈ (ofList pairs).entries) : e ∈ pairs := by
  have hfold : ∀ (later : List (String × α)) (t : Table α),
      e ∈ (later.foldl (fun t e => t.insert e.1 e.2) t).entries → e ∈ t.entries ∨ e ∈ later := by
    intro later
    induction later with
    | nil => intro t ht; exact .inl ht
    | cons e' later ih =>
      intro t ht
      rcases ih _ ht with ht | hlater
      · rcases Entries.mem_insert ht with rfl | ht
        · exact .inr List.mem_cons_self
        · exact .inl ht
      · exact .inr (List.mem_cons_of_mem _ hlater)
  exact (hfold pairs empty h).resolve_left (by simp [empty])

theorem ext_get? {s t : Table α} (h : ∀ k, s.get? k = t.get? k) : s = t :=
  ext_entries (s.sorted.ext t.sorted h)

theorem mem_entries_iff {t : Table α} {e : String × α} :
    e ∈ t.entries ↔ t.get? e.1 = some e.2 :=
  t.sorted.mem_iff

theorem get?_map {β : Type v} (f : α → β) (t : Table α) (key : String) :
    (t.map f).get? key = (t.get? key).map f :=
  Entries.find?_map f key t.entries

theorem map_insert {β : Type v} (f : α → β) (t : Table α) (key : String) (value : α) :
    (t.insert key value).map f = (t.map f).insert key (f value) := by
  refine ext_get? fun k => ?_
  rw [get?_map, get?_insert, get?_insert, get?_map]
  split <;> rfl

theorem get?_eq_none {t : Table α} {key : String} (h : key ∉ t.keys) : t.get? key = none :=
  Entries.find?_eq_none h

theorem filter_name {t : Table α} {name : String} (h : t.get? name = none) :
    (t.entries.filter fun e => e.1 = name) = [] :=
  List.filter_eq_nil_iff.mpr fun e he => by simpa using Entries.ne_of_find?_eq_none h e he

theorem filter_names {t : Table α} {names : List String} (h : ∀ name ∈ names, t.get? name = none) :
    (t.entries.filter fun e => e.1 ∉ names) = t.entries := by
  refine List.filter_eq_self.mpr fun e he => ?_
  simpa using fun hname => Entries.ne_of_find?_eq_none (h e.1 hname) e he rfl

theorem get?_eraseAll (t : Table α) (keys : List String) (key : String) :
    (t.eraseAll keys).get? key = if key ∈ keys then none else t.get? key := by
  unfold eraseAll
  induction keys generalizing t with
  | nil => rfl
  | cons k keys ih =>
    rw [List.foldl_cons, ih, get?_erase]
    by_cases hk : k = key
    · simp [hk]
    · simp [hk, Ne.symm hk]

theorem mem_eraseAll {t : Table α} {keys : List String} {e : String × α}
    (h : e ∈ (t.eraseAll keys).entries) : e ∈ t.entries := by
  unfold eraseAll at h
  induction keys generalizing t with
  | nil => exact h
  | cons k keys ih => exact (List.mem_filter.mp (ih h)).1

/-- Entries that are in order already stay as they are. -/
theorem entries_ofList {entries : List (String × α)} (h : Entries.Sorted entries) :
    (ofList entries).entries = entries := by
  have hfold : ∀ (later : List (String × α)) (t : Table α), Entries.Sorted (t.entries ++ later) →
      (later.foldl (fun t e => t.insert e.1 e.2) t).entries = t.entries ++ later := by
    intro later
    induction later with
    | nil => intro t _; simp
    | cons e later ih =>
      intro t ht
      have hlast : (t.insert e.1 e.2).entries = t.entries ++ [e] :=
        Entries.insert_last fun e' he' =>
          (List.pairwise_append.mp ht).2.2 e' he' e List.mem_cons_self
      have hnext : Entries.Sorted ((t.insert e.1 e.2).entries ++ later) := by simpa [hlast] using ht
      rw [List.foldl_cons, ih _ hnext, hlast]
      simp
  exact hfold entries empty h

/-- With the entry, or the lack of one, that another table has under the key. -/
def copy (t u : Table α) (key : String) : Table α :=
  match u.get? key with
  | some v => t.insert key v
  | none => t.erase key

theorem get?_copy (t u : Table α) (key k : String) :
    (t.copy u key).get? k = if key = k then u.get? key else t.get? k := by
  unfold copy
  split
  · rename_i v h
    rw [get?_insert, h]
  · rename_i h
    rw [get?_erase, h]

end Table

end GraphWalk
