/-!
# Tables keyed by text

A finite map from text, its entries held in strictly increasing key order. The order is the
one of Unicode scalar values, hence also the order of the UTF-8 bytes, so listing a table
needs no sort and two tables that answer every look-up alike are equal.
-/

namespace GraphWalk

namespace Entries

variable {α : Type u}

/-- The value listed under a key. -/
def find? (key : String) : List (String × α) → Option α
  | [] => none
  | (k, v) :: rest => if k = key then some v else find? key rest

/-- Put a value under a key, in front of the first larger key. -/
def insert (key : String) (value : α) : List (String × α) → List (String × α)
  | [] => [(key, value)]
  | (k, v) :: rest =>
    if key = k then (key, value) :: rest
    else if key < k then (key, value) :: (k, v) :: rest
    else (k, v) :: insert key value rest

def Sorted (entries : List (String × α)) : Prop :=
  entries.Pairwise fun a b => a.1 < b.1

theorem mem_insert {key : String} {value : α} {entries : List (String × α)} {e : String × α}
    (h : e ∈ insert key value entries) : e = (key, value) ∨ e ∈ entries := by
  induction entries with
  | nil => simp [insert] at h; exact .inl h
  | cons head rest ih =>
    obtain ⟨k, v⟩ := head
    unfold insert at h
    split at h
    · rcases List.mem_cons.mp h with h | h
      · exact .inl h
      · exact .inr (List.mem_cons_of_mem _ h)
    · split at h
      · rcases List.mem_cons.mp h with h | h
        · exact .inl h
        · exact .inr h
      · rcases List.mem_cons.mp h with h | h
        · exact .inr (h ▸ List.mem_cons_self)
        · exact (ih h).imp_right (List.mem_cons_of_mem _)

theorem Sorted.insert {entries : List (String × α)} (h : Sorted entries) (key : String)
    (value : α) : Sorted (insert key value entries) := by
  induction entries with
  | nil => simp [Entries.insert, Sorted]
  | cons head rest ih =>
    obtain ⟨k, v⟩ := head
    have hrest : Sorted rest := (List.pairwise_cons.mp h).2
    have hhead := (List.pairwise_cons.mp h).1
    unfold Entries.insert
    split
    next heq => exact List.pairwise_cons.mpr ⟨fun e he => heq ▸ hhead e he, hrest⟩
    next hne =>
      split
      next hlt =>
        refine List.pairwise_cons.mpr ⟨fun e he => ?_, h⟩
        rcases List.mem_cons.mp he with he | he
        · exact he ▸ hlt
        · exact Std.lt_trans hlt (hhead e he)
      next hge =>
        refine List.pairwise_cons.mpr ⟨fun e he => ?_, ih hrest⟩
        rcases mem_insert he with he | he
        · subst he
          exact Std.lt_of_le_of_ne (Std.not_lt.mp hge) (fun h => hne h.symm)
        · exact hhead e he

theorem find?_insert (key k : String) (value : α) (entries : List (String × α)) :
    find? k (insert key value entries) = if key = k then some value else find? k entries := by
  induction entries with
  | nil => simp [insert, find?]
  | cons head rest ih =>
    obtain ⟨k', v⟩ := head
    unfold insert
    split
    next heq => subst heq; by_cases h : key = k <;> simp [find?, h]
    next hne =>
      split
      next => simp [find?]
      next =>
        simp only [find?, ih]
        by_cases h : k' = k
        · subst h; simp [hne]
        · simp [h]

theorem find?_erase (key k : String) (entries : List (String × α)) :
    find? k (entries.filter fun e => e.1 ≠ key) = if key = k then none else find? k entries := by
  induction entries with
  | nil => simp [find?]
  | cons head rest ih =>
    obtain ⟨k', v⟩ := head
    simp only [List.filter_cons, ne_eq, decide_not, Bool.not_eq_eq_eq_not, Bool.not_true,
      decide_eq_false_iff_not] at ih ⊢
    by_cases h : k' = key
    · subst h; by_cases hk : k' = k <;> simp_all [find?]
    · by_cases hk : k' = k
      · subst hk; simp [find?, h, Ne.symm h]
      · simp [find?, h, hk, ih]

theorem Sorted.erase {entries : List (String × α)} (h : Sorted entries) (key : String) :
    Sorted (entries.filter fun e => e.1 ≠ key) :=
  List.Pairwise.filter _ h

end Entries

/-- A finite map from text to `α`. -/
structure Table (α : Type u) where
  entries : List (String × α)
  sorted : Entries.Sorted entries

namespace Table

variable {α : Type u}

def empty : Table α := ⟨[], List.Pairwise.nil⟩

instance : EmptyCollection (Table α) := ⟨empty⟩
instance : Inhabited (Table α) := ⟨empty⟩

@[ext] theorem ext_entries {s t : Table α} (h : s.entries = t.entries) : s = t := by
  cases s; cases t; cases h; rfl

def get? (t : Table α) (key : String) : Option α := Entries.find? key t.entries

def contains (t : Table α) (key : String) : Bool := (t.get? key).isSome

/-- Replaces the value already under the key, if there is one. -/
def insert (t : Table α) (key : String) (value : α) : Table α :=
  ⟨Entries.insert key value t.entries, t.sorted.insert key value⟩

def erase (t : Table α) (key : String) : Table α :=
  ⟨t.entries.filter fun e => e.1 ≠ key, t.sorted.erase key⟩

def eraseAll (t : Table α) (keys : List String) : Table α := keys.foldl erase t

/-- Later pairs win. -/
def ofList (pairs : List (String × α)) : Table α :=
  pairs.foldl (fun t e => t.insert e.1 e.2) empty

def keys (t : Table α) : List String := t.entries.map (·.1)

def size (t : Table α) : Nat := t.entries.length

def map {β : Type v} (f : α → β) (t : Table α) : Table β where
  entries := t.entries.map fun e => (e.1, f e.2)
  sorted := by simpa [Entries.Sorted, List.pairwise_map] using t.sorted

@[simp] theorem get?_empty (key : String) : (empty : Table α).get? key = none := rfl

theorem get?_insert (t : Table α) (key k : String) (value : α) :
    (t.insert key value).get? k = if key = k then some value else t.get? k :=
  Entries.find?_insert key k value t.entries

theorem get?_erase (t : Table α) (key k : String) :
    (t.erase key).get? k = if key = k then none else t.get? k :=
  Entries.find?_erase key k t.entries

end Table

end GraphWalk
