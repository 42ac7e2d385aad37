import GraphWalk.Proofs.Json.Number

/-!
# The values inside a value

`induction` is the induction over values by what is inside them. A value that was read, or built
with `Json.object`, is `Regular`; of those, a text keeps the values that are `Legible`.
-/

namespace GraphWalk

instance Entries.decidableSorted {α : Type} (entries : List (String × α)) :
    Decidable (Entries.Sorted entries) :=
  inferInstanceAs (Decidable (entries.Pairwise fun a b => a.1 < b.1))

namespace Json

def isScalar : Json → Bool
  | arr _ => false
  | obj _ => false
  | _ => true

theorem induction {motive : Json → Prop} (scalar : ∀ v, v.isScalar → motive v)
    (arr : ∀ items, (∀ v ∈ items, motive v) → motive (arr items))
    (obj : ∀ fields, (∀ e ∈ fields, motive e.2) → motive (obj fields)) : ∀ v, motive v
  | .arr items => arr items fun v _ => induction scalar arr obj v
  | .obj fields => obj fields fun e _ => induction scalar arr obj e.2
  | .null | .bool _ | .int _ | .float _ | .str _ => scalar _ rfl
termination_by v => sizeOf v
decreasing_by
  next hv =>
    have hlt := List.sizeOf_lt_of_mem hv
    simp only [Json.arr.sizeOf_spec]
    omega
  next he =>
    have hlt := List.sizeOf_lt_of_mem he
    have hsnd : sizeOf e.2 < sizeOf e := by cases e; simp only [Prod.mk.sizeOf_spec]; omega
    simp only [Json.obj.sizeOf_spec]
    omega

mutual

/-- Whether a value and every value inside it pass a test. -/
def all (p : Json → Bool) : Json → Bool
  | arr items => p (arr items) && allItems p items
  | obj fields => p (obj fields) && allFields p fields
  | v => p v

def allItems (p : Json → Bool) : List Json → Bool
  | [] => true
  | v :: rest => all p v && allItems p rest

def allFields (p : Json → Bool) : List (String × Json) → Bool
  | [] => true
  | (_, v) :: rest => all p v && allFields p rest

end

mutual

/-- How many arrays and objects are nested in a value. -/
def nesting : Json → Nat
  | arr items => nestingItems items + 1
  | obj fields => nestingFields fields + 1
  | _ => 0

def nestingItems : List Json → Nat
  | [] => 0
  | v :: rest => max (nesting v) (nestingItems rest)

def nestingFields : List (String × Json) → Nat
  | [] => 0
  | (_, v) :: rest => max (nesting v) (nestingFields rest)

end

def wide (v : Json) : Bool :=
  v.all fun
    | int n => isWide n
    | _ => true

def ordered (v : Json) : Bool :=
  v.all fun
    | obj fields => Entries.Sorted fields
    | _ => true

def floatless (v : Json) : Bool :=
  v.all fun
    | float _ => false
    | _ => true

def finite (v : Json) : Bool :=
  v.all fun
    | float x => x.isFinite
    | _ => true

/-- What every value that was read is: its integers fit 64 bits, signed or unsigned, and its
objects list their names in increasing order. -/
structure Regular (v : Json) : Prop where
  wide : v.wide
  ordered : v.ordered

instance (v : Json) : Decidable v.Regular :=
  decidable_of_iff (v.wide ∧ v.ordered) ⟨fun h => ⟨h.1, h.2⟩, fun h => ⟨h.wide, h.ordered⟩⟩

/-- Regular values whose floats are finite. Every value that was read is one of them. -/
structure Readable (v : Json) : Prop where
  regular : v.Regular
  finite : v.finite

/-- Values whose text reads as themselves where `room` arrays and objects may be nested. -/
structure Legible (room : Nat) (v : Json) : Prop where
  regular : v.Regular
  floatless : v.floatless
  nesting : v.nesting ≤ room

variable {p : Json → Bool}

theorem all_scalar {v : Json} (h : v.isScalar) : v.all p = p v := by
  cases v with
  | arr items => cases h
  | obj fields => cases h
  | _ => rfl

@[simp] theorem all_arr {items : List Json} :
    (arr items).all p ↔ p (arr items) ∧ ∀ v ∈ items, v.all p := by
  have hitems : allItems p items ↔ ∀ v ∈ items, v.all p := by
    induction items with
    | nil => simp [allItems]
    | cons v rest ih => simp [allItems, ih]
  rw [all, Bool.and_eq_true, hitems]

@[simp] theorem all_obj {fields : List (String × Json)} :
    (obj fields).all p ↔ p (obj fields) ∧ ∀ e ∈ fields, e.2.all p := by
  have hfields : allFields p fields ↔ ∀ e ∈ fields, e.2.all p := by
    induction fields with
    | nil => simp [allFields]
    | cons e rest ih => simp [allFields, ih]
  rw [all, Bool.and_eq_true, hfields]

theorem finite_of_floatless (v : Json) : v.floatless → v.finite := by
  induction v using Json.induction with
  | scalar v hscalar =>
    intro hfloat
    cases v with
    | float x => cases hfloat
    | arr items => cases hscalar
    | obj fields => cases hscalar
    | _ => rfl
  | arr items ih =>
    intro hfloat
    exact all_arr.mpr ⟨rfl, fun v hv => ih v hv ((all_arr.mp hfloat).2 v hv)⟩
  | obj fields ih =>
    intro hfloat
    exact all_obj.mpr ⟨rfl, fun e he => ih e he ((all_obj.mp hfloat).2 e he)⟩

theorem Legible.readable {room : Nat} {v : Json} (h : v.Legible room) : v.Readable :=
  ⟨h.regular, finite_of_floatless v h.floatless⟩

theorem readable_arr {items : List Json} : (arr items).Readable ↔ ∀ v ∈ items, v.Readable := by
  constructor
  · rintro ⟨⟨hwide, hordered⟩, hfinite⟩ v hv
    exact ⟨⟨(all_arr.mp hwide).2 v hv, (all_arr.mp hordered).2 v hv⟩, (all_arr.mp hfinite).2 v hv⟩
  · intro h
    refine ⟨⟨?_, ?_⟩, ?_⟩
    · exact all_arr.mpr ⟨rfl, fun v hv => (h v hv).regular.wide⟩
    · exact all_arr.mpr ⟨rfl, fun v hv => (h v hv).regular.ordered⟩
    · exact all_arr.mpr ⟨rfl, fun v hv => (h v hv).finite⟩

theorem readable_obj {fields : List (String × Json)} :
    (obj fields).Readable ↔ Entries.Sorted fields ∧ ∀ e ∈ fields, e.2.Readable := by
  constructor
  · rintro ⟨⟨hwide, hordered⟩, hfinite⟩
    refine ⟨by simpa using (all_obj.mp hordered).1, fun e he => ⟨⟨?_, ?_⟩, ?_⟩⟩
    · exact (all_obj.mp hwide).2 e he
    · exact (all_obj.mp hordered).2 e he
    · exact (all_obj.mp hfinite).2 e he
  · rintro ⟨hsorted, h⟩
    refine ⟨⟨?_, ?_⟩, ?_⟩
    · exact all_obj.mpr ⟨rfl, fun e he => (h e he).regular.wide⟩
    · exact all_obj.mpr ⟨by simpa using hsorted, fun e he => (h e he).regular.ordered⟩
    · exact all_obj.mpr ⟨rfl, fun e he => (h e he).finite⟩

theorem nesting_scalar {v : Json} (h : v.isScalar) : v.nesting = 0 := by
  cases v with
  | arr items => cases h
  | obj fields => cases h
  | _ => rfl

theorem nesting_arr {items : List Json} {n : Nat} :
    (arr items).nesting ≤ n + 1 ↔ ∀ v ∈ items, v.nesting ≤ n := by
  rw [nesting, Nat.add_le_add_iff_right]
  induction items with
  | nil => simp [nestingItems]
  | cons v rest ih => rw [nestingItems, Nat.max_le, ih, List.forall_mem_cons]

theorem nesting_obj {fields : List (String × Json)} {n : Nat} :
    (obj fields).nesting ≤ n + 1 ↔ ∀ e ∈ fields, e.2.nesting ≤ n := by
  rw [nesting, Nat.add_le_add_iff_right]
  induction fields with
  | nil => simp [nestingFields]
  | cons e rest ih => rw [nestingFields, Nat.max_le, ih, List.forall_mem_cons]

end Json

end GraphWalk
