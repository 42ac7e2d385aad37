import GraphWalk.Graph.Id
import GraphWalk.Proofs.Decimal.Integer

/-!
# Equal ids

Two integers are compared by value, two texts as texts, and an integer with a text by its key, while
hashing knows the key alone. `beq_by_key`: the rules come to one, equality of keys, because no two
integers have one key. So a text equals at most one integer, the one of which it is the canonical
decimal form.
-/

namespace GraphWalk

/-- The canonical decimal form of an integer: digits that spell it, behind a minus sign if it is
negative, without zeros in front of them. -/
structure Canonical (cs : List Char) (n : Int) : Prop where
  spells : SpellsInt cs n
  printed : ¬Unprinted cs

/-- What is printed for an integer is its canonical form, and nothing else is. -/
theorem repr_eq_iff {s : String} {n : Int} : Int.repr n = s ↔ Canonical s.toList n := by
  constructor
  · rintro rfl
    exact ⟨spells_repr n, not_unprinted_repr n⟩
  · intro h
    exact String.toList_inj.mp (h.spells.repr_iff.mpr h.printed)

namespace VertexId

variable {n : Int} {s : String}

/-- Ids name the same vertex if they have one key. -/
theorem beq_iff_key (a b : VertexId) : (a == b) = true ↔ a.key = b.key := by
  cases a with
  | int m =>
    cases b with
    | int n =>
      show (m == n) = true ↔ Int.repr m = Int.repr n
      rw [beq_iff_eq, Int.repr_inj]
    | text t =>
      show (Int.repr m == t) = true ↔ Int.repr m = t
      exact beq_iff_eq
  | text s =>
    cases b with
    | int n =>
      show (s == Int.repr n) = true ↔ s = Int.repr n
      exact beq_iff_eq
    | text t =>
      show (s == t) = true ↔ s = t
      exact beq_iff_eq

theorem beq_equivalence : Equivalence fun a b : VertexId => (a == b) = true := by
  simp only [beq_iff_key]
  exact InvImage.equivalence Eq key eq_equivalence

/-- Every hash function takes equal ids alike, and one that keeps what it takes tells others
apart. -/
theorem beq_iff_hashInto (a b : VertexId) : (a == b) = true ↔
    ∀ (σ : Type) (feed : String → σ → σ) (state : σ),
      a.hashInto feed state = b.hashInto feed state := by
  rw [beq_iff_key]
  constructor
  · intro h σ feed state
    rw [hashInto, hashInto, h]
  · intro h
    exact h String (fun key _ => key) ""

theorem key_int_injective : Function.Injective fun n : Int => (int n).key := by
  intro m n h
  exact Int.repr_inj.mp h

theorem int_beq_text_iff : (int n == text s) = true ↔ Canonical s.toList n := by
  rw [beq_iff_key]
  exact repr_eq_iff

theorem int_beq_text_of_unprinted (h : Unprinted s.toList) (n : Int) :
    (int n == text s) = false := by
  rw [← Bool.not_eq_true, int_beq_text_iff]
  exact fun hcanonical => hcanonical.printed h

/-- Ids are equal if and only if their keys are. So equality is an equivalence that hashing
respects, no two integers have one key, and an integer equals one text, its canonical decimal form:
no integer equals a text with a plus sign, with a zero too many or with a negative zero. -/
theorem beq_by_key :
    (∀ a b : VertexId, (a == b) = true ↔ a.key = b.key) ∧
    Equivalence (fun a b : VertexId => (a == b) = true) ∧
    (∀ a b : VertexId, (a == b) = true ↔
      ∀ (σ : Type) (feed : String → σ → σ) (state : σ),
        a.hashInto feed state = b.hashInto feed state) ∧
    Function.Injective (fun n : Int => (int n).key) ∧
    (∀ n : Int, ∃! s : String, (int n == text s) = true) ∧
    (∀ (n : Int) (s : String), (int n == text s) = true ↔ Canonical s.toList n) ∧
    ∀ n : Int, (int n == text "007") = false ∧ (int n == text "+7") = false ∧
      (int n == text "-0") = false := by
  refine ⟨beq_iff_key, beq_equivalence, beq_iff_hashInto, key_int_injective, fun n => ?_,
    fun n s => int_beq_text_iff, fun n => ⟨?_, ?_, ?_⟩⟩
  · refine ⟨Int.repr n, (beq_iff_key _ _).mpr rfl, fun s h => ?_⟩
    exact ((beq_iff_key _ _).mp h).symm
  · exact int_beq_text_of_unprinted (s := "007") (.zero '0' ['7']) n
  · exact int_beq_text_of_unprinted (s := "+7") (.plus ['7']) n
  · exact int_beq_text_of_unprinted (s := "-0") (.minusZero []) n

example : (int (-2 ^ 63) == text "-9223372036854775808") = true := by decide +kernel

end VertexId

end GraphWalk
