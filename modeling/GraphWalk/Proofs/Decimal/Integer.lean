import GraphWalk.Proofs.Json.Scale

/-!
# The spellings of an integer

Digits with or without a sign spell an integer, and one of the spellings is the one that is
printed. `SpellsInt.repr_iff`: it is the one that begins with no plus sign, no zero that something
follows and no negative zero.
-/

namespace GraphWalk

open Json (Digits isDigit)

/-- The number that digits stand for. -/
def magnitude (ds : List Char) : Nat := Nat.ofDigitChars 10 ds 0

/-- Digits, with or without a sign, spell the integer for which they stand. -/
inductive SpellsInt : List Char → Int → Prop
  | plain {ds : List Char} (h : Digits ds) : SpellsInt ds (magnitude ds)
  | plus {ds : List Char} (h : Digits ds) : SpellsInt ('+' :: ds) (magnitude ds)
  | minus {ds : List Char} (h : Digits ds) : SpellsInt ('-' :: ds) (-magnitude ds)

/-- Begins as no printed integer does: with a plus sign, with a zero that something follows, or
with a negative zero. -/
inductive Unprinted : List Char → Prop
  | plus (ds : List Char) : Unprinted ('+' :: ds)
  | zero (c : Char) (ds : List Char) : Unprinted ('0' :: c :: ds)
  | minusZero (ds : List Char) : Unprinted ('-' :: '0' :: ds)

-- ---------------------------------------------------------------------------
-- Digits
-- ---------------------------------------------------------------------------

variable {ds cs : List Char} {n : Int}

theorem magnitude_toDigits (n : Nat) : magnitude (Nat.toDigits 10 n) = n :=
  Nat.ofDigitChars_ten_toDigits

theorem foldl_magnitude (ds : List Char) :
    ds.foldl (fun acc d => acc * 10 + Json.digitValue d) 0 = magnitude ds := by
  simp only [magnitude, Nat.ofDigitChars, Nat.mul_comm 10]
  rfl

theorem toDigits_digitValue {d : Char} (h : isDigit d) :
    Nat.toDigits 10 (Json.digitValue d) = [d] := by
  have hlt := Json.Numeral.digitValue_lt h
  have hle : '0'.toNat ≤ d.toNat := (of_decide_eq_true h).1
  have hchar : (Nat.digitChar (Json.digitValue d)).toNat = d.toNat :=
    (Nat.toNat_digitChar_of_lt_ten hlt).trans (Nat.add_sub_of_le hle)
  rw [Nat.toDigits_of_lt_base hlt, Char.toNat_inj.mp hchar]

theorem magnitude_pos (h : Nat.toDigits 10 (magnitude ds) = ds) (hhead : ds.head? ≠ some '0') :
    0 < magnitude ds := by
  refine Nat.pos_of_ne_zero fun hzero => hhead ?_
  rw [← h, hzero]
  rfl

/-- Digits are those of their number, unless a zero stands in front of others. -/
theorem toDigits_magnitude (h : Digits ds) (hleading : ds.head? = some '0' → ds.length = 1) :
    Nat.toDigits 10 (magnitude ds) = ds := by
  induction ds using List.reverseRecOn with
  | nil => exact absurd rfl h.ne_nil
  | append_singleton front d ih =>
    have hd := h.digits d (by simp)
    by_cases hfront : front = []
    · subst hfront
      simpa [magnitude, Json.Numeral.ofDigitChars_cons] using toDigits_digitValue hd
    · have hhead : front.head? ≠ some '0' := by
        intro hzero
        have hlength := hleading (by rwa [List.head?_append_of_ne_nil _ hfront])
        simp [hfront] at hlength
      have hdigits := ih ⟨hfront, fun c hc => h.digits c (by simp [hc])⟩ (absurd · hhead)
      have hpositive := magnitude_pos hdigits hhead
      have hsplit : magnitude (front ++ [d]) = 10 * magnitude front + Json.digitValue d := by
        rw [magnitude, Nat.ofDigitChars_append]
        rfl
      rw [hsplit, ← Nat.toDigits_append_toDigits (by decide) hpositive
        (Json.Numeral.digitValue_lt hd), hdigits, toDigits_digitValue hd]

-- ---------------------------------------------------------------------------
-- The printed spelling
-- ---------------------------------------------------------------------------

theorem toList_repr (n : Int) :
    (Int.repr n).toList = Json.Numeral.signChars (n < 0) ++ Nat.toDigits 10 n.natAbs := by
  rw [← Json.Numeral.chars_ofInt]
  exact congrArg _ (List.append_nil _)

theorem toList_repr_natCast (m : Nat) : (Int.repr m).toList = Nat.toDigits 10 m := by
  rw [toList_repr, Int.natAbs_natCast]
  simp [Json.Numeral.signChars]

theorem toList_repr_neg {m : Nat} (h : 0 < m) :
    (Int.repr (-m)).toList = '-' :: Nat.toDigits 10 m := by
  have hneg : -(m : Int) < 0 := by omega
  rw [toList_repr, Int.natAbs_neg, Int.natAbs_natCast, decide_eq_true hneg]
  rfl

theorem not_unprinted_toDigits (m : Nat) : ¬Unprinted (Nat.toDigits 10 m) := by
  have hdigits := (Json.digits_toDigits m).digits
  have hleading := Json.length_of_leading (n := m)
  generalize Nat.toDigits 10 m = ds at hdigits hleading
  rintro (ds | ⟨c, ds⟩ | ds)
  · exact absurd (hdigits '+' List.mem_cons_self) (by decide)
  · exact absurd (hleading rfl) (by simp)
  · exact absurd (hdigits '-' List.mem_cons_self) (by decide)

theorem not_unprinted_repr (n : Int) : ¬Unprinted (Int.repr n).toList := by
  obtain ⟨m, rfl | rfl⟩ := n.eq_nat_or_neg
  · rw [toList_repr_natCast]
    exact not_unprinted_toDigits m
  · obtain rfl | hm := Nat.eq_zero_or_pos m
    · exact not_unprinted_toDigits 0
    · rw [toList_repr_neg hm]
      have hhead := Json.head?_toDigits hm.ne'
      generalize Nat.toDigits 10 m = ds at hhead
      rintro (_ | _ | ds)
      exact hhead rfl

/-- A spelling is the printed one unless it begins as none does. -/
theorem SpellsInt.repr_iff (h : SpellsInt cs n) : (Int.repr n).toList = cs ↔ ¬Unprinted cs := by
  refine ⟨fun hprinted => hprinted ▸ not_unprinted_repr n, fun hprinted => ?_⟩
  cases h with
  | plain h =>
    rw [toList_repr_natCast]
    refine toDigits_magnitude h fun hzero => ?_
    match cs, hzero with
    | [_], _ => rfl
    | _ :: c :: ds, rfl => exact absurd (.zero c ds) hprinted
  | plus h => exact absurd (.plus _) hprinted
  | @minus ds h =>
    have hhead : ds.head? ≠ some '0' := by
      intro hzero
      obtain ⟨rest, rfl⟩ := List.head?_eq_some_iff.mp hzero
      exact hprinted (.minusZero rest)
    have hdigits := toDigits_magnitude h (absurd · hhead)
    rw [toList_repr_neg (magnitude_pos hdigits hhead), hdigits]

theorem spells_repr (n : Int) : SpellsInt (Int.repr n).toList n := by
  obtain ⟨m, rfl | rfl⟩ := n.eq_nat_or_neg
  · have hplain := SpellsInt.plain (Json.digits_toDigits m)
    rwa [magnitude_toDigits, ← toList_repr_natCast] at hplain
  · obtain rfl | hm := Nat.eq_zero_or_pos m
    · exact .plain (Json.digits_toDigits 0)
    · have hminus := SpellsInt.minus (Json.digits_toDigits m)
      rwa [magnitude_toDigits, ← toList_repr_neg hm] at hminus

end GraphWalk
