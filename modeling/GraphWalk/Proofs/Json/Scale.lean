import GraphWalk.Proofs.Decimal.Shortest
import GraphWalk.Proofs.Float.Finite
import GraphWalk.Proofs.Json.Number
import GraphWalk.Proofs.Json.Value

/-!
# The values of numerals

A numeral that has a value has an integer that fits, or a finite float (`Numeral.value?_readable`).
It has none if scaling its digits leads beyond the largest float; the digits that a float is written
with never do (`Numeral.exists_scale?_gather`).
-/

namespace GraphWalk.Json

variable {s : Nat} {f : Float} {ds : List Char}

theorem readable_int {n : Int} (h : isWide n) : (int n).Readable := ⟨⟨h, rfl⟩, rfl⟩

theorem readable_float (h : f.isFinite) : (float f).Readable := ⟨⟨rfl, rfl⟩, h⟩

namespace Numeral

open Rounding Decimal

-- ---------------------------------------------------------------------------
-- Values are finite
-- ---------------------------------------------------------------------------

theorem gather_lt (h : s < 2 ^ 64) : (gather s ds).1 < 2 ^ 64 := by
  induction ds generalizing s with
  | nil => exact h
  | cons d ds ih =>
    unfold gather
    dsimp only
    split
    next hnext => exact ih hnext
    next => exact h

theorem ten_le_pow {n : Nat} (h : 1 ≤ n) : 10 ≤ 10 ^ n := Nat.le_self_pow (by omega) 10

theorem isFinite_shrink {n : Nat} (hf : f.isFinite) (hn : 1 ≤ n) : (shrink f n).isFinite := by
  fun_induction shrink f n with
  | case1 f n hle => exact isFinite_div hf (near_powerOfTen hle) (ten_le_pow hn)
  | case2 f n hlarge hzero => exact hf
  | case3 f n hlarge hzero ih =>
    exact ih (isFinite_div hf (near_powerOfTen (Nat.le_refl 308)) (ten_le_pow (by decide)))
      (by omega)

theorem isFinite_scale? {e : Int} (hs : s < 2 ^ 64) (h : scale? s e = some f) : f.isFinite := by
  cases e with
  | negSucc n =>
    cases h
    exact isFinite_shrink (isFinite_toFloat hs) (by omega)
  | ofNat n =>
    simp only [scale?] at h
    split at h
    next hle =>
      split at h
      next => cases h
      next hinf =>
        cases h
        exact isFinite_mul (isFinite_toFloat hs) (near_powerOfTen hle).isFinite
          (Bool.eq_false_iff.mpr hinf)
    next =>
      split at h
      next =>
        cases h
        exact isFinite_toFloat hs
      next => cases h

theorem value?_readable {n : Numeral} {v : Json} (h : n.value? = some v) :
    v.isScalar ∧ v.Readable := by
  have hfloat : ∀ f : Float, f.isFinite →
      (float (if n.negative then -f else f)).isScalar ∧
        (float (if n.negative then -f else f)).Readable := by
    intro f hf
    refine ⟨rfl, readable_float ?_⟩
    split
    · exact isFinite_neg hf
    · exact hf
  have hwhole : (gather 0 n.whole).1 < 2 ^ 64 := gather_lt (by decide)
  unfold value? at h
  dsimp only at h
  split at h
  · split at h
    · cases h
      exact ⟨rfl, readable_int (decide_eq_true ⟨by omega, by omega⟩)⟩
    · split at h
      next hpos =>
        cases h
        exact ⟨rfl, readable_int (decide_eq_true ⟨by omega, by omega⟩)⟩
      · cases h
        exact hfloat _ (isFinite_toFloat hwhole)
  · have hall : (gather _ (n.fraction.getD [])).1 < 2 ^ 64 := gather_lt hwhole
    split at h
    · obtain ⟨f, hscale, rfl⟩ := Option.map_eq_some_iff.mp h
      exact hfloat f (isFinite_scale? hall hscale)
    · split at h
      all_goals
        obtain ⟨f, hscale, rfl⟩ := Option.map_eq_some_iff.mp h
        exact hfloat f (isFinite_scale? hall hscale)

-- ---------------------------------------------------------------------------
-- Scaling
-- ---------------------------------------------------------------------------

theorem digitValue_lt {c : Char} (h : isDigit c) : digitValue c < 10 := by
  have hle : c.toNat ≤ '9'.toNat := (of_decide_eq_true h).2
  exact Nat.lt_of_le_of_lt (Nat.sub_le_sub_right hle _) (by decide)

theorem ofDigitChars_lt (h : ∀ c ∈ ds, isDigit c) :
    Nat.ofDigitChars 10 ds s < (s + 1) * 10 ^ ds.length := by
  induction ds generalizing s with
  | nil => simp
  | cons d ds ih =>
    obtain ⟨hd, hds⟩ := List.forall_mem_cons.mp h
    have hdigit := digitValue_lt hd
    rw [ofDigitChars_cons]
    calc Nat.ofDigitChars 10 ds (s * 10 + digitValue d)
        < (s * 10 + digitValue d + 1) * 10 ^ ds.length := ih hds
      _ ≤ (s + 1) * 10 * 10 ^ ds.length := Nat.mul_le_mul_right _ (by omega)
      _ = (s + 1) * 10 ^ (ds.length + 1) := by rw [Nat.pow_succ]; ring

theorem length_gather (s : Nat) (ds : List Char) : (gather s ds).2.length ≤ ds.length := by
  induction ds generalizing s with
  | nil => exact Nat.le_refl 0
  | cons d ds ih =>
    unfold gather
    dsimp only
    split
    · exact Nat.le_succ_of_le (ih _)
    · exact Nat.le_refl _

/-- The digits that do not fit are dropped, not rounded. -/
theorem gather_le (s : Nat) (ds : List Char) :
    (gather s ds).1 * 10 ^ (gather s ds).2.length ≤ Nat.ofDigitChars 10 ds s := by
  induction ds generalizing s with
  | nil => simp [gather]
  | cons d ds ih =>
    unfold gather
    dsimp only
    split
    · rw [ofDigitChars_cons]
      exact ih _
    · exact le_ofDigitChars (d :: ds) s

/-- The digits that are taken. -/
def significand (n : Numeral) : Nat := (gather (gather 0 n.whole).1 (n.fraction.getD [])).1

/-- How many digits are dropped before the point, less those that are taken behind it. -/
def point (n : Numeral) : Int :=
  (gather 0 n.whole).2.length - ((n.fraction.getD []).length -
    (gather (gather 0 n.whole).1 (n.fraction.getD [])).2.length : Nat)

def shift : Option (Bool × List Char) → Int
  | none => 0
  | some (negative, ds) => if negative then -Nat.ofDigitChars 10 ds 0 else Nat.ofDigitChars 10 ds 0

theorem value?_scaled {n : Numeral} (h : n.fraction.isSome ∨ n.exponent.isSome) :
    n.value? = (scale? n.significand (n.point + shift n.exponent)).map fun f =>
      float (if n.negative then -f else f) := by
  have hfloat :
      (n.fraction.isNone && n.exponent.isNone && (gather 0 n.whole).2.isEmpty) = false := by
    cases hf : n.fraction <;> cases he : n.exponent <;> simp_all
  unfold value?
  dsimp only
  rw [if_neg (by simp [hfloat])]
  have hshift : ∀ ds : List Char, (ds.foldl (fun acc d => acc * 10 + digitValue d) 0) =
      Nat.ofDigitChars 10 ds 0 := by
    intro ds
    rw [Nat.ofDigitChars_eq_foldl]
    congr 1
    funext acc d
    rw [Nat.mul_comm]
    rfl
  cases he : n.exponent with
  | none => simp [significand, point, shift]
  | some e =>
    obtain ⟨negative, ds⟩ := e
    cases negative <;> simp [significand, point, shift, hshift, Int.sub_eq_add_neg]

theorem exists_scale?_of_neg (s : Nat) {e : Int} (h : e < 0) : ∃ f, scale? s e = some f := by
  cases e with
  | negSucc n => exact ⟨_, rfl⟩
  | ofNat n => exact absurd h (by simp)

theorem exists_value?_of_neg {n : Numeral} (h : n.fraction.isSome ∨ n.exponent.isSome)
    (hneg : n.point + shift n.exponent < 0) : ∃ v, n.value? = some v := by
  obtain ⟨f, hf⟩ := exists_scale?_of_neg n.significand hneg
  rw [value?_scaled h, hf]
  exact ⟨_, rfl⟩

theorem le_of_mul_le_large {n : Nat} (hpos : 0 < s) (hle : s * 10 ^ n ≤ large) : n ≤ 308 := by
  by_contra hlarge
  have hbound : large < 10 ^ 309 := by decide +kernel
  have hpow : 10 ^ 309 ≤ 10 ^ n := by
    apply Nat.pow_le_pow_right
    · decide
    · omega
  have hmul := Nat.le_mul_of_pos_left (10 ^ n) hpos
  omega

theorem exists_scale? {n : Nat} (hs : s < 2 ^ 64) (hle : s * 10 ^ n ≤ large) :
    ∃ f, scale? s n = some f := by
  have hfinite : n ≤ 308 → (s.toUInt64.toFloat * powerOfTen n).isFinite := by
    intro hn
    rcases Nat.eq_zero_or_pos s with rfl | hpos
    · exact isFinite_zero_mul (near_powerOfTen hn).isFinite
    · have hlarge : large * (2 ^ 53 + 1) ^ 2 < overflow * 2 ^ 106 := by decide +kernel
      exact isFinite_mul_near (near_toFloat hpos hs) (near_powerOfTen hn)
        (Nat.lt_of_le_of_lt (Nat.mul_le_mul_right _ hle) hlarge)
  show ∃ f, scale? s (.ofNat n) = some f
  simp only [scale?]
  split
  next hn =>
    rw [isInf_of_isFinite (hfinite hn)]
    exact ⟨_, rfl⟩
  next hn =>
    have hzero : s = 0 := Nat.eq_zero_of_not_pos fun hpos => hn (le_of_mul_le_large hpos hle)
    subst hzero
    exact ⟨_, if_pos (by decide +kernel)⟩

theorem exists_scale?_of_value {x : Expansion} {k : Nat} (hs : s < 2 ^ 64)
    (hdigits : s * 10 ^ k ≤ x.digits) (hle : x.value ≤ large) :
    ∃ f, scale? s (x.exponent + k) = some f := by
  rcases Int.lt_or_le (x.exponent + k) 0 with hneg | hpos
  · exact exists_scale?_of_neg s hneg
  · obtain ⟨n, hn⟩ := Int.eq_ofNat_of_zero_le hpos
    have hproduct : (s * 10 ^ n : ℚ) ≤ x.value := by
      have hdigits : (s * 10 ^ k : ℚ) ≤ x.digits := by exact_mod_cast hdigits
      calc (s * 10 ^ n : ℚ) = s * 10 ^ (x.exponent + k) := by rw [hn, zpow_natCast]
        _ = s * 10 ^ k * 10 ^ x.exponent := by
          rw [zpow_add₀ (by decide), zpow_natCast]
          ring
        _ ≤ x.value := mul_le_mul_of_nonneg_right hdigits (zpow_nonneg (by decide) _)
    rw [hn]
    exact exists_scale? hs (by exact_mod_cast le_trans hproduct hle)

/-- The digits of an expansion, as many as fit, are not scaled beyond the largest float. -/
theorem exists_scale?_gather {x : Expansion} (hs : s < 2 ^ 64)
    (hdigits : Nat.ofDigitChars 10 ds s = x.digits)
    (hx : x.value ≤ large ∨ x ∈ Expansion.largest) :
    ∃ f, scale? (gather s ds).1 (x.exponent + (gather s ds).2.length) = some f := by
  rcases hx with hle | hlargest
  · exact exists_scale?_of_value (gather_lt hs) (hdigits ▸ gather_le s ds) hle
  · have hfits : ∀ x ∈ Expansion.largest,
        x.digits < 2 ^ 64 ∧ (scale? x.digits x.exponent).isSome := by decide +kernel
    obtain ⟨hlt, hsome⟩ := hfits x hlargest
    rw [gather_all (hdigits ▸ hlt), hdigits, List.length_nil, Nat.cast_zero, add_zero]
    exact Option.isSome_iff_exists.mp hsome

end Numeral

end GraphWalk.Json
