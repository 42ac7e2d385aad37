import GraphWalk.Decimal.Shortest
import GraphWalk.Proofs.Float.Rounding

/-!
# The numbers that are written

The shortest expansion of a number does not leave the interval of the reals that round to it
(`search_le`), and dropping zeros keeps it (`value_dropZeros`). So nothing is written that exceeds
the largest float by more than half of its last place (`value_ofFloat`).
-/

namespace GraphWalk.Decimal

/-- The number that an expansion stands for. -/
def Expansion.value (x : Expansion) : ℚ := x.digits * 10 ^ x.exponent

theorem zpow_toNat {a : ℚ} (ha : a ≠ 0) (n : Int) : a ^ n * a ^ (-n).toNat = a ^ n.toNat := by
  cases n with
  | ofNat n => simp
  | negSucc n =>
    simp only [Int.neg_negSucc, Int.toNat_negSucc, pow_zero, zpow_negSucc]
    exact inv_mul_cancel₀ (pow_ne_zero _ ha)

theorem proportion_pos (e g : Int) : 0 < (proportion e g).2 :=
  Nat.mul_pos (Nat.two_pow_pos _) (Nat.pow_pos (by decide))

theorem proportion_eq (e g : Int) :
    ((proportion e g).1 : ℚ) * 10 ^ g = (proportion e g).2 * 2 ^ e := by
  have htwo := zpow_toNat (a := 2) (by decide) e
  have hten := zpow_toNat (a := 10) (by decide) g
  simp only [proportion, Nat.pow_eq, Nat.cast_mul, Nat.cast_pow, Nat.cast_ofNat, ← htwo, ← hten]
  ring

namespace Binary

variable {b : Binary} {grid : Int} {n : Nat}

/-- The upper end of the interval of the reals that round to a number. -/
def upper (b : Binary) : ℚ := (4 * b.mantissa + 2) * 2 ^ (b.exponent - 2)

theorem nearest?_bounds (h : b.nearest? grid = some n) :
    (4 * b.mantissa - 2) * (proportion (b.exponent - 2) grid).1 ≤
        n * (proportion (b.exponent - 2) grid).2 ∧
      n * (proportion (b.exponent - 2) grid).2 ≤
        (4 * b.mantissa + 2) * (proportion (b.exponent - 2) grid).1 := by
  rcases hproportion : proportion (b.exponent - 2) grid with ⟨up, down⟩
  have hlow : (4 * b.mantissa - 2) * up ≤
      (4 * b.mantissa - if b.atBinadeStart then 1 else 2) * up :=
    Nat.mul_le_mul_right up (by split <;> omega)
  simp only [nearest?, hproportion] at h
  generalize (4 * b.mantissa - if b.atBinadeStart then 1 else 2) * up = low at hlow h
  have hwithin : ∀ k, (if b.mantissa % 2 = 0 then
        decide (low ≤ k * down ∧ k * down ≤ (4 * b.mantissa + 2) * up)
      else decide (low < k * down ∧ k * down < (4 * b.mantissa + 2) * up)) = true →
      (4 * b.mantissa - 2) * up ≤ k * down ∧ k * down ≤ (4 * b.mantissa + 2) * up := by
    intro k hk
    split at hk
    · obtain ⟨hbelow, habove⟩ := of_decide_eq_true hk
      exact ⟨Nat.le_trans hlow hbelow, habove⟩
    · obtain ⟨hbelow, habove⟩ := of_decide_eq_true hk
      exact ⟨Nat.le_trans hlow (Nat.le_of_lt hbelow), Nat.le_of_lt habove⟩
  split at h
  next => cases h
  next hfloor _ =>
    cases h
    exact hwithin _ hfloor
  next _ hnext =>
    cases h
    exact hwithin _ hnext
  next hfloor hnext =>
    split at h
    · cases h
      exact hwithin _ hfloor
    · split at h
      · cases h
        exact hwithin _ hnext
      · cases h
        split
        · exact hwithin _ hfloor
        · exact hwithin _ hnext

theorem nearest?_le (h : b.nearest? grid = some n) : n * 10 ^ grid ≤ b.upper := by
  have hdown : (0 : ℚ) < (proportion (b.exponent - 2) grid).2 :=
    Nat.cast_pos.mpr (proportion_pos _ _)
  have hten : (0 : ℚ) < 10 ^ grid := zpow_pos (by decide) grid
  have hle : (n * (proportion (b.exponent - 2) grid).2 : ℚ) ≤
      (4 * b.mantissa + 2) * (proportion (b.exponent - 2) grid).1 := by
    exact_mod_cast (nearest?_bounds h).2
  refine le_of_mul_le_mul_right ?_ hdown
  calc (n * 10 ^ grid * (proportion (b.exponent - 2) grid).2 : ℚ)
      = n * (proportion (b.exponent - 2) grid).2 * 10 ^ grid := by ring
    _ ≤ (4 * b.mantissa + 2) * (proportion (b.exponent - 2) grid).1 * 10 ^ grid :=
      mul_le_mul_of_nonneg_right hle hten.le
    _ = b.upper * (proportion (b.exponent - 2) grid).2 := by
      rw [mul_assoc, proportion_eq, upper]
      ring

theorem nearest?_pos (hpos : 0 < b.mantissa) (h : b.nearest? grid = some n) : n ≠ 0 := by
  rintro rfl
  have hup : 0 < (proportion (b.exponent - 2) grid).1 :=
    Nat.mul_pos (Nat.two_pow_pos _) (Nat.pow_pos (by decide))
  have hlow := (nearest?_bounds h).1
  rw [Nat.zero_mul, Nat.le_zero, Nat.mul_eq_zero] at hlow
  omega

/-- The search ends with a hit, or with zero. -/
theorem search_eq (b : Binary) (magnitude : Int) (places more : Nat) :
    b.search magnitude places more = ⟨0, 0⟩ ∨
      ∃ n grid, b.nearest? grid = some n ∧ b.search magnitude places more = ⟨n, grid⟩ := by
  induction more generalizing places with
  | zero => exact .inl rfl
  | succ more ih =>
    unfold search
    split
    next n hit => exact .inr ⟨n, _, hit, rfl⟩
    next => exact ih (places + 1)

end Binary

namespace Expansion

variable {x : Expansion}

theorem value_dropZeros (x : Expansion) (more : Nat) : (x.dropZeros more).value = x.value := by
  induction more generalizing x with
  | zero => rfl
  | succ more ih =>
    unfold dropZeros
    split
    next h =>
      have hdigits : (x.digits : ℚ) = (x.digits / 10 : Nat) * 10 := by
        exact_mod_cast (Nat.div_mul_cancel (Nat.dvd_of_mod_eq_zero h.2)).symm
      rw [ih, value, value, hdigits, zpow_add_one₀ (by decide)]
      ring
    next => rfl

theorem dropZeros_zero (more : Nat) : dropZeros ⟨0, 0⟩ more = ⟨0, 0⟩ := by
  cases more <;> rfl

theorem digits_dropZeros (h : x.digits ≠ 0) (more : Nat) : (x.dropZeros more).digits ≠ 0 := by
  induction more generalizing x with
  | zero => exact h
  | succ more ih =>
    unfold dropZeros
    split
    next hmod => exact ih (by show x.digits / 10 ≠ 0; omega)
    next => exact h

/-- A number is written with an exponent of zero when its digits are. -/
theorem exponent_ofFloat {x : Float} (h : (ofFloat x).digits = 0) : (ofFloat x).exponent = 0 := by
  unfold ofFloat at h ⊢
  dsimp only at h ⊢
  split
  next => rfl
  next hne =>
    rw [if_neg hne] at h
    rcases Binary.search_eq (.ofFloat x) (Binary.ofFloat x).magnitude 0 18 with
      hzero | ⟨n, grid, hit, hn⟩
    · rw [hzero, dropZeros_zero]
    · rw [hn] at h
      exact absurd h (digits_dropZeros (Binary.nearest?_pos (Nat.pos_of_ne_zero hne) hit) 18)

theorem ofFloat_le (x : Float) : (ofFloat x).value ≤ (Binary.ofFloat x).upper := by
  have hzero : (⟨0, 0⟩ : Expansion).value ≤ (Binary.ofFloat x).upper := by
    simp only [value, Nat.cast_zero, zero_mul, Binary.upper]
    positivity
  unfold ofFloat
  dsimp only
  split
  next => exact hzero
  next =>
    rw [value_dropZeros]
    rcases Binary.search_eq (.ofFloat x) (Binary.ofFloat x).magnitude 0 18 with
      hnone | ⟨n, grid, hit, hn⟩
    · rw [hnone]
      exact hzero
    · rw [hn]
      exact Binary.nearest?_le hit

end Expansion

theorem Binary.ofFloat_bounds {x : Float} (h : x.isFinite) :
    (ofFloat x).mantissa < 2 ^ 53 ∧ (ofFloat x).exponent ≤ 971 := by
  have hbiased : x.toBits.toNat / 2 ^ 52 % 2 ^ 11 ≠ 2047 := by
    intro heq
    refine (Rounding.isFinite_unpack x.toBits.toBitVec).mp h (BitVec.eq_of_toNat_eq ?_)
    show x.toBits.toNat >>> 52 % 2 ^ 11 = 2047
    rw [Nat.shiftRight_eq_div_pow, heq]
  unfold ofFloat
  dsimp only
  split
  · constructor <;> dsimp only <;> omega
  · constructor <;> dsimp only <;> omega

/-- All but the two largest floats are written as numbers up to here. -/
def large : Nat := (2 ^ 55 - 10) * 2 ^ 969

theorem mul_le_large {a : ℚ} {e : Int} (ha : a ≤ 2 ^ 55 - 10) (he : e ≤ 969) :
    a * 2 ^ e ≤ large := by
  have hlarge : (large : ℚ) = (2 ^ 55 - 10) * 2 ^ (969 : Int) := by
    rw [large, Nat.cast_mul, Nat.cast_pow]
    exact congrArg₂ (· * ·) (by norm_num) (zpow_natCast 2 969).symm
  have hpower : (2 : ℚ) ^ e ≤ 2 ^ (969 : Int) := zpow_le_zpow_right₀ (by decide) he
  rw [hlarge]
  exact le_trans (mul_le_mul_of_nonneg_right ha (zpow_nonneg (by decide) e))
    (mul_le_mul_of_nonneg_left hpower (by norm_num))

theorem Binary.upper_le {b : Binary} (hmantissa : b.mantissa < 2 ^ 53)
    (hexponent : b.exponent ≤ 971) (h : b.mantissa + 2 < 2 ^ 53 ∨ b.exponent < 971) :
    b.upper ≤ large := by
  rcases h with hsmall | hlow
  · have hmantissa : (b.mantissa : ℚ) + 3 ≤ 2 ^ 53 := by exact_mod_cast hsmall
    exact mul_le_large (by linarith) (by omega)
  · have hmantissa : (b.mantissa : ℚ) + 1 ≤ 2 ^ 53 := by exact_mod_cast hmantissa
    have hhalved : b.upper = (2 * b.mantissa + 1) * 2 ^ (b.exponent - 2 + 1) := by
      rw [upper, zpow_add_one₀ (by decide)]
      ring
    rw [hhalved]
    exact mul_le_large (by linarith) (by omega)

theorem Binary.ofFloat_largest {x : Float} (hmantissa : 2 ^ 53 ≤ (ofFloat x).mantissa + 2)
    (hlt : (ofFloat x).mantissa < 2 ^ 53) (hexponent : (ofFloat x).exponent = 971) :
    ofFloat x ∈ [⟨2 ^ 53 - 2, 971, false⟩, ⟨2 ^ 53 - 1, 971, false⟩] := by
  have hstart : (ofFloat x).atBinadeStart = false := by
    revert hmantissa
    unfold ofFloat
    dsimp only
    split
    next => simp
    next =>
      intro hmantissa
      have hfraction : x.toBits.toNat % 2 ^ 52 ≠ 0 := by
        dsimp only at hmantissa
        omega
      exact decide_eq_false fun h => hfraction h.1
  rcases hb : ofFloat x with ⟨mantissa, exponent, start⟩
  rw [hb] at hmantissa hlt hexponent hstart
  dsimp only at hmantissa hlt hexponent hstart
  obtain rfl | rfl : mantissa = 2 ^ 53 - 2 ∨ mantissa = 2 ^ 53 - 1 := by omega
  · simp [hexponent, hstart]
  · simp [hexponent, hstart]

/-- What the two largest floats are written as. -/
def Expansion.largest : List Expansion :=
  [⟨17976931348623155, 292⟩, ⟨17976931348623157, 292⟩]

theorem Expansion.value_ofFloat {x : Float} (h : x.isFinite) :
    (ofFloat x).value ≤ large ∨ ofFloat x ∈ largest := by
  obtain ⟨hmantissa, hexponent⟩ := Binary.ofFloat_bounds h
  by_cases hnear : (Binary.ofFloat x).mantissa + 2 < 2 ^ 53 ∨ (Binary.ofFloat x).exponent < 971
  · exact .inl (le_trans (ofFloat_le x) (Binary.upper_le hmantissa hexponent hnear))
  · right
    have hwritten : ∀ b ∈ [(⟨2 ^ 53 - 2, 971, false⟩ : Binary), ⟨2 ^ 53 - 1, 971, false⟩],
        (if b.mantissa = 0 then ⟨0, 0⟩ else (b.search b.magnitude 0 18).dropZeros 18) ∈
          largest := by
      decide +kernel
    exact hwritten _ (Binary.ofFloat_largest (by omega) hmantissa (by omega))

end GraphWalk.Decimal
