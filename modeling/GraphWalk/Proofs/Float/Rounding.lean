import Mathlib

/-!
# Rounding to 64-bit floats

The result of rounding `m * 2 ^ e`: so many low bits are dropped (`dropped`), the rest is rounded
(`rounded`), and a carry out of 53 bits moves the exponent by one (`roundWithAccuracy_eq`). An exact
number is rounded up by half of the last place at most (`rounded_exact`). Packing keeps numbers of
53 bits whose exponent is in range (`unpack_pack`), and gives a finite float for every number whose
exponent is not too large.
-/

namespace GraphWalk.Rounding

open Float.Model Float.Model.UnpackedFloat

abbrev binary64 : Format := Format.binary64

variable {m : Nat} {e : Int} {s : Sign} {a : Accuracy}

-- ---------------------------------------------------------------------------
-- Mantissas
-- ---------------------------------------------------------------------------

theorem targetExponent_eq (t : Int) : binary64.targetExponent t = max (t - 53) (-1074) := by
  simp [Format.targetExponent, Format.minExponent, Format.mantissaBits]

/-- How many low bits are dropped. -/
def dropped (m : Nat) (e : Int) : Nat := (max (m.log2 + 1 + e - 53) (-1074) - e).toNat

/-- The mantissa with its low bits dropped, rounded. -/
def rounded (m : Nat) (e : Int) (a : Accuracy) : Nat :=
  (ExtendedMantissa.ofMantissaAndAccuracy m a >>> dropped m e).roundedMantissa

theorem shiftRight_succ (em : ExtendedMantissa) (k : Nat) :
    em >>> (k + 1) = (em >>> k).shiftRightOne := rfl

theorem shiftRight_mantissa (em : ExtendedMantissa) (k : Nat) :
    (em >>> k).mantissa = em.mantissa / 2 ^ k := by
  induction k with
  | zero => exact (Nat.div_one _).symm
  | succ k ih =>
    rw [shiftRight_succ, Nat.pow_succ, ← Nat.div_div_eq_div_mul, ← ih]
    rfl

/-- The round bit stands for half of what the mantissa counts in. -/
theorem shiftRight_roundBit {em : ExtendedMantissa} (h : em.roundBit = false) (k : Nat) :
    (em >>> k).roundBit → 2 ^ k * (2 * (em >>> k).mantissa + 1) ≤ 2 * em.mantissa := by
  cases k with
  | zero =>
    intro hbit
    exact absurd (h.symm.trans hbit) (by decide)
  | succ k =>
    intro hbit
    have hodd : (em >>> k).mantissa % 2 = 1 := by
      have hbit : (em >>> k).mantissa % 2 ≠ 0 := by
        simpa [shiftRight_succ, ExtendedMantissa.shiftRightOne] using hbit
      omega
    have hhalf : 2 * (em >>> (k + 1)).mantissa + 1 = (em >>> k).mantissa := by
      show 2 * ((em >>> k).mantissa / 2) + 1 = _
      omega
    have hfloor := Nat.mul_div_le em.mantissa (2 ^ k)
    rw [hhalf, shiftRight_mantissa, Nat.pow_succ]
    calc 2 ^ k * 2 * (em.mantissa / 2 ^ k) = 2 * (2 ^ k * (em.mantissa / 2 ^ k)) := by ring
      _ ≤ 2 * em.mantissa := Nat.mul_le_mul_left 2 hfloor

theorem le_roundedMantissa (em : ExtendedMantissa) : em.mantissa ≤ em.roundedMantissa := by
  rcases em with ⟨m, _ | _, _ | _⟩ <;>
    simp [ExtendedMantissa.roundedMantissa, ExtendedMantissa.accuracy, Accuracy.roundToNearestEven]

theorem roundedMantissa_le (em : ExtendedMantissa) :
    em.roundedMantissa ≤ em.mantissa + em.roundBit.toNat := by
  rcases em with ⟨m, _ | _, _ | _⟩
  · exact Nat.le_refl m
  · exact Nat.le_refl m
  · exact Nat.add_le_add_left (Nat.le_of_lt_succ (Nat.mod_lt m (by decide))) m
  · exact Nat.le_refl (m + 1)

theorem mantissa_ofMantissaAndAccuracy (m : Nat) (a : Accuracy) :
    (ExtendedMantissa.ofMantissaAndAccuracy m a).mantissa = m := by
  rcases a with _ | (_ | _ | _) <;> rfl

theorem le_rounded (m : Nat) (e : Int) (a : Accuracy) :
    m / 2 ^ dropped m e ≤ rounded m e a := by
  have hle := le_roundedMantissa (ExtendedMantissa.ofMantissaAndAccuracy m a >>> dropped m e)
  rwa [shiftRight_mantissa, mantissa_ofMantissaAndAccuracy] at hle

theorem rounded_le (m : Nat) (e : Int) (a : Accuracy) :
    rounded m e a ≤ m / 2 ^ dropped m e + 1 := by
  have hle := roundedMantissa_le (ExtendedMantissa.ofMantissaAndAccuracy m a >>> dropped m e)
  rw [shiftRight_mantissa, mantissa_ofMantissaAndAccuracy] at hle
  exact Nat.le_trans hle (Nat.add_le_add_left (Bool.toNat_le _) _)

theorem rounded_exact (m : Nat) (e : Int) :
    2 * 2 ^ dropped m e * rounded m e .exact ≤ 2 * m + 2 ^ dropped m e := by
  let em := ExtendedMantissa.ofMantissaAndAccuracy m .exact
  have hround := roundedMantissa_le (em >>> dropped m e)
  have hbit := shiftRight_roundBit (rfl : em.roundBit = false) (dropped m e)
  have hfloor := Nat.mul_div_le m (2 ^ dropped m e)
  have hmantissa : (em >>> dropped m e).mantissa = m / 2 ^ dropped m e := shiftRight_mantissa em _
  have hem : em.mantissa = m := rfl
  rw [hmantissa, hem] at hbit
  rw [hmantissa] at hround
  show 2 * 2 ^ dropped m e * (em >>> dropped m e).roundedMantissa ≤ _
  cases hb : (em >>> dropped m e).roundBit with
  | false =>
    rw [hb] at hround
    have hround : (em >>> dropped m e).roundedMantissa ≤ m / 2 ^ dropped m e := hround
    nlinarith [Nat.two_pow_pos (dropped m e)]
  | true =>
    rw [hb] at hround
    have hround : (em >>> dropped m e).roundedMantissa ≤ m / 2 ^ dropped m e + 1 := hround
    have hbit := hbit hb
    nlinarith [Nat.two_pow_pos (dropped m e)]

theorem div_lt (m : Nat) (e : Int) : m / 2 ^ dropped m e < 2 ^ 53 := by
  rw [Nat.div_lt_iff_lt_mul (Nat.two_pow_pos _), ← Nat.pow_add]
  refine Nat.lt_of_lt_of_le Nat.lt_log2_self (Nat.pow_le_pow_right (by decide) ?_)
  unfold dropped
  omega

theorem rounded_le_two_pow (m : Nat) (e : Int) (a : Accuracy) : rounded m e a ≤ 2 ^ 53 :=
  Nat.le_trans (rounded_le m e a) (div_lt m e)

theorem le_add_dropped (m : Nat) (e : Int) : -1074 ≤ e + dropped m e := by
  unfold dropped
  omega

/-- A mantissa of at most 53 bits is not rounded any more. -/
theorem shift_fits (hm : m < 2 ^ 53) (he : -1074 ≤ e) :
    shiftToTargetExponent binary64 m e .exact = (⟨m, false, false⟩, e) := by
  have hlog : m.log2 ≤ 52 := by
    by_cases hzero : m = 0
    · simp [hzero]
    · exact Nat.le_of_lt_succ ((Nat.log2_lt hzero).mpr hm)
  have hnone : (binary64.targetExponent (totalExponent m e) - e).toNat = 0 := by
    rw [targetExponent_eq, totalExponent]
    omega
  rw [shiftToTargetExponent, shiftToExponent, hnone]
  simp [HShiftRight.hShiftRight, Nat.repeat, ExtendedMantissa.ofMantissaAndAccuracy]

/-- A carry moves the exponent by one. -/
theorem shift_carry (he : -1074 ≤ e) :
    shiftToTargetExponent binary64 (2 ^ 53) e .exact = (⟨2 ^ 52, false, false⟩, e + 1) := by
  have hone : (binary64.targetExponent (totalExponent (2 ^ 53) e) - e).toNat = 1 := by
    rw [targetExponent_eq, totalExponent, Nat.log2_two_pow]
    omega
  rw [shiftToTargetExponent, shiftToExponent, hone]
  rfl

theorem roundWithAccuracy_eq (s : Sign) (m : Nat) (e : Int) (a : Accuracy) :
    roundWithAccuracy binary64 s m e a =
      if h : rounded m e a = 0 then .zero s
      else if rounded m e a < 2 ^ 53 then
        .finite s (rounded m e a) (e + dropped m e) (Nat.pos_of_ne_zero h)
      else .finite s (2 ^ 52) (e + dropped m e + 1) (by decide) := by
  have hfirst : shiftToTargetExponent binary64 m e a =
      (ExtendedMantissa.ofMantissaAndAccuracy m a >>> dropped m e, e + dropped m e) := by
    rw [shiftToTargetExponent, shiftToExponent, targetExponent_eq]
    rfl
  have hrounded : (ExtendedMantissa.ofMantissaAndAccuracy m a >>> dropped m e).roundedMantissa =
      rounded m e a := rfl
  have hlow := le_add_dropped m e
  rw [roundWithAccuracy, hfirst]
  dsimp only
  rw [hrounded]
  rcases Nat.lt_or_eq_of_le (rounded_le_two_pow m e a) with hlt | hcarry
  · rw [shift_fits hlt hlow]
    simp only [hlt, if_true]
  · rw [hcarry, shift_carry hlow]
    simp

/-- A number of at least 53 bits, far enough from zero, keeps 53 of them. -/
theorem exists_round (s : Sign) (hm : 2 ^ 52 ≤ m) (he : -1074 ≤ e) :
    ∃ r j : Nat, ∃ hpos : 0 < r,
      roundWithAccuracy binary64 s m e .exact = .finite s r (e + j) hpos ∧ 2 ^ 52 ≤ r ∧
        r < 2 ^ 53 ∧ r * 2 ^ j * 2 ^ 53 ≤ m * (2 ^ 53 + 1) ∧ m ≤ 2 * (r * 2 ^ j) ∧
          2 ^ j * 2 ^ 54 ≤ 4 * m + 2 ^ j := by
  have hne : m ≠ 0 := by omega
  have hlog : 52 ≤ m.log2 := (Nat.le_log2 hne).mpr hm
  have hk : 52 + dropped m e = m.log2 := by
    unfold dropped
    omega
  have hlow : 2 ^ 52 * 2 ^ dropped m e ≤ m := by
    rw [← Nat.pow_add, hk]
    exact Nat.log2_self_le hne
  have hfloor : 2 ^ 52 ≤ m / 2 ^ dropped m e := (Nat.le_div_iff_mul_le (Nat.two_pow_pos _)).mpr hlow
  have hle := le_rounded m e .exact
  have hhalf := rounded_exact m e
  have hmod := Nat.lt_mul_div_succ m (Nat.two_pow_pos (dropped m e))
  have hp := Nat.two_pow_pos (dropped m e)
  have habove : m ≤ 2 * (rounded m e .exact * 2 ^ dropped m e) := by nlinarith
  have hbelow : rounded m e .exact * 2 ^ dropped m e * 2 ^ 53 ≤ m * (2 ^ 53 + 1) := by nlinarith
  rw [roundWithAccuracy_eq, dif_neg (by omega)]
  split
  next hlt =>
    have hpos : 0 < rounded m e .exact := by omega
    exact ⟨_, _, hpos, rfl, by omega, hlt, hbelow, habove, by linarith⟩
  next hge =>
    have hcarry : rounded m e .exact = 2 ^ 53 := by
      have hmost := rounded_le_two_pow m e .exact
      omega
    have hsum : e + (dropped m e : Int) + 1 = e + ((dropped m e + 1 : Nat) : Int) := by omega
    have hdouble : 2 ^ (dropped m e + 1) = 2 ^ dropped m e * 2 := Nat.pow_succ _ _
    rw [hcarry] at habove hbelow hhalf
    refine ⟨2 ^ 52, dropped m e + 1, by decide, by rw [hsum], Nat.le_refl _, by decide, ?_⟩
    rw [hdouble]
    refine ⟨?_, ?_, ?_⟩ <;> linarith

-- ---------------------------------------------------------------------------
-- Packing
-- ---------------------------------------------------------------------------

theorem toNat_one_append (mantissa : BitVec 52) :
    (1#1 ++ mantissa).toNat = 2 ^ 52 + mantissa.toNat := by
  rw [BitVec.toNat_append, ← Nat.shiftLeft_add_eq_or_of_lt mantissa.isLt]
  rfl

/-- The exponent field of a number. -/
def biased (e : Int) : Nat := (e + 1075).toNat

theorem pack_finite (s : Sign) (e : Int) (hpos : 0 < m) :
    UnpackedFloat.pack binary64 (.finite s m e hpos) =
      if 971 < e then packedInfinity binary64 s
      else if m.log2 = 52 then
        packComponents binary64 s (BitVec.ofNat 11 (biased e)) (BitVec.ofNat 52 m)
      else packComponents binary64 s 0#11 (BitVec.ofNat 52 m) := by
  have hbiased : (e + (binary64.exponentBias : Int) + (52 : Nat)).toNat = biased e := by
    simp only [Format.exponentBias, biased]
    omega
  have hlarge : 2 ^ 11 ≤ biased e + 1 ↔ 971 < e := by
    unfold biased
    omega
  have hfull : m.log2 + 1 = binary64.mantissaBits ↔ m.log2 = 52 := by
    simp only [Format.mantissaBits]
    omega
  simp only [UnpackedFloat.pack, hbiased, hlarge, hfull]

theorem ofNat_biased_ne (hle : e ≤ 971) : BitVec.ofNat 11 (biased e) ≠ -1#11 := by
  have hlt : biased e < 2047 := by
    unfold biased
    omega
  intro heq
  have hfull : (BitVec.ofNat 11 (biased e)).toNat = 2047 := by rw [heq]; rfl
  rw [BitVec.toNat_ofNat, Nat.mod_eq_of_lt (by omega)] at hfull
  omega

/-- Packing loses nothing of a number with 53 bits and an exponent in range. -/
theorem unpack_pack (hm : 2 ^ 52 ≤ m) (hlt : m < 2 ^ 53) (he : -1074 ≤ e) (hle : e ≤ 971)
    (hpos : 0 < m) : (Float.Model.pack (.finite s m e hpos)).unpack = .finite s m e hpos := by
  have hlog : m.log2 = 52 := (Nat.log2_eq_iff (Nat.ne_of_gt hpos)).mpr ⟨hm, hlt⟩
  have hexponent : (BitVec.ofNat 11 (biased e)).toNat = biased e := by
    rw [BitVec.toNat_ofNat, Nat.mod_eq_of_lt (by unfold biased; omega)]
  have hzero : BitVec.ofNat 11 (biased e) ≠ 0#11 := by
    intro heq
    rw [heq, biased, BitVec.toNat_zero] at hexponent
    omega
  have hmantissa : (1#1 ++ BitVec.ofNat 52 m).toNat = m := by
    rw [toNat_one_append, BitVec.toNat_ofNat]
    omega
  show UnpackedFloat.unpack binary64 (UnpackedFloat.pack binary64 (.finite s m e hpos)) = _
  rw [pack_finite, if_neg (Int.not_lt.mpr hle), if_pos hlog, UnpackedFloat.unpack]
  simp only [unpackMantissa_packComponents, unpackExponent_packComponents,
    unpackSign_packComponents, Sign.ofBitVec_toBitVec, if_neg (ofNat_biased_ne hle), if_neg hzero,
    hmantissa, hexponent]
  congr 1
  simp only [Format.exponentBias, biased]
  omega

theorem isFinite_unpack (bits : BitVec 64) :
    (UnpackedFloat.unpack binary64 bits).isFinite ↔
      @unpackExponent binary64 bits ≠ -1#11 := by
  unfold UnpackedFloat.unpack
  dsimp only
  split
  next hfull => split <;> exact iff_of_false Bool.false_ne_true (not_not_intro hfull)
  next hfull =>
    split
    · split <;> exact iff_of_true rfl hfull
    · exact iff_of_true rfl hfull

theorem isFinite_pack (s : Sign) (hle : e ≤ 971) (hpos : 0 < m) :
    (Float.Model.pack (.finite s m e hpos)).isFinite := by
  refine (isFinite_unpack _).mpr ?_
  show unpackExponent (UnpackedFloat.pack binary64 (.finite s m e hpos)) ≠ _
  rw [pack_finite, if_neg (Int.not_lt.mpr hle)]
  split
  · rw [unpackExponent_packComponents]
    exact ofNat_biased_ne hle
  · rw [unpackExponent_packComponents]
    decide

theorem isFinite_pack_zero (s : Sign) : (Float.Model.pack (.zero s)).isFinite := by
  cases s <;> rfl

theorem isInf_pack (s : Sign) (hlt : 971 < e) (hpos : 0 < m) :
    (Float.Model.pack (.finite s m e hpos)).isInf := by
  show (UnpackedFloat.unpack binary64 (UnpackedFloat.pack binary64 (.finite s m e hpos))).isInf
  rw [pack_finite, if_pos hlt]
  cases s <;> rfl

theorem unpack_of_isFinite {f : Float.Model} (h : f.isFinite) :
    (∃ s, f.unpack = .zero s) ∨
      ∃ s m e hpos, f.unpack = .finite s m e hpos ∧ m < 2 ^ 53 ∧ -1074 ≤ e ∧ e ≤ 971 := by
  have hexponent := (isFinite_unpack f.toBits.toBitVec).mp h
  have hlt : (@unpackExponent binary64 f.toBits.toBitVec).toNat < 2047 := by
    have hle : (@unpackExponent binary64 f.toBits.toBitVec).toNat < 2 ^ 11 :=
      BitVec.isLt _
    have hne : (@unpackExponent binary64 f.toBits.toBitVec).toNat ≠ 2047 :=
      fun heq => hexponent (BitVec.eq_of_toNat_eq heq)
    omega
  have hmantissa : (@unpackMantissa binary64 f.toBits.toBitVec).toNat < 2 ^ 52 :=
    BitVec.isLt _
  have hbias : (binary64.exponentBias : Int) + binary64.mantissaBitsWithoutImplicit = 1075 := rfl
  unfold Float.Model.unpack UnpackedFloat.unpack
  dsimp only
  rw [if_neg hexponent, hbias]
  split
  next hzero =>
    split
    next => exact .inl ⟨_, rfl⟩
    next hne =>
      have hpos : 0 < (@unpackMantissa binary64 f.toBits.toBitVec).toNat :=
        Nat.pos_of_ne_zero fun heq => hne (BitVec.eq_of_toNat_eq heq)
      refine .inr ⟨_, _, _, hpos, rfl, ?_, ?_, ?_⟩
      · omega
      · omega
      · rw [hzero]
        decide
  next hzero =>
    have happend := toNat_one_append (@unpackMantissa binary64 f.toBits.toBitVec)
    have hpos : 0 < (1#1 ++ @unpackMantissa binary64 f.toBits.toBitVec).toNat := by
      omega
    have hne : (@unpackExponent binary64 f.toBits.toBitVec).toNat ≠ 0 :=
      fun heq => hzero (BitVec.eq_of_toNat_eq heq)
    refine .inr ⟨_, _, _, hpos, rfl, ?_, ?_, ?_⟩
    · rw [happend]
      omega
    · omega
    · omega

end GraphWalk.Rounding
