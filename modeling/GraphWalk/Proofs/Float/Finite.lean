import GraphWalk.Json.Number
import GraphWalk.Proofs.Float.Rounding

/-!
# Floats that stay finite

Negation, a quotient by a power of ten, and a product that is not infinite stay finite
(`isFinite_neg`, `isFinite_div`, `isFinite_mul`). Integers and powers of ten become floats that
exceed them by one part in `2 ^ 53` at most (`Near`), so a product of two such floats is finite as
long as the exact product stays clear of the largest float (`isFinite_mul_near`).
-/

namespace GraphWalk.Rounding

open Float.Model Float.Model.UnpackedFloat Json.Numeral

variable {f g : Float} {m n k : Nat} {e : Int} {s : Sign} {a : Accuracy}

-- ---------------------------------------------------------------------------
-- What is packed
-- ---------------------------------------------------------------------------

/-- A number that is rounded becomes finite, unless it is infinite. -/
theorem isFinite_or_isInf (s : Sign) (m : Nat) (e : Int) (a : Accuracy) :
    (Float.Model.pack (roundWithAccuracy binary64 s m e a)).isFinite ∨
      (Float.Model.pack (roundWithAccuracy binary64 s m e a)).isInf := by
  have hfinite : ∀ e : Int, ∀ m, ∀ hpos : 0 < m,
      (Float.Model.pack (.finite s m e hpos)).isFinite ∨
        (Float.Model.pack (.finite s m e hpos)).isInf := by
    intro e m hpos
    by_cases hle : e ≤ 971
    · exact .inl (isFinite_pack s hle hpos)
    · exact .inr (isInf_pack s (Int.not_le.mp hle) hpos)
  rw [roundWithAccuracy_eq]
  split
  · exact .inl (isFinite_pack_zero s)
  · split
    · exact hfinite _ _ _
    · exact hfinite _ _ _

/-- Far enough from the largest float no rounding leads beyond it. -/
theorem isFinite_round (s : Sign) (a : Accuracy) (he : e ≤ 970) (htotal : m.log2 + e ≤ 1022) :
    (Float.Model.pack (roundWithAccuracy binary64 s m e a)).isFinite := by
  have hlow : e + dropped m e ≤ 970 := by
    unfold dropped
    omega
  rw [roundWithAccuracy_eq]
  split
  · exact isFinite_pack_zero s
  · split
    · exact isFinite_pack s (by omega) _
    · exact isFinite_pack s (by omega) _

theorem isInf_of_isFinite (h : f.isFinite) : f.isInf = false := by
  show f.toModel.unpack.isInf = false
  rcases unpack_of_isFinite h with ⟨s, hzero⟩ | ⟨s, m, e, hpos, hvalue, -⟩
  · rw [hzero]
    rfl
  · rw [hvalue]
    rfl

theorem isFinite_neg (h : f.isFinite) : (-f).isFinite := by
  have hunpack := unpack_of_isFinite h
  show (Float.Model.pack f.toModel.unpack.neg).isFinite
  rcases hunpack with ⟨s, hzero⟩ | ⟨s, m, e, hpos, hvalue, -, -, hle⟩
  · rw [hzero]
    exact isFinite_pack_zero (-s)
  · rw [hvalue]
    exact isFinite_pack (-s) hle hpos

theorem isFinite_mul (hf : f.isFinite) (hg : g.isFinite) (h : (f * g).isInf = false) :
    (f * g).isFinite := by
  have h : (Float.Model.pack
      (UnpackedFloat.mul binary64 f.toModel.unpack g.toModel.unpack)).isInf = false := h
  show (Float.Model.pack (UnpackedFloat.mul binary64 f.toModel.unpack g.toModel.unpack)).isFinite
  rcases unpack_of_isFinite hf with ⟨s, hzero⟩ | ⟨s, m, e, hpos, hvalue, -⟩ <;>
    rcases unpack_of_isFinite hg with ⟨s', hzero'⟩ | ⟨s', m', e', hpos', hvalue', -⟩
  · rw [hzero, hzero']
    exact isFinite_pack_zero _
  · rw [hzero, hvalue']
    exact isFinite_pack_zero _
  · rw [hvalue, hzero']
    exact isFinite_pack_zero _
  · rw [hvalue, hvalue'] at h ⊢
    exact (isFinite_or_isInf _ _ _ _).resolve_right fun hinf =>
      Bool.false_ne_true (h.symm.trans hinf)

-- ---------------------------------------------------------------------------
-- Integers and powers of ten
-- ---------------------------------------------------------------------------

/-- A positive float of 53 bits, not less than half of the number and at most one part in `2 ^ 53`
greater. -/
def Near (f : Float) (n : Nat) : Prop :=
  ∃ m k : Nat, ∃ hpos : 0 < m, f.toModel.unpack = .finite .positive m ((k : Int) - 53) hpos ∧
    2 ^ 52 ≤ m ∧ m < 2 ^ 53 ∧ m * 2 ^ k ≤ n * (2 ^ 53 + 1) ∧ n * 2 ^ 53 ≤ 2 * (m * 2 ^ k)

theorem Near.isFinite (h : Near f n) : f.isFinite := by
  obtain ⟨m, k, hpos, hvalue, -⟩ := h
  show f.toModel.unpack.isFinite
  rw [hvalue]
  rfl

/-- From here on numbers are rounded to infinity. -/
def overflow : Nat := 2 ^ 1024 - 2 ^ 970

theorem overflow_le {i : Nat} (h : 970 + i ≤ k) : 2 ^ i * overflow + 2 ^ k ≤ 2 ^ k * 2 ^ 54 := by
  obtain ⟨c, rfl⟩ := Nat.exists_eq_add_of_le h
  have hoverflow : overflow + 2 ^ 970 = 2 ^ 970 * 2 ^ 54 := by decide +kernel
  obtain ⟨half, hhalf⟩ : ∃ half, 2 ^ 970 = half := ⟨_, rfl⟩
  simp only [Nat.pow_add, hhalf] at hoverflow ⊢
  have hc := Nat.two_pow_pos c
  calc 2 ^ i * overflow + half * 2 ^ i * 2 ^ c
      ≤ 2 ^ i * overflow * 2 ^ c + half * 2 ^ i * 2 ^ c :=
        Nat.add_le_add_right (Nat.le_mul_of_pos_right _ hc) _
    _ = (overflow + half) * (2 ^ i * 2 ^ c) := by ring
    _ = half * 2 ^ i * 2 ^ c * 2 ^ 54 := by rw [hoverflow]; ring

/-- The float of `n`, given as `m` in units of `2 ^ (-c)`. -/
theorem near_round {c : Nat} (hm : 2 ^ 52 ≤ m) (hc : c ≤ 53) (hn : m * 2 ^ (53 - c) = n * 2 ^ 53)
    (hlt : n < overflow)
    (hf : f.toModel = .pack (roundWithAccuracy binary64 .positive m (-(c : Int)) .exact)) :
    Near f n := by
  obtain ⟨r, j, hpos, hround, hlow, hhigh, hbelow, habove, hlast⟩ :=
    exists_round (e := -(c : Int)) .positive hm (by omega)
  have hsplit : 2 ^ (53 - c + j) = 2 ^ (53 - c) * 2 ^ j := Nat.pow_add _ _ _
  have hle : -(c : Int) + j ≤ 971 := by
    by_contra hlarge
    have hbeyond := overflow_le (i := 55) (k := 53 - c + j) (by omega)
    have hscaled := Nat.mul_le_mul_right (2 ^ (53 - c)) hlast
    rw [hsplit] at hbeyond
    linarith
  refine ⟨r, 53 - c + j, hpos, ?_, hlow, hhigh, ?_, ?_⟩
  · rw [hf, hround, unpack_pack hlow hhigh (by omega) hle]
    congr 1
    omega
  · have hscaled := Nat.mul_le_mul_right (2 ^ (53 - c)) hbelow
    rw [hsplit]
    linarith
  · have hscaled := Nat.mul_le_mul_right (2 ^ (53 - c)) habove
    rw [hsplit]
    linarith

theorem toModel_toFloat (hpos : 0 < n) (hlt : n < 2 ^ 64) :
    n.toUInt64.toFloat.toModel =
      .pack (roundWithAccuracy binary64 .positive (n * 2 ^ (52 - n.log2))
        (-((52 - n.log2 : Nat) : Int)) .exact) := by
  have hn : n.toUInt64.toNat = n := Nat.mod_eq_of_lt hlt
  have hshift : ((0 : Int) - binary64.targetExponent (totalExponent n 0)).toNat = 52 - n.log2 := by
    rw [targetExponent_eq, totalExponent]
    omega
  have hcompare : compare (n : Int) 0 = .gt := by
    rw [Int.compare_eq_gt]
    exact Int.natCast_pos.mpr hpos
  show Float.Model.pack (UnpackedFloat.normalize binary64 (n.toUInt64.toNat : Int) 0 .positive) = _
  simp only [hn, UnpackedFloat.normalize, hcompare, UnpackedFloat.round, Int.toNat_natCast,
    decreaseExponent]
  rw [hshift, Nat.shiftLeft_eq, Int.zero_sub]

theorem near_toFloat (hpos : 0 < n) (hlt : n < 2 ^ 64) : Near n.toUInt64.toFloat n := by
  have hmantissa : 2 ^ 52 ≤ n * 2 ^ (52 - n.log2) := by
    have hlog := Nat.log2_self_le (Nat.ne_of_gt hpos)
    calc 2 ^ 52 ≤ 2 ^ (n.log2 + (52 - n.log2)) := Nat.pow_le_pow_right (by decide) (by omega)
      _ = 2 ^ n.log2 * 2 ^ (52 - n.log2) := Nat.pow_add _ _ _
      _ ≤ n * 2 ^ (52 - n.log2) := Nat.mul_le_mul_right _ hlog
  have hunits : n * 2 ^ (52 - n.log2) * 2 ^ (53 - (52 - n.log2)) = n * 2 ^ 53 := by
    rw [Nat.mul_assoc, ← Nat.pow_add, Nat.add_sub_cancel' (by omega)]
  refine near_round hmantissa (by omega) hunits ?_ (toModel_toFloat hpos hlt)
  have hbound : 2 ^ 64 < overflow := by decide +kernel
  omega

theorem isFinite_toFloat (hlt : n < 2 ^ 64) : n.toUInt64.toFloat.isFinite := by
  rcases Nat.eq_zero_or_pos n with rfl | hpos
  · rfl
  · exact (near_toFloat hpos hlt).isFinite

/-- The table of the small powers of ten agrees with the product that gives the others. -/
theorem powerOfTen_eq (n : Nat) : powerOfTen n = .ofModel (.ofScientific 1 n) := by
  by_cases hsmall : n ≤ 22
  · have htable : ∀ n ≤ 22, powerOfTen n = .ofModel (.ofScientific 1 n) := by decide +kernel
    exact htable n hsmall
  · rw [powerOfTen, Float.ofScientific, dif_neg (fun h => hsmall h.2)]
    rfl

theorem toModel_powerOfTen (h : n ≤ 308) :
    (powerOfTen n).toModel =
      .pack (roundWithAccuracy binary64 .positive (2 ^ 53 * 10 ^ n) (-(53 : Nat)) .exact) := by
  have hlarge : ¬(n : Int) > 2 ^ binary64.exponentBits :=
    Int.not_lt.mpr (Int.le_trans (Int.ofNat_le.mpr h) (by decide))
  rw [powerOfTen_eq]
  show Float.Model.pack (UnpackedFloat.ofScientific binary64 1 n) = _
  rw [UnpackedFloat.ofScientific, dif_neg (by decide), if_neg hlarge, if_neg (by omega),
    if_pos (by omega)]
  rfl

theorem near_powerOfTen (h : n ≤ 308) : Near (powerOfTen n) (10 ^ n) := by
  refine near_round ?_ (Nat.le_refl 53) (by simp [Nat.mul_comm]) ?_ (toModel_powerOfTen h)
  · have hone := Nat.one_le_pow n 10 (by decide)
    omega
  · have hbound : ∀ n ≤ 308, 10 ^ n < overflow := by decide +kernel
    exact hbound n h

-- ---------------------------------------------------------------------------
-- Products and quotients
-- ---------------------------------------------------------------------------

/-- Both factors and the product are rounded, so the exact product must stay clear of infinity. -/
theorem isFinite_mul_near (hf : Near f m) (hg : Near g n)
    (hlt : m * n * (2 ^ 53 + 1) ^ 2 < overflow * 2 ^ 106) :
    (f * g).isFinite := by
  obtain ⟨a, k, hapos, hvalue, halow, hahigh, habelow, -⟩ := hf
  obtain ⟨b, l, hbpos, hvalue', hblow, hbhigh, hbbelow, -⟩ := hg
  have hmantissa : 2 ^ 52 ≤ a * b := by nlinarith
  obtain ⟨r, j, hpos, hround, -, -, -, -, hlast⟩ :=
    exists_round (e := (k : Int) - 53 + ((l : Int) - 53)) .positive hmantissa (by omega)
  show (Float.Model.pack (UnpackedFloat.mul binary64 f.toModel.unpack g.toModel.unpack)).isFinite
  rw [hvalue, hvalue']
  show (Float.Model.pack (roundWithAccuracy binary64 .positive (a * b) _ .exact)).isFinite
  rw [hround]
  refine isFinite_pack _ ?_ hpos
  by_contra hlarge
  have hbeyond := overflow_le (i := 108) (k := k + l + j) (by omega)
  rw [Nat.pow_add 2 (k + l)] at hbeyond
  have hscaled := Nat.mul_le_mul_left (2 ^ (k + l)) hlast
  have hproduct : a * b * 2 ^ (k + l) ≤ m * n * (2 ^ 53 + 1) ^ 2 := by
    calc a * b * 2 ^ (k + l) = a * 2 ^ k * (b * 2 ^ l) := by rw [Nat.pow_add]; ring
      _ ≤ m * (2 ^ 53 + 1) * (n * (2 ^ 53 + 1)) := Nat.mul_le_mul habelow hbbelow
      _ = m * n * (2 ^ 53 + 1) ^ 2 := by ring
  linarith

/-- The quotient is computed with this exponent, or with a greater one. -/
def quotientExponent (m : Nat) (e : Int) (b : Nat) (d : Int) : Int :=
  min (e - d) (max (m.log2 + 1 + e - (b.log2 + 1 + d) - 53) (-1074))

theorem divCore_eq (m : Nat) (e : Int) (b : Nat) (d : Int) :
    divCore binary64 m e b d =
      (m <<< (e - d - quotientExponent m e b d).toNat / b, quotientExponent m e b d,
        accuracyOfFraction (m <<< (e - d - quotientExponent m e b d).toNat % b) b) := by
  simp only [divCore, targetExponent_eq, totalExponent, quotientExponent]

/-- A float of 53 bits takes 52 of those of the dividend. -/
theorem log2_quotient {b i : Nat} (hb : 2 ^ 52 ≤ b) (hq : m <<< i / b ≠ 0) :
    (m <<< i / b).log2 + 52 ≤ m.log2 + i := by
  have hlow := Nat.log2_self_le hq
  have hdiv := Nat.div_mul_le_self (m <<< i) b
  have hhigh : m * 2 ^ i < 2 ^ (m.log2 + 1 + i) := by
    rw [Nat.pow_add]
    exact Nat.mul_lt_mul_of_pos_right Nat.lt_log2_self (Nat.two_pow_pos i)
  have hlt : 2 ^ ((m <<< i / b).log2 + 52) < 2 ^ (m.log2 + 1 + i) := by
    calc 2 ^ ((m <<< i / b).log2 + 52) = 2 ^ (m <<< i / b).log2 * 2 ^ 52 := Nat.pow_add _ _ _
      _ ≤ m <<< i / b * b := Nat.mul_le_mul hlow hb
      _ ≤ m * 2 ^ i := by rwa [Nat.shiftLeft_eq] at hdiv ⊢
      _ < _ := hhigh
  have hexponents := (Nat.pow_lt_pow_iff_right (by decide)).mp hlt
  omega

theorem isFinite_zero_mul (hg : g.isFinite) : ((0 : Nat).toUInt64.toFloat * g).isFinite := by
  have hzero : (0 : Nat).toUInt64.toFloat.toModel.unpack = .zero .positive := by rfl
  show (Float.Model.pack (UnpackedFloat.mul binary64 _ g.toModel.unpack)).isFinite
  rw [hzero]
  rcases unpack_of_isFinite hg with ⟨s, hzero⟩ | ⟨s, m, e, hpos, hvalue, -⟩
  · rw [hzero]
    exact isFinite_pack_zero _
  · rw [hvalue]
    exact isFinite_pack_zero _

theorem isFinite_div (hf : f.isFinite) (hg : Near g n) (hn : 10 ≤ n) : (f / g).isFinite := by
  obtain ⟨b, k, hbpos, hvalue', hblow, hbhigh, -, habove⟩ := hg
  have hk : 3 ≤ k := by
    by_contra hsmall
    have hpow : 2 ^ k ≤ 2 ^ 2 := Nat.pow_le_pow_right (by decide) (by omega)
    nlinarith
  have hlog' : b.log2 = 52 := (Nat.log2_eq_iff (Nat.ne_of_gt hbpos)).mpr ⟨hblow, hbhigh⟩
  show (Float.Model.pack (UnpackedFloat.div binary64 f.toModel.unpack g.toModel.unpack)).isFinite
  rcases unpack_of_isFinite hf with ⟨s, hzero⟩ | ⟨s, m, e, hpos, hvalue, hlt, -, hle⟩
  · rw [hzero, hvalue']
    exact isFinite_pack_zero _
  · have hlog : m.log2 ≤ 52 := Nat.le_of_lt_succ ((Nat.log2_lt (Nat.ne_of_gt hpos)).mpr hlt)
    have hexponent : quotientExponent m e b (k - 53) ≤ 968 := by
      unfold quotientExponent
      omega
    rw [hvalue, hvalue', UnpackedFloat.div, divCore_eq]
    refine isFinite_round _ _ (by omega) ?_
    by_cases hq : m <<< (e - (k - 53) - quotientExponent m e b (k - 53)).toNat / b = 0
    · rw [hq, Nat.log2_zero]
      omega
    · have hquotient := log2_quotient hblow hq
      have hbelow : quotientExponent m e b (k - 53) ≤ e - (k - 53) := Int.min_le_left _ _
      omega

end GraphWalk.Rounding
