import GraphWalk.Proofs.Json.Scale

/-!
# Written floats are read back

The text of a float is that of a numeral, `Numeral.ofFloat`. Reading rounds several times, so what
the text denotes may be a neighbour of the float; but no finite float is read as too large
(`Numeral.exists_value?_ofFloat`).
-/

namespace GraphWalk.Json

variable {ds : List Char}

namespace Numeral

open Decimal

-- ---------------------------------------------------------------------------
-- The numeral of a float
-- ---------------------------------------------------------------------------

def ofExpansion (negative : Bool) (x : Expansion) : Numeral :=
  let digits := Nat.toDigits 10 x.digits
  let magnitude : Int := x.exponent + digits.length - 1
  if isPositional magnitude then
    if 0 ≤ x.exponent then ⟨negative, digits ++ zeros x.exponent.toNat, some ['0'], none⟩
    else if 0 ≤ magnitude then
      ⟨negative, digits.take (magnitude.toNat + 1), some (digits.drop (magnitude.toNat + 1)), none⟩
    else ⟨negative, ['0'], some (zeros (-magnitude - 1).toNat ++ digits), none⟩
  else
    ⟨negative, digits.take 1, if digits.length = 1 then none else some (digits.drop 1),
      some (decide (magnitude < 0), Nat.toDigits 10 magnitude.natAbs)⟩

def ofFloat (x : Float) : Numeral :=
  ofExpansion (x.toBits ≥ 0x8000000000000000) (.ofFloat x)

theorem chars_ofFloat (x : Float) : (ofFloat x).chars = floatChars x := by
  simp only [ofFloat, ofExpansion, floatChars, Nat.repr_eq_ofList_toDigits, String.toList_ofList]
  split
  · split
    · simp [chars, signChars, fractionChars, exponentChars]
    · split
      · simp [chars, signChars, fractionChars, exponentChars]
      · simp [chars, signChars, fractionChars, exponentChars]
  · have hsign : ∀ e : Int, (if e < 0 then '-' else '+') = if 0 ≤ e then '+' else '-' := by
      intro e
      split <;> split <;> first | rfl | omega
    simp only [chars, signChars, exponentChars, decide_eq_true_eq, hsign]
    by_cases hone : (Nat.toDigits 10 (Expansion.ofFloat x).digits).length = 1
    · simp [hone, fractionChars]
    · simp [hone, fractionChars]

theorem digits_zeros {n : Nat} {c : Char} (h : c ∈ zeros n) : isDigit c := by
  rw [List.eq_of_mem_replicate h]
  rfl

theorem proper_ofExpansion (negative : Bool) {x : Expansion} (h : x.digits = 0 → x.exponent = 0) :
    (ofExpansion negative x).Proper := by
  have hdigits := digits_toDigits x.digits
  have hlength : 0 < (Nat.toDigits 10 x.digits).length := Nat.length_toDigits_pos
  have hhead : (Nat.toDigits 10 x.digits).head? = some '0' → x.exponent = 0 := fun hzero =>
    h (Classical.byContradiction fun hne => head?_toDigits hne hzero)
  unfold ofExpansion
  dsimp only
  split
  next hpositional =>
    split
    next hpos =>
      refine ⟨hdigits.append fun _ => digits_zeros, fun hzero => ?_, ?_, by simp⟩
      · rw [List.head?_append_of_ne_nil _ hdigits.ne_nil] at hzero
        rw [hhead hzero]
        simpa [zeros] using length_of_leading hzero
      · rintro ds ⟨⟩
        exact ⟨by simp, by simp [isDigit]⟩
    next hneg =>
      split
      next hwhole =>
        refine ⟨hdigits.take (by omega), fun hzero => ?_, ?_, by simp⟩
        · rw [List.head?_take, if_neg (by omega)] at hzero
          exact absurd (hhead hzero) (by omega)
        · rintro ds ⟨⟩
          exact hdigits.drop (by omega)
      next hsmall =>
        refine ⟨⟨by simp, by simp [isDigit]⟩, fun _ => rfl, ?_, by simp⟩
        rintro ds ⟨⟩
        exact hdigits.prepend fun _ => digits_zeros
  next =>
    refine ⟨hdigits.take (by omega), fun _ => ?_, fun ds hds => ?_, ?_⟩
    · rw [List.length_take]
      omega
    · split at hds
      next => cases hds
      next hone =>
        cases hds
        exact hdigits.drop (by omega)
    · rintro _ _ ⟨⟩
      exact digits_toDigits _

theorem proper_ofFloat (x : Float) : (ofFloat x).Proper :=
  proper_ofExpansion _ Expansion.exponent_ofFloat

theorem ofChars?_floatChars (x : Float) : ofChars? (floatChars x) = some (ofFloat x) := by
  rw [← chars_ofFloat, ofChars?_chars (proper_ofFloat x)]

-- ---------------------------------------------------------------------------
-- The value of that numeral
-- ---------------------------------------------------------------------------

/-- Behind up to sixteen digits one more is taken, so without an exponent the digits are scaled
down. -/
theorem exists_value?_of_point {n : Numeral} (h : n.Proper) (hlength : n.whole.length ≤ 16)
    (hfraction : n.fraction = some ds) (hexponent : n.exponent = none) :
    ∃ v, n.value? = some v := by
  obtain ⟨d, ds, rfl⟩ := List.exists_cons_of_ne_nil (h.fraction ds hfraction).ne_nil
  have hd := digitValue_lt ((h.fraction _ hfraction).digits d List.mem_cons_self)
  have hwhole : Nat.ofDigitChars 10 n.whole 0 < 10 ^ 16 :=
    Nat.lt_of_lt_of_le (ofDigitChars_lt h.whole.digits)
      (by simpa using Nat.pow_le_pow_right (n := 10) (by decide) hlength)
  have hgather : gather 0 n.whole = (Nat.ofDigitChars 10 n.whole 0, []) := gather_all (by omega)
  have hignored : (gather (Nat.ofDigitChars 10 n.whole 0) (d :: ds)).2.length ≤ ds.length := by
    rw [gather, if_pos (by omega)]
    exact length_gather _ ds
  have hneg : n.point + shift n.exponent < 0 := by
    simp only [point, shift, hexponent, hfraction, hgather, Option.getD_some, List.length_cons,
      List.length_nil]
    omega
  exact exists_value?_of_neg (.inl (by simp [hfraction])) hneg

/-- A negative exponent scales down what stands behind one digit. -/
theorem exists_value?_of_negative {n : Numeral} {k : Nat} (hlength : n.whole.length ≤ 1)
    (hexponent : n.exponent = some (true, Nat.toDigits 10 k)) (hk : 1 < k) :
    ∃ v, n.value? = some v := by
  have hdropped := length_gather 0 n.whole
  have hneg : n.point + shift n.exponent < 0 := by
    simp only [point, shift, hexponent, Nat.ofDigitChars_ten_toDigits, if_true]
    omega
  exact exists_value?_of_neg (.inr (by simp [hexponent])) hneg

/-- The digits behind the point lower the power of ten by as much as the exponent exceeds that of
the expansion. -/
theorem exists_value?_of_magnitude {n : Numeral} {x : Expansion} {d : Char}
    (hdigits : Nat.toDigits 10 x.digits = d :: ds) (hwhole : n.whole = [d])
    (hfraction : n.fraction.getD [] = ds)
    (hexponent : n.exponent = some (false, Nat.toDigits 10 (x.exponent + ds.length).toNat))
    (hmagnitude : 0 ≤ x.exponent + ds.length)
    (hx : x.value ≤ large ∨ x ∈ Expansion.largest) :
    ∃ v, n.value? = some v := by
  have hd : isDigit d := isDigit_toDigits (hdigits ▸ List.mem_cons_self)
  have hsmall : digitValue d < 0x10000000000000000 := Nat.lt_trans (digitValue_lt hd) (by decide)
  have hfirst : gather 0 n.whole = (digitValue d, []) := by
    rw [hwhole, gather, Nat.zero_mul, Nat.zero_add, if_pos hsmall, gather]
  have hvalue : Nat.ofDigitChars 10 ds (digitValue d) = x.digits := by
    rw [← Nat.ofDigitChars_ten_toDigits (n := x.digits), hdigits, ofDigitChars_cons, Nat.zero_mul,
      Nat.zero_add]
  have hpower : n.point + shift n.exponent =
      x.exponent + (gather (digitValue d) ds).2.length := by
    have hignored := length_gather (digitValue d) ds
    simp only [point, shift, hexponent, hfirst, hfraction, Nat.ofDigitChars_ten_toDigits,
      List.length_nil, Bool.false_eq_true, if_false]
    omega
  obtain ⟨f, hf⟩ := exists_scale?_gather hsmall hvalue hx
  have hsignificand : n.significand = (gather (digitValue d) ds).1 := by
    simp only [significand, hfirst, hfraction]
  rw [value?_scaled (.inr (by simp [hexponent])), hpower, hsignificand, hf]
  exact ⟨_, rfl⟩

theorem exists_value?_of_scientific {n : Numeral} {x : Expansion} {d : Char}
    (hdigits : Nat.toDigits 10 x.digits = d :: ds) (hwhole : n.whole = [d])
    (hfraction : n.fraction.getD [] = ds)
    (hexponent : n.exponent =
      some (decide (x.exponent + ds.length < 0), Nat.toDigits 10 (x.exponent + ds.length).natAbs))
    (hscientific : ¬isPositional (x.exponent + ds.length))
    (hx : x.value ≤ large ∨ x ∈ Expansion.largest) :
    ∃ v, n.value? = some v := by
  rcases Int.lt_or_le (x.exponent + ds.length) 0 with hneg | hpos
  · have hlow : 1 < (x.exponent + ds.length).natAbs := by
      have hbeyond : ¬(-5 ≤ x.exponent + ds.length ∧ x.exponent + ds.length ≤ 15) :=
        fun h => hscientific (decide_eq_true h)
      omega
    rw [decide_eq_true hneg] at hexponent
    exact exists_value?_of_negative (by simp [hwhole]) hexponent hlow
  · have habs : (x.exponent + ds.length).natAbs = (x.exponent + ds.length).toNat := by omega
    rw [decide_eq_false (Int.not_lt.mpr hpos), habs] at hexponent
    exact exists_value?_of_magnitude hdigits hwhole hfraction hexponent hpos hx

theorem exists_value?_ofExpansion (negative : Bool) {x : Expansion}
    (hzero : x.digits = 0 → x.exponent = 0)
    (hx : x.value ≤ large ∨ x ∈ Expansion.largest) :
    ∃ v, (ofExpansion negative x).value? = some v := by
  have hproper := proper_ofExpansion negative hzero
  obtain ⟨d, ds, hdigits⟩ : ∃ d ds, Nat.toDigits 10 x.digits = d :: ds :=
    List.exists_cons_of_ne_nil Nat.toDigits_ne_nil
  have hmagnitude : x.exponent + ((d :: ds).length : Int) - 1 = x.exponent + ds.length := by
    rw [List.length_cons]
    omega
  unfold ofExpansion at hproper ⊢
  simp only [hdigits, hmagnitude] at hproper ⊢
  split_ifs at hproper ⊢ with hscientific hpos hwhole hone
  · obtain ⟨-, hle⟩ := of_decide_eq_true hscientific
    refine exists_value?_of_point hproper ?_ rfl rfl
    simp only [zeros, List.length_append, List.length_replicate, List.length_cons]
    omega
  · obtain ⟨-, hle⟩ := of_decide_eq_true hscientific
    refine exists_value?_of_point hproper ?_ rfl rfl
    rw [List.length_take]
    omega
  · exact exists_value?_of_point hproper (by simp) rfl rfl
  · have hnone : ds = [] := by simpa using hone
    exact exists_value?_of_scientific hdigits (by simp) hnone.symm rfl hscientific hx
  · exact exists_value?_of_scientific hdigits (by simp) (by simp) rfl hscientific hx

/-- No finite float is read as too large. -/
theorem exists_value?_ofFloat {x : Float} (h : x.isFinite) : ∃ v, (ofFloat x).value? = some v :=
  exists_value?_ofExpansion _ Expansion.exponent_ofFloat (Expansion.value_ofFloat h)

end Numeral

end GraphWalk.Json
