import GraphWalk.Json.Number
import Mathlib.Algebra.Order.Ring.Int

/-!
# Numerals are read back from their text

`Numeral.ofChars?_chars`: the text of a numeral is read as that numeral. The decimal text of an
integer is one of them (`Numeral.ofChars?_repr`), and if the integer fits 64 bits, signed or
unsigned, it is the numeral's value (`Numeral.value?_repr`).
-/

namespace GraphWalk.Json

/-- Whether an integer fits 64 bits, signed or unsigned. -/
def isWide (n : Int) : Bool := -2 ^ 63 ≤ n ∧ n < 2 ^ 64

/-- Digits, at least one. -/
structure Digits (cs : List Char) : Prop where
  ne_nil : cs ≠ []
  digits : ∀ c ∈ cs, isDigit c

namespace Digits

variable {cs ds : List Char} {n : Nat}

theorem append (h : Digits cs) (hds : ∀ c ∈ ds, isDigit c) : Digits (cs ++ ds) where
  ne_nil := by simp [h.ne_nil]
  digits c hc := (List.mem_append.mp hc).elim (h.digits c) (hds c)

theorem prepend (h : Digits cs) (hds : ∀ c ∈ ds, isDigit c) : Digits (ds ++ cs) where
  ne_nil := by simp [h.ne_nil]
  digits c hc := (List.mem_append.mp hc).elim (hds c) (h.digits c)

theorem take (h : Digits cs) (hn : 0 < n) : Digits (cs.take n) where
  ne_nil := by simp [h.ne_nil, Nat.ne_of_gt hn]
  digits c hc := h.digits c (List.mem_of_mem_take hc)

theorem drop (h : Digits cs) (hn : n < cs.length) : Digits (cs.drop n) where
  ne_nil := by simpa using hn
  digits c hc := h.digits c (List.mem_of_mem_drop hc)

end Digits

theorem isDigit_toDigits {n : Nat} {c : Char} (h : c ∈ Nat.toDigits 10 n) : isDigit c := by
  have hdigit := Nat.isDigit_of_mem_toDigits (by decide) (by decide) h
  simpa [isDigit, Char.isDigit, Char.le_def] using hdigit

theorem digits_toDigits (n : Nat) : Digits (Nat.toDigits 10 n) :=
  ⟨Nat.toDigits_ne_nil, fun _ => isDigit_toDigits⟩

/-- Only zero is written with a leading zero. -/
theorem head?_toDigits {n : Nat} (h : n ≠ 0) : (Nat.toDigits 10 n).head? ≠ some '0' := by
  induction n using Nat.strongRecOn with
  | ind n ih =>
    rw [Nat.toDigits_eq_if (by decide)]
    split
    next hlt =>
      have hdigit : ∀ d, d < 10 → d ≠ 0 → [Nat.digitChar d].head? ≠ some '0' := by decide
      exact hdigit n hlt h
    next hge =>
      have hrest := ih (n / 10) (by omega) (by omega)
      cases hcs : Nat.toDigits 10 (n / 10) with
      | nil => exact absurd hcs Nat.toDigits_ne_nil
      | cons c cs => simpa [hcs] using hrest

theorem length_of_leading {n : Nat} (h : (Nat.toDigits 10 n).head? = some '0') :
    (Nat.toDigits 10 n).length = 1 := by
  by_cases hn : n = 0
  · simp [hn]
  · exact absurd h (head?_toDigits hn)

namespace Numeral

-- ---------------------------------------------------------------------------
-- Texts
-- ---------------------------------------------------------------------------

def signChars (negative : Bool) : List Char := if negative then ['-'] else []

def fractionChars : Option (List Char) → List Char
  | none => []
  | some ds => '.' :: ds

def exponentChars : Option (Bool × List Char) → List Char
  | none => []
  | some (negative, ds) => 'e' :: (if negative then '-' else '+') :: ds

/-- The text of a numeral; a positive exponent has a sign as well. -/
def chars (n : Numeral) : List Char :=
  signChars n.negative ++ (n.whole ++ (fractionChars n.fraction ++ exponentChars n.exponent))

/-- Digits where digits belong, and none too many. -/
structure Proper (n : Numeral) : Prop where
  whole : Digits n.whole
  leading : n.whole.head? = some '0' → n.whole.length = 1
  fraction : ∀ ds, n.fraction = some ds → Digits ds
  exponent : ∀ negative ds, n.exponent = some (negative, ds) → Digits ds

variable {n : Numeral} {cs rest : List Char}

theorem digits?_append (h : Digits cs) (hrest : ∀ c ∈ rest.head?, isDigit c = false) :
    digits? (cs ++ rest) = some (cs, rest) := by
  have hstop : rest.takeWhile isDigit = [] ∧ rest.dropWhile isDigit = rest := by
    cases rest with
    | nil => simp
    | cons c rest => simp [hrest c rfl]
  unfold digits?
  rw [List.takeWhile_append_of_pos h.digits, List.dropWhile_append_of_pos h.digits, hstop.1,
    hstop.2, List.append_nil]
  cases cs with
  | nil => exact absurd rfl h.ne_nil
  | cons c cs => rfl

theorem digits?_all (h : Digits cs) : digits? cs = some (cs, []) := by
  have happend : digits? (cs ++ []) = some (cs, []) := digits?_append h (by simp)
  simpa using happend

theorem head?_exponentChars (exponent : Option (Bool × List Char)) :
    ∀ c ∈ (exponentChars exponent).head?, c = 'e' := by
  cases exponent <;> simp [exponentChars]

theorem fraction?_chars {fraction : Option (List Char)}
    (h : ∀ ds, fraction = some ds → Digits ds) (exponent : Option (Bool × List Char)) :
    fraction? (fractionChars fraction ++ exponentChars exponent) =
      some (fraction, exponentChars exponent) := by
  cases fraction with
  | none => cases exponent <;> rfl
  | some ds =>
    have hstop : ∀ c ∈ (exponentChars exponent).head?, isDigit c = false := by
      intro c hc
      rw [head?_exponentChars exponent c hc]
      rfl
    simp [fractionChars, fraction?, digits?_append (h ds rfl) hstop]

theorem exponent?_chars {exponent : Option (Bool × List Char)}
    (h : ∀ negative ds, exponent = some (negative, ds) → Digits ds) :
    exponent? (exponentChars exponent) = some exponent := by
  cases exponent with
  | none => rfl
  | some e =>
    obtain ⟨negative, ds⟩ := e
    have hdigits := digits?_all (h negative ds rfl)
    cases negative <;> simp [exponentChars, exponent?, hdigits]

theorem ofChars?_chars (h : n.Proper) : ofChars? n.chars = some n := by
  have hstop : ∀ c ∈ (fractionChars n.fraction ++ exponentChars n.exponent).head?,
      isDigit c = false := by
    cases n.fraction with
    | none =>
      intro c hc
      rw [head?_exponentChars n.exponent c hc]
      rfl
    | some ds =>
      rintro c ⟨⟩
      rfl
  have hwhole := digits?_append h.whole hstop
  have hleading := h.leading
  have hfraction := fraction?_chars h.fraction n.exponent
  have hexponent := exponent?_chars h.exponent
  obtain ⟨negative, whole, fraction, exponent⟩ := n
  cases negative with
  | true => simpa [ofChars?, chars, signChars, hwhole, hfraction, hexponent] using hleading
  | false =>
    cases whole with
    | nil => exact absurd rfl h.whole.ne_nil
    | cons c cs =>
      have hc : c ≠ '-' := by
        rintro rfl
        exact absurd (h.whole.digits '-' List.mem_cons_self) (by decide)
      have hwhole : digits? (c :: (cs ++ (fractionChars fraction ++ exponentChars exponent))) =
          some (c :: cs, fractionChars fraction ++ exponentChars exponent) := hwhole
      simpa [ofChars?, chars, signChars, hwhole, hfraction, hexponent, hc] using hleading

theorem chars_ne_nil (h : n.Proper) : n.chars ≠ [] := by
  simp [chars, h.whole.ne_nil]

theorem mem_chars (h : n.Proper) {c : Char} (hc : c ∈ n.chars) :
    isDigit c ∨ c ∈ ['-', '.', 'e', '+'] := by
  simp only [chars, List.mem_append] at hc
  rcases hc with hsign | hwhole | hfraction | hexponent
  · cases hnegative : n.negative <;> simp [hnegative, signChars] at hsign
    simp [hsign]
  · exact .inl (h.whole.digits c hwhole)
  · cases hds : n.fraction with
    | none => simp [hds, fractionChars] at hfraction
    | some ds =>
      rcases List.mem_cons.mp (hds ▸ hfraction) with rfl | hdigit
      · simp
      · exact .inl ((h.fraction ds hds).digits c hdigit)
  · cases he : n.exponent with
    | none => simp [he, exponentChars] at hexponent
    | some e =>
      obtain ⟨negative, ds⟩ := e
      rcases List.mem_cons.mp (he ▸ hexponent) with rfl | hexponent
      · simp
      · rcases List.mem_cons.mp hexponent with rfl | hdigit
        · cases negative <;> simp
        · exact .inl ((h.exponent negative ds he).digits c hdigit)

-- ---------------------------------------------------------------------------
-- Integers
-- ---------------------------------------------------------------------------

/-- The numeral of an integer. -/
def ofInt (n : Int) : Numeral := ⟨decide (n < 0), Nat.toDigits 10 n.natAbs, none, none⟩

theorem chars_ofInt (n : Int) : (ofInt n).chars = (Int.repr n).toList := by
  cases n with
  | ofNat m =>
    simp [ofInt, chars, signChars, fractionChars, exponentChars, Int.repr,
      Nat.repr_eq_ofList_toDigits]
  | negSucc m =>
    simp [ofInt, chars, signChars, fractionChars, exponentChars, Int.repr,
      Nat.repr_eq_ofList_toDigits, Int.negSucc_lt_zero]

theorem proper_ofInt (n : Int) : (ofInt n).Proper where
  whole := digits_toDigits n.natAbs
  leading := length_of_leading
  fraction := by simp [ofInt]
  exponent := by simp [ofInt]

theorem ofChars?_repr (n : Int) : ofChars? (Int.repr n).toList = some (ofInt n) := by
  rw [← chars_ofInt, ofChars?_chars (proper_ofInt n)]

theorem ofDigitChars_cons (d : Char) (ds : List Char) (s : Nat) :
    Nat.ofDigitChars 10 (d :: ds) s = Nat.ofDigitChars 10 ds (s * 10 + digitValue d) := by
  rw [Nat.ofDigitChars_cons, Nat.mul_comm]
  rfl

theorem le_ofDigitChars (ds : List Char) (s : Nat) :
    s * 10 ^ ds.length ≤ Nat.ofDigitChars 10 ds s := by
  induction ds generalizing s with
  | nil => simp
  | cons d ds ih =>
    rw [ofDigitChars_cons, List.length_cons, Nat.pow_succ', ← Nat.mul_assoc]
    exact Nat.le_trans (Nat.mul_le_mul_right _ (Nat.le_add_right _ _)) (ih _)

/-- Digits that fit are all taken. -/
theorem gather_all {ds : List Char} {s : Nat} (h : Nat.ofDigitChars 10 ds s < 2 ^ 64) :
    gather s ds = (Nat.ofDigitChars 10 ds s, []) := by
  induction ds generalizing s with
  | nil => rfl
  | cons d ds ih =>
    rw [ofDigitChars_cons] at h ⊢
    have hfits : s * 10 + digitValue d < 0x10000000000000000 :=
      Nat.lt_of_le_of_lt (Nat.le_mul_of_pos_right _ (Nat.pow_pos (by decide)))
        (Nat.lt_of_le_of_lt (le_ofDigitChars ds _) h)
    rw [gather, if_pos hfits, ih h]

theorem value?_repr {n : Int} (h : isWide n) : (ofInt n).value? = some (int n) := by
  obtain ⟨hlow, hhigh⟩ : -2 ^ 63 ≤ n ∧ n < 2 ^ 64 := by simpa [isWide] using h
  have hvalue := Nat.ofDigitChars_ten_toDigits (n := n.natAbs)
  have hgather : gather 0 (Nat.toDigits 10 n.natAbs) = (n.natAbs, []) := by
    rw [gather_all (by omega), hvalue]
  simp only [value?, ofInt, hgather, Option.isNone_none, List.isEmpty_nil, Bool.and_self, if_true]
  by_cases hneg : n < 0
  · have hfits : 0 < n.natAbs ∧ n.natAbs ≤ 0x8000000000000000 := by omega
    have hsign : -(n.natAbs : Int) = n := by omega
    rw [decide_eq_true hneg, if_neg (by decide), if_pos hfits, hsign]
  · have hsign : (n.natAbs : Int) = n := by omega
    rw [decide_eq_false hneg, if_pos (by decide), hsign]

end Numeral

end GraphWalk.Json
