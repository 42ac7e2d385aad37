import GraphWalk.Store.Backend
import Mathlib.Tactic.SplitIfs

/-!
# The order of keys

Texts are in order by their characters as they are by their bytes (`bytes_lt_iff`), so the keys of a
table stand in the order in which a database lists them.
-/

namespace GraphWalk

section
variable {a b m n : Nat}

theorem ofNat_lt_ofNat (ha : a < 256) (hb : b < 256) :
    UInt8.ofNat a < UInt8.ofNat b ↔ a < b := by
  rw [UInt8.lt_iff_toNat_lt, UInt8.toNat_ofNat', UInt8.toNat_ofNat', Nat.mod_eq_of_lt ha,
    Nat.mod_eq_of_lt hb]

theorem ofNat_eq_ofNat (ha : a < 256) (hb : b < 256) :
    UInt8.ofNat a = UInt8.ofNat b ↔ a = b := by
  rw [← UInt8.toNat_inj, UInt8.toNat_ofNat', UInt8.toNat_ofNat', Nat.mod_eq_of_lt ha,
    Nat.mod_eq_of_lt hb]

theorem div_or_mod_lt (h : m < n) : m / 64 < n / 64 ∨ m / 64 = n / 64 ∧ m % 64 < n % 64 := by
  omega

/-- Of two numbers the smaller is the one whose digit is smaller where they first differ. The last
three digits are of six bits. -/
theorem digits_lt (h : m < n) :
    m / 262144 < n / 262144 ∨ m / 262144 = n / 262144 ∧
      (m / 4096 % 64 < n / 4096 % 64 ∨ m / 4096 = n / 4096 ∧
        (m / 64 % 64 < n / 64 % 64 ∨ m / 64 = n / 64 ∧ m % 64 < n % 64)) := by
  rw [← Nat.div_div_eq_div_mul m 4096 64, ← Nat.div_div_eq_div_mul n 4096 64,
    ← Nat.div_div_eq_div_mul m 64 64, ← Nat.div_div_eq_div_mul n 64 64]
  obtain hhigh | ⟨hhigh, hlow⟩ := div_or_mod_lt h
  · obtain hhigh | ⟨hhigh, hlow⟩ := div_or_mod_lt hhigh
    · obtain hhigh | ⟨hhigh, hlow⟩ := div_or_mod_lt hhigh
      · exact .inl hhigh
      · exact .inr ⟨hhigh, .inl hlow⟩
    · exact .inr ⟨by rw [hhigh], .inr ⟨hhigh, .inl hlow⟩⟩
  · exact .inr ⟨by rw [hhigh], .inr ⟨by rw [hhigh], .inr ⟨hhigh, hlow⟩⟩⟩

end

/-- The bytes of a smaller character come first, whatever follows them. -/
theorem encode_lt {c d : Char} (h : c < d) (x y : List UInt8) :
    String.utf8EncodeChar c ++ x < String.utf8EncodeChar d ++ y := by
  have hval : c.val.toNat < d.val.toNat := h
  have hmax : d.val.toNat < 0x110000 := by
    obtain hlow | ⟨-, hhigh⟩ := d.valid
    · exact Nat.lt_trans hlow (by decide)
    · exact hhigh
  have hdigits := digits_lt hval
  unfold String.utf8EncodeChar
  dsimp only
  generalize c.val.toNat = m at *
  generalize d.val.toNat = n at *
  rw [Nat.mod_eq_of_lt (show m / 262144 < 8 by omega),
    Nat.mod_eq_of_lt (show n / 262144 < 8 by omega)]
  -- A character of fewer bytes has the smaller first byte; with as many, the digits decide.
  split_ifs
  all_goals
    simp (disch := omega) only [List.cons_append, List.nil_append, List.cons_lt_cons_iff,
      ofNat_lt_ofNat, ofNat_eq_ofNat]
    omega

theorem bytes_eq (s : String) : bytes s = s.toList.flatMap String.utf8EncodeChar := by
  rw [bytes, String.toUTF8_eq_toByteArray, ← String.utf8Encode_toList]
  simp [List.utf8Encode]

theorem bytes_append (s t : String) : bytes (s ++ t) = bytes s ++ bytes t := by
  simp [bytes_eq]

theorem flatMap_encode_lt {s t : List Char} (h : s < t) :
    s.flatMap String.utf8EncodeChar < t.flatMap String.utf8EncodeChar := by
  induction s generalizing t with
  | nil =>
    cases t with
    | nil => exact absurd h (List.lt_irrefl [])
    | cons d t =>
      cases hd : String.utf8EncodeChar d with
      | nil => exact absurd hd String.utf8EncodeChar_ne_nil
      | cons first rest =>
        rw [List.flatMap_cons, hd]
        exact List.nil_lt_cons _ _
  | cons c s ih =>
    cases t with
    | nil => exact absurd h (List.not_lt_nil _)
    | cons d t =>
      rw [List.flatMap_cons, List.flatMap_cons]
      obtain hlt | ⟨rfl, hrest⟩ := List.cons_lt_cons_iff.mp h
      · exact encode_lt hlt _ _
      · exact List.append_left_lt (ih hrest)

theorem bytes_lt_iff {s t : String} : bytes s < bytes t ↔ s < t := by
  have hbytes : ∀ {s t : String}, s < t → bytes s < bytes t := by
    intro s t h
    rw [bytes_eq, bytes_eq]
    exact flatMap_encode_lt h
  refine ⟨fun h => ?_, hbytes⟩
  obtain hlt | rfl | hgt := Std.lt_trichotomy s t
  · exact hlt
  · exact absurd h (Std.lt_irrefl)
  · exact absurd (Std.lt_trans h (hbytes hgt)) Std.lt_irrefl

theorem bytes_lt_of_le {s t : String} (h : bytes s ≤ bytes t) (hne : s ≠ t) :
    bytes s < bytes t := by
  have hle : ¬ t < s := fun hlt => Std.not_lt.mpr h (bytes_lt_iff.mpr hlt)
  exact bytes_lt_iff.mpr (Std.lt_of_le_of_ne (Std.not_lt.mp hle) hne)

end GraphWalk
