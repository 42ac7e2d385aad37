import GraphWalk.Text.Blank
import GraphWalk.Text.Word
import Mathlib.Data.List.TakeWhile

/-!
# Blanks, and what is left without them

Trimming takes blanks from both ends (`exists_trim`) and stops where there are none
(`trim_pad`), so a blank goes exactly if only blanks stand behind it (`not_mem_trimEnd_iff`). No
blank is a letter or a number.
-/

namespace GraphWalk.Text

variable {c : Char} {l x r cs : List Char}

theorem Ranges.not_contain {ranges : Ranges} (h : ∀ r ∈ ranges, c.toNat < r.1 ∨ r.2 < c.toNat) :
    ranges.contain c = false := by
  refine List.any_eq_false.mpr fun r hr => ?_
  have happart := h r hr
  simp only [decide_eq_true_eq]
  omega

theorem not_isWord_of_isBlank (hc : isBlank c) : isWord c = false := by
  have hdisjoint : ∀ b ∈ blankRanges, ∀ w ∈ wordRanges, b.2 < w.1 ∨ w.2 < b.1 := by
    decide +kernel
  obtain ⟨b, hb, hin⟩ := List.any_eq_true.mp hc
  refine Ranges.not_contain fun w hw => ?_
  have happart := hdisjoint b hb w hw
  simp only [decide_eq_true_eq] at hin
  omega

theorem isBlank_space : isBlank ' ' := by decide

theorem isBlank_break : isBlank '\n' := by decide

theorem trimStart_pad (hl : ∀ c ∈ l, isBlank c) (hx : ∀ c ∈ x.head?, isBlank c = false) :
    trimStart (l ++ x) = x := by
  rw [trimStart, List.dropWhile_append_of_pos hl]
  cases x with
  | nil => rfl
  | cons c x => exact List.dropWhile_cons_of_neg (by simp [hx c rfl])

theorem trimEnd_pad (hr : ∀ c ∈ r, isBlank c) (hx : ∀ c ∈ x.getLast?, isBlank c = false) :
    trimEnd (x ++ r) = x := by
  have hreverse : trimStart (r.reverse ++ x.reverse) = x.reverse :=
    trimStart_pad (fun c hc => hr c (List.mem_reverse.mp hc)) (by simpa using hx)
  rw [trimEnd, List.reverse_append]
  exact List.reverse_eq_iff.mpr hreverse

/-- Blanks around a text without blanks at its ends are what is trimmed. -/
theorem trim_pad (hl : ∀ c ∈ l, isBlank c) (hr : ∀ c ∈ r, isBlank c) (hne : x ≠ [])
    (hhead : ∀ c ∈ x.head?, isBlank c = false) (hlast : ∀ c ∈ x.getLast?, isBlank c = false) :
    trim (l ++ (x ++ r)) = x := by
  have hfront : ∀ c ∈ (x ++ r).head?, isBlank c = false := by
    cases x with
    | nil => exact absurd rfl hne
    | cons c x => exact hhead
  rw [trim, trimStart_pad hl hfront, trimEnd_pad hr hlast]

/-- What is trimmed from the end is blank. -/
theorem exists_trimEnd (cs : List Char) : ∃ r, (∀ c ∈ r, isBlank c) ∧ cs = trimEnd cs ++ r := by
  refine ⟨(cs.reverse.takeWhile isBlank).reverse, fun c hc => ?_, ?_⟩
  · exact List.mem_takeWhile_imp (List.mem_reverse.mp hc)
  · rw [trimEnd, ← List.reverse_append, List.takeWhile_append_dropWhile, List.reverse_reverse]

theorem exists_trim (cs : List Char) : ∃ l r, (∀ c ∈ l, isBlank c) ∧ (∀ c ∈ r, isBlank c) ∧
    cs = l ++ (trim cs ++ r) := by
  obtain ⟨r, hr, hend⟩ := exists_trimEnd (trimStart cs)
  refine ⟨cs.takeWhile isBlank, r, fun c hc => List.mem_takeWhile_imp hc, hr, ?_⟩
  rw [trim, ← hend]
  exact List.takeWhile_append_dropWhile.symm

theorem getLast?_trimEnd (cs : List Char) : ∀ c ∈ (trimEnd cs).getLast?, isBlank c = false := by
  intro c hc
  rw [trimEnd, List.getLast?_reverse] at hc
  have hhead := List.head?_dropWhile_not isBlank cs.reverse
  rw [hc] at hhead
  exact hhead

theorem trimEnd_append (hr : ∀ c ∈ r, isBlank c) (x : List Char) :
    trimEnd (x ++ r) = trimEnd x := by
  rw [trimEnd, List.reverse_append,
    List.dropWhile_append_of_pos fun c hc => hr c (List.mem_reverse.mp hc), trimEnd]

/-- A blank is trimmed away where only blanks stand behind it. -/
theorem not_mem_trimEnd_iff (hc : isBlank c) :
    c ∉ trimEnd cs ↔ cs.Pairwise fun a b => a = c → isBlank b := by
  obtain ⟨r, hr, hcs⟩ := exists_trimEnd cs
  constructor
  · intro h
    rw [hcs, List.pairwise_append]
    refine ⟨List.pairwise_of_forall_mem_list fun a ha b _ hac => ?_,
      List.pairwise_of_forall_mem_list fun a _ b hb _ => hr b hb, fun a _ b hb _ => hr b hb⟩
    exact absurd (hac ▸ ha) h
  · intro h hmem
    rw [hcs] at h
    obtain ⟨l, x, hx⟩ := List.append_of_mem hmem
    have hlast := getLast?_trimEnd cs
    have hblank := (List.pairwise_append.mp h).1
    rw [hx] at hlast hblank
    have hblanks : ∀ b ∈ c :: x, isBlank b := by
      refine List.forall_mem_cons.mpr ⟨hc, fun b hb => ?_⟩
      exact (List.pairwise_cons.mp (List.pairwise_append.mp hblank).2.1).1 b hb rfl
    have hne := List.cons_ne_nil c x
    have hend : (c :: x).getLast hne ∈ (l ++ c :: x).getLast? := by
      simp [List.getLast?_eq_some_getLast]
    have hword := hlast _ hend
    rw [hblanks _ (List.getLast_mem hne)] at hword
    cases hword

end GraphWalk.Text
