import GraphWalk.Proofs.Script.Slices
import GraphWalk.Proofs.Text.Blank

/-!
# The text of a step

A `Segment` is the text of one step in its parts. No part but the arguments has characters that mean
anything to a split, so a split carries all of it (`Segment.carries`); the segments are what
`readStep` reads (`readStep_iff`), and the parts of one can be told apart
(`Segment.chars_injective`).
-/

namespace GraphWalk.Script

/-- The text of one step, in its parts, with the values that its arguments are read as. -/
@[ext]
structure Segment where
  before : List Char
  name : List Char
  between : List Char
  inner : List Char
  after : List Char
  args : List Json
  before_blank : ∀ c ∈ before, Text.isBlank c
  name_ne_nil : name ≠ []
  name_chars : ∀ c ∈ name, isNameChar c
  between_blank : ∀ c ∈ between, Text.isBlank c
  after_blank : ∀ c ∈ after, Text.isBlank c
  args_read : Json.ofString? (String.ofList ('[' :: (inner ++ [']']))) = some (.arr args)

namespace Segment

def chars (S : Segment) : List Char :=
  S.before ++ (S.name ++ (S.between ++ '(' :: (S.inner ++ ')' :: S.after)))

def step (S : Segment) : ScriptStep := ⟨longName (String.ofList S.name), S.args⟩

end Segment

-- ---------------------------------------------------------------------------
-- Characters
-- ---------------------------------------------------------------------------

variable {c : Char} {cs : List Char}

theorem isNameChar_of_isBlank (hc : Text.isBlank c) : isNameChar c = false := by
  have hunderscore : c ≠ '_' := by rintro rfl; exact absurd hc (by decide)
  simp [isNameChar, hunderscore, Text.not_isWord_of_isBlank hc]

theorem isBlank_of_isNameChar (hc : isNameChar c) : Text.isBlank c = false := by
  refine Bool.eq_false_iff.mpr fun hblank => ?_
  exact absurd hc (Bool.eq_false_iff.mp (isNameChar_of_isBlank hblank))

/-- Neither blanks nor the characters of a name mean anything to a split. -/
theorem not_special (hc : Text.isBlank c ∨ isNameChar c) : c ∉ specials := by
  have hapart : ∀ n ∈ specials.map Char.toNat, ∀ r ∈ Text.blankRanges ++ Text.wordRanges,
      n < r.1 ∨ r.2 < n := by decide +kernel
  intro h
  have hc' := hapart c.toNat (List.mem_map_of_mem h)
  have hblank : Text.isBlank c = false :=
    Text.Ranges.not_contain fun r hr => hc' r (List.mem_append_left _ hr)
  have hword : Text.isWord c = false :=
    Text.Ranges.not_contain fun r hr => hc' r (List.mem_append_right _ hr)
  have hunderscore : c ≠ '_' := by rintro rfl; exact absurd h (by decide)
  simp [hblank, isNameChar, hunderscore, hword] at hc

theorem isBlank_of_special (hc : c ∈ specials) : Text.isBlank c = false :=
  Bool.eq_false_iff.mpr fun hblank => not_special (.inl hblank) hc

theorem isNameChar_of_special (hc : c ∈ specials) : isNameChar c = false :=
  Bool.eq_false_iff.mpr fun hname => not_special (.inr hname) hc

theorem ne_opening (hc : Text.isBlank c ∨ isNameChar c) : c ≠ '(' := by
  rintro rfl
  exact not_special hc (by decide)

-- ---------------------------------------------------------------------------
-- Steps
-- ---------------------------------------------------------------------------

theorem arguments?_eq_some {inner : List Char} {args : List Json} :
    arguments? inner = some args ↔
      Json.ofString? (String.ofList ('[' :: (inner ++ [']']))) = some (.arr args) := by
  unfold arguments? Json.ofString? Json.Document.ofString?
  rw [String.toList_ofList, List.cons_append]
  split
  next args' heq => simp [heq]
  next hne => simpa using hne args

namespace Segment

variable (S : Segment)

theorem carries : Carries S.chars .plain 0 .plain 0 := by
  have hblank : ∀ {cs : List Char}, (∀ c ∈ cs, Text.isBlank c) → Carries cs .plain 0 .plain 0 :=
    fun h => carries_of_not_special fun c hc => not_special (.inl (h c hc))
  have hname : Carries S.name .plain 0 .plain 0 :=
    carries_of_not_special fun c hc => not_special (.inr (S.name_chars c hc))
  have harguments := carries_arguments (arguments?_eq_some.mpr S.args_read)
  have htail := harguments.append (hblank S.after_blank)
  have hstep := hname.append ((hblank S.between_blank).append htail)
  simpa [chars] using (hblank S.before_blank).append hstep

theorem head?_name (rest : List Char) : ∀ c ∈ (S.name ++ rest).head?, Text.isBlank c = false := by
  intro c hc
  cases hname : S.name with
  | nil => exact absurd hname S.name_ne_nil
  | cons d ds =>
    obtain rfl : d = c := by simpa [hname] using hc
    exact isBlank_of_isNameChar (S.name_chars d (hname ▸ List.mem_cons_self))

/-- What is left of a segment that was trimmed. -/
theorem trim_chars :
    Text.trim S.chars = S.name ++ S.between ++ '(' :: (S.inner ++ [')']) := by
  have hsplit : S.chars =
      S.before ++ ((S.name ++ (S.between ++ '(' :: (S.inner ++ [')']))) ++ S.after) := by
    simp [chars]
  rw [hsplit, Text.trim_pad S.before_blank S.after_blank (by simp) (S.head?_name _)]
  · simp
  · have hlast : (S.name ++ (S.between ++ '(' :: (S.inner ++ [')']))).getLast? = some ')' := by
      simp [List.getLast?_append, List.getLast?_cons]
    rw [hlast]
    rintro c ⟨rfl⟩
    exact isBlank_of_special (by decide)

theorem trim_name : Text.trim (S.name ++ S.between) = S.name := by
  have hhead := S.head?_name []
  rw [List.append_nil] at hhead
  exact Text.trim_pad (l := []) (by simp) S.between_blank S.name_ne_nil hhead fun c hc =>
    isBlank_of_isNameChar (S.name_chars c (List.mem_of_getLast? hc))

theorem readStep_chars : readStep S.chars = .ok S.step := by
  have hkeep : ∀ c ∈ S.name ++ S.between, decide (c ≠ '(') := by
    intro c hc
    refine decide_eq_true ?_
    rcases List.mem_append.mp hc with hc | hc
    · exact ne_opening (.inr (S.name_chars c hc))
    · exact ne_opening (.inl (S.between_blank c hc))
  have htake : (S.name ++ S.between ++ '(' :: (S.inner ++ [')'])).takeWhile (· ≠ '(') =
      S.name ++ S.between := by
    rw [List.takeWhile_append_of_pos hkeep]
    simp
  have hdrop : (S.name ++ S.between ++ '(' :: (S.inner ++ [')'])).dropWhile (· ≠ '(') =
      '(' :: (S.inner ++ [')']) := by
    rw [List.dropWhile_append_of_pos hkeep]
    simp
  have hlast : (S.name ++ S.between ++ '(' :: (S.inner ++ [')'])).getLast? = some ')' := by
    simp [List.getLast?_append, List.getLast?_cons]
  have hempty : S.name.isEmpty = false := by simpa using S.name_ne_nil
  have hall : S.name.all isNameChar := List.all_eq_true.mpr S.name_chars
  have hargs := arguments?_eq_some.mpr S.args_read
  unfold readStep
  dsimp only
  rw [S.trim_chars, htake, hdrop, hlast, S.trim_name, hempty, hall, List.drop_one, List.tail_cons,
    List.dropLast_concat, hargs]
  simp [step]

end Segment

/-- What a segment that is read has passed, and what it is read as. -/
theorem checks_of_readStep {step : ScriptStep} (h : readStep cs = .ok step) :
    '(' ∈ Text.trim cs ∧ (Text.trim cs).getLast? = some ')' ∧ ∃ name args,
      name = Text.trim ((Text.trim cs).takeWhile (· ≠ '(')) ∧ name ≠ [] ∧
        (∀ c ∈ name, isNameChar c) ∧
        arguments? (((Text.trim cs).dropWhile (· ≠ '(')).drop 1).dropLast = some args ∧
        step = ⟨longName (String.ofList name), args⟩ := by
  unfold readStep at h
  dsimp only at h
  split at h
  · cases h
  next hopening =>
    split at h
    · cases h
    next hlast =>
      split at h
      · cases h
      next hname =>
        split at h
        next args hargs =>
          cases h
          simp only [Bool.or_eq_true, Bool.not_eq_true', not_or, Bool.not_eq_false,
            List.isEmpty_iff, List.all_eq_true] at hname
          exact ⟨not_not.mp hopening, not_not.mp hlast, _, args, rfl, hname.1, hname.2, hargs, rfl⟩
        next => cases h

/-- A segment is read if it has the parts of one. -/
theorem readStep_iff {step : ScriptStep} :
    readStep cs = .ok step ↔ ∃ S : Segment, S.chars = cs ∧ S.step = step := by
  constructor
  · intro h
    obtain ⟨hopening, hlast, name, args, hname, hne, hchars, hargs, rfl⟩ := checks_of_readStep h
    obtain ⟨l, r, hl, hr, hsegment⟩ := Text.exists_trim cs
    obtain ⟨b, between, hb, hbetween, hfront⟩ :=
      Text.exists_trim ((Text.trim cs).takeWhile (· ≠ '('))
    have hstep := split_opening hopening hlast
    rw [hfront, ← hname] at hstep
    have hbefore : ∀ c ∈ l ++ b, Text.isBlank c := fun c hc =>
      (List.mem_append.mp hc).elim (hl c) (hb c)
    refine ⟨⟨l ++ b, name, between, _, r, args, hbefore, hne, hchars, hbetween, hr,
      arguments?_eq_some.mp hargs⟩, ?_, rfl⟩
    conv_rhs => rw [hsegment, hstep]
    simp [Segment.chars]
  · rintro ⟨S, rfl, rfl⟩
    exact S.readStep_chars

-- ---------------------------------------------------------------------------
-- Unique parts
-- ---------------------------------------------------------------------------

/-- Two texts that begin with characters of one kind, and then with another, agree on both. -/
theorem append_inj_of_boundary {p : Char → Bool} {l l' x x' : List Char} (hl : ∀ c ∈ l, p c)
    (hl' : ∀ c ∈ l', p c) (hx : ∀ c ∈ x.head?, p c = false) (hx' : ∀ c ∈ x'.head?, p c = false)
    (h : l ++ x = l' ++ x') : l = l' ∧ x = x' := by
  have hfront : ∀ {l x : List Char}, (∀ c ∈ l, p c) → (∀ c ∈ x.head?, p c = false) →
      (l ++ x).takeWhile p = l := by
    intro l x hl hx
    rw [List.takeWhile_append_of_pos hl]
    cases x with
    | nil => simp
    | cons c x => simp [hx c rfl]
  have hlength : l = l' := by rw [← hfront hl hx, h, hfront hl' hx']
  subst hlength
  exact ⟨rfl, List.append_cancel_left h⟩

theorem Segment.chars_injective : Function.Injective Segment.chars := by
  intro S S' h
  have hbetween : ∀ (S : Segment) (rest : List Char),
      ∀ c ∈ (S.between ++ '(' :: rest).head?, isNameChar c = false := by
    intro S rest c hc
    cases hcs : S.between with
    | nil =>
      obtain rfl : '(' = c := by simpa [hcs] using hc
      exact isNameChar_of_special (by decide)
    | cons d ds =>
      obtain rfl : d = c := by simpa [hcs] using hc
      exact isNameChar_of_isBlank (S.between_blank d (hcs ▸ List.mem_cons_self))
  have hspecial : ∀ {c d : Char} {rest : List Char}, c ∈ specials → d ∈ (c :: rest).head? →
      Text.isBlank d = false := by
    rintro c d rest hc ⟨rfl⟩
    exact isBlank_of_special hc
  obtain ⟨hbefore, h⟩ := append_inj_of_boundary S.before_blank S'.before_blank
    (S.head?_name _) (S'.head?_name _) h
  obtain ⟨hname, h⟩ := append_inj_of_boundary S.name_chars S'.name_chars
    (hbetween S _) (hbetween S' _) h
  obtain ⟨hbetween, h⟩ := append_inj_of_boundary S.between_blank S'.between_blank
    (fun _ => hspecial (by decide)) (fun _ => hspecial (by decide)) h
  -- The last closing parenthesis is found from behind.
  have hreverse := congrArg List.reverse (List.cons.inj h).2
  simp only [List.reverse_append, List.reverse_cons, List.append_assoc, List.singleton_append]
    at hreverse
  obtain ⟨hafter, h⟩ := append_inj_of_boundary (p := Text.isBlank)
    (fun c hc => S.after_blank c (List.mem_reverse.mp hc))
    (fun c hc => S'.after_blank c (List.mem_reverse.mp hc))
    (fun _ => hspecial (by decide)) (fun _ => hspecial (by decide)) hreverse
  have hinner : S.inner = S'.inner := List.reverse_injective (List.cons.inj h).2
  have hargs : S.args = S'.args := by
    have hread := S.args_read
    rw [hinner, S'.args_read] at hread
    exact (Json.arr.inj (Option.some.inj hread)).symm
  exact Segment.ext hbefore hname hbetween hinner (List.reverse_injective hafter) hargs

end GraphWalk.Script
