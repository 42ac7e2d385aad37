import GraphWalk.Proofs.Except
import GraphWalk.Proofs.Json.Depth
import GraphWalk.Walk.Script
import Mathlib.Data.String.Basic

/-!
# Where a script is split

A split counts brackets of all kinds together and knows strings by their quotation marks alone. On
text that is read as JSON this is enough: `carries_arguments` follows the scanner and the builder of
the reader token by token, and finds the split outside of strings, and as deep, wherever they are.
-/

namespace GraphWalk.Script

open Json.Document (Builder)

/-- From a mode and a depth on, the characters all go to the current segment. -/
def Carries (cs : List Char) (m : Mode) (d : Nat) (m' : Mode) (d' : Nat) : Prop :=
  ∀ offset current segments, cs.foldlM Split.step ⟨m, d, offset, current, segments⟩ =
    .ok ⟨m', d', offset + String.utf8Len cs, cs.reverse ++ current, segments⟩

variable {cs ds : List Char} {c : Char} {m m' m'' : Mode} {d d' d'' : Nat}

theorem carries_nil : Carries [] m d m d := fun _ _ _ => rfl

theorem Carries.append (h : Carries cs m d m' d') (h' : Carries ds m' d' m'' d'') :
    Carries (cs ++ ds) m d m'' d'' := by
  intro offset current segments
  rw [List.foldlM_append, h]
  show ds.foldlM Split.step _ = _
  rw [h', String.utf8Len_append]
  simp [Nat.add_assoc]

theorem Carries.cons (hc : Carries [c] m d m' d') (h : Carries cs m' d' m'' d'') :
    Carries (c :: cs) m d m'' d'' :=
  hc.append h

-- ---------------------------------------------------------------------------
-- Characters
-- ---------------------------------------------------------------------------

theorem carries_one (h : ∀ s : Split, s.mode = m → s.depth = d → s.step c = .ok (s.keep c m' d')) :
    Carries [c] m d m' d' := by
  intro offset current segments
  rw [List.foldlM_cons, h _ rfl rfl]
  simp [Split.keep, Except.bind, bind, pure, Except.pure]

theorem carries_opening (hc : isOpening c) : Carries [c] .plain d .plain (d + 1) := by
  have hquote : c ≠ '"' := by rintro rfl; cases hc
  exact carries_one fun s hm hd => by simp [Split.step, hm, hquote, hc, hd]

theorem isClosing_apart (hc : isClosing c) : c ≠ '"' ∧ c ≠ '\\' ∧ ¬ isOpening c := by
  simp only [isClosing, decide_eq_true_eq] at hc
  rcases hc with rfl | rfl | rfl <;> decide

theorem carries_closing (hc : isClosing c) : Carries [c] .plain (d + 1) .plain d := by
  obtain ⟨hquote, -, hopening⟩ := isClosing_apart hc
  exact carries_one fun s hm hd => by simp [Split.step, hm, hquote, hopening, hc, hd]

/-- The characters that mean something to a split outside of strings. -/
def specials : List Char := ['"', '(', '[', '\x7b', ')', ']', '\x7d', '.']

theorem carries_plain (hc : c ∈ specials → c = '.' ∧ d ≠ 0) : Carries [c] .plain d .plain d := by
  refine carries_one fun s hm hd => ?_
  by_cases hdot : c = '.'
  · subst hdot
    obtain ⟨-, hdepth⟩ := hc (by decide)
    simp [Split.step, hm, isOpening, isClosing, hd, hdepth]
  · have hspecial : c ∉ specials := fun h => hdot (hc h).1
    simp only [specials, List.mem_cons, List.not_mem_nil, or_false, not_or] at hspecial
    simp [Split.step, hm, isOpening, isClosing, hspecial, hd]

/-- Characters that mean nothing to a split stay where they are. -/
theorem carries_of_not_special (h : ∀ c ∈ cs, c ∉ specials) : Carries cs .plain d .plain d := by
  induction cs with
  | nil => exact carries_nil
  | cons c cs ih =>
    obtain ⟨hc, hcs⟩ := List.forall_mem_cons.mp h
    exact (carries_plain fun hspecial => absurd hspecial hc).cons (ih hcs)

-- ---------------------------------------------------------------------------
-- JSON text
-- ---------------------------------------------------------------------------

/-- The mode of a split beside a scan. -/
def beside : Json.Token.Mode → Mode
  | .gap | .word _ => .plain
  | .quoted _ => .quoted
  | .escaped _ => .escaped

theorem carries_mark {n n' : Nat} (h : (Json.Token.mark c).Moves n n') :
    Carries [c] .plain n .plain n' := by
  cases h with
  | opening hc =>
    refine carries_opening ?_
    simp only [List.mem_cons, List.not_mem_nil, or_false] at hc
    rcases hc with rfl | rfl <;> rfl
  | closing hc =>
    refine carries_closing ?_
    simp only [List.mem_cons, List.not_mem_nil, or_false] at hc
    rcases hc with rfl | rfl <;> rfl
  | between hc =>
    refine carries_plain fun hspecial => ?_
    simp only [List.mem_cons, List.not_mem_nil, or_false] at hc
    rcases hc with rfl | rfl <;> exact absurd hspecial (by decide)

theorem not_special_of_isBlank (hc : Json.isBlank c) : c ∉ specials := by
  simp only [Json.isBlank, decide_eq_true_eq] at hc
  rcases hc with rfl | rfl | rfl | rfl <;> decide

/-- In a word that is accepted the only special character is the point. -/
theorem carries_goesOn (hgoes : Json.Token.Scan.goesOn c) (hparen : c ≠ '(' ∧ c ≠ ')')
    (hd : d ≠ 0) : Carries [c] .plain d .plain d := by
  refine carries_plain fun hspecial => ⟨?_, hd⟩
  simp only [Json.Token.Scan.goesOn, Json.isMark, Bool.not_eq_true', Bool.or_eq_false_iff,
    decide_eq_false_iff_not, not_or] at hgoes
  simp only [specials, List.mem_cons, List.not_mem_nil, or_false] at hspecial
  grind

/-- The word that a scan is in becomes the next token. -/
theorem word_of_reads {w : List Char} {ts : List Json.Token}
    (h : Json.Token.Reads (.word w) cs ts) :
    ∃ w' ts', ts = .word w' :: ts' ∧ ∀ c ∈ w, c ∈ w' := by
  generalize hmode : Json.Token.Mode.word w = mode at h
  induction h generalizing w with
  | go hc h ih =>
    cases hmode
    obtain ⟨w', ts', rfl, hmem⟩ := ih rfl
    exact ⟨w', ts', rfl, fun c hc => hmem c (List.mem_cons_of_mem _ hc)⟩
  | stop h ih =>
    cases hmode
    exact ⟨_, _, rfl, fun c hc => List.mem_reverse.mpr hc⟩
  | _ => cases hmode

/-- A character that goes into a word is inside of brackets. -/
theorem carries_inWord {w : List Char} {ts : List Json.Token} {b b' : Builder}
    (hgoes : Json.Token.Scan.goesOn c) (hreads : Json.Token.Reads (.word (c :: w)) cs ts)
    (hb : b.Settled) (h : ts.foldlM Builder.step b = some b') :
    Carries [c] .plain b.stack.length .plain b.stack.length := by
  obtain ⟨w', ts', rfl, hmem⟩ := word_of_reads hreads
  obtain ⟨next, hopen, -, hmoves, -⟩ := hb.cons h
  exact carries_goesOn hgoes (hmoves.of_word.2 c (hmem c List.mem_cons_self))
    (mt List.length_eq_zero_iff.mp hopen)

/-- Beside a scan whose tokens are accepted, a split is as deep as the builder. -/
theorem carries_reads {mode : Json.Token.Mode} {ts : List Json.Token} {b b' : Builder}
    (hreads : Json.Token.Reads mode cs ts) (hb : b.Settled)
    (h : ts.foldlM Builder.step b = some b') :
    Carries cs (beside mode) b.stack.length .plain b'.stack.length := by
  -- A token reaches the builder with its last character; until then both stay as deep as they are.
  induction hreads generalizing b with
  | nil =>
    cases h
    exact carries_nil
  | blank hc hreads ih =>
    have hspecial := not_special_of_isBlank hc
    exact (carries_plain fun h => absurd h hspecial).cons (ih hb h)
  | mark hc hreads ih =>
    obtain ⟨next, -, hsettled, hmoves, hrest⟩ := hb.cons h
    exact (carries_mark hmoves).cons (ih hsettled hrest)
  | quote hreads ih =>
    refine Carries.cons ?_ (ih hb h)
    exact carries_one fun s hm hd => by simp [Split.step, hm, hd, beside]
  | begin hc hreads ih => exact (carries_inWord hc hreads hb h).cons (ih hb h)
  | go hc hreads ih => exact (carries_inWord hc hreads hb h).cons (ih hb h)
  | stop hreads ih =>
    obtain ⟨next, -, hsettled, hmoves, hrest⟩ := hb.cons h
    exact hmoves.of_word.1 ▸ ih hsettled hrest
  | unquote hreads ih =>
    obtain ⟨next, -, hsettled, hmoves, hrest⟩ := hb.cons h
    have hcs := hmoves.of_quoted ▸ ih hsettled hrest
    refine Carries.cons ?_ hcs
    exact carries_one fun s hm hd => by simp [Split.step, hm, hd, beside]
  | escape hreads ih =>
    refine Carries.cons ?_ (ih hb h)
    exact carries_one fun s hm hd => by simp [Split.step, hm, hd, beside]
  | plain hquote hslash hreads ih =>
    refine Carries.cons ?_ (ih hb h)
    exact carries_one fun s hm hd => by simp [Split.step, hm, hd, beside, hquote, hslash]
  | escaped hreads ih =>
    refine Carries.cons ?_ (ih hb h)
    exact carries_one fun s hm hd => by simp [Split.step, hm, hd, beside]

/-- The last character of a text that ends in a bracket closes that bracket. -/
theorem Carries.unclose (h : Carries (cs ++ [c]) m d .plain d') (hc : isClosing c) :
    Carries cs m d .plain (d' + 1) := by
  intro offset current segments
  have happend := h offset current segments
  rw [List.foldlM_append] at happend
  obtain ⟨⟨mode, depth, reached, kept, before⟩, hcs, hlast⟩ := bind_ok happend
  rw [List.foldlM_cons] at hlast
  obtain ⟨s, hlast, hs⟩ := bind_ok hlast
  cases hs
  obtain ⟨hquote, hslash, hopening⟩ := isClosing_apart hc
  -- Inside of a string the last character would leave the split there.
  cases mode with
  | escaped => cases hlast
  | quoted => simp [Split.step, Split.keep, hquote, hslash] at hlast
  | plain =>
    simp only [Split.step, if_neg hquote, if_neg hopening, if_pos hc] at hlast
    split at hlast
    · cases hlast
    next hdepth =>
      simp only [Split.keep, Except.ok.injEq, Split.mk.injEq, String.utf8Len_append,
        List.reverse_append, List.reverse_cons, List.reverse_nil, List.nil_append,
        List.cons_append, List.cons.injEq, String.utf8Len_cons, String.utf8Len_nil] at hlast
      obtain ⟨-, hd, hoffset, ⟨-, rfl⟩, rfl⟩ := hlast
      have hdepth : depth = d' + 1 := by omega
      have hreached : reached = offset + String.utf8Len cs := by omega
      rw [hcs, hdepth, hreached]

/-- Arguments are one step's own, with every dot and every bracket in them. -/
theorem carries_arguments {args : List Json} (h : arguments? cs = some args) :
    Carries ('(' :: cs ++ [')']) .plain 0 .plain 0 := by
  have hread : ∃ document, Json.Document.ofChars? ('[' :: (cs ++ [']'])) = some document := by
    unfold arguments? at h
    split at h
    next heq =>
      obtain ⟨document, hdocument, -⟩ := Option.bind_eq_some_iff.mp heq
      exact ⟨document, hdocument⟩
    next => cases h
  obtain ⟨document, hdocument⟩ := hread
  obtain ⟨b, b', ts, hreads, hsteps, hb, hone, hnone⟩ := Json.Document.reads_of_ofChars? hdocument
  have hcarries := carries_reads hreads hb hsteps
  rw [hone, hnone] at hcarries
  have hinner : Carries cs .plain 1 .plain 1 := hcarries.unclose rfl
  exact ((carries_opening rfl).cons hinner).append (carries_closing rfl)

-- ---------------------------------------------------------------------------
-- Segments
-- ---------------------------------------------------------------------------

variable {parts : List (List Char)} {script : List Char}

/-- A dot behind a part that is carried cuts it off. -/
theorem Carries.cut (h : Carries cs .plain 0 .plain 0) (offset : Nat)
    (before : List (List Char)) : ∃ reached,
      (cs ++ '.' :: ds).foldlM Split.step ⟨.plain, 0, offset, [], before⟩ =
        ds.foldlM Split.step ⟨.plain, 0, reached, [], cs :: before⟩ := by
  refine ⟨offset + String.utf8Len cs + '.'.utf8Size, ?_⟩
  rw [List.foldlM_append, h]
  simp [bind, Except.bind, Split.step, isOpening, isClosing]

/-- Parts that are carried are cut apart where they were joined. -/
theorem segments_intercalate (hne : parts ≠ []) (h : ∀ p ∈ parts, Carries p .plain 0 .plain 0) :
    segments (['.'].intercalate parts) = .ok parts := by
  have hcut : ∀ offset before, ((['.'].intercalate parts).foldlM Split.step
      ⟨.plain, 0, offset, [], before⟩).bind Split.finish = .ok (before.reverse ++ parts) := by
    induction parts with
    | nil => exact absurd rfl hne
    | cons p parts ih =>
      intro offset before
      obtain ⟨hp, hparts⟩ := List.forall_mem_cons.mp h
      cases parts with
      | nil =>
        rw [List.intercalate_singleton, hp]
        simp [Except.bind, Split.finish]
      | cons q parts =>
        obtain ⟨reached, hcut⟩ := hp.cut offset before
        rw [List.intercalate_cons_cons, List.append_assoc, List.singleton_append, hcut,
          ih (List.cons_ne_nil q parts) hparts]
        simp
  exact hcut 0 []

/-- A step of a split adds the character to the current segment, or cuts the segment off at it. -/
theorem step_cases {s s' : Split} (h : s.step c = .ok s') :
    (∃ m d, s' = s.keep c m d) ∨
      c = '.' ∧ s' = ⟨.plain, 0, s.offset + c.utf8Size, [], s.current.reverse :: s.segments⟩ := by
  unfold Split.step at h
  split at h
  · cases h
    exact .inl ⟨_, _, rfl⟩
  · split at h
    · cases h
      exact .inl ⟨_, _, rfl⟩
    · split at h <;> cases h <;> exact .inl ⟨_, _, rfl⟩
  · split at h
    · cases h
      exact .inl ⟨_, _, rfl⟩
    · split at h
      · cases h
        exact .inl ⟨_, _, rfl⟩
      · split at h
        · split at h
          · cases h
          · cases h
            exact .inl ⟨_, _, rfl⟩
        · split at h
          next hdot =>
            cases h
            exact .inr ⟨hdot.1, rfl⟩
          next =>
            cases h
            exact .inl ⟨_, _, rfl⟩

/-- What is left of a script comes to the current segment and to the ones behind it. -/
theorem intercalate_of_finish {cs : List Char} {s : Split}
    (h : (cs.foldlM Split.step s).bind Split.finish = .ok parts) :
    ∃ rest, rest ≠ [] ∧ parts = s.segments.reverse ++ rest ∧
      ['.'].intercalate rest = s.current.reverse ++ cs := by
  induction cs generalizing s with
  | nil =>
    obtain ⟨s', hs', hfinish⟩ := bind_ok h
    cases hs'
    unfold Split.finish at hfinish
    split at hfinish
    · cases hfinish
    · split at hfinish
      · cases hfinish
      · cases hfinish
        exact ⟨[s.current.reverse], by simp, by simp, by simp⟩
  | cons c cs ih =>
    obtain ⟨last, hlast, hfinish⟩ := bind_ok h
    rw [List.foldlM_cons] at hlast
    obtain ⟨next, hnext, hrest⟩ := bind_ok hlast
    obtain ⟨rest, hne, rfl, hjoin⟩ := ih (s := next) (by rw [hrest]; exact hfinish)
    rcases step_cases hnext with ⟨m, d, rfl⟩ | ⟨rfl, rfl⟩
    · exact ⟨rest, hne, rfl, by simpa [Split.keep] using hjoin⟩
    · refine ⟨s.current.reverse :: rest, by simp, by simp, ?_⟩
      rw [List.intercalate_cons_of_ne_nil hne, hjoin]
      simp

/-- The segments, joined again, are the script. -/
theorem intercalate_segments (h : segments script = .ok parts) :
    parts ≠ [] ∧ ['.'].intercalate parts = script := by
  obtain ⟨rest, hne, rfl, hrest⟩ := intercalate_of_finish h
  exact ⟨hne, hrest⟩

end GraphWalk.Script
