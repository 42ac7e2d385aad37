import GraphWalk.Proofs.Script.Segment

/-!
# The grammar of scripts

A `Chain` is a script in its segments, with dots between them. It is split where its segments are
joined (`Chain.segments_chars`), blanks around it change nothing (`derives_pad`), and so
`parse_grammar` finds that the chains are just the scripts that are parsed.
-/

namespace GraphWalk.Script

/-- A script in its segments, at least one. -/
@[ext]
structure Chain where
  segments : List Segment
  ne_nil : segments ≠ []

namespace Chain

def chars (C : Chain) : List Char := ['.'].intercalate (C.segments.map Segment.chars)

def steps (C : Chain) : List ScriptStep := C.segments.map Segment.step

end Chain

variable {c : Char} {cs : List Char} {steps : List ScriptStep}

theorem mapM_readStep_iff {parts : List (List Char)} :
    parts.mapM readStep = .ok steps ↔
      ∃ Ss : List Segment, Ss.map Segment.chars = parts ∧ Ss.map Segment.step = steps := by
  constructor
  · intro h
    induction parts generalizing steps with
    | nil =>
      cases h
      exact ⟨[], rfl, rfl⟩
    | cons p parts ih =>
      rw [List.mapM_cons] at h
      obtain ⟨step, hstep, h⟩ := bind_ok h
      obtain ⟨rest, hrest, h⟩ := bind_ok h
      cases h
      obtain ⟨S, rfl, rfl⟩ := readStep_iff.mp hstep
      obtain ⟨Ss, rfl, rfl⟩ := ih hrest
      exact ⟨S :: Ss, rfl, rfl⟩
  · rintro ⟨Ss, rfl, rfl⟩
    induction Ss with
    | nil => rfl
    | cons S Ss ih =>
      rw [List.map_cons, List.mapM_cons, S.readStep_chars, ih]
      rfl

theorem Chain.segments_chars (C : Chain) :
    Script.segments C.chars = .ok (C.segments.map Segment.chars) := by
  refine segments_intercalate (by simpa using C.ne_nil) fun p hp => ?_
  obtain ⟨S, -, rfl⟩ := List.mem_map.mp hp
  exact S.carries

/-- The characters are those of a chain with the steps. -/
def Derives (cs : List Char) (steps : List ScriptStep) : Prop :=
  ∃ C : Chain, C.chars = cs ∧ C.steps = steps

theorem segments_mapM_iff :
    (Script.segments cs).bind (·.mapM readStep) = .ok steps ↔ Derives cs steps := by
  constructor
  · intro h
    obtain ⟨parts, hparts, hsteps⟩ := bind_ok h
    obtain ⟨hne, rfl⟩ := intercalate_segments hparts
    obtain ⟨Ss, rfl, rfl⟩ := mapM_readStep_iff.mp hsteps
    exact ⟨⟨Ss, by simpa using hne⟩, rfl, rfl⟩
  · rintro ⟨C, rfl, rfl⟩
    rw [C.segments_chars]
    exact mapM_readStep_iff.mpr ⟨C.segments, rfl, rfl⟩

theorem exists_tail (Ss : List Segment) : ∃ tail, ∀ S : Segment,
    ['.'].intercalate ((S :: Ss).map Segment.chars) = S.chars ++ tail := by
  cases Ss with
  | nil => exact ⟨[], fun S => by simp⟩
  | cons T Ss =>
    refine ⟨'.' :: ['.'].intercalate ((T :: Ss).map Segment.chars), fun S => ?_⟩
    rw [List.map_cons, List.map_cons, List.intercalate_cons_cons, List.append_assoc,
      List.singleton_append]

theorem exists_front (Ss : List Segment) : ∃ front, ∀ S : Segment,
    ['.'].intercalate ((Ss ++ [S]).map Segment.chars) = front ++ S.chars := by
  induction Ss with
  | nil => exact ⟨[], fun S => by simp⟩
  | cons T Ss ih =>
    obtain ⟨front, hfront⟩ := ih
    refine ⟨T.chars ++ ['.'] ++ front, fun S => ?_⟩
    rw [List.cons_append, List.map_cons, List.intercalate_cons_of_ne_nil (by simp), hfront,
      List.append_assoc _ front]

theorem derives_blank_cons (hc : Text.isBlank c) :
    Derives (c :: cs) steps ↔ Derives cs steps := by
  constructor
  · rintro ⟨⟨_ | ⟨S, Ss⟩, hne⟩, hchars, rfl⟩
    · exact absurd rfl hne
    obtain ⟨tail, htail⟩ := exists_tail Ss
    replace hchars : S.chars ++ tail = c :: cs := (htail S).symm.trans hchars
    cases hbefore : S.before with
    | nil =>
      simp only [Segment.chars, hbefore, List.nil_append, List.append_assoc] at hchars
      have hhead := S.head?_name _ c (congrArg List.head? hchars)
      exact absurd hc (Bool.eq_false_iff.mp hhead)
    | cons d before =>
      have hblank : ∀ c ∈ before, Text.isBlank c := fun c hc =>
        S.before_blank c (hbefore ▸ List.mem_cons_of_mem d hc)
      simp only [Segment.chars, hbefore, List.cons_append, List.cons.injEq] at hchars
      exact ⟨⟨{ S with before := before, before_blank := hblank } :: Ss, by simp⟩,
        (htail _).trans hchars.2, rfl⟩
  · rintro ⟨⟨_ | ⟨S, Ss⟩, hne⟩, rfl, rfl⟩
    · exact absurd rfl hne
    obtain ⟨tail, htail⟩ := exists_tail Ss
    have hblank : ∀ d ∈ c :: S.before, Text.isBlank d :=
      List.forall_mem_cons.mpr ⟨hc, S.before_blank⟩
    exact ⟨⟨{ S with before := c :: S.before, before_blank := hblank } :: Ss, by simp⟩,
      (htail _).trans (congrArg (c :: ·) (htail S).symm), rfl⟩

theorem derives_blank_concat (hc : Text.isBlank c) :
    Derives (cs ++ [c]) steps ↔ Derives cs steps := by
  constructor
  · rintro ⟨⟨segments, hne⟩, hchars, rfl⟩
    obtain ⟨Ss, S, rfl⟩ := (List.eq_nil_or_concat' segments).resolve_left hne
    obtain ⟨front, hfront⟩ := exists_front Ss
    replace hchars : front ++ S.chars = cs ++ [c] := (hfront S).symm.trans hchars
    rcases List.eq_nil_or_concat' S.after with hafter | ⟨after, d, hafter⟩
    · have hclosing : ')' = c := by
        simpa [Segment.chars, hafter, List.getLast?_append, List.getLast?_cons] using
          congrArg List.getLast? hchars
      exact absurd hc (Bool.eq_false_iff.mp (isBlank_of_special (hclosing ▸ by decide)))
    · have hblank : ∀ c ∈ after, Text.isBlank c := fun c hc =>
        S.after_blank c (hafter ▸ List.mem_append_left _ hc)
      refine ⟨⟨Ss ++ [{ S with after := after, after_blank := hblank }], by simp⟩,
        (hfront _).trans ?_, by simp [Chain.steps, Segment.step]⟩
      have hshorter : (front ++ Segment.chars { S with after := after, after_blank := hblank }) ++
          [d] = cs ++ [c] := by
        rw [← hchars]
        simp [Segment.chars, hafter]
      exact (List.append_inj' hshorter rfl).1
  · rintro ⟨⟨segments, hne⟩, rfl, rfl⟩
    obtain ⟨Ss, S, rfl⟩ := (List.eq_nil_or_concat' segments).resolve_left hne
    obtain ⟨front, hfront⟩ := exists_front Ss
    have hblank : ∀ d ∈ S.after ++ [c], Text.isBlank d := by
      intro d hd
      rcases List.mem_append.mp hd with hd | hd
      · exact S.after_blank d hd
      · exact List.mem_singleton.mp hd ▸ hc
    refine ⟨⟨Ss ++ [{ S with after := S.after ++ [c], after_blank := hblank }], by simp⟩,
      (hfront _).trans ?_, by simp [Chain.steps, Segment.step]⟩
    rw [Chain.chars, hfront]
    simp [Segment.chars]

/-- Blanks around a script change nothing. -/
theorem derives_pad {l r : List Char} (hl : ∀ c ∈ l, Text.isBlank c)
    (hr : ∀ c ∈ r, Text.isBlank c) : Derives (l ++ (cs ++ r)) steps ↔ Derives cs steps := by
  have hfront : Derives (l ++ (cs ++ r)) steps ↔ Derives (cs ++ r) steps := by
    induction l with
    | nil => exact Iff.rfl
    | cons c l ih =>
      obtain ⟨hc, hl⟩ := List.forall_mem_cons.mp hl
      exact (derives_blank_cons hc).trans (ih hl)
  refine hfront.trans ?_
  clear hfront
  induction r generalizing cs with
  | nil => rw [List.append_nil]
  | cons c r ih =>
    obtain ⟨hc, hr⟩ := List.forall_mem_cons.mp hr
    rw [List.append_cons]
    exact (ih hr).trans (derives_blank_concat hc)

/-- A script has one decomposition into segments. -/
theorem Chain.chars_injective : Function.Injective Chain.chars := by
  intro C C' h
  have hparts : C.segments.map Segment.chars = C'.segments.map Segment.chars := by
    have hsegments := C.segments_chars
    rw [h, C'.segments_chars] at hsegments
    exact (Except.ok.inj hsegments).symm
  exact Chain.ext (List.map_injective_iff.mpr Segment.chars_injective hparts)

theorem parse_iff {s : String} : parse s = .ok steps ↔ Derives s.toList steps := by
  obtain ⟨l, r, hl, hr, hscript⟩ := Text.exists_trim s.toList
  rw [hscript, derives_pad hl hr, ← segments_mapM_iff]
  unfold parse
  dsimp only
  split
  next hempty =>
    rw [List.isEmpty_iff.mp hempty]
    exact ⟨nofun, nofun⟩
  next => exact Iff.rfl

/-- The scripts that are parsed are the chains, to the steps of the chain. A chain is split just
between its segments, whatever stands in their arguments, a script is one chain at most, and no
slice that is taken from a script is missing. -/
theorem parse_grammar (s : String) (steps : List ScriptStep) :
    (parse s = .ok steps ↔ ∃ C : Chain, C.chars = s.toList ∧ C.steps = steps) ∧
      (∀ C : Chain, Script.segments C.chars = .ok (C.segments.map Segment.chars)) ∧
      Function.Injective Chain.chars ∧ (parseSlices s).run = some (parse s) :=
  ⟨parse_iff, Chain.segments_chars, Chain.chars_injective, parseSlices_eq s⟩

theorem parse_grammar_points : ∃ x : Float, parse " v ([1.5]).out(\"a.)\\\"\") " =
    .ok [⟨"vertex", [.arr [.float x]]⟩, ⟨"out", [.str "a.)\""]⟩] := by
  refine ⟨_, (parse_grammar _ _).1.mpr ⟨⟨[
    { before := [' '], name := ['v'], between := [' '], inner := ['[', '1', '.', '5', ']'],
      after := [], args := _
      before_blank := List.all_eq_true.mp (by decide)
      name_ne_nil := by decide
      name_chars := List.all_eq_true.mp (by decide)
      between_blank := List.all_eq_true.mp (by decide)
      after_blank := List.all_eq_true.mp (by decide)
      args_read := by rfl },
    { before := [], name := ['o', 'u', 't'], between := [],
      inner := ['"', 'a', '.', ')', '\\', '"', '"'], after := [' '], args := _
      before_blank := List.all_eq_true.mp (by decide)
      name_ne_nil := by decide
      name_chars := List.all_eq_true.mp (by decide)
      between_blank := List.all_eq_true.mp (by decide)
      after_blank := List.all_eq_true.mp (by decide)
      args_read := by rfl }],
    by simp⟩, by decide, by rfl⟩⟩

end GraphWalk.Script
