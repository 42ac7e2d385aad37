import GraphWalk.Proofs.Script.Split

/-!
# Slices of a script

The segments of a script, and the parts of a step, can be cut out of the text between two offsets in
bytes, where there may be no such text. `parseSlices` reads a script in this way, and
`parseSlices_eq` finds that every slice it takes is there and that it comes to what `parse` does.
-/

namespace GraphWalk.Script

variable {c : Char} {cs : List Char}

/-- The text of the first bytes, and what follows. -/
def splitBytes? (n : Nat) : List Char → Option (List Char × List Char)
  | [] => if n = 0 then some ([], []) else none
  | c :: cs =>
    if n = 0 then some ([], c :: cs)
    else if c.utf8Size ≤ n then
      (splitBytes? (n - c.utf8Size) cs).map fun (first, rest) => (c :: first, rest)
    else none

/-- The text between two offsets; `none` if the second lies before the first, or if one lies beyond
the text or inside of a character. -/
def slice? (cs : List Char) (start stop : Nat) : Option (List Char) :=
  if start ≤ stop then do
    let (_, rest) ← splitBytes? start cs
    let (slice, _) ← splitBytes? (stop - start) rest
    return slice
  else none

theorem splitBytes?_append (l x : List Char) :
    splitBytes? (String.utf8Len l) (l ++ x) = some (l, x) := by
  induction l with
  | nil => cases x <;> rfl
  | cons c l ih =>
    have hpos := c.utf8Size_pos
    rw [List.cons_append, splitBytes?, String.utf8Len_cons, if_neg (by omega),
      if_pos (Nat.le_add_left _ _), Nat.add_sub_cancel, ih, Option.map_some]

theorem slice?_append (l x r : List Char) :
    slice? (l ++ (x ++ r)) (String.utf8Len l) (String.utf8Len l + String.utf8Len x) = some x := by
  rw [slice?, if_pos (Nat.le_add_right _ _), splitBytes?_append, Nat.add_sub_cancel_left]
  simp [splitBytes?_append]

/-- A result, be it right or an error, that is missing where a slice is. -/
abbrev Sliced (α : Type) := ExceptT ScriptError Option α

/-- The result is not missing. -/
def sure {α : Type} (x : Except ScriptError α) : Sliced α := ExceptT.mk (some x)

theorem liftM_some_bind {α β : Type} (a : α) (f : α → Sliced β) :
    (liftM (some a) : Sliced α) >>= f = f a := rfl

-- ---------------------------------------------------------------------------
-- Segments
-- ---------------------------------------------------------------------------

/-- A split in progress that holds the offset at which the current segment starts. -/
structure Cut where
  mode : Mode
  depth : Nat
  offset : Nat
  start : Nat
  segments : List (List Char)

namespace Cut

def begin : Cut := ⟨.plain, 0, 0, 0, []⟩

def keep (k : Cut) (c : Char) (mode : Mode) (depth : Nat) : Cut :=
  ⟨mode, depth, k.offset + c.utf8Size, k.start, k.segments⟩

def step (script : List Char) (k : Cut) (c : Char) : Sliced Cut :=
  match k.mode with
  | .escaped => return k.keep c .quoted k.depth
  | .quoted =>
    if c = '\\' then return k.keep c .escaped k.depth
    else if c = '"' then return k.keep c .plain k.depth
    else return k.keep c .quoted k.depth
  | .plain =>
    if c = '"' then return k.keep c .quoted k.depth
    else if isOpening c then return k.keep c .plain (k.depth + 1)
    else if isClosing c then
      if k.depth = 0 then throw (.unbalancedClose c k.offset)
      else return k.keep c .plain (k.depth - 1)
    else if c = '.' ∧ k.depth = 0 then do
      let segment ← slice? script k.start k.offset
      return ⟨.plain, 0, k.offset + c.utf8Size, k.offset + 1, segment :: k.segments⟩
    else return k.keep c .plain k.depth

def finish (script : List Char) (k : Cut) : Sliced (List (List Char)) :=
  if k.mode ≠ .plain then throw .unterminatedString
  else if k.depth ≠ 0 then throw .unbalancedOpen
  else do
    let segment ← slice? script k.start (String.utf8Len script)
    return (segment :: k.segments).reverse

/-- The same split, with the start of the current segment. -/
def of (s : Split) : Cut :=
  ⟨s.mode, s.depth, s.offset, s.offset - String.utf8Len s.current, s.segments⟩

theorem of_mode (s : Split) : (of s).mode = s.mode := rfl

theorem of_depth (s : Split) : (of s).depth = s.depth := rfl

theorem of_offset (s : Split) : (of s).offset = s.offset := rfl

theorem of_segments (s : Split) : (of s).segments = s.segments := rfl

theorem of_keep (s : Split) (c : Char) (m : Mode) (d : Nat) :
    of (s.keep c m d) = (of s).keep c m d := by
  simp [of, keep, Split.keep, String.utf8Len_cons, Nat.add_sub_add_right]

end Cut

/-- The segments, as slices of the script. -/
def slices (script : List Char) : Sliced (List (List Char)) := do
  (← script.foldlM (Cut.step script) Cut.begin).finish script

/-- The current segment is the last of what was read. -/
structure Split.Stands (s : Split) (read : List Char) : Prop where
  offset : s.offset = String.utf8Len read
  current : s.current.reverse <:+ read

section
variable {s s' : Split} {read rest script : List Char}

theorem Split.Stands.step (hs : s.Stands read) (h : s.step c = .ok s') :
    s'.Stands (read ++ [c]) := by
  have hoffset : s.offset + c.utf8Size = String.utf8Len (read ++ [c]) := by
    simp [hs.offset, String.utf8Len_append]
  rcases step_cases h with ⟨m, d, rfl⟩ | ⟨rfl, rfl⟩
  · refine ⟨hoffset, ?_⟩
    obtain ⟨before, hbefore⟩ := hs.current
    exact ⟨before, by simp [Split.keep, ← hbefore]⟩
  · exact ⟨hoffset, List.nil_suffix⟩

theorem Split.Stands.slice? (hs : s.Stands read) (rest : List Char) :
    slice? (read ++ rest) (Cut.of s).start s.offset = some s.current.reverse := by
  obtain ⟨before, hbefore⟩ := hs.current
  have hoffset : s.offset = String.utf8Len before + String.utf8Len s.current.reverse := by
    rw [hs.offset, ← hbefore, String.utf8Len_append]
  have hstart : (Cut.of s).start = String.utf8Len before := by
    rw [Cut.of, hoffset, String.utf8Len_reverse, Nat.add_sub_cancel]
  rw [hstart, hoffset, ← hbefore, List.append_assoc, slice?_append]

theorem Cut.step_of (hs : s.Stands read) :
    (of s).step (read ++ c :: rest) c = sure ((s.step c).map of) := by
  have hkeep : ∀ m d, pure ((of s).keep c m d) = sure ((Except.ok (s.keep c m d)).map of) :=
    fun m d => congrArg (fun k => sure (Except.ok k)) (of_keep s c m d).symm
  unfold Cut.step Split.step
  rw [of_mode, of_depth, of_offset, of_segments]
  cases s.mode with
  | escaped => exact hkeep ..
  | quoted =>
    dsimp only
    by_cases hslash : c = '\\'
    · rw [if_pos hslash, if_pos hslash, hkeep]
    · rw [if_neg hslash, if_neg hslash]
      by_cases hquote : c = '"'
      · rw [if_pos hquote, if_pos hquote, hkeep]
      · rw [if_neg hquote, if_neg hquote, hkeep]
  | plain =>
    dsimp only
    by_cases hquote : c = '"'
    · rw [if_pos hquote, if_pos hquote, hkeep]
    · rw [if_neg hquote, if_neg hquote]
      by_cases hopening : isOpening c
      · rw [if_pos hopening, if_pos hopening, hkeep]
      · rw [if_neg hopening, if_neg hopening]
        by_cases hclosing : isClosing c
        · rw [if_pos hclosing, if_pos hclosing]
          by_cases hdepth : s.depth = 0
          · rw [if_pos hdepth, if_pos hdepth]
            rfl
          · rw [if_neg hdepth, if_neg hdepth, hkeep]
        · rw [if_neg hclosing, if_neg hclosing]
          by_cases hdot : c = '.' ∧ s.depth = 0
          · rw [if_pos hdot, if_pos hdot, hs.slice?]
            obtain ⟨rfl, -⟩ := hdot
            rfl
          · rw [if_neg hdot, if_neg hdot, hkeep]

theorem Cut.steps_of (hs : s.Stands read) (rest : List Char) :
    rest.foldlM (Cut.step (read ++ rest)) (of s) = sure ((rest.foldlM Split.step s).map of) := by
  induction rest generalizing read s with
  | nil => rfl
  | cons c rest ih =>
    rw [List.foldlM_cons, List.foldlM_cons, Cut.step_of hs]
    cases hstep : s.step c with
    | error e => rfl
    | ok s' =>
      have hrest := ih (hs.step hstep)
      rw [List.append_assoc, List.singleton_append] at hrest
      exact hrest

theorem Cut.finish_of (hs : s.Stands script) : (of s).finish script = sure s.finish := by
  have hslice := hs.slice? []
  rw [List.append_nil, hs.offset] at hslice
  unfold Cut.finish Split.finish
  rw [of_mode, of_depth, of_segments]
  by_cases hmode : s.mode ≠ .plain
  · rw [if_pos hmode, if_pos hmode]
    rfl
  · rw [if_neg hmode, if_neg hmode]
    by_cases hdepth : s.depth ≠ 0
    · rw [if_pos hdepth, if_pos hdepth]
      rfl
    · rw [if_neg hdepth, if_neg hdepth, hslice]
      rfl

theorem Split.Stands.steps (hs : s.Stands read) (h : rest.foldlM Split.step s = .ok s') :
    s'.Stands (read ++ rest) := by
  induction rest generalizing read s with
  | nil =>
    cases h
    rwa [List.append_nil]
  | cons c rest ih =>
    rw [List.foldlM_cons] at h
    obtain ⟨next, hnext, hrest⟩ := bind_ok h
    rw [List.append_cons]
    exact ih (hs.step hnext) hrest

theorem slices_eq (script : List Char) : slices script = sure (segments script) := by
  have hstart : Split.start.Stands [] := ⟨rfl, List.nil_suffix⟩
  have hbegin : Cut.begin = Cut.of Split.start := rfl
  have hsteps := Cut.steps_of hstart script
  rw [List.nil_append] at hsteps
  unfold slices segments
  rw [hbegin, hsteps]
  cases hsplit : script.foldlM Split.step Split.start with
  | error e => rfl
  | ok s => exact Cut.finish_of (hstart.steps hsplit)

end

-- ---------------------------------------------------------------------------
-- Steps
-- ---------------------------------------------------------------------------

/-- The offset at which a character is found first. -/
def offset? (c : Char) (cs : List Char) : Option Nat :=
  if c ∈ cs then some (String.utf8Len (cs.takeWhile (· ≠ c))) else none

/-- Reads one segment, whose name and arguments are slices of it. -/
def readSlices (segment : List Char) : Sliced ScriptStep := do
  let step := Text.trim segment
  let shown := String.ofList step
  match offset? '(' step with
  | none => throw (.noArguments shown)
  | some opening =>
    if step.getLast? ≠ some ')' then throw (.noEnd shown)
    else
      let name := Text.trim (← slice? step 0 opening)
      if name.isEmpty || !name.all isNameChar then throw (.badName (String.ofList name))
      else
        match arguments? (← slice? step (opening + 1) (String.utf8Len step - 1)) with
        | some args => return ⟨longName (String.ofList name), args⟩
        | none => throw (.badArguments shown)

/-- What stands before the first opening parenthesis of a step, and what up to its last closing
one. -/
theorem split_opening {step : List Char} (hopening : '(' ∈ step)
    (hlast : step.getLast? = some ')') :
    step = step.takeWhile (· ≠ '(') ++
      '(' :: (((step.dropWhile (· ≠ '(')).drop 1).dropLast ++ [')']) := by
  have hsplit := List.takeWhile_append_dropWhile (p := fun c => decide (c ≠ '(')) (l := step)
  generalize htail : step.dropWhile (· ≠ '(') = tail at hsplit
  cases tail with
  | nil => simpa using List.dropWhile_eq_nil_iff.mp htail '(' hopening
  | cons c rest =>
    have hc : c = '(' := by
      have hhead := List.head?_dropWhile_not (fun c => decide (c ≠ '(')) step
      rw [htail] at hhead
      simpa using hhead
    subst hc
    have hrest : rest.getLast? = some ')' := by
      rw [← hsplit, List.getLast?_append, List.getLast?_cons] at hlast
      cases hrest : rest.getLast? with
      | none => simp [hrest] at hlast
      | some d => simpa [hrest] using hlast
    rw [List.drop_one, List.tail_cons, List.dropLast_append_getLast? _ hrest]
    exact hsplit.symm

theorem slices_of_step {step : List Char} (hopening : '(' ∈ step)
    (hlast : step.getLast? = some ')') :
    slice? step 0 (String.utf8Len (step.takeWhile (· ≠ '('))) = some (step.takeWhile (· ≠ '(')) ∧
      slice? step (String.utf8Len (step.takeWhile (· ≠ '(')) + 1) (String.utf8Len step - 1) =
        some ((step.dropWhile (· ≠ '(')).drop 1).dropLast := by
  have hstep := split_opening hopening hlast
  generalize step.takeWhile (· ≠ '(') = front at *
  generalize ((step.dropWhile (· ≠ '(')).drop 1).dropLast = inner at *
  subst hstep
  constructor
  · have hslice := slice?_append [] front ('(' :: (inner ++ [')']))
    rwa [String.utf8Len_nil, Nat.zero_add] at hslice
  · have hslice := slice?_append (front ++ ['(']) inner [')']
    have hstart : String.utf8Len (front ++ ['(']) = String.utf8Len front + 1 :=
      String.utf8Len_append ..
    have hstop : String.utf8Len (front ++ '(' :: (inner ++ [')'])) - 1 =
        String.utf8Len (front ++ ['(']) + String.utf8Len inner := by
      have hsize : '('.utf8Size = 1 ∧ ')'.utf8Size = 1 := ⟨rfl, rfl⟩
      simp [String.utf8Len_append, hsize]
      omega
    rw [hstop, ← hstart, List.append_cons]
    exact hslice

theorem readSlices_eq (segment : List Char) : readSlices segment = sure (readStep segment) := by
  unfold readSlices readStep
  dsimp only
  generalize Text.trim segment = step
  by_cases hopening : '(' ∈ step
  · have hfound : offset? '(' step = some (String.utf8Len (step.takeWhile (· ≠ '('))) :=
      if_pos hopening
    rw [hfound, if_neg (not_not.mpr hopening)]
    dsimp only
    by_cases hlast : step.getLast? = some ')'
    · obtain ⟨hname, hinner⟩ := slices_of_step hopening hlast
      rw [if_neg (not_not.mpr hlast), if_neg (not_not.mpr hlast), hname, hinner,
        liftM_some_bind]
      generalize Text.trim (step.takeWhile (· ≠ '(')) = name
      by_cases hvalid : name.isEmpty || !name.all isNameChar
      · rw [if_pos hvalid, if_pos hvalid]
        rfl
      · rw [if_neg hvalid, if_neg hvalid, liftM_some_bind]
        cases arguments? ((step.dropWhile (· ≠ '(')).drop 1).dropLast <;> rfl
    · rw [if_pos hlast, if_pos hlast]
      rfl
  · have hfound : offset? '(' step = none := if_neg hopening
    rw [hfound, if_pos hopening]
    rfl

theorem mapM_readSlices (parts : List (List Char)) :
    parts.mapM readSlices = sure (parts.mapM readStep) := by
  induction parts with
  | nil => rfl
  | cons p parts ih =>
    rw [List.mapM_cons, List.mapM_cons, ih, readSlices_eq]
    cases readStep p with
    | error e => rfl
    | ok step =>
      cases parts.mapM readStep <;> rfl

/-- Reads a script whose segments are slices of it. -/
def parseSlices (script : String) : Sliced (List ScriptStep) :=
  let script := Text.trim script.toList
  if script.isEmpty then throw .empty
  else do (← slices script).mapM readSlices

theorem parseSlices_eq (script : String) : parseSlices script = sure (parse script) := by
  unfold parseSlices parse
  dsimp only
  split
  · rfl
  · rw [slices_eq]
    cases segments (Text.trim script.toList) with
    | error e => rfl
    | ok parts => exact mapM_readSlices parts

end GraphWalk.Script
