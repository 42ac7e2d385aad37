import GraphWalk.Proofs.Machine.Orderly

/-!
# A gate behind the last step

Whatever the steps of a machine do, one more step behind them that lets a number of walkers pass
asks them nothing that they would not be asked anyway, and nothing more once the number is full.
`Gated.questions` says so of every state of the longer line, `Gated.comes_to` that it gets there.
-/

namespace GraphWalk

variable {W σ τ : Type}

namespace Exchange

variable {last n : Nat} {asked : List (Exchange W)} {e : Exchange W}

/-- The questions, in order, up to the one in which step `last` offers its `n`-th walker. -/
def upTo (last : Nat) : Nat → List (Exchange W) → List (Exchange W)
  | 0, _ => []
  | _ + 1, [] => []
  | n + 1, e :: later =>
    e :: upTo last (if (e.result? last).isSome then n else n + 1) later

@[simp] theorem upTo_zero (last : Nat) (asked : List (Exchange W)) : upTo last 0 asked = [] := by
  cases asked <;> rfl

@[simp] theorem upTo_nil (last n : Nat) : upTo last n ([] : List (Exchange W)) = [] := by
  cases n <;> rfl

/-- As long as fewer walkers were offered, nothing is cut off. -/
theorem upTo_append_of_lt (h : (asked.filterMap (result? last)).length < n)
    (later : List (Exchange W)) :
    upTo last n (asked ++ later) =
      asked ++ upTo last (n - (asked.filterMap (result? last)).length) later := by
  induction asked generalizing n with
  | nil => rfl
  | cons e asked ih =>
    cases n with
    | zero => exact absurd h (Nat.not_lt_zero _)
    | succ n =>
      cases hresult : e.result? last with
      | none =>
        rw [List.filterMap_cons_none hresult] at h ⊢
        simp [upTo, hresult, ih h]
      | some w =>
        rw [List.filterMap_cons_some hresult] at h ⊢
        simp [upTo, hresult, ih (Nat.lt_of_succ_lt_succ h)]

theorem upTo_eq_self (h : (asked.filterMap (result? last)).length < n) :
    upTo last n asked = asked := by
  simpa using upTo_append_of_lt h []

theorem upTo_snoc (h : (asked.filterMap (result? last)).length < n) :
    upTo last n (asked ++ [e]) = asked ++ [e] := by
  obtain ⟨rest, hrest⟩ := Nat.exists_eq_add_of_lt h
  rw [upTo_append_of_lt h, hrest, Nat.add_assoc, Nat.add_sub_cancel_left, upTo, upTo_nil]

/-- What is asked once the number is full does not count. -/
theorem upTo_append_of_le (h : n ≤ (asked.filterMap (result? last)).length)
    (later : List (Exchange W)) :
    upTo last n (asked ++ later) = upTo last n asked := by
  induction asked generalizing n with
  | nil =>
    obtain rfl := Nat.le_zero.mp h
    simp
  | cons e asked ih =>
    cases n with
    | zero => simp
    | succ n =>
      cases hresult : e.result? last with
      | none =>
        rw [List.filterMap_cons_none hresult] at h
        simp [upTo, hresult, ih h]
      | some w =>
        rw [List.filterMap_cons_some hresult] at h
        simp [upTo, hresult, ih (Nat.le_of_succ_le_succ h)]

end Exchange

namespace Machine

open Exchange (upTo upTo_eq_self upTo_snoc upTo_append_of_le)

variable {m : Machine W σ} {m' : Machine W τ} {limit : Nat} {R : σ → Nat → τ → Prop}
  {s t : State W σ} {s' t' : State W τ} {world : σ} {world' : τ}

/-- `m'` has the steps of `m`, and behind them a gate that lets `limit` walkers pass. `R` relates a
world of `m` and a number of walkers let pass to a world of `m'`. -/
structure Gated (m : Machine W σ) (limit : Nat) (m' : Machine W τ) (R : σ → Nat → τ → Prop) :
    Prop where
  last : m'.last = m.last + 1
  ask : ∀ {world passed world'}, R world passed world' → ∀ {i}, i ≤ m.last → ∀ input,
    (m'.ask i input world').1 = (m.ask i input world).1 ∧
      R (m.ask i input world).2 passed (m'.ask i input world').2
  full : ∀ {world passed world'}, R world passed world' → limit ≤ passed → ∀ input,
    (m'.ask m'.last input world').1 = .done
  pull : ∀ {world passed world'}, R world passed world' → passed < limit →
    (m'.ask m'.last none world').1 = .pull ∧ R world passed (m'.ask m'.last none world').2
  pass : ∀ {world passed world'}, R world passed world' → passed < limit → ∀ w,
    (m'.ask m'.last (some w) world').1 = .walker w ∧
      R world (passed + 1) (m'.ask m'.last (some w) world').2

/-- Where the machine with the gate stands, beside a state of the machine without. -/
inductive Standing (m : Machine W σ) (limit : Nat) (m' : Machine W τ) (R : σ → Nat → τ → Prop)
    (s : State W σ) (s' : State W τ) : Prop
  /-- At one of the steps that both have. -/
  | within (hposition : s'.position = s.position) (hfinished : s'.finished = s.finished)
    (hcarried : s'.carried = s.carried) (hresults : s'.results = s.results)
    (hworld : R s.world s.results.length s'.world) (hover : s.isOver m = false)
    (hbelow : s.results.length < limit)
  /-- At the gate; the walker that it is handed is a result already without the gate. -/
  | gate (hposition : s'.position = m.last + 1) (hlast : s.position = m.last)
    (hfinished : s'.finished = s.finished) (hcarried : s.carried = none)
    (hresults : s.results = s'.carried.toList ++ s'.results)
    (hworld : R s.world s'.results.length s'.world) (hlimit : s.results.length ≤ limit)
  | halted (hover : s'.isOver m' = true) (hresults : s'.results = s.results)
    (hlimit : s.results.length ≤ limit) (hend : limit ≤ s.results.length ∨ s.isOver m = true)

/-- Both were asked the same, and the number was not full before the last question. -/
structure Beside (m : Machine W σ) (limit : Nat) (m' : Machine W τ) (R : σ → Nat → τ → Prop)
    (s : State W σ) (s' : State W τ) : Prop where
  asked : s'.history.filter (·.step ≤ m.last) = s.history
  uncut : upTo m.last limit s.history.reverse = s.history.reverse
  standing : Standing m limit m' R s s'

theorem Standing.length_le (h : Standing m limit m' R s s') : s.results.length ≤ limit := by
  cases h with
  | within _ _ _ _ _ _ hbelow => exact Nat.le_of_lt hbelow
  | gate _ _ _ _ _ _ hlimit => exact hlimit
  | halted _ _ hlimit _ => exact hlimit

-- ---------------------------------------------------------------------------
-- One question
-- ---------------------------------------------------------------------------

/-- Both machines go right: to the next step, or to the gate where the other is past its end. -/
theorem Gated.advance (hm : Gated m limit m' R) {position : Nat} {finished : Option Nat}
    {carried : Option W} {results : List W} {history : List (Exchange W)}
    {history' : List (Exchange W)} (hworld : R world results.length world')
    (hwithin : position ≤ m.last) (hfinished : position < m.last → finished ≠ some m.last)
    (hbelow : results.length < limit) :
    Standing m limit m' R
      (State.advance m ⟨position, finished, carried, results, world, history⟩)
      (State.advance m' ⟨position, finished, carried, results, world', history'⟩) := by
  have hgate : position < m'.last := by rw [hm.last]; exact Nat.lt_succ_of_le hwithin
  unfold State.advance
  rw [if_pos hgate]
  split
  next hlt =>
    exact .within rfl rfl rfl rfl hworld (by simpa [State.isOver] using hfinished hlt) hbelow
  next hge =>
    obtain rfl : position = m.last := Nat.le_antisymm hwithin (Nat.not_lt.mp hge)
    refine .gate rfl rfl rfl rfl rfl hworld ?_
    cases carried with
    | none => exact Nat.le_of_lt hbelow
    | some w => exact hbelow

theorem Gated.react (hm : Gated m limit m' R) {position : Nat} {finished : Option Nat}
    {results : List W} (history history' : List (Exchange W))
    (hworld : R world results.length world') (hwithin : position ≤ m.last)
    (hbehind : ∀ d ∈ finished, d < position) (hbelow : results.length < limit)
    (reply : Reply W) :
    Standing m limit m' R
      (State.react m ⟨position, finished, none, results, world, history⟩ reply)
      (State.react m' ⟨position, finished, none, results, world', history'⟩ reply) := by
  have hopen : finished ≠ some m.last := by
    intro h
    exact absurd (hbehind m.last h) (Nat.not_lt.mpr hwithin)
  have hown : position < m.last → some position ≠ some m.last := by
    intro hlt h
    exact Nat.ne_of_lt hlt (Option.some.inj h)
  cases reply with
  | pull =>
    have hcan : State.canPull ⟨position, finished, none, results, world', history'⟩ =
        State.canPull ⟨position, finished, none, results, world, history⟩ := rfl
    simp only [State.react, hcan]
    split
    next => exact .within rfl rfl rfl rfl hworld (by simpa [State.isOver] using hopen) hbelow
    next => exact hm.advance hworld hwithin hown hbelow
  | done => exact hm.advance hworld hwithin hown hbelow
  | walker w => exact hm.advance hworld hwithin (fun _ => hopen) hbelow
  | nothing => exact hm.advance hworld hwithin (fun _ => hopen) hbelow

/-- A question to a step that both have. -/
theorem Gated.next_within (hm : Gated m limit m' R) (hs : Orderly m s)
    (hasked : s'.history.filter (·.step ≤ m.last) = s.history)
    (hposition : s'.position = s.position) (hfinished : s'.finished = s.finished)
    (hcarried : s'.carried = s.carried) (hresults : s'.results = s.results)
    (hworld : R s.world s.results.length s'.world) (hover : s.isOver m = false)
    (hbelow : s.results.length < limit) : Beside m limit m' R (m.next s) (m'.next s') := by
  have hwithin' : s'.position ≤ m'.last := by
    rw [hposition, hm.last]
    exact Nat.le_succ_of_le hs.within
  obtain ⟨hreply, hnext⟩ := hm.ask hworld hs.within s.carried
  have hexchange : s'.exchange m' = s.exchange m := by
    simp only [State.exchange, hposition, hcarried, hreply]
  have hhistory := (next_offer hs.within).1
  refine ⟨?_, ?_, ?_⟩
  · have hstep : (s.exchange m).step ≤ m.last := hs.within
    rw [(next_offer hwithin').1, hhistory, hexchange, List.filter_cons,
      if_pos (by simpa using hstep), hasked]
  · rw [hhistory, List.reverse_cons]
    refine upTo_snoc ?_
    rwa [List.filterMap_reverse, List.length_reverse, ← hs.results]
  · have hstanding := hm.react (s.exchange m :: s.history) (s'.exchange m' :: s'.history) hnext
      hs.within (hs.behind hover) hbelow
      (m.ask s.position s.carried s.world).1
    unfold next
    simp only [hposition, hcarried, hfinished, hresults, hreply]
    simpa only [hposition, hcarried, hfinished, hresults, hreply, State.exchange] using hstanding

section
variable {results : List W} {history : List (Exchange W)}

theorem Standing.full (hresults : s.results = results) (hlimit : s.results.length ≤ limit)
    (hfull : limit ≤ s.results.length) :
    Standing m limit m' R s
      (State.react m' ⟨m'.last, s.finished, none, results, world', history⟩ .done) := by
  refine .halted ?_ ?_ hlimit (.inl hfull)
  · simp [State.react, State.advance, State.isOver]
  · simp [State.react, State.advance, hresults]

theorem Gated.passed (hm : Gated m limit m' R) {w : W} (hlast : s.position = m.last)
    (hcarried : s.carried = none) (hresults : s.results = w :: results)
    (hworld : R s.world (results.length + 1) world') (hlimit : s.results.length ≤ limit) :
    Standing m limit m' R s
      (State.react m' ⟨m'.last, s.finished, none, results, world', history⟩ (.walker w)) := by
  refine .gate ?_ hlast ?_ hcarried ?_ ?_ hlimit
  · simp [State.react, State.advance, hm.last]
  · simp [State.react, State.advance]
  · simp [State.react, State.advance, hresults]
  · simpa [State.react, State.advance] using hworld

/-- The gate pulls: from the last step that both have, or in vain where that is finished. -/
theorem Gated.pulled (hm : Gated m limit m' R) (hs : Orderly m s) (hlast : s.position = m.last)
    (hcarried : s.carried = none) (hresults : s.results = results)
    (hworld : R s.world results.length world') (hopen : results.length < limit) :
    Standing m limit m' R s
      (State.react m' ⟨m'.last, s.finished, none, results, world', history⟩ .pull) := by
  subst hresults
  cases hover : s.isOver m with
  | true =>
    have hend : s.finished = some m.last := by simpa [State.isOver] using hover
    refine .halted ?_ ?_ (Nat.le_of_lt hopen) (.inr hover)
    · simp [State.react, State.advance, State.isOver, State.canPull, hend, hm.last]
    · simp [State.react, State.advance, State.canPull, hend, hm.last]
  | false =>
    have hcan : s.finished.all (· < m.last) := by
      cases hd : s.finished with
      | none => rfl
      | some d => simpa [← hlast] using hs.behind hover d hd
    refine .within ?_ ?_ ?_ ?_ ?_ hover hopen
    · simp [State.react, State.canPull, hm.last, hcan, hlast]
    · simp [State.react, State.canPull, hm.last, hcan]
    · simp [State.react, State.canPull, hm.last, hcan, hcarried]
    · simp [State.react, State.canPull, hm.last, hcan]
    · simpa [State.react, State.canPull, hm.last, hcan] using hworld

end

/-- A question to the gate changes nothing beside. -/
theorem Gated.next_gate (hm : Gated m limit m' R) (hs : Orderly m s)
    (h : Beside m limit m' R s s') (hgate : s'.position = m'.last)
    (hover : s'.isOver m' = false) : Beside m limit m' R s (m'.next s') := by
  refine ⟨?_, h.uncut, ?_⟩
  · have hstep : ¬ (s'.exchange m').step ≤ m.last := by
      show ¬ s'.position ≤ m.last
      rw [hgate, hm.last]
      exact Nat.not_succ_le_self m.last
    rw [(next_offer (Nat.le_of_eq hgate)).1, List.filter_cons, if_neg (by simpa using hstep),
      h.asked]
  · cases h.standing with
    | within hposition =>
      have hwithin := hs.within
      rw [← hposition, hgate, hm.last] at hwithin
      exact absurd hwithin (Nat.not_succ_le_self m.last)
    | halted hend => rw [hend] at hover; cases hover
    | gate hposition hlast hfinished hcarried hresults hworld hlimit =>
      obtain ⟨position, finished, carried, results, world', history⟩ := s'
      obtain rfl : position = m'.last := hgate
      obtain rfl : finished = s.finished := hfinished
      unfold Machine.next
      cases carried with
      | none =>
        have hsame : s.results = results := hresults
        obtain hopen | hfull := Nat.lt_or_ge results.length limit
        · obtain ⟨hreply, hkept⟩ := hm.pull hworld hopen
          simp only [hreply]
          exact hm.pulled hs hlast hcarried hsame hkept hopen
        · have hreply := hm.full hworld hfull none
          simp only [hreply]
          exact .full hsame hlimit (hsame ▸ hfull)
      | some w =>
        have hpassed : s.results = w :: results := hresults
        have hopen : results.length < limit := by rwa [hpassed, List.length_cons] at hlimit
        obtain ⟨hreply, hcounted⟩ := hm.pass hworld hopen w
        simp only [hreply]
        exact hm.passed hlast hcarried hpassed hcounted hlimit

-- ---------------------------------------------------------------------------
-- Whole runs
-- ---------------------------------------------------------------------------

theorem Gated.start (hm : Gated m limit m' R) (hworld : R world 0 world') :
    Beside m limit m' R (m.start world) (m'.start world') where
  asked := rfl
  uncut := Exchange.upTo_nil m.last limit
  standing := .gate hm.last rfl rfl rfl rfl hworld (Nat.zero_le limit)

/-- Every question to the machine with the gate is one to the machine without, or to the gate. -/
theorem Gated.next (hm : Gated m limit m' R) (hs : Orderly m s) (h : Beside m limit m' R s s')
    (hover : s'.isOver m' = false) :
    s.isOver m = false ∧ Beside m limit m' R (m.next s) (m'.next s') ∨
      Beside m limit m' R s (m'.next s') := by
  cases h.standing with
  | within hposition hfinished hcarried hresults hworld hopen hbelow =>
    exact .inl ⟨hopen,
      hm.next_within hs h.asked hposition hfinished hcarried hresults hworld hopen hbelow⟩
  | gate hposition => exact .inr (hm.next_gate hs h (hposition.trans hm.last.symm) hover)
  | halted hend => rw [hend] at hover; cases hover

/-- Wherever the machine with the gate comes, the machine without is asked the same. -/
theorem Gated.questions (hm : Gated m limit m' R) (hworld : R world 0 world')
    (h : m'.Reaches (m'.start world') s') :
    ∃ s, m.Reaches (m.start world) s ∧ Beside m limit m' R s s' := by
  induction h with
  | refl => exact ⟨_, .refl, hm.start hworld⟩
  | next _ hover ih =>
    obtain ⟨s, hreach, hbeside⟩ := ih
    obtain ⟨hopen, hnext⟩ | hsame := hm.next hreach.orderly hbeside hover
    · exact ⟨_, hreach.next hopen, hnext⟩
    · exact ⟨s, hreach, hsame⟩

/-- Not at the last step, or over. -/
def State.Settled (m' : Machine W τ) (s' : State W τ) : Prop :=
  s'.position < m'.last ∨ s'.isOver m' = true

/-- A gate without a walker pulls or is done, so it is left or the run is over. -/
theorem Gated.leaves (hm : Gated m limit m' R) {passed : Nat} (hworld : R world passed s'.world)
    (hposition : s'.position = m'.last) (hcarried : s'.carried = none) :
    State.Settled m' (m'.next s') := by
  have hpositive : 0 < m'.last := hm.last ▸ Nat.succ_pos m.last
  obtain hopen | hfull := Nat.lt_or_ge passed limit
  · have hreply := (hm.pull hworld hopen).1
    unfold Machine.next State.Settled
    simp only [hposition, hcarried, hreply, State.react]
    split
    next => exact .inl (Nat.sub_lt hpositive Nat.one_pos)
    next => exact .inr (by simp [State.advance, State.isOver])
  · have hreply := hm.full hworld hfull none
    unfold Machine.next State.Settled
    simp only [hposition, hcarried, hreply, State.react]
    exact .inr (by simp [State.advance, State.isOver])

theorem Beside.related (h : Beside m limit m' R s s') (hover : s'.isOver m' = false) :
    ∃ passed, R s.world passed s'.world := by
  cases h.standing with
  | within _ _ _ _ hworld => exact ⟨_, hworld⟩
  | gate _ _ _ _ _ hworld => exact ⟨_, hworld⟩
  | halted hend => rw [hend] at hover; cases hover

/-- The gate is asked at most twice before the run goes on: for the walker that it was handed, and
for another. -/
theorem Gated.settles (hm : Gated m limit m' R) (hs : Orderly m s)
    (h : Beside m limit m' R s s') (hwithin : s'.position ≤ m'.last) :
    ∃ t', m'.Reaches s' t' ∧ Beside m limit m' R s t' ∧ State.Settled m' t' := by
  have hempty : ∀ {t'}, Beside m limit m' R s t' → t'.position ≤ m'.last → t'.carried = none →
      ∃ u', m'.Reaches t' u' ∧ Beside m limit m' R s u' ∧ State.Settled m' u' := by
    intro t' ht hle hnone
    cases hover : t'.isOver m' with
    | true => exact ⟨t', .refl, ht, .inr hover⟩
    | false =>
      obtain hlt | hgate := Nat.lt_or_eq_of_le hle
      · exact ⟨t', .refl, ht, .inl hlt⟩
      · obtain ⟨passed, hworld⟩ := ht.related hover
        exact ⟨_, .next .refl hover, hm.next_gate hs ht hgate hover, hm.leaves hworld hgate hnone⟩
  cases hover : s'.isOver m' with
  | true => exact ⟨s', .refl, h, .inr hover⟩
  | false =>
    obtain hlt | hgate := Nat.lt_or_eq_of_le hwithin
    · exact ⟨s', .refl, h, .inl hlt⟩
    · have hnone : (m'.next s').carried = none := by
        rw [(next_offer hwithin).2.1]
        exact if_neg (Nat.not_lt.mpr (Nat.le_of_eq hgate.symm))
      have hle : (m'.next s').position ≤ m'.last := by
        obtain ⟨-, hleft, -⟩ | ⟨hright, -⟩ := next_moves hwithin
        · omega
        · exact hright ▸ Nat.min_le_right _ _
      obtain ⟨t', hreach, ht⟩ := hempty (hm.next_gate hs h hgate hover) hle hnone
      exact ⟨t', (Reaches.next .refl hover).trans hreach, ht⟩

theorem Orderly.finished_le (h : Orderly m s) {d : Nat} (hd : d ∈ s.finished) : d ≤ m.last := by
  cases hover : s.isOver m with
  | true =>
    have hlast : s.finished = some m.last := by simpa [State.isOver] using hover
    rw [hlast] at hd
    exact Nat.le_of_eq (Option.some.inj hd).symm
  | false => exact Nat.le_trans (Nat.le_of_lt (h.behind hover d hd)) h.within

/-- With the gate a run is over where the number is full, or where it is over without. -/
theorem Beside.over (hm : Gated m limit m' R) (hs : Orderly m s) (h : Beside m limit m' R s s')
    (hover : s'.isOver m' = true) :
    s'.results = s.results ∧ (limit ≤ s.results.length ∨ s.isOver m = true) := by
  have hopen : s'.finished ≠ s.finished := by
    intro hsame
    have hlast : s'.finished = some m'.last := by simpa [State.isOver] using hover
    have hle := hs.finished_le (hsame.symm.trans hlast)
    rw [hm.last] at hle
    exact Nat.not_succ_le_self m.last hle
  cases h.standing with
  | within _ hfinished => exact absurd hfinished hopen
  | gate _ _ hfinished => exact absurd hfinished hopen
  | halted _ hresults _ hend => exact ⟨hresults, hend⟩

theorem Beside.isOver (hm : Gated m limit m' R) (h : Beside m limit m' R s s')
    (hsettled : State.Settled m' s') (hend : limit ≤ s.results.length ∨ s.isOver m = true) :
    s'.isOver m' = true := by
  obtain hleft | hover := hsettled
  · cases h.standing with
    | within _ _ _ _ _ hopen hbelow =>
      obtain hfull | hover := hend
      · exact absurd hbelow (Nat.not_lt.mpr hfull)
      · rw [hopen] at hover
        cases hover
    | gate hposition =>
      rw [hposition, hm.last] at hleft
      exact absurd hleft (Nat.lt_irrefl _)
    | halted hover => exact hover
  · exact hover

theorem Gated.next_settled (hm : Gated m limit m' R) (hs : Orderly m s)
    (h : Beside m limit m' R s s') (hsettled : State.Settled m' s')
    (hopen : s'.isOver m' = false) : Beside m limit m' R (m.next s) (m'.next s') := by
  cases h.standing with
  | within hposition hfinished hcarried hresults hworld hover hbelow =>
    exact hm.next_within hs h.asked hposition hfinished hcarried hresults hworld hover hbelow
  | gate hposition =>
    obtain hlt | hend := hsettled
    · rw [hposition, hm.last] at hlt
      exact absurd hlt (Nat.lt_irrefl _)
    · rw [hopen] at hend
      cases hend
  | halted hend => rw [hopen] at hend; cases hend

/-- However far the machine without the gate comes, the machine with it comes as far, unless the
number is full before. -/
theorem Gated.keeps_up (hm : Gated m limit m' R) (hworld : R world 0 world')
    (h : m.Reaches (m.start world) s) :
    ∃ s₀ s', m.Reaches (m.start world) s₀ ∧ m.Reaches s₀ s ∧
      (s₀ = s ∨ limit ≤ s₀.results.length) ∧
      m'.Reaches (m'.start world') s' ∧ Beside m limit m' R s₀ s' ∧ State.Settled m' s' := by
  induction h with
  | refl =>
    obtain ⟨s', hreach, hbeside, hsettled⟩ :=
      hm.settles (.start m world) (hm.start hworld) (Nat.le_refl m'.last)
    exact ⟨_, s', .refl, .refl, .inl rfl, hreach, hbeside, hsettled⟩
  | @next s hreach hover ih =>
    obtain ⟨s₀, s', hreach₀, hlater, hsame, hreach', hbeside, hsettled⟩ := ih
    have horderly := hreach₀.orderly
    cases hopen : s'.isOver m' with
    | true =>
      -- The other went on alone, after its number was full.
      obtain ⟨-, hend⟩ := hbeside.over hm horderly hopen
      have hfull : limit ≤ s₀.results.length := by
        obtain rfl | hfull := hsame
        · exact hend.resolve_right (by simp [hover])
        · exact hfull
      exact ⟨s₀, s', hreach₀, hlater.next hover, .inr hfull, hreach', hbeside, hsettled⟩
    | false =>
      obtain rfl | hfull := hsame
      · have hnext' := hreach'.next hopen
        obtain ⟨t', hlater', hbeside', hsettled'⟩ :=
          hm.settles (horderly.next hover) (hm.next_settled horderly hbeside hsettled hopen)
            hnext'.orderly.within
        exact ⟨_, t', hreach₀.next hover, .refl, .inl rfl, hnext'.trans hlater', hbeside',
          hsettled'⟩
      · exact ⟨s₀, s', hreach₀, hlater.next hover, .inr hfull, hreach', hbeside, hsettled⟩

/-- What a full number cuts off. -/
theorem Beside.cut {s₀ : State W σ} (h : Beside m limit m' R s₀ s') (hs₀ : Orderly m s₀)
    (hs : Orderly m s) (hlater : m.Reaches s₀ s) (hfull : s₀ = s ∨ limit ≤ s₀.results.length) :
    upTo m.last limit s.history.reverse = s₀.history.reverse ∧
      s.results.reverse.take limit = s₀.results.reverse := by
  have hlimit := h.standing.length_le
  obtain rfl | hfull := hfull
  · refine ⟨h.uncut, List.take_of_length_le ?_⟩
    rwa [List.length_reverse]
  · obtain ⟨asked, hhistory, -⟩ := (hlater.later hs₀).asked
    have hcount : limit ≤ (s₀.history.reverse.filterMap (Exchange.result? m.last)).length := by
      rwa [List.filterMap_reverse, List.length_reverse, ← hs₀.results]
    refine ⟨?_, ?_⟩
    · rw [hhistory, List.reverse_append, upTo_append_of_le hcount, h.uncut]
    · rw [hs.results, hhistory, List.filterMap_append, ← hs₀.results, List.reverse_append]
      refine List.take_left' ?_
      rw [List.length_reverse]
      exact Nat.le_antisymm hlimit hfull

/-- What the machine without the gate is asked, the machine with it is asked up to the walker that
makes the number full, and with that walker, or where the other is over, it is over. -/
theorem Gated.comes_to (hm : Gated m limit m' R) (hworld : R world 0 world')
    (h : m.Reaches (m.start world) s) :
    ∃ s', m'.Reaches (m'.start world') s' ∧
      (s'.history.filter (·.step ≤ m.last)).reverse = upTo m.last limit s.history.reverse ∧
      ((limit ≤ s.results.length ∨ s.isOver m = true) →
        s'.isOver m' = true ∧ s'.results.reverse = s.results.reverse.take limit) := by
  obtain ⟨s₀, s', hreach₀, hlater, hsame, hreach', hbeside, hsettled⟩ := hm.keeps_up hworld h
  obtain ⟨hasked, hresults⟩ := hbeside.cut hreach₀.orderly h.orderly hlater hsame
  refine ⟨s', hreach', by rw [hbeside.asked, hasked], fun hend => ?_⟩
  have hend₀ : limit ≤ s₀.results.length ∨ s₀.isOver m = true := by
    obtain rfl | hfull := hsame
    · exact hend
    · exact .inl hfull
  have hover := hbeside.isOver hm hsettled hend₀
  exact ⟨hover, by rw [(hbeside.over hm hreach₀.orderly hover).1, hresults]⟩

end Machine

end GraphWalk
