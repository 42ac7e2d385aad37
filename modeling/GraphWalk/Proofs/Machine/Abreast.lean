import GraphWalk.Proofs.Machine.Orderly

/-!
# Lines with the same end

Two lines whose last steps do the same may differ in what stands before these. `Abreast` compares
the machines there: both stand at the same step, counted from the end, and what was finished,
carried and returned corresponds. `Abreast.next` carries this over a question that both answer
alike, and `runFrom_paced` compares whole runs in which one machine needs more questions.
-/

namespace GraphWalk

variable {W α σ τ : Type}

def Reply.map (f : W → W) : Reply W → Reply W
  | walker w => walker (f w)
  | pull => pull
  | done => done
  | nothing => nothing

@[simp] theorem Reply.map_id (reply : Reply W) : reply.map id = reply := by
  cases reply <;> rfl

namespace Machine

variable {m : Machine W σ} {n : Machine W τ} {k : Nat} {f f' : W → W} {out : W → α}
  {s : State W σ} {t : State W τ} {reply : Reply W}

/-- The second machine has `k` more steps in front. Its walkers are those of the first under `f`,
and no output tells them apart. -/
structure Abreast (k : Nat) (f : W → W) (out : W → α) (s : State W σ) (t : State W τ) : Prop where
  position : t.position = s.position + k
  finished : t.finished = s.finished.map (· + k)
  carried : t.carried = s.carried.map f
  results : t.results.map out = s.results.map out

namespace Abreast

theorem start (hlast : n.last = m.last + k) (f : W → W) (out : W → α) (world : σ) (world' : τ) :
    Abreast k f out (m.start world) (n.start world') :=
  ⟨hlast, rfl, rfl, rfl⟩

theorem isOver (h : Abreast k f out s t) (hlast : n.last = m.last + k) :
    s.isOver m = t.isOver n := by
  rw [State.isOver, State.isOver, h.finished, hlast]
  cases s.finished <;> simp

theorem canPull (h : Abreast k f out s t) (hpos : 0 < s.position) : t.canPull = s.canPull := by
  have hpos' : 0 < s.position + k := Nat.add_pos_left hpos k
  rw [State.canPull, State.canPull, h.position, h.finished]
  cases s.finished with
  | none => simp [hpos, hpos']
  | some d =>
    have hless : d + k < s.position + k - 1 ↔ d < s.position - 1 := by omega
    simp [hpos, hpos', hless]

theorem advance (h : Abreast k f out s t) (hlast : n.last = m.last + k)
    (hout : ∀ w, out (f w) = out w) :
    Abreast k f out (State.advance m s) (State.advance n t) := by
  have hless : t.position < n.last ↔ s.position < m.last := by
    rw [h.position, hlast, Nat.add_lt_add_iff_right]
  unfold State.advance
  simp only [hless]
  split
  · refine ⟨?_, h.finished, h.carried, h.results⟩
    show t.position + 1 = s.position + 1 + k
    rw [h.position, Nat.add_right_comm]
  · refine ⟨hlast, h.finished, rfl, ?_⟩
    rw [List.map_append, List.map_append, h.results, h.carried]
    cases s.carried <;> simp [hout]

theorem react (h : Abreast k f out s t) (hlast : n.last = m.last + k)
    (hout : ∀ w, out (f w) = out w) (hpull : reply = .pull → 0 < s.position) :
    Abreast k f out (State.react m s reply) (State.react n t (reply.map f)) := by
  have hfinished : some t.position = (some s.position).map (· + k) := congrArg some h.position
  cases reply with
  | pull =>
    have hpos := hpull rfl
    simp only [Reply.map, State.react, h.canPull hpos]
    split
    · refine ⟨?_, h.finished, h.carried, h.results⟩
      show t.position - 1 = s.position - 1 + k
      rw [h.position]
      omega
    · exact advance ⟨h.position, hfinished, h.carried, h.results⟩ hlast hout
  | done => exact advance ⟨h.position, hfinished, h.carried, h.results⟩ hlast hout
  | walker w => exact advance ⟨h.position, h.finished, rfl, h.results⟩ hlast hout
  | nothing => exact advance h hlast hout

/-- One question, answered alike. A first step that pulls would finish here, and go on to pull from
the steps in front there. -/
theorem next (h : Abreast k f out s t) (hlast : n.last = m.last + k)
    (hout : ∀ w, out (f' w) = out w)
    (hask : (n.ask t.position t.carried t.world).1 =
      (m.ask s.position s.carried s.world).1.map f')
    (hpull : (m.ask s.position s.carried s.world).1 = .pull → 0 < s.position) :
    Abreast k f' out (m.next s) (n.next t) := by
  simp only [Machine.next, hask]
  exact react (by exact ⟨h.position, h.finished, rfl, h.results⟩) hlast hout hpull

end Abreast

-- ---------------------------------------------------------------------------
-- Runs of different length
-- ---------------------------------------------------------------------------

/-- Where every question of one machine takes the other at least one, the runs of both come to an
end together, in corresponding states. -/
theorem runFrom_paced {R : State W σ → State W τ → Prop}
    (hover : ∀ {s t}, R s t → s.isOver m = t.isOver n)
    (hnext : ∀ {s t}, R s t → s.isOver m = false → ∃ more t', R (m.next s) t' ∧
      ∀ bound, n.runFrom (more + (bound + 1)) t = n.runFrom bound t')
    (h : R s t) :
    (∀ bound s', m.runFrom bound s = some s' →
      ∃ bound' t', n.runFrom bound' t = some t' ∧ R s' t') ∧
      ∀ bound t', n.runFrom bound t = some t' →
        ∃ bound' s', m.runFrom bound' s = some s' ∧ R s' t' := by
  constructor
  · intro bound s' hrun
    revert h
    refine runFrom_induction hrun ?_ ?_ t
    · intro hends _ t h
      exact ⟨0, t, runFrom_over (hover h ▸ hends) 0, h⟩
    · intro bound s hends _ ih t h
      obtain ⟨more, t', hst, hleads⟩ := hnext h hends
      obtain ⟨bound', u, hu, hsu⟩ := ih t' hst
      exact ⟨more + (bound' + 1), u, (hleads bound').trans hu, hsu⟩
  · intro bound t' hrun
    induction bound generalizing s t with
    | zero =>
      simp only [runFrom] at hrun
      split at hrun
      next hends =>
        obtain rfl := Option.some.inj hrun
        exact ⟨0, s, runFrom_over ((hover h).trans hends) 0, h⟩
      next => cases hrun
    | succ bound ih =>
      cases hends : s.isOver m with
      | true =>
        rw [runFrom_over ((hover h).symm.trans hends)] at hrun
        obtain rfl := Option.some.inj hrun
        exact ⟨0, s, runFrom_over hends 0, h⟩
      | false =>
        obtain ⟨more, u, hsu, hleads⟩ := hnext h hends
        -- with more questions allowed the run ends in the same state
        have hmore := runFrom_add hrun more
        rw [Nat.add_comm, hleads] at hmore
        obtain ⟨bound', s', hs', hst'⟩ := ih hsu hmore
        exact ⟨bound' + 1, s', (runFrom_succ hends bound').trans hs', hst'⟩

end Machine

end GraphWalk
