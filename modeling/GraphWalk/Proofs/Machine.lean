import GraphWalk.Walk.Machine

/-!
# Runs of a machine

A finished run stays finished under a larger bound (`run_add`). `Leads` joins questions into
longer stretches of a run, without looking at the history, and `runFrom_lockstep` compares two
machines question by question.
-/

namespace GraphWalk.Machine

variable {W V σ τ : Type} {m : Machine W σ} {s t u : State W σ}

theorem runFrom_over (h : s.isOver m = true) (bound : Nat) : m.runFrom bound s = some s := by
  cases bound <;> simp [runFrom, h]

theorem runFrom_succ (h : s.isOver m = false) (bound : Nat) :
    m.runFrom (bound + 1) s = m.runFrom bound (m.next s) := by
  simp [runFrom, h]

/-- Induction over a run that ends. -/
@[elab_as_elim]
theorem runFrom_induction {motive : Nat → State W σ → Prop} {bound : Nat}
    (h : m.runFrom bound s = some t) (ended : t.isOver m = true → ∀ bound, motive bound t)
    (next : ∀ bound s, s.isOver m = false → m.runFrom bound (m.next s) = some t →
      motive bound (m.next s) → motive (bound + 1) s) :
    motive bound s := by
  induction bound generalizing s with
  | zero =>
    simp only [runFrom] at h
    split at h
    · rename_i hover
      obtain rfl := Option.some.inj h
      exact ended hover 0
    · cases h
  | succ bound ih =>
    cases hover : s.isOver m with
    | true =>
      rw [runFrom_over hover] at h
      obtain rfl := Option.some.inj h
      exact ended hover (bound + 1)
    | false =>
      rw [runFrom_succ hover] at h
      exact next bound s hover h (ih h)

theorem runFrom_add {bound : Nat} (h : m.runFrom bound s = some t) (extra : Nat) :
    m.runFrom (bound + extra) s = some t := by
  refine runFrom_induction h ?_ ?_
  · intro hover bound
    exact runFrom_over hover _
  · intro bound s hover _ ih
    rw [Nat.succ_add, runFrom_succ hover]
    exact ih

theorem run_add {bound : Nat} {world : σ} (h : m.run bound world = some t) (extra : Nat) :
    m.run (bound + extra) world = some t :=
  runFrom_add h extra

-- ---------------------------------------------------------------------------
-- Stretches of a run
-- ---------------------------------------------------------------------------

/-- Whatever was asked before, running on from `s` is running on from `t` after some questions. -/
def Leads (m : Machine W σ) (s t : State W σ) : Prop :=
  ∀ history, ∃ asked history', ∀ bound,
    m.runFrom (asked + bound) { s with history } = m.runFrom bound { t with history := history' }

theorem Leads.refl (s : State W σ) : m.Leads s s :=
  fun history => ⟨0, history, fun bound => by rw [Nat.zero_add]⟩

theorem Leads.trans (hst : m.Leads s t) (htu : m.Leads t u) : m.Leads s u := by
  intro history
  obtain ⟨a, history', ha⟩ := hst history
  obtain ⟨b, history'', hb⟩ := htu history'
  refine ⟨a + b, history'', fun bound => ?_⟩
  rw [Nat.add_assoc, ha, hb]

theorem advance_history (s : State W σ) (history : List (Exchange W)) :
    State.advance m { s with history } = { State.advance m s with history } := by
  unfold State.advance
  split <;> rfl

theorem react_history (s : State W σ) (history : List (Exchange W)) (reply : Reply W) :
    State.react m { s with history } reply = { State.react m s reply with history } := by
  cases reply with
  | pull =>
    have hcan : State.canPull { s with history } = s.canPull := rfl
    simp only [State.react, hcan]
    split
    · rfl
    · exact advance_history (m := m) { s with finished := some s.position } history
  | done => exact advance_history (m := m) { s with finished := some s.position } history
  | walker w => exact advance_history (m := m) { s with carried := some w } history
  | nothing => exact advance_history s history

theorem Leads.ask {reply : Reply W} {world : σ} (hover : s.isOver m = false)
    (hask : m.ask s.position s.carried s.world = (reply, world)) :
    m.Leads s (State.react m { s with carried := none, world } reply) := by
  intro history
  refine ⟨1, ⟨s.position, s.carried, reply⟩ :: history, fun bound => ?_⟩
  have hover' : State.isOver m { s with history } = false := hover
  rw [Nat.add_comm, runFrom_succ hover', ← react_history]
  simp only [next, hask]

theorem Leads.run {world : σ} (h : m.Leads (m.start world) t) (hover : t.isOver m = true) :
    ∃ bound history, m.run bound world = some { t with history } := by
  obtain ⟨asked, history, hrun⟩ := h []
  refine ⟨asked + 0, history, ?_⟩
  have hover' : State.isOver m { t with history } = true := hover
  exact (hrun 0).trans (runFrom_over hover' 0)

-- ---------------------------------------------------------------------------
-- Two machines
-- ---------------------------------------------------------------------------

/-- Machines whose states correspond after every question finish together, in corresponding
states. -/
theorem runFrom_lockstep {n : Machine V τ} {R : State W σ → State V τ → Prop}
    (hover : ∀ {s t}, R s t → s.isOver m = t.isOver n)
    (hnext : ∀ {s t}, R s t → R (m.next s) (n.next t)) {s : State W σ} {t : State V τ}
    (h : R s t) (bound : Nat) : Option.Rel R (m.runFrom bound s) (n.runFrom bound t) := by
  induction bound generalizing s t with
  | zero =>
    simp only [runFrom, hover h]
    split
    · exact .some h
    · exact .none
  | succ bound ih =>
    simp only [runFrom, hover h]
    split
    · exact .some h
    · exact ih (hnext h)

/-- The same state, with another world. -/
def State.inWorld (s : State W σ) (world : τ) : State W τ :=
  ⟨s.position, s.finished, s.carried, s.results, world, s.history⟩

theorem advance_inWorld {n : Machine W τ} (hlast : n.last = m.last) (s : State W σ) (world : τ) :
    State.advance n (s.inWorld world) = (State.advance m s).inWorld world := by
  unfold State.advance
  rw [hlast]
  show (if s.position < m.last then _ else _) = _
  split <;> rfl

theorem react_inWorld {n : Machine W τ} (hlast : n.last = m.last) (s : State W σ) (world : τ)
    (reply : Reply W) :
    State.react n (s.inWorld world) reply = (State.react m s reply).inWorld world := by
  have hcan : (s.inWorld world).canPull = s.canPull := rfl
  cases reply with
  | pull =>
    simp only [State.react, hcan]
    split
    · rfl
    · exact advance_inWorld hlast { s with finished := some s.position } world
  | done => exact advance_inWorld hlast { s with finished := some s.position } world
  | walker w => exact advance_inWorld hlast { s with carried := some w } world
  | nothing => exact advance_inWorld hlast s world

theorem react_world (s : State W σ) (reply : Reply W) :
    (State.react m s reply).world = s.world := by
  have hadvance : ∀ s : State W σ, (State.advance m s).world = s.world := by
    intro s
    unfold State.advance
    split <;> rfl
  cases reply with
  | pull =>
    simp only [State.react]
    split
    · rfl
    · exact hadvance _
  | done => exact hadvance _
  | walker w => exact hadvance _
  | nothing => exact hadvance _

theorem next_world (m : Machine W σ) (s : State W σ) :
    (m.next s).world = (m.ask s.position s.carried s.world).2 :=
  react_world _ _

/-- Where the worlds answer alike, so do the machines. -/
theorem next_inWorld {n : Machine W τ} (hlast : n.last = m.last) {world world' : τ}
    (hask : n.ask s.position s.carried world = ((m.ask s.position s.carried s.world).1, world')) :
    n.next (s.inWorld world) = (m.next s).inWorld world' := by
  have hask' : n.ask (s.inWorld world).position (s.inWorld world).carried (s.inWorld world).world =
      ((m.ask s.position s.carried s.world).1, world') := hask
  simp only [next, hask']
  exact react_inWorld hlast { s with
    carried := none
    world := (m.ask s.position s.carried s.world).2
    history := ⟨s.position, s.carried, (m.ask s.position s.carried s.world).1⟩ :: s.history }
    world' _

end GraphWalk.Machine
