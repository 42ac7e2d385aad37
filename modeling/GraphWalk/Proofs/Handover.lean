import GraphWalk.Proofs.Machine.Orderly
import GraphWalk.Proofs.Query

/-!
# Walkers handed to steps

A step is handed a walker only after it pulled, so what a pull leaves in a step's memory is what
the walker meets: nothing still to be offered at `in`, `out` and `merge`, and a count below the
limit at `take`. `run_orderly` says so of every state of every run.
-/

namespace GraphWalk

open Machine (State Orderly Later)

namespace Pipe

variable {g : Graph} {args : List Arg} {input : Option Walker} {m : Memory} {o : Origins}

/-- With nothing left to offer, what was offered before does not matter. -/
theorem cross_emptied (d : Direction) (g : Graph) (args : List Arg) (w : Walker)
    (source : Option Walker) (o : Origins) :
    cross d g args (some w) (.crossing source []) o = cross d g args (some w) .untouched o := by
  cases source <;> rfl

theorem merge_emptied (g : Graph) (args : List Arg) (w : Walker) (source : Option Walker)
    (o : Origins) :
    merge g args (some w) (.spread source []) o = merge g args (some w) .untouched o := by
  cases source <;> rfl

theorem cross_of_pull {d : Direction} (h : (cross d g args input m o).reply = .pull) :
    ∃ source, (cross d g args input m o).memory = .crossing source [] := by
  have hempty : ∀ source, (cross d g args input (.crossing source []) o).reply = .pull →
      ∃ source', (cross d g args input (.crossing source []) o).memory =
        .crossing source' [] := by
    intro source h
    cases input with
    | none => cases source <;> exact ⟨_, rfl⟩
    | some w =>
      rw [cross_emptied] at h ⊢
      simp only [cross] at h ⊢
      split at h
      next => exact ⟨some w, rfl⟩
      next => cases h
  cases m with
  | crossing source edges =>
    cases source with
    | none => cases input <;> exact hempty none h
    | some w =>
      cases edges with
      | nil => exact hempty (some w) h
      | cons edge rest => cases h
  | _ => exact hempty none h

theorem merge_of_pull (h : (merge g args input m o).reply = .pull) :
    ∃ source, (merge g args input m o).memory = .spread source [] := by
  have hempty : ∀ source, (merge g args input (.spread source []) o).reply = .pull →
      ∃ source', (merge g args input (.spread source []) o).memory = .spread source' [] := by
    intro source h
    cases input with
    | none => cases source <;> exact ⟨_, rfl⟩
    | some w =>
      rw [merge_emptied] at h ⊢
      simp only [merge] at h ⊢
      split at h
      next => exact ⟨some w, rfl⟩
      next => cases h
  cases m with
  | spread source vertices =>
    cases source with
    | none => cases input <;> exact hempty none h
    | some w =>
      cases vertices with
      | nil => exact hempty (some w) h
      | cons v rest => cases h
  | _ => exact hempty none h

theorem take_of_pull (h : (take g args input m o).reply = .pull) :
    ∃ count, (take g args input m o).memory = .taken count ∧ ∀ n ∈ limit? args, count < n := by
  have hcount : ∀ count, (take g args input (.taken count) o).reply = .pull →
      (take g args input (.taken count) o).memory = .taken count ∧
        ∀ n ∈ limit? args, count < n := by
    intro count h
    simp only [take] at h ⊢
    split at h
    next => cases h
    next hbelow =>
      rw [if_neg hbelow]
      cases input with
      | none =>
        refine ⟨rfl, fun n hn => Nat.lt_of_not_le fun hle => hbelow ?_⟩
        rw [Option.mem_def.mp hn]
        simpa using hle
      | some w => cases h
  cases m with
  | taken count => exact ⟨count, hcount count h⟩
  | _ => exact ⟨0, hcount 0 h⟩

theorem take_below {count : Nat} (h : ∀ n ∈ limit? args, count < n) (w : Walker) :
    (take g args (some w) (.taken count) o).reply = .walker w := by
  have hbelow : (limit? args).any (· ≤ count) = false := by
    cases hlimit : limit? args with
    | none => rfl
    | some n => simpa using h n hlimit
  simp [take, hbelow]

end Pipe

namespace Query

variable {q : Query} {s : State Walker World} {w : World}

/-- Every step has a memory, whatever it holds. -/
def Provided (q : Query) : Prop := q.prepare.memories.size = q.prepare.program.length

/-- Where a run starts. -/
def begin (q : Query) : State Walker World :=
  q.prepare.machine.start ⟨q.prepare.memories, q.prepare.origins, []⟩

theorem prepare_prepare (q : Query) : q.prepare.prepare = q.prepare := by
  cases h : q.prepared <;> simp [prepare, h]

theorem provided_new (g : Graph) (r : Registry) (p : Program) : (new g r p).Provided :=
  Array.size_replicate

theorem size_stages (q : Query) : q.stages.size = q.program.length := by simp [stages]

theorem size_memories (h : q.machine.Reaches (q.machine.start w) s) :
    s.world.memories.size = w.memories.size := by
  induction h with
  | refl => rfl
  | next _ _ ih =>
    rw [Machine.next_world]
    exact (size_askStage _ _ _ _ _).trans ih

/-- A step's memory is what its latest answer left behind. -/
theorem memory_of_latest (hsize : w.memories.size = q.program.length)
    (h : q.machine.Reaches (q.machine.start w) s) {i : Nat} {pipe : Pipe} {args : List Arg}
    (hstage : q.stages[i]? = some (pipe, args)) {reply : Reply Walker}
    (hlatest : Exchange.latest i s.history = some reply) :
    ∃ input m o, (pipe q.graph args input m o).reply = reply ∧
      s.world.memories[i]? = some (pipe q.graph args input m o).memory := by
  induction h with
  | refl => cases hlatest
  | @next t hreach hover ih =>
    have hstep : (t.exchange q.machine).step = t.position := rfl
    have hreply : (t.exchange q.machine).reply =
      (askStage q.graph q.stages t.position t.carried t.world).1 := rfl
    rw [(Machine.next_offer hreach.orderly.within).1, Exchange.latest_cons, hstep, hreply]
      at hlatest
    rw [Machine.next_world]
    show ∃ input m o, _ ∧
      (askStage q.graph q.stages t.position t.carried t.world).2.memories[i]? = _
    by_cases hi : t.position = i
    · subst hi
      have hin : t.position < t.world.memories.size := by
        rw [size_memories hreach, hsize, ← size_stages]
        exact (Array.getElem?_eq_some_iff.mp hstage).1
      rw [if_pos rfl, askStage, hstage, Option.some.injEq] at hlatest
      refine ⟨_, _, _, hlatest, ?_⟩
      simp [askStage, hstage, hin]
    · rw [if_neg hi] at hlatest
      obtain ⟨input, m, o, hasked, hmemory⟩ := ih hlatest
      refine ⟨input, m, o, hasked, ?_⟩
      rw [← hmemory, askStage]
      split
      · rfl
      · exact Array.getElem?_setIfInBounds_ne hi

/-- A run that returns has gone from its start to a state in which it is over. -/
theorem reaches_of_run (hne : q.prepare.program ≠ []) {bound : Nat} {r : Run}
    (h : q.run bound = some r) :
    ∃ s, q.prepare.machine.Reaches q.begin s ∧ s.isOver q.prepare.machine = true ∧
      r.outputs = s.results.reverse.map Output.ofWalker ∧ r.history = s.history.reverse ∧
      r.query = { q.prepare with memories := s.world.memories, origins := s.world.origins } := by
  simp only [run, List.isEmpty_iff, hne, if_false, Option.map_eq_some_iff] at h
  obtain ⟨s, hrun, rfl⟩ := h
  obtain ⟨hreach, hover⟩ := Machine.reaches_of_runFrom hrun
  exact ⟨s, hreach, hover, rfl, rfl, rfl⟩

theorem prepared_prepare (q : Query) : q.prepare.prepared = true := by
  cases h : q.prepared <;> simp [prepare, h]

theorem run_prepared {bound : Nat} {r : Run} (h : q.run bound = some r) :
    r.query.prepared = true := by
  obtain ⟨memories, o, hquery⟩ := run_query h
  rw [hquery]
  exact q.prepared_prepare

theorem Provided.run (h : q.Provided) {bound : Nat} {r : Run} (hrun : q.run bound = some r) :
    r.query.Provided := by
  by_cases hne : q.prepare.program = []
  · simp only [Query.run, hne, List.isEmpty_nil, if_true, Option.some.injEq] at hrun
    obtain rfl := hrun
    rw [Provided, prepare_prepare]
    exact h
  · obtain ⟨s, hreach, -, -, -, hquery⟩ := reaches_of_run hne hrun
    have hprepare : r.query.prepare = r.query := if_pos (hquery ▸ q.prepared_prepare)
    rw [Provided, hprepare, hquery]
    exact (size_memories hreach).trans h

/-- What a pipe keeps when it is handed a walker, if it may lose one: nothing is still to be
offered, and the number let pass is below the limit. So it answers as if it had never been
asked, and a walker that comes to a `take` passes. -/
structure Receives (g : Graph) (args : List Arg) (w : Walker) (m : Memory) (o : Origins)
    (pipe : Pipe) : Prop where
  cross : ∀ d, pipe = .cross d → (∃ source, m = .crossing source []) ∧
    pipe g args (some w) m o = pipe g args (some w) .untouched o
  merge : pipe = .merge → (∃ source, m = .spread source []) ∧
    pipe g args (some w) m o = pipe g args (some w) .untouched o
  take : pipe = .take → (∃ count, m = .taken count ∧ ∀ n ∈ Pipe.limit? args, count < n) ∧
    (pipe g args (some w) m o).reply = .walker w

theorem receives_of_pull {pipe : Pipe} {g : Graph} {args : List Arg} {input : Option Walker}
    {m : Memory} {o : Origins} (h : (pipe g args input m o).reply = .pull) (w : Walker)
    (o' : Origins) : Receives g args w (pipe g args input m o).memory o' pipe := by
  refine ⟨?_, ?_, ?_⟩
  · rintro d rfl
    obtain ⟨source, hmemory⟩ := Pipe.cross_of_pull h
    rw [hmemory]
    exact ⟨⟨source, rfl⟩, Pipe.cross_emptied d g args w source o'⟩
  · rintro rfl
    obtain ⟨source, hmemory⟩ := Pipe.merge_of_pull h
    rw [hmemory]
    exact ⟨⟨source, rfl⟩, Pipe.merge_emptied g args w source o'⟩
  · rintro rfl
    obtain ⟨count, hmemory, hbelow⟩ := Pipe.take_of_pull h
    rw [hmemory]
    exact ⟨⟨count, rfl, hbelow⟩, Pipe.take_below hbelow w⟩

/-- Runs are orderly, whatever their steps do and keep. So from any memories, those left by earlier
runs among them, no walker is handed to an `in`, `out`, `merge` or `take` that would lose it. -/
theorem run_orderly :
    (∀ {W σ : Type} (m : Machine W σ) (world : σ) (s t : State W σ),
      m.Reaches (m.start world) s → m.Reaches s t → Orderly m s ∧ Later s t) ∧
    ∀ q : Query, q.Provided →
      (∀ bound r, q.run bound = some r → r.query.Provided ∧ (q.prepare.program ≠ [] →
        ∃ s, q.prepare.machine.Reaches q.begin s ∧ s.isOver q.prepare.machine = true ∧
          r.outputs = s.results.reverse.map Output.ofWalker ∧ r.history = s.history.reverse)) ∧
      (q.prepare.program ≠ [] → ∀ s, q.prepare.machine.Reaches q.begin s →
        s.position < q.prepare.program.length ∧
        ∀ w ∈ s.carried, ∀ pipe args, q.prepare.stages[s.position]? = some (pipe, args) →
          ∃ m, s.world.memories[s.position]? = some m ∧
            Receives q.prepare.graph args w m s.world.origins pipe) := by
  refine ⟨fun m world s t hs ht => ⟨hs.orderly, ht.later hs.orderly⟩, fun q hq => ⟨?_, ?_⟩⟩
  · intro bound r hrun
    refine ⟨hq.run hrun, fun hne => ?_⟩
    obtain ⟨s, hreach, hover, houtputs, hhistory, -⟩ := reaches_of_run hne hrun
    exact ⟨s, hreach, hover, houtputs, hhistory⟩
  · intro hne s hs
    have horderly : Orderly q.prepare.machine s := Machine.Reaches.orderly hs
    have hlength := List.length_pos_iff.mpr hne
    refine ⟨?_, fun w hw pipe args hstage => ?_⟩
    · have hwithin : s.position ≤ q.prepare.program.length - 1 := horderly.within
      omega
    · have hpull := horderly.awaited (Option.isSome_of_mem hw)
      obtain ⟨input, m, o, hreply, hmemory⟩ :=
        memory_of_latest (q := q.prepare) (w := ⟨_, _, []⟩) hq hs hstage hpull
      exact ⟨_, hmemory, receives_of_pull hreply w s.world.origins⟩

/-- From every vertex along its edges, one walker at a time. -/
def stepwise : Query :=
  new .fork .standard [⟨"vertex", []⟩, ⟨"out", []⟩, ⟨"take", [.value (.int 1)]⟩]

/-- A run of `stepwise` when `out` is first handed a walker. -/
def stepwise.arrival : State Walker World :=
  let m := stepwise.prepare.machine
  m.next (m.next (m.next stepwise.begin))

theorem run_orderly_fork : stepwise.Provided ∧ stepwise.prepare.program ≠ [] ∧
    stepwise.prepare.machine.Reaches stepwise.begin stepwise.arrival ∧
    stepwise.arrival.carried = some ⟨2, 0, none⟩ ∧
    Orderly stepwise.prepare.machine stepwise.arrival ∧
    ∃ m, stepwise.arrival.world.memories[1]? = some m ∧
      Receives .fork [] ⟨2, 0, none⟩ m stepwise.arrival.world.origins (.cross .outgoing) := by
  have hprovided : stepwise.Provided := provided_new .fork .standard _
  have hne : stepwise.prepare.program ≠ [] := nofun
  have hreach : stepwise.prepare.machine.Reaches stepwise.begin stepwise.arrival :=
    .next (.next (.next .refl rfl) rfl) rfl
  refine ⟨hprovided, hne, hreach, rfl, (run_orderly.1 _ _ _ _ hreach .refl).1, ?_⟩
  exact ((run_orderly.2 stepwise hprovided).2 hne _ hreach).2 _ rfl _ _ rfl

end Query

end GraphWalk
