import GraphWalk.Proofs.Machine.Abreast
import GraphWalk.Proofs.Termination
import GraphWalk.Walk.Pipe.Extra

/-!
# Steps in front of a source

A `vertex` step never pulls, so a run never gets to the steps in front of it: they are not asked,
and nothing is handed to the `vertex`. `front_never_asked` says so over any pipes, and that the
program without those steps returns the same.
-/

namespace GraphWalk

open Machine (State Reaches Orderly Abreast)

theorem Pipe.vertex_ne_pull (g : Graph) (args : List Arg) (input : Option Walker) (m : Memory)
    (o : Origins) : (Pipe.vertex g args input m o).reply ≠ .pull := by
  unfold Pipe.vertex
  dsimp only
  split <;> exact nofun

/-- The memories of steps that have not been asked. -/
def Program.untouched (p : Program) : Array Memory := Array.replicate p.length .untouched

theorem Program.untouched_append (front p : Program) :
    Program.untouched (front ++ p) = front.untouched ++ p.untouched := by
  rw [untouched, List.length_append]
  exact Array.replicate_append_replicate.symm

/-- The world of a program with steps in front. -/
def World.behind (front : Array Memory) (w : World) : World :=
  { w with memories := front ++ w.memories }

namespace Query

/-- The query with steps in front that have not been asked. -/
def behind (front : Program) (q : Query) : Query :=
  { q with
    program := front ++ q.program
    memories := front.untouched ++ q.memories }

/-- A query whose first step is a `vertex`, once it is prepared. -/
structure Sourced (q : Query) : Prop where
  prepared : q.prepared = true
  source : ∃ args, q.stages[0]? = some (Pipe.vertex, args)

variable {q q' : Query} {front : Program} {s t : State Walker World} {bound : Nat}

theorem Sourced.prepare (h : q.Sourced) : q.prepare = q := if_pos h.prepared

theorem Sourced.positive (h : q.Sourced) : 0 < q.program.length := by
  obtain ⟨args, hsource⟩ := h.source
  rw [← size_stages]
  exact (Array.getElem?_eq_some_iff.mp hsource).1

theorem Sourced.ne_nil (h : q.Sourced) : q.prepare.program ≠ [] := by
  rw [h.prepare]
  exact List.ne_nil_of_length_pos h.positive

/-- A source never pulls. -/
theorem Sourced.ask (h : q.Sourced) (i : Nat) (input : Option Walker) (w : World)
    (hpull : (q.machine.ask i input w).1 = .pull) : 0 < i := by
  obtain ⟨args, hsource⟩ := h.source
  refine Nat.pos_of_ne_zero ?_
  rintro rfl
  simp only [machine, askStage, hsource] at hpull
  exact Pipe.vertex_ne_pull _ _ _ _ _ hpull

theorem prepare_behind (h : q.prepared = true) (front : Program) :
    (q.behind front).prepare = q.behind front :=
  if_pos h

-- ---------------------------------------------------------------------------
-- One question
-- ---------------------------------------------------------------------------

/-- Steps in front change neither what a step answers nor what it leaves behind. -/
theorem askStage_behind {g : Graph} {before stages : Array (Pipe × List Arg)}
    {front : Array Memory} (hfront : front.size = before.size) (i : Nat) (input : Option Walker)
    (w : World) :
    askStage g (before ++ stages) (i + before.size) input (w.behind front) =
      ((askStage g stages i input w).1, (askStage g stages i input w).2.behind front) := by
  have hright : before.size ≤ i + before.size := Nat.le_add_left _ i
  have hstage : (before ++ stages)[i + before.size]? = stages[i]? := by
    rw [Array.getElem?_append_right hright, Nat.add_sub_cancel]
  have hmemory : (w.behind front).memories[i + before.size]? = w.memories[i]? := by
    rw [World.behind, Array.getElem?_append_right (hfront ▸ hright), hfront, Nat.add_sub_cancel]
  have hset : ∀ kept, (w.behind front).memories.setIfInBounds (i + before.size) kept =
      front ++ w.memories.setIfInBounds i kept := by
    intro kept
    rw [World.behind, Array.setIfInBounds_append_right (hfront ▸ hright), hfront,
      Nat.add_sub_cancel]
  unfold askStage
  rw [hstage, hmemory]
  split
  · rfl
  · simp only [hset]
    rfl

theorem stages_behind (front : Program) (q : Query) :
    (q.behind front).stages = { q with program := front }.stages ++ q.stages := by
  simp [stages, behind]

theorem ask_behind (front : Program) (q : Query) (i : Nat) (input : Option Walker) (w : World) :
    (q.behind front).machine.ask (i + front.length) input (w.behind front.untouched) =
      ((q.machine.ask i input w).1, (q.machine.ask i input w).2.behind front.untouched) := by
  have hsize : ({ q with program := front } : Query).stages.size = front.length := size_stages _
  show askStage q.graph (q.behind front).stages _ _ _ = _
  rw [stages_behind, ← hsize]
  exact askStage_behind (by rw [hsize, Program.untouched, Array.size_replicate]) i input w

theorem Sourced.last_behind (h : q.Sourced) (front : Program) :
    (q.behind front).machine.last = q.machine.last + front.length := by
  have hpositive := h.positive
  simp only [machine, behind, List.length_append]
  omega

/-- Two runs side by side, one of them with steps in front that have not been asked. -/
structure Beyond (front : Program) (s t : State Walker World) : Prop where
  abreast : Abreast front.length id id s t
  world : t.world = s.world.behind front.untouched
  asked : ∀ e ∈ t.history, front.length ≤ e.step

theorem Sourced.begin (h : q.Sourced) (front : Program) :
    Beyond front q.begin (q.behind front).begin := by
  rw [Query.begin, Query.begin, h.prepare, prepare_behind h.prepared]
  exact ⟨.start (h.last_behind front) id id _ _, rfl, fun _ he => (List.not_mem_nil he).elim⟩

theorem Beyond.next (hq : q.Sourced) (h : Beyond front s t) :
    Beyond front (q.machine.next s) ((q.behind front).machine.next t) := by
  have hcarried : t.carried = s.carried := by simpa using h.abreast.carried
  have hask := ask_behind front q s.position s.carried s.world
  rw [← h.abreast.position, ← hcarried, ← h.world] at hask
  refine ⟨?_, ?_, ?_⟩
  · refine h.abreast.next (hq.last_behind front) (fun _ => rfl) ?_ (hq.ask _ _ _)
    rw [hask, hcarried, Reply.map_id]
  · rw [Machine.next_world, Machine.next_world, hask, hcarried]
  · intro e he
    rw [Machine.next, Machine.history_react] at he
    rcases List.mem_cons.mp he with rfl | he
    · show front.length ≤ t.position
      rw [h.abreast.position]
      exact Nat.le_add_left _ _
    · exact h.asked e he

theorem Beyond.isOver (hq : q.Sourced) (h : Beyond front s t) :
    s.isOver q.machine = t.isOver (q.behind front).machine :=
  h.abreast.isOver (hq.last_behind front)

-- ---------------------------------------------------------------------------
-- Whole runs
-- ---------------------------------------------------------------------------

theorem Sourced.reaches (hq : q.Sourced)
    (h : (q.behind front).machine.Reaches (q.behind front).begin t) :
    ∃ s, Beyond front s t := by
  induction h with
  | refl => exact ⟨_, hq.begin front⟩
  | next _ _ ih =>
    obtain ⟨s, hs⟩ := ih
    exact ⟨_, hs.next hq⟩

theorem Sourced.run_behind (hq : q.Sourced) (front : Program) (bound : Nat) :
    Option.Rel (fun r r' => r'.outputs = r.outputs ∧ r'.query = r.query.behind front)
      (q.run bound) ((q.behind front).run bound) := by
  have hne : (q.behind front).prepare.program ≠ [] := by
    rw [prepare_behind hq.prepared]
    exact List.append_ne_nil_of_right_ne_nil front (List.ne_nil_of_length_pos hq.positive)
  have hrun := Machine.runFrom_lockstep (Beyond.isOver hq) (Beyond.next hq) (hq.begin front) bound
  rw [run_eq hq.ne_nil, run_eq hne, hq.prepare, prepare_behind hq.prepared]
  generalize q.machine.runFrom bound q.begin = r,
    (q.behind front).machine.runFrom bound (q.behind front).begin = r' at hrun ⊢
  cases hrun with
  | none => exact .none
  | @some s t hst =>
    have hresults : t.results = s.results := by simpa using hst.abreast.results
    refine .some ⟨?_, ?_⟩
    · simp only [returned, hresults]
    · simp only [returned, hq.prepare, prepare_behind hq.prepared, hst.world]
      rfl

theorem Sourced.run (hq : q.Sourced) {r : Run} (h : q.run bound = some r) : r.query.Sourced := by
  rw [run_eq hq.ne_nil] at h
  obtain ⟨s, -, rfl⟩ := Option.map_eq_some_iff.mp h
  rw [returned, hq.prepare]
  exact ⟨hq.prepared, hq.source⟩

theorem Sourced.batches_behind (hq : q.Sourced) (front : Program) (bound m : Nat) :
    (q.behind front).batches bound m = q.batches bound m := by
  induction m generalizing q with
  | zero => rfl
  | succ m ih =>
    have hrun := hq.run_behind front bound
    simp only [batches]
    generalize hr : q.run bound = r, (q.behind front).run bound = r' at hrun ⊢
    cases hrun with
    | none => rfl
    | some hsame =>
      obtain ⟨houtputs, hquery⟩ := hsame
      simp only [Option.bind_some, hquery, houtputs, ih (hq.run hr)]

/-- However often it has run, a query with steps in front stays one. -/
theorem Sourced.runs_behind (hq : q.Sourced) {start : Query}
    (hstart : start.prepare = q.behind front) {rs : List Run} (h : start.Runs rs q') :
    ∃ b : Query, b.Sourced ∧ q'.prepare = b.behind front := by
  induction h generalizing q with
  | nil start => exact ⟨q, hq, hstart⟩
  | @cons start q' bound r' rs hrun' _ ih =>
    have hrun := hq.run_behind front bound
    rw [← run_congr (hstart.trans (prepare_behind hq.prepared front).symm), hrun'] at hrun
    generalize hr : q.run bound = r at hrun
    cases hrun with
    | some hsame =>
      have hnext := hq.run hr
      exact ih hnext (hsame.2 ▸ prepare_behind hnext.prepared front)

theorem sourced_new (g : Graph) {r : Registry} (hvertex : r.pipe? "vertex" = some Pipe.vertex)
    (hpasses : r.passes = []) (args : List Arg) (rest : Program) :
    (new g r (⟨"vertex", args⟩ :: rest)).prepare.Sourced := by
  rw [prepare_plain hpasses]
  refine ⟨rfl, args, ?_⟩
  simp [stages, hvertex]

theorem prepare_new_behind (g : Graph) {r : Registry} (hpasses : r.passes = [])
    (front p : Program) : (new g r (front ++ p)).prepare = (new g r p).prepare.behind front := by
  rw [prepare_plain hpasses, prepare_plain hpasses]
  exact congrArg (Query.mk g r (front ++ p) true · #[]) (Program.untouched_append front p)

/-- Over any pipes, and in every run, no step in front of a `vertex` is asked and nothing is handed
to the `vertex`, be it the last of the program or not. All runs return what they return without
the steps in front, and after as many questions. -/
theorem front_never_asked (g : Graph) (r : Registry)
    (hvertex : r.pipe? "vertex" = some Pipe.vertex) (hpasses : r.passes = []) (front : Program)
    (args : List Arg) (rest : Program) :
    (∀ rs q s, (new g r (front ++ ⟨"vertex", args⟩ :: rest)).Runs rs q →
      q.prepare.machine.Reaches q.begin s →
        ∀ e ∈ s.history, front.length ≤ e.step ∧ (e.step = front.length → e.input = none)) ∧
    ∀ bound m, (new g r (front ++ ⟨"vertex", args⟩ :: rest)).batches bound m =
      (new g r (⟨"vertex", args⟩ :: rest)).batches bound m := by
  have hsourced := sourced_new g hvertex hpasses args rest
  have hbehind := prepare_new_behind g hpasses front (⟨"vertex", args⟩ :: rest)
  refine ⟨?_, ?_⟩
  · intro rs q s hruns hreach e he
    have horderly : Orderly q.prepare.machine s := Reaches.orderly hreach
    obtain ⟨b, hb, hprepare⟩ := hsourced.runs_behind hbehind hruns
    have hbegin : q.begin = (b.behind front).begin := by
      rw [begin, begin, hprepare, prepare_behind hb.prepared]
    rw [hprepare, hbegin] at hreach
    obtain ⟨_, hbeyond⟩ := hb.reaches hreach
    refine ⟨hbeyond.asked e he, fun hstep => Option.not_isSome_iff_eq_none.mp fun hinput => ?_⟩
    obtain ⟨before, hbefore, hright⟩ := horderly.input he hinput
    have hasked := hbeyond.asked before hbefore
    omega
  · intro bound m
    rw [batches_congr (hbehind.trans (prepare_behind hsourced.prepared front).symm),
      hsourced.batches_behind, batches_congr (prepare_prepare _)]

/-- The standard registry with a pipe that offers every walker twice. -/
def twiceRegistry : Registry := Registry.standard.addPipe "twice" Pipe.twice

/-- Steps that nothing asks. -/
def idle : Program := [⟨"out", []⟩, ⟨"vertex", []⟩, ⟨"twice", []⟩]

theorem front_never_asked_fork : twiceRegistry.pipe? "vertex" = some Pipe.vertex ∧
    twiceRegistry.passes = [] ∧
    (new .fork twiceRegistry (idle ++ [⟨"vertex", []⟩, ⟨"twice", []⟩])).batches 20 2 =
      some [[.vertex 2, .vertex 2, .vertex 1, .vertex 1, .vertex 0, .vertex 0], []] ∧
    ∃ run, (new .fork twiceRegistry (idle ++ [⟨"vertex", []⟩, ⟨"twice", []⟩])).run 20 = some run ∧
      ∀ e ∈ run.history, 3 ≤ e.step := by
  have hvertex : twiceRegistry.pipe? "vertex" = some Pipe.vertex := by
    rw [twiceRegistry, Registry.pipe?_addPipe]
    rfl
  obtain ⟨hasked, hbatches⟩ :=
    front_never_asked .fork twiceRegistry hvertex rfl idle [] [⟨"twice", []⟩]
  refine ⟨hvertex, rfl, (hbatches 20 2).trans rfl, ?_⟩
  generalize hq : new .fork twiceRegistry (idle ++ [⟨"vertex", []⟩, ⟨"twice", []⟩]) = q at hasked ⊢
  obtain ⟨run, hrun⟩ : ∃ run, q.run 20 = some run :=
    Option.isSome_iff_exists.mp (by rw [← hq]; rfl)
  have hne : q.prepare.program ≠ [] := by
    rw [← hq, prepare_plain (by rfl)]
    exact List.cons_ne_nil _ _
  obtain ⟨s, hreach, -, -, hhistory, -⟩ := reaches_of_run hne hrun
  refine ⟨run, hrun, fun e he => ?_⟩
  exact (hasked [] q s (.nil q) hreach e (List.mem_reverse.mp (hhistory ▸ he))).1

end Query

end GraphWalk
