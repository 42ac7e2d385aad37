import GraphWalk.Proofs.Machine.Gated
import GraphWalk.Proofs.Termination

/-!
# Programs run no further than needed

A `take` at the end of a program asks the steps before it what they would be asked without it, up
to the last walker that it lets pass, and returns the first outputs. `take_lazy` says so of any
pipes that keep what they like, also of those that never come to an end.
-/

namespace GraphWalk

open Machine (State Reaches Gated Beside)
open Exchange (upTo)

namespace Memory

/-- The number of walkers that a `take` finds counted. -/
inductive Counts : Memory → Nat → Prop
  | untouched : Counts .untouched 0
  | taken (count : Nat) : Counts (.taken count) count

variable {m : Memory} {count n : Nat} {args : List Arg}

theorem Counts.full (h : m.Counts count) (hlimit : Pipe.limit? args = some n) (hfull : n ≤ count)
    (g : Graph) (input : Option Walker) (o : Origins) :
    (Pipe.take g args input m o).reply = .done := by
  cases h with
  | untouched => simp [Pipe.take, hlimit, Nat.le_zero.mp hfull]
  | taken => simp [Pipe.take, hlimit, hfull]

theorem Counts.pull (h : m.Counts count) (hlimit : Pipe.limit? args = some n) (hopen : count < n)
    (g : Graph) (o : Origins) :
    Pipe.take g args none m o = ⟨.pull, .taken count, o, []⟩ := by
  cases h with
  | untouched => simp [Pipe.take, hlimit, Nat.ne_of_gt hopen]
  | taken => simp [Pipe.take, hlimit, hopen]

theorem Counts.pass (h : m.Counts count) (hlimit : Pipe.limit? args = some n) (hopen : count < n)
    (g : Graph) (w : Walker) (o : Origins) :
    Pipe.take g args (some w) m o = ⟨.walker w, .taken (count + 1), o, []⟩ := by
  cases h with
  | untouched => simp [Pipe.take, hlimit, Nat.ne_of_gt hopen]
  | taken => simp [Pipe.take, hlimit, hopen]

end Memory

/-- The program up to a number of walkers. -/
def Program.taking (p : Program) (n : Nat) : Program := p ++ [⟨"take", [.value (.int n)]⟩]

namespace Query

section
variable {g : Graph} {stages : Array (Pipe × List Arg)} {pipe : Pipe} {args : List Arg}
  {memories : Array Memory} {memory : Memory} {o : Origins} {notices : List Notice}

/-- A stage more does not change what the others do. -/
theorem askStage_push_lt (hsize : memories.size = stages.size) {i : Nat} (hi : i < stages.size)
    (stage : Pipe × List Arg) (input : Option Walker) :
    askStage g (stages.push stage) i input ⟨memories.push memory, o, notices⟩ =
      ((askStage g stages i input ⟨memories, o, notices⟩).1,
        { (askStage g stages i input ⟨memories, o, notices⟩).2 with
          memories := (askStage g stages i input ⟨memories, o, notices⟩).2.memories.push
            memory }) := by
  have hi' : i < memories.size := hsize ▸ hi
  have hset : ∀ kept, (memories.push memory).setIfInBounds i kept =
      (memories.setIfInBounds i kept).push memory := by
    intro kept
    rw [Array.setIfInBounds, dif_pos (by simpa using Nat.lt_succ_of_lt hi'), Array.set_push,
      dif_pos hi', Array.setIfInBounds, dif_pos hi']
  simp only [askStage, Array.getElem?_push, Nat.ne_of_lt hi, Nat.ne_of_lt hi', if_false, hset,
    Array.getElem?_eq_getElem hi]

theorem askStage_push (hsize : memories.size = stages.size) (input : Option Walker) :
    askStage g (stages.push (pipe, args)) stages.size input ⟨memories.push memory, o, notices⟩ =
      let a := pipe g args input memory o
      (a.reply, ⟨memories.push a.memory, a.origins, a.notices.reverse ++ notices⟩) := by
  have hset : ∀ kept, (memories.push memory).setIfInBounds memories.size kept =
      memories.push kept := by
    intro kept
    rw [Array.setIfInBounds, dif_pos (by simp), Array.set_push, dif_neg (Nat.lt_irrefl _)]
  have hstage : (stages.push (pipe, args))[memories.size]? = some (pipe, args) := by
    rw [hsize, Array.getElem?_push_size]
  simp only [askStage, ← hsize, hstage, Array.getElem?_push_size, Option.getD_some, hset]

end

/-- What the steps keep, and behind them what a `take` has counted. -/
structure Counted (size : Nat) (w : World) (count : Nat) (w' : World) : Prop where
  size : w.memories.size = size
  kept : ∃ memory : Memory, memory.Counts count ∧
    w' = ⟨w.memories.push memory, w.origins, w.notices⟩

variable {q t : Query} {args : List Arg} {n : Nat}

theorem gated_take (hstages : t.stages = q.stages.push (Pipe.take, args))
    (hgraph : t.graph = q.graph) (hlength : t.program.length = q.program.length + 1)
    (hne : q.program ≠ []) (hlimit : Pipe.limit? args = some n) :
    Gated q.machine n t.machine (Counted q.stages.size) := by
  have hpositive : 0 < q.program.length := List.length_pos_iff.mpr hne
  have hsize : q.stages.size = q.machine.last + 1 := by
    rw [size_stages]
    exact (Nat.sub_add_cancel hpositive).symm
  have hlast : t.machine.last = q.stages.size := by
    rw [size_stages]
    show t.program.length - 1 = _
    rw [hlength, Nat.add_sub_cancel]
  have hask : ∀ i input w, t.machine.ask i input w =
      askStage q.graph (q.stages.push (Pipe.take, args)) i input w := by
    intro i input w
    show askStage t.graph t.stages i input w = _
    rw [hgraph, hstages]
  refine ⟨hlast.trans hsize, ?_, ?_, ?_, ?_⟩
  · rintro w count _ ⟨hkept, memory, hcount, rfl⟩ i hi input
    have hi' : i < q.stages.size := hsize ▸ Nat.lt_succ_of_le hi
    rw [hask, askStage_push_lt hkept hi']
    exact ⟨rfl, (size_askStage _ _ _ _ _).trans hkept, memory, hcount, rfl⟩
  · rintro w count _ ⟨hkept, memory, hcount, rfl⟩ hfull input
    rw [hask, hlast, askStage_push hkept]
    exact hcount.full hlimit hfull q.graph input w.origins
  · rintro w count _ ⟨hkept, memory, hcount, rfl⟩ hopen
    rw [hask, hlast, askStage_push hkept, hcount.pull hlimit hopen]
    exact ⟨rfl, hkept, _, .taken count, rfl⟩
  · rintro w count _ ⟨hkept, memory, hcount, rfl⟩ hopen walker
    rw [hask, hlast, askStage_push hkept, hcount.pass hlimit hopen]
    exact ⟨rfl, hkept, _, .taken (count + 1), rfl⟩

-- ---------------------------------------------------------------------------
-- The first run
-- ---------------------------------------------------------------------------

/-- The first run of a program comes to the state. -/
def FirstRun (g : Graph) (r : Registry) (p : Program) (s : State Walker World) : Prop :=
  (new g r p).prepare.machine.Reaches (new g r p).begin s

/-- The questions to the first steps that a state has put, in order. -/
def asked (steps : Nat) (s : State Walker World) : List (Exchange Walker) :=
  s.history.reverse.filter (·.step < steps)

section
variable {g : Graph} {r : Registry} {p : Program}

theorem gated_new (htake : r.pipe? "take" = some Pipe.take) (hpasses : r.passes = [])
    (hne : p ≠ []) (n : Nat) :
    Gated (new g r p).prepare.machine n
      (new g r (p.taking n)).prepare.machine (Counted p.length) := by
  have hlimit : Pipe.limit? [.value (.int n)] = some n := by simp [Pipe.limit?]
  have hprogram : (new g r p).prepare.program = p := by rw [prepare_plain hpasses]
  have hgated := gated_take (q := (new g r p).prepare)
    (t := (new g r (p.taking n)).prepare) (n := n) ?_ ?_ ?_ ?_ hlimit
  · rwa [size_stages, hprogram] at hgated
  · simp [prepare_plain hpasses, stages, Program.taking, htake]
  · simp [prepare_plain hpasses]
  · simp [prepare_plain hpasses, Program.taking]
  · simp [prepare_plain hpasses, hne]

theorem counted_begin (hpasses : r.passes = []) (p : Program) (step : Step) :
    Counted p.length (new g r p).begin.world 0 (new g r (p ++ [step])).begin.world := by
  simp only [begin, prepare_plain hpasses, Machine.start]
  refine ⟨Array.size_replicate, .untouched, .untouched, ?_⟩
  rw [List.length_append, List.length_singleton, Array.replicate_succ]

theorem asked_eq {s : State Walker World} (hne : p ≠ []) :
    asked p.length s =
      (s.history.filter (·.step ≤ (p.length - 1))).reverse := by
  have hpositive := List.length_pos_iff.mpr hne
  rw [asked, List.filter_reverse]
  congr 2
  funext e
  simp only [decide_eq_decide]
  omega

/-- Offers a new walker at the first vertex, whenever it is asked. -/
def tireless : Pipe := fun _ _ _ memory origins =>
  let (w, origins) := origins.start 0
  ⟨.walker w, memory, origins, []⟩

/-- The standard registry with a pipe that never comes to its end. -/
def tirelessRegistry : Registry := Registry.standard.addPipe "again" tireless

/-- Without a `take` its runs do not end. -/
theorem run_tireless (g : Graph) (bound : Nat) :
    (new g tirelessRegistry [⟨"again", []⟩]).run bound = none := by
  have hopen : ∀ s, FirstRun g tirelessRegistry [⟨"again", []⟩] s → s.finished = none := by
    intro s hs
    induction hs with
    | refl => rfl
    | @next s hreach _ ih =>
      have hposition : s.position = 0 := Nat.le_zero.mp hreach.orderly.within
      have hpipe : tirelessRegistry.pipe? "again" = some tireless := by
        rw [tirelessRegistry, Registry.pipe?_addPipe, if_pos rfl]
      have hstages :
          (new g tirelessRegistry [⟨"again", []⟩]).prepare.stages = #[(tireless, [])] := by
        simp [prepare_plain (r := tirelessRegistry) rfl, stages, hpipe]
      have hreply : ((new g tirelessRegistry [⟨"again", []⟩]).prepare.machine.ask s.position
          s.carried s.world).1 = .walker (s.world.origins.start 0).1 := by
        rw [machine, hposition, hstages]
        rfl
      simp only [Machine.next, hreply, State.react, State.advance]
      split
      · exact ih
      · exact ih
  have hne : (new g tirelessRegistry [⟨"again", []⟩]).prepare.program ≠ [] := by
    rw [prepare_plain (by rfl)]
    exact List.cons_ne_nil _ _
  cases hrun : (new g tirelessRegistry [⟨"again", []⟩]).run bound with
  | none => rfl
  | some run =>
    obtain ⟨s, hreach, hover, -⟩ := reaches_of_run hne hrun
    rw [State.isOver, hopen s hreach] at hover
    cases hover

/-- Where two walkers have been offered. -/
def tireless.second : State Walker World :=
  let q := new .fork tirelessRegistry [⟨"again", []⟩]
  q.prepare.machine.next (q.prepare.machine.next q.begin)

/-- Over any pipes that keep what they like, a `take` at the end asks the steps before it what they
are asked without it, up to the walker that makes its number full and no further, and returns the
first outputs. It ends when its number is full, or where the program without it ends, and also if
that never ends. -/
theorem take_lazy (g : Graph) (r : Registry) (htake : r.pipe? "take" = some Pipe.take)
    (hpasses : r.passes = []) (p : Program) (hne : p ≠ []) (n : Nat) :
    (∀ s', FirstRun g r (p.taking n) s' →
      ∃ s, FirstRun g r p s ∧ asked p.length s' = s.history.reverse ∧
        upTo (p.length - 1) n s.history.reverse = s.history.reverse) ∧
    (∀ s, FirstRun g r p s → ∃ s', FirstRun g r (p.taking n) s' ∧
      asked p.length s' = upTo (p.length - 1) n s.history.reverse) ∧
    (∀ bound run, (new g r (p.taking n)).run bound = some run →
      ∃ s, FirstRun g r p s ∧
        (n ≤ s.results.length ∨ s.isOver (new g r p).prepare.machine = true)) ∧
    ∀ s, FirstRun g r p s →
      (n ≤ s.results.length ∨ s.isOver (new g r p).prepare.machine = true) →
      ∃ bound run, (new g r (p.taking n)).run bound = some run ∧
        run.outputs = (s.results.reverse.take n).map Output.ofWalker ∧
        run.history.filter (·.step < p.length) = upTo (p.length - 1) n s.history.reverse ∧
        (s.results.length < n → run.history.filter (·.step < p.length) = s.history.reverse) := by
  have hgated := gated_new (g := g) htake hpasses hne n
  have hworld := counted_begin (g := g) hpasses p ⟨"take", [.value (.int n)]⟩
  have hlast : (new g r p).prepare.machine.last = p.length - 1 := by
    rw [prepare_plain hpasses]
    rfl
  have hne' : (new g r (p.taking n)).prepare.program ≠ [] := by
    rw [prepare_plain hpasses]
    exact List.append_ne_nil_of_right_ne_nil p (List.cons_ne_nil _ _)
  refine ⟨?_, ?_, ?_, ?_⟩
  · intro s' hs'
    obtain ⟨s, hs, hbeside⟩ := hgated.questions hworld hs'
    refine ⟨s, hs, ?_, ?_⟩
    · rw [asked_eq hne, ← hlast, hbeside.asked]
    · rw [← hlast, hbeside.uncut]
  · intro s hs
    obtain ⟨s', hs', hasked, -⟩ := hgated.comes_to hworld hs
    refine ⟨s', hs', ?_⟩
    rw [asked_eq hne, ← hlast, hasked]
  · intro bound run hrun
    obtain ⟨s', hs', hover, -⟩ := reaches_of_run hne' hrun
    obtain ⟨s, hs, hbeside⟩ := hgated.questions hworld hs'
    exact ⟨s, hs, (hbeside.over hgated hs.orderly hover).2⟩
  · intro s hs hend
    obtain ⟨s', hs', hasked, hresults⟩ := hgated.comes_to hworld hs
    obtain ⟨hover, hresults⟩ := hresults hend
    obtain ⟨bound, hrun⟩ := Machine.runFrom_of_reaches hs' hover
    rw [hlast, ← asked_eq hne] at hasked
    refine ⟨bound, _, (run_eq hne' bound).trans (congrArg (Option.map _) hrun), ?_, hasked,
      fun hfew => ?_⟩
    · exact congrArg (List.map Output.ofWalker) hresults
    · refine hasked.trans ?_
      rw [← hlast]
      refine Exchange.upTo_eq_self ?_
      rwa [List.filterMap_reverse, List.length_reverse, ← hs.orderly.results]

theorem take_lazy_tireless : tirelessRegistry.pipe? "take" = some Pipe.take ∧
    tirelessRegistry.passes = [] ∧ ([⟨"again", []⟩] : Program) ≠ [] ∧
    (∀ bound, (new .fork tirelessRegistry [⟨"again", []⟩]).run bound = none) ∧
    ∃ bound run, (new .fork tirelessRegistry
        (Program.taking [⟨"again", []⟩] 2)).run bound = some run ∧
      run.outputs = [.vertex 0, .vertex 0] ∧
      (run.history.filter (·.step < 1)).length = 2 := by
  have htake : tirelessRegistry.pipe? "take" = some Pipe.take := by
    rw [tirelessRegistry, Registry.pipe?_addPipe]
    rfl
  have hreach : FirstRun .fork tirelessRegistry [⟨"again", []⟩] tireless.second :=
    .next (.next .refl rfl) rfl
  obtain ⟨-, -, -, hends⟩ := take_lazy .fork tirelessRegistry htake rfl [⟨"again", []⟩]
    (List.cons_ne_nil _ _) 2
  obtain ⟨bound, run, hrun, houtputs, hhistory, -⟩ := hends tireless.second hreach (.inl (by rfl))
  refine ⟨htake, rfl, List.cons_ne_nil _ _, run_tireless .fork, bound, run, hrun, houtputs, ?_⟩
  rw [show (1 : Nat) = ([⟨"again", []⟩] : Program).length from rfl, hhistory]
  rfl

end

end Query

end GraphWalk
