import GraphWalk.Proofs.Handover

/-!
# Runs come to an end

A program of familiar pipes runs as one over the standard registry does, whatever its steps keep,
and there a run is a recursion over the steps. So every run ends: `runs_end` says so of all runs
of a query, one after the other, and counts the questions.
-/

namespace GraphWalk

namespace Machine

variable {W σ : Type} {m : Machine W σ} {s t : State W σ}

theorem history_advance (s : State W σ) : (State.advance m s).history = s.history := by
  unfold State.advance
  split <;> rfl

theorem history_react (s : State W σ) (reply : Reply W) :
    (State.react m s reply).history = s.history := by
  cases reply with
  | pull =>
    simp only [State.react]
    split
    · rfl
    · exact history_advance _
  | done => exact history_advance _
  | walker w => exact history_advance _
  | nothing => exact history_advance _

theorem length_history_next (m : Machine W σ) (s : State W σ) :
    (m.next s).history.length = s.history.length + 1 := by
  simp [next, history_react]

theorem length_history_le {bound : Nat} (h : m.runFrom bound s = some t) :
    s.history.length ≤ t.history.length := by
  refine runFrom_induction h ?_ ?_
  · intro hover bound
    apply Nat.le_refl
  · intro bound s hover _ ih
    rw [length_history_next] at ih
    exact Nat.le_of_succ_le ih

/-- A run that ends takes a number of questions of its own: a smaller bound cuts it off, and a
larger one changes nothing. -/
theorem runFrom_eq {bound : Nat} (h : m.runFrom bound s = some t) (bound' : Nat) :
    m.runFrom bound' s =
      if t.history.length ≤ s.history.length + bound' then some t else none := by
  revert bound'
  refine runFrom_induction h ?_ ?_
  · intro hover bound bound'
    simp [runFrom_over hover]
  · intro bound s hover hrest ih bound'
    cases bound' with
    | zero =>
      have hlater := length_history_le hrest
      rw [length_history_next] at hlater
      rw [if_neg (by omega)]
      simp [runFrom, hover]
    | succ bound' =>
      rw [runFrom_succ hover, ih, length_history_next]
      simp only [Nat.add_assoc, Nat.add_comm 1]

end Machine

namespace PipeKind

/-- A name that gives the kind. -/
def name : PipeKind → String
  | vertex => "vertex"
  | cross .incoming => "in"
  | cross .outgoing => "out"
  | property => "property"
  | unique => "unique"
  | filter => "filter"
  | take => "take"
  | bind => "as"
  | back => "back"
  | except => "except"
  | merge => "merge"
  | other => ""

theorem ofName_name (kind : PipeKind) : ofName kind.name = kind := by
  cases kind with
  | cross d => cases d <;> rfl
  | _ => rfl

end PipeKind

/-- No pipe is registered under the name, or one that every graph knows. -/
def Registry.Familiar (r : Registry) (name : String) : Prop :=
  ∀ pipe ∈ r.pipe? name, ∃ kind : PipeKind, pipe = kind.pipe

theorem Registry.familiar_standard (name : String) : Registry.standard.Familiar name := by
  intro pipe hpipe
  refine ⟨.ofName name, ?_⟩
  rw [← PipeKind.pipe_ofName, Option.mem_def.mp hpipe]
  rfl

theorem Registry.Familiar.pipe {r : Registry} {name : String} (h : r.Familiar name) :
    ∃ kind : PipeKind, (r.pipe? name).getD Pipe.passthrough = kind.pipe := by
  cases hpipe : r.pipe? name with
  | none => exact ⟨.other, rfl⟩
  | some pipe => exact h pipe hpipe

namespace Query

open Machine (State)

variable {q : Query}

/-- Whatever names its pipes go by, a program of familiar pipes is run as one over the standard
registry. -/
theorem exists_standard (h : ∀ step ∈ q.program, q.registry.Familiar step.pipe)
    (hsize : q.memories.size = q.program.length) :
    ∃ q' : Query, q'.Standard q.graph q'.program ∧ q'.program.length = q.program.length ∧
      q'.machine = q.machine ∧ q'.memories = q.memories ∧ q'.origins = q.origins := by
  have hnames : ∀ p : Program, (∀ step ∈ p, q.registry.Familiar step.pipe) →
      ∃ p' : Program, p'.map (fun step => (step.kind.pipe, step.args)) =
        p.map fun step => ((q.registry.pipe? step.pipe).getD Pipe.passthrough, step.args) := by
    intro p
    induction p with
    | nil => exact fun _ => ⟨[], rfl⟩
    | cons step p ih =>
      intro h
      obtain ⟨hstep, hrest⟩ := List.forall_mem_cons.mp h
      obtain ⟨kind, hkind⟩ := hstep.pipe
      obtain ⟨p', hp'⟩ := ih hrest
      refine ⟨⟨kind.name, step.args⟩ :: p', ?_⟩
      have hkind' : Step.kind ⟨kind.name, step.args⟩ = kind := kind.ofName_name
      simp only [List.map_cons, hp', hkind, hkind']
  obtain ⟨p', hp'⟩ := hnames q.program h
  have hlength : p'.length = q.program.length := by simpa using congrArg List.length hp'
  refine ⟨⟨q.graph, .standard, p', true, q.memories, q.origins⟩,
    ⟨rfl, rfl, rfl, rfl, hsize.trans hlength.symm⟩, hlength, ?_, rfl, rfl⟩
  simp only [machine, stages, hlength, PipeKind.pipe_ofName, ← hp']
  rfl

/-- What a run returns that is over in a state. -/
def returned (q : Query) (s : State Walker World) : Run :=
  ⟨{ q.prepare with memories := s.world.memories, origins := s.world.origins },
    s.results.reverse.map Output.ofWalker, q.prepare.unknownPipes ++ s.world.notices.reverse,
    s.history.reverse⟩

theorem run_eq (hne : q.prepare.program ≠ []) (bound : Nat) :
    q.run bound = (q.prepare.machine.runFrom bound q.begin).map q.returned := by
  simp only [run, List.isEmpty_iff, hne, if_false]
  rfl

theorem Standard.runFrom_ends {g : Graph} {p : Program} (h : q.Standard g p) (hne : p ≠ []) :
    ∃ bound s, q.machine.runFrom bound (q.machine.start ⟨q.memories, q.origins, []⟩) = some s := by
  have hprepare : q.prepare = q := if_pos h.prepared
  have hlength : q.line.stocks.length = (p.roles (W := Walker) .shared g).length := by
    simp [line, World.line, Program.roles, h.program, h.size]
  obtain ⟨bound, hline⟩ := Line.run_drain hlength q.origins
  have hrun := run_line h bound
  have hsame : q.line.run (p.roles .shared g) bound = some _ := hline
  rw [hsame, run_eq (by rwa [hprepare, h.program]), hprepare, begin, hprepare] at hrun
  cases hs : q.machine.runFrom bound (q.machine.start ⟨q.memories, q.origins, []⟩) with
  | none =>
    rw [hs] at hrun
    cases hrun
  | some s => exact ⟨bound, s, hs⟩

/-- A run over familiar pipes ends, from whatever its steps keep. -/
theorem run_ends (hq : q.Provided)
    (h : ∀ step ∈ q.prepare.program, q.prepare.registry.Familiar step.pipe) :
    ∃ r : Run, ∀ bound, q.run bound = if r.history.length ≤ bound then some r else none := by
  by_cases hne : q.prepare.program = []
  · refine ⟨⟨q.prepare, [], [], []⟩, fun bound => ?_⟩
    simp [run, hne]
  · obtain ⟨q', hstandard, hlength, hmachine, hmemories, horigins⟩ := exists_standard h hq
    have hne' : q'.program ≠ [] := by
      intro hnil
      rw [hnil] at hlength
      exact hne (List.length_eq_zero_iff.mp hlength.symm)
    obtain ⟨bound, s, hs⟩ := hstandard.runFrom_ends hne'
    rw [hmachine, hmemories, horigins] at hs
    refine ⟨q.returned s, fun bound' => ?_⟩
    have hcount := Machine.runFrom_eq (s := q.begin) hs bound'
    have hstart : q.begin.history.length = 0 := rfl
    rw [run_eq hne, hcount, hstart, Nat.zero_add, returned, List.length_reverse]
    split <;> rfl

-- ---------------------------------------------------------------------------
-- Repeated runs
-- ---------------------------------------------------------------------------

/-- Runs one after the other, and the query that the last of them leaves. -/
inductive Runs : Query → List Run → Query → Prop
  | nil (q : Query) : Runs q [] q
  | cons {q q' : Query} {bound : Nat} {r : Run} {rs : List Run} (hrun : q.run bound = some r)
    (h : Runs r.query rs q') : Runs q (r :: rs) q'

theorem run_program {bound : Nat} {r : Run} (h : q.run bound = some r) :
    r.query.prepare.program = q.prepare.program := by
  have hprepare : r.query.prepare = r.query := if_pos (run_prepared h)
  obtain ⟨memories, o, hquery⟩ := run_query h
  rw [hprepare, hquery]

/-- Runs leave the changed program, the registry and the graph alone. -/
theorem Runs.keeps {rs : List Run} {q' : Query} (h : q.Runs rs q') :
    q'.prepare.program = q.prepare.program ∧ q'.registry = q.registry ∧ q'.graph = q.graph := by
  induction h with
  | nil q => exact ⟨rfl, rfl, rfl⟩
  | cons hrun _ ih =>
    obtain ⟨hgraph, hregistry⟩ := run_keeps hrun
    obtain ⟨hprogram', hregistry', hgraph'⟩ := ih
    exact ⟨hprogram'.trans (run_program hrun), hregistry'.trans hregistry, hgraph'.trans hgraph⟩

theorem Runs.provided {rs : List Run} {q' : Query} (h : q.Runs rs q') (hq : q.Provided) :
    q'.Provided := by
  induction h with
  | nil q => exact hq
  | cons hrun _ ih => exact ih (hq.run hrun)

/-- Over any graph, every run of a program of familiar pipes ends, whatever the runs before it
left: it asks as many questions as its history tells, and with the last of them the last step is
finished. -/
theorem runs_end (g : Graph) (r : Registry) (p : Program)
    (hp : ∀ step ∈ r.transform p, r.Familiar step.pipe) {earlier : List Run} {q : Query}
    (hq : (new g r p).Runs earlier q) :
    ∃ run : Run,
      (∀ bound, q.run bound = if run.history.length ≤ bound then some run else none) ∧
      (q.prepare.program ≠ [] → ∃ s, q.prepare.machine.Reaches q.begin s ∧
        s.finished = some q.prepare.machine.last ∧ run.history = s.history.reverse) := by
  obtain ⟨hprogram, hregistry, -⟩ := hq.keeps
  have hfamiliar : ∀ step ∈ q.prepare.program, q.prepare.registry.Familiar step.pipe := by
    rw [hprogram, prepare_registry, hregistry]
    exact hp
  obtain ⟨run, hrun⟩ := run_ends (hq.provided (provided_new g r p)) hfamiliar
  refine ⟨run, hrun, fun hne => ?_⟩
  have hended : q.run run.history.length = some run := (hrun _).trans (if_pos (Nat.le_refl _))
  obtain ⟨s, hreach, hover, -, hhistory, -⟩ := reaches_of_run hne hended
  exact ⟨s, hreach, by simpa [State.isOver] using hover, hhistory⟩

/-- Around a graph with circles, from a source in the middle and by a pipe of no registered name. -/
def winding : Query :=
  let circles := (Graph.fork.insertEdge ⟨none, 1, 0, ∅⟩).insertEdge ⟨none, 2, 2, ∅⟩
  new circles .standard [⟨"out", []⟩, ⟨"vertex", []⟩, ⟨"teleport", []⟩, ⟨"out", []⟩,
    ⟨"take", [.value (.int 1)]⟩]

theorem runs_end_winding : (∀ step ∈ winding.registry.transform winding.program,
      winding.registry.Familiar step.pipe) ∧
    ∃ first, winding.run 9 = some first ∧ winding.Runs [first] first.query ∧
      ∃ second : Run, ∀ bound,
        first.query.run bound = if second.history.length ≤ bound then some second else none := by
  have hfamiliar : ∀ step ∈ winding.registry.transform winding.program,
      winding.registry.Familiar step.pipe := fun step _ => Registry.familiar_standard step.pipe
  obtain ⟨first, hfirst⟩ : ∃ first, winding.run 9 = some first :=
    Option.isSome_iff_exists.mp (by rfl)
  have hruns : winding.Runs [first] first.query := .cons hfirst (.nil _)
  obtain ⟨second, hsecond, -⟩ := runs_end winding.graph winding.registry _ hfamiliar hruns
  exact ⟨hfamiliar, first, hfirst, hruns, second, hsecond⟩

end Query

end GraphWalk
