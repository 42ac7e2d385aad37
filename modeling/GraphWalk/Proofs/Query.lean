import GraphWalk.Proofs.Line.Batches
import GraphWalk.Proofs.Roles
import GraphWalk.Walk.Query

/-!
# Runs of queries

A query over the standard registry runs as the line of its steps' roles does: `batches_line` says
so for every bound, and `gives_iff` says that every run ends, with the outputs of `drain`.
-/

namespace GraphWalk

namespace PipeKind

def fresh {W : Type} (g : Graph) (args : List Arg) : PipeKind → Stock W
  | vertex => { waiting := (g.select args).1.reverse }
  | _ => {}

end PipeKind

namespace Step

def kind (step : Step) : PipeKind := .ofName step.pipe

/-- The number of walkers that the step lets pass, if it is a `take` with a number. -/
def limit? (step : Step) : Option Nat := step.kind.limit? step.args

def role {W σ : Type} (c : Carrier W σ) (g : Graph) (step : Step) : Role W σ :=
  step.kind.role c g step.args

def fresh {W : Type} (g : Graph) (step : Step) : Stock W := step.kind.fresh g step.args

def stock (g : Graph) (step : Step) (m : Memory) : Stock Walker := step.kind.stock g step.args m

theorem stock_untouched (g : Graph) (step : Step) : step.stock g .untouched = step.fresh g := by
  unfold stock fresh
  cases step.kind <;> rfl

section
variable {W σ : Type} {step : Step} (c : Carrier W σ) (g : Graph)

theorem role_vertex (h : step.kind = .vertex) : step.role c g = .source c.start := by
  unfold role
  rw [h]
  rfl

theorem role_take (h : step.kind = .take) : step.role c g = .gate step.limit? := by
  unfold role limit?
  rw [h]
  rfl

theorem role_relay (hvertex : step.kind ≠ .vertex) (htake : step.kind ≠ .take) :
    step.role c g = .relay (step.kind.follow c g step.args) step.kind.isProperty := by
  unfold role
  cases hkind : step.kind with
  | vertex => exact absurd hkind hvertex
  | take => exact absurd hkind htake
  | _ => rfl

end

theorem kind_of_limit {step : Step} {n : Nat} (h : step.limit? = some n) : step.kind = .take := by
  unfold limit? at h
  cases hkind : step.kind with
  | take => rfl
  | _ =>
    rw [hkind] at h
    cases h

theorem fresh_of_ne {W : Type} {step : Step} (g : Graph) (h : step.kind ≠ .vertex) :
    step.fresh g = ({} : Stock W) := by
  unfold fresh
  cases hkind : step.kind with
  | vertex => exact absurd hkind h
  | _ => rfl

theorem kind_eq_vertex {step : Step} : step.kind = .vertex ↔ step.pipe = "vertex" := by
  unfold kind PipeKind.ofName
  split <;> simp_all

theorem kind_eq_take {step : Step} : step.kind = .take ↔ step.pipe = "take" := by
  unfold kind PipeKind.ofName
  split <;> simp_all

end Step

namespace Program

def roles {W σ : Type} (c : Carrier W σ) (g : Graph) (p : Program) : List (Role W σ) :=
  p.map (Step.role c g)

/-- The line of a program that has not run, over what its steps are to share. -/
def line {W σ : Type} (g : Graph) (p : Program) (shared : σ) : Line W σ :=
  ⟨p.map (Step.fresh g), shared⟩

theorem length_line {W σ : Type} (c : Carrier W σ) (g : Graph) (p : Program) (shared : σ) :
    (p.line g shared : Line W σ).stocks.length = (p.roles c g).length := by
  simp [line, roles]

end Program

/-- The line that the memories of a program stand for. -/
def World.line (g : Graph) (p : Program) (w : World) : Line Walker Origins :=
  ⟨List.zipWith (Step.stock g) p w.memories.toList, w.origins⟩

namespace Query

variable {q : Query} {g : Graph} {p : Program} {bound m : Nat}

/-- What a number of runs return, one batch for each; `none` if one of them asks more than `bound`
questions. -/
def batches (bound : Nat) : Nat → Query → Option (List (List Output))
  | 0, _ => some []
  | m + 1, q =>
    (q.run bound).bind fun r => (batches bound m r.query).map (r.outputs :: ·)

/-- The first runs of a query all end, and return these batches. -/
def Gives (q : Query) (bs : List (List Output)) : Prop :=
  ∃ bound, q.batches bound bs.length = some bs

structure Standard (q : Query) (g : Graph) (p : Program) : Prop where
  graph : q.graph = g
  registry : q.registry = .standard
  program : q.program = p
  prepared : q.prepared = true
  size : q.memories.size = p.length

def line (q : Query) : Line Walker Origins :=
  World.line q.graph q.program ⟨q.memories, q.origins, []⟩

-- ---------------------------------------------------------------------------
-- One run
-- ---------------------------------------------------------------------------

theorem prepare_graph (q : Query) : q.prepare.graph = q.graph := by
  cases h : q.prepared <;> simp [prepare, h]

theorem prepare_registry (q : Query) : q.prepare.registry = q.registry := by
  cases h : q.prepared <;> simp [prepare, h]

/-- What a run changes of a query, once it is prepared, is what its steps keep. -/
theorem run_query {bound : Nat} {r : Run} (h : q.run bound = some r) :
    ∃ memories o, r.query = { q.prepare with memories := memories, origins := o } := by
  unfold run at h
  dsimp only at h
  split at h
  · obtain rfl := Option.some.inj h
    exact ⟨_, _, rfl⟩
  · obtain ⟨s, -, rfl⟩ := Option.map_eq_some_iff.mp h
    exact ⟨_, _, rfl⟩

/-- A run leaves its graph and its registry alone. -/
theorem run_keeps {bound : Nat} {r : Run} (h : q.run bound = some r) :
    r.query.graph = q.graph ∧ r.query.registry = q.registry := by
  obtain ⟨memories, o, hquery⟩ := run_query h
  rw [hquery]
  exact ⟨q.prepare_graph, q.prepare_registry⟩

theorem run_congr {q q' : Query} (h : q.prepare = q'.prepare) (bound : Nat) :
    q.run bound = q'.run bound := by
  simp only [run, h]

theorem batches_congr {q q' : Query} (h : q.prepare = q'.prepare) (bound m : Nat) :
    batches bound m q = batches bound m q' := by
  cases m with
  | zero => rfl
  | succ m => simp only [batches, run_congr h]

theorem getElem?_stages (h : q.Standard g p) (i : Nat) :
    q.stages[i]? = p[i]?.map fun step => (step.kind.pipe, step.args) := by
  simp only [stages, h.registry, h.program, PipeKind.pipe_ofName, List.getElem?_toArray,
    List.getElem?_map]
  rfl

theorem zipWith_set {α β γ : Type} {f : α → β → γ} {as : List α} {i : Nat} {a : α}
    (h : as[i]? = some a) (bs : List β) (b : β) :
    List.zipWith f as (bs.set i b) = (List.zipWith f as bs).set i (f a b) := by
  induction as generalizing bs i with
  | nil => simp at h
  | cons a' as ih =>
    cases bs with
    | nil => rfl
    | cons b' bs =>
      cases i with
      | zero =>
        cases h
        rfl
      | succ i => exact congrArg (f a' b' :: ·) (ih h bs)

theorem ask_line (h : q.Standard g p) (i : Nat) (input : Option Walker) {w : World}
    (hsize : w.memories.size = p.length) :
    Line.ask (p.roles .shared g) i input (w.line g p) =
      ((askStage g q.stages i input w).1, (askStage g q.stages i input w).2.line g p) := by
  unfold askStage Line.ask World.line Program.roles
  rw [getElem?_stages h, List.getElem?_map, List.getElem?_zipWith]
  cases hstep : p[i]? with
  | none => rfl
  | some step =>
    obtain ⟨hi, -⟩ := List.getElem?_eq_some_iff.mp hstep
    have hm : w.memories.toList[i]? = some w.memories[i] := by simp [hsize, hi]
    have hget : w.memories[i]?.getD .untouched = w.memories[i] := by simp [hsize, hi]
    simp only [hm, Option.map_some, Step.stock, Step.role]
    rw [hget, PipeKind.ask_pipe]
    refine Prod.ext rfl (congrArg (Line.mk · _) ?_)
    rw [Array.toList_setIfInBounds]
    exact (zipWith_set hstep _ _).symm

theorem size_askStage (g : Graph) (stages : Array (Pipe × List Arg)) (i : Nat)
    (input : Option Walker) (w : World) :
    (askStage g stages i input w).2.memories.size = w.memories.size := by
  unfold askStage
  split
  · rfl
  · exact Array.size_setIfInBounds

/-- A state of a query's machine, and the state of the line's machine that it stands for. -/
def StandsFor (g : Graph) (p : Program) (s : Machine.State Walker World)
    (t : Machine.State Walker (Line Walker Origins)) : Prop :=
  t = s.inWorld (s.world.line g p) ∧ s.world.memories.size = p.length

theorem last_machine (h : q.Standard g p) :
    (Line.machine (p.roles .shared g)).last = q.machine.last := by
  simp [Line.machine, machine, Program.roles, h.program]

theorem StandsFor.start (h : q.Standard g p) {w : World} (hsize : w.memories.size = p.length) :
    StandsFor g p (q.machine.start w) ((Line.machine (p.roles .shared g)).start (w.line g p)) := by
  refine ⟨?_, hsize⟩
  simp only [Machine.start, last_machine h]
  rfl

theorem StandsFor.next (h : q.Standard g p) {s : Machine.State Walker World}
    {t : Machine.State Walker (Line Walker Origins)} (hst : StandsFor g p s t) :
    StandsFor g p (q.machine.next s) ((Line.machine (p.roles .shared g)).next t) := by
  obtain ⟨rfl, hsize⟩ := hst
  have hask := ask_line h s.position s.carried hsize
  have hworld := Machine.next_world q.machine s
  rw [← h.graph] at hask
  refine ⟨?_, ?_⟩
  · rw [hworld, ← h.graph]
    exact Machine.next_inWorld (h.graph ▸ last_machine h) hask
  · rw [hworld]
    exact (size_askStage _ _ _ _ _).trans hsize

/-- A run of a query and a run of its line need as many questions, and leave query and line in
correspondence. -/
theorem run_line (h : q.Standard g p) (bound : Nat) :
    Option.Rel (fun r l => r.outputs = l.1.map Output.ofWalker ∧ r.query.Standard g p ∧
      r.query.line = l.2) (q.run bound) (q.line.run (p.roles .shared g) bound) := by
  have hprepare : q.prepare = q := if_pos h.prepared
  have hempty : (p.roles .shared g).isEmpty = p.isEmpty := List.isEmpty_map
  unfold run Line.run
  simp only [hprepare, hempty, h.program]
  split
  · exact .some ⟨rfl, h, rfl⟩
  · have hstart : StandsFor g p (q.machine.start ⟨q.memories, q.origins, []⟩)
        ((Line.machine (p.roles .shared g)).start q.line) := by
      rw [line, h.graph, h.program]
      exact .start h h.size
    have hover : ∀ {s t}, StandsFor g p s t →
        s.isOver q.machine = t.isOver (Line.machine (p.roles .shared g)) := by
      rintro s t ⟨rfl, -⟩
      show (s.finished == some q.machine.last) = (s.finished == some _)
      rw [last_machine h]
    have hrun := Machine.runFrom_lockstep hover (StandsFor.next h) hstart bound
    unfold Machine.run
    generalize q.machine.runFrom bound _ = r,
      (Line.machine (p.roles .shared g)).runFrom bound _ = l at hrun ⊢
    cases hrun with
    | none => exact .none
    | some hst =>
      obtain ⟨rfl, hsize⟩ := hst
      refine .some ⟨rfl, ⟨h.graph, h.registry, rfl, h.prepared, hsize⟩, ?_⟩
      rw [← h.graph]
      rfl

-- ---------------------------------------------------------------------------
-- Repeated runs
-- ---------------------------------------------------------------------------

theorem batches_line (h : q.Standard g p) (bound m : Nat) :
    q.batches bound m = (Line.batches (p.roles .shared g) bound m q.line).map
      (List.map (List.map Output.ofWalker)) := by
  induction m generalizing q with
  | zero => rfl
  | succ m ih =>
    have hrun := run_line h bound
    simp only [batches, Line.batches]
    generalize q.run bound = r, q.line.run (p.roles .shared g) bound = l at hrun ⊢
    cases hrun with
    | none => rfl
    | some hrl =>
      obtain ⟨houtputs, hquery, hline⟩ := hrl
      simp only [Option.bind_some, ih hquery, hline, houtputs, Option.map_map]
      rfl

theorem prepare_plain {r : Registry} (hpasses : r.passes = []) (g : Graph) (p : Program) :
    (new g r p).prepare =
      ⟨g, r, p, true, Array.replicate p.length .untouched, #[]⟩ := by
  simp [prepare, new, Registry.transform, hpasses]

theorem prepare_new (g : Graph) (p : Program) : (new g .standard p).prepare.Standard g p :=
  ⟨rfl, rfl, rfl, rfl, Array.size_replicate⟩

theorem line_prepare_new (g : Graph) (p : Program) :
    (new g .standard p).prepare.line = p.line g #[] := by
  refine congrArg (Line.mk · _) ?_
  show List.zipWith (Step.stock g) p (Array.replicate p.length Memory.untouched).toList = _
  rw [Array.toList_replicate]
  induction p with
  | nil => rfl
  | cons step p ih =>
    rw [List.map_cons, ← ih, ← step.stock_untouched]
    rfl

theorem batches_new (g : Graph) (p : Program) (bound m : Nat) :
    (new g .standard p).batches bound m =
      (Line.batches (p.roles .shared g) bound m (p.line g #[])).map
        (List.map (List.map Output.ofWalker)) := by
  have hprepare : (new g .standard p).batches bound m =
      (new g .standard p).prepare.batches bound m := by
    cases m with
    | zero => rfl
    | succ m => rfl
  rw [hprepare, batches_line (prepare_new g p), line_prepare_new]

/-- The runs of a new query all end. What they return are the outputs of repeated evaluations of
its line, and nothing else. -/
theorem gives_iff (g : Graph) (p : Program) (bs : List (List Output)) :
    (new g .standard p).Gives bs ↔
      bs = (Line.drains (p.roles .shared g) bs.length (p.line g #[])).map
        (List.map Output.ofWalker) := by
  obtain ⟨enough, hdrains⟩ := Line.batches_drains bs.length (p.length_line .shared g #[])
  constructor
  · rintro ⟨bound, hbatches⟩
    rw [batches_new] at hbatches
    obtain ⟨outputs, houtputs, hbs⟩ := Option.map_eq_some_iff.mp hbatches
    have hleft := Line.batches_mono (Nat.le_max_left bound enough) houtputs
    have hright := Line.batches_mono (Nat.le_max_right bound enough) hdrains
    rw [← Option.some.inj (hleft.symm.trans hright), hbs]
  · intro hbs
    refine ⟨enough, ?_⟩
    rw [batches_new, hdrains, Option.map_some, ← hbs]

theorem gives_one (g : Graph) (p : Program) (outputs : List Output) :
    (new g .standard p).Gives [outputs] ↔
      outputs = (Line.drain (p.roles .shared g) (p.map (Step.fresh g)) #[]).outputs.map
        Output.ofWalker := by
  rw [gives_iff]
  exact List.singleton_inj

theorem gives_exists (g : Graph) (p : Program) (m : Nat) :
    ∃ bs, bs.length = m ∧ (new g .standard p).Gives bs := by
  refine ⟨(Line.drains (p.roles .shared g) m (p.line g #[])).map (List.map Output.ofWalker), ?_, ?_⟩
  · rw [List.length_map, Line.length_drains]
  · rw [gives_iff, List.length_map, Line.length_drains]

theorem gives_unique {g : Graph} {p : Program} {bs bs' : List (List Output)}
    (h : (new g .standard p).Gives bs) (h' : (new g .standard p).Gives bs')
    (hlen : bs.length = bs'.length) : bs = bs' := by
  rw [gives_iff] at h h'
  rw [h, h', hlen]

end Query

/-- One vertex with edges to two others. -/
def Graph.fork : Graph :=
  ((((Graph.empty.insertVertex (.int 1) ∅).insertVertex (.int 2) ∅).insertVertex (.int 3)
    ∅).insertEdge ⟨none, 0, 1, ∅⟩).insertEdge ⟨none, 0, 2, ∅⟩

end GraphWalk
