import GraphWalk.Proofs.Handover
import GraphWalk.Proofs.Padding
import Mathlib.Data.List.Forall2

/-!
# Steps that stand for each other

Two stages over one graph may keep different things and still give the same answers, whatever they
are asked (`Emulates`). Programs whose steps emulate each other, one by one, have runs that cannot
be told apart: `accounts_interchange` compares outputs, notices and every question that was asked.
`accounts_back` is the first use: a `back` may be written as a `merge`.
-/

namespace GraphWalk

open Machine (State)

/-- What can be told of a run: its outputs, what was reported, and every question with its answer.
-/
structure Account where
  outputs : List Output
  notices : List Notice
  history : List (Exchange Walker)

def Run.account (r : Run) : Account := ⟨r.outputs, r.notices, r.history⟩

/-- The accounts of a number of runs; `none` if one of them asks more than `bound` questions. -/
def Query.accounts (bound : Nat) : Nat → Query → Option (List Account)
  | 0, _ => some []
  | m + 1, q =>
    (q.run bound).bind fun r => (accounts bound m r.query).map (r.account :: ·)

/-- Answers that differ at most in what they leave in memory. -/
structure Answer.Alike (R : Memory → Memory → Prop) (a a' : Answer) : Prop where
  reply : a'.reply = a.reply
  memory : R a.memory a'.memory
  origins : a'.origins = a.origins
  notices : a'.notices = a.notices

/-- From memories that correspond, the second stage answers every question over the graph as the
first does, and leaves memories that correspond. -/
structure Emulates (g : Graph) (R : Memory → Memory → Prop) (a b : Pipe × List Arg) : Prop where
  untouched : R .untouched .untouched
  answers : ∀ input o {m m'}, R m m' →
    Answer.Alike R (a.1 g a.2 input m o) (b.1 g b.2 input m' o)

theorem Emulates.of_eq {g : Graph} {a b : Pipe × List Arg}
    (h : ∀ input m o, a.1 g a.2 input m o = b.1 g b.2 input m o) : Emulates g Eq a b where
  untouched := rfl
  answers := by
    rintro input o m _ rfl
    rw [h]
    exact ⟨rfl, rfl, rfl, rfl⟩

-- ---------------------------------------------------------------------------
-- One question
-- ---------------------------------------------------------------------------

/-- Worlds that differ at most in what each step keeps. -/
structure World.Alike (R : Nat → Memory → Memory → Prop) (w w' : World) : Prop where
  memories : ∀ i, Option.Rel (R i) w.memories[i]? w'.memories[i]?
  origins : w'.origins = w.origins
  notices : w'.notices = w.notices

namespace Query

variable {g : Graph} {R : Nat → Memory → Memory → Prop} {w w' : World} {q q' : Query}
  {stages stages' : Array (Pipe × List Arg)}

theorem rel_setIfInBounds {S : Memory → Memory → Prop} {ms ms' : Array Memory} {i : Nat}
    (h : Option.Rel S ms[i]? ms'[i]?) {m m' : Memory} (hm : S m m') :
    Option.Rel S (ms.setIfInBounds i m)[i]? (ms'.setIfInBounds i m')[i]? := by
  have hset : ∀ (ms : Array Memory) (m : Memory),
      (ms.setIfInBounds i m)[i]? = ms[i]?.map fun _ => m := by
    intro ms m
    by_cases hi : i < ms.size <;> simp [hi]
  rw [hset, hset]
  generalize ms[i]? = a, ms'[i]? = b at h
  cases h with
  | none => exact .none
  | some _ => exact .some hm

theorem askStage_alike (hstages : ∀ i, Option.Rel (Emulates g (R i)) stages[i]? stages'[i]?)
    (h : w.Alike R w') (i : Nat) (input : Option Walker) :
    (askStage g stages' i input w').1 = (askStage g stages i input w).1 ∧
      (askStage g stages i input w).2.Alike R (askStage g stages' i input w').2 := by
  obtain ⟨memories, o, notices⟩ := w
  obtain ⟨memories', o', notices'⟩ := w'
  obtain ⟨hmemories, ho, hnotices⟩ := h
  obtain rfl : o' = o := ho
  obtain rfl : notices' = notices := hnotices
  have hstage := hstages i
  unfold askStage
  generalize stages[i]? = a, stages'[i]? = b at hstage ⊢
  cases hstage with
  | none => exact ⟨rfl, hmemories, rfl, rfl⟩
  | some hab =>
    have hkept : R i (memories[i]?.getD .untouched) (memories'[i]?.getD .untouched) := by
      have hmemory := hmemories i
      generalize memories[i]? = m, memories'[i]? = m' at hmemory ⊢
      cases hmemory with
      | none => exact hab.untouched
      | some hm => exact hm
    have hanswer := hab.answers input o' hkept
    refine ⟨hanswer.reply, fun j => ?_, hanswer.origins, ?_⟩
    · by_cases hj : i = j
      · subst hj
        exact rel_setIfInBounds (hmemories i) hanswer.memory
      · simpa [hj] using hmemories j
    · simp only [hanswer.notices]

/-- States of two runs that differ at most in what each step keeps. -/
def StatesAlike (R : Nat → Memory → Memory → Prop) (s t : State Walker World) : Prop :=
  ∃ world, t = s.inWorld world ∧ s.world.Alike R world

-- ---------------------------------------------------------------------------
-- Whole runs
-- ---------------------------------------------------------------------------

/-- Prepared queries over one graph that have done the same so far, and whose steps go on to do the
same. -/
structure InStep (R : Nat → Memory → Memory → Prop) (q q' : Query) : Prop where
  graph : q'.graph = q.graph
  prepared : q.prepared = true ∧ q'.prepared = true
  length : q'.program.length = q.program.length
  stages : ∀ i, Option.Rel (Emulates q.graph (R i)) q.stages[i]? q'.stages[i]?
  unknown : q'.unknownPipes = q.unknownPipes
  world : World.Alike R ⟨q.memories, q.origins, []⟩ ⟨q'.memories, q'.origins, []⟩

namespace InStep

variable {s t : State Walker World}

theorem last (h : q.InStep R q') : q'.machine.last = q.machine.last :=
  congrArg (· - 1) h.length

theorem next (h : q.InStep R q') (hst : StatesAlike R s t) :
    StatesAlike R (q.machine.next s) (q'.machine.next t) := by
  obtain ⟨world, rfl, hworld⟩ := hst
  obtain ⟨hreply, hnext⟩ := askStage_alike h.stages hworld s.position s.carried
  have hask : q'.machine.ask s.position s.carried world =
      ((q.machine.ask s.position s.carried s.world).1,
        (askStage q.graph q'.stages s.position s.carried world).2) := by
    simp only [machine, h.graph, ← hreply]
  refine ⟨_, Machine.next_inWorld h.last hask, ?_⟩
  rw [Machine.next_world]
  exact hnext

/-- The two run equally long, with the same account. -/
theorem run (h : q.InStep R q') (bound : Nat) :
    Option.Rel (fun r r' => r.account = r'.account ∧ r.query.InStep R r'.query) (q.run bound)
      (q'.run bound) := by
  have hprepare : q.prepare = q := if_pos h.prepared.1
  have hprepare' : q'.prepare = q' := if_pos h.prepared.2
  have hempty : q'.program.isEmpty = q.program.isEmpty := by
    rw [Bool.eq_iff_iff, List.isEmpty_iff_length_eq_zero, List.isEmpty_iff_length_eq_zero, h.length]
  unfold Query.run
  simp only [hprepare, hprepare', hempty]
  split
  · exact .some ⟨rfl, h⟩
  · have hstart : StatesAlike R (q.machine.start ⟨q.memories, q.origins, []⟩)
        (q'.machine.start ⟨q'.memories, q'.origins, []⟩) := by
      refine ⟨⟨q'.memories, q'.origins, []⟩, ?_, h.world⟩
      simp only [Machine.start, h.last]
      rfl
    have hover : ∀ {s t}, StatesAlike R s t → s.isOver q.machine = t.isOver q'.machine := by
      rintro s t ⟨world, rfl, -⟩
      rw [State.isOver, State.isOver, h.last]
      rfl
    have hrun := Machine.runFrom_lockstep hover h.next hstart bound
    unfold Machine.run
    generalize q.machine.runFrom bound _ = r, q'.machine.runFrom bound _ = r' at hrun ⊢
    cases hrun with
    | none => exact .none
    | @some s t hst =>
      obtain ⟨world, rfl, hworld⟩ := hst
      refine .some ⟨?_, h.graph, h.prepared, h.length, h.stages, h.unknown, hworld.memories,
        hworld.origins, rfl⟩
      simp only [Run.account, State.inWorld, hworld.notices, h.unknown]

theorem accounts (h : q.InStep R q') (bound m : Nat) :
    q.accounts bound m = q'.accounts bound m := by
  induction m generalizing q q' with
  | zero => rfl
  | succ m ih =>
    have hrun := h.run bound
    simp only [Query.accounts]
    generalize q.run bound = r, q'.run bound = r' at hrun ⊢
    cases hrun with
    | none => rfl
    | some hrr =>
      obtain ⟨haccount, hquery⟩ := hrr
      simp only [Option.bind_some, ih hquery, haccount]

end InStep

end Query

-- ---------------------------------------------------------------------------
-- Programs
-- ---------------------------------------------------------------------------

namespace Registry

/-- The pipe of a step, with its arguments. -/
def stage (r : Registry) (step : Step) : Pipe × List Arg :=
  ((r.pipe? step.pipe).getD Pipe.passthrough, step.args)

/-- What is reported of a step before a run. -/
def notice? (r : Registry) (step : Step) : Option Notice :=
  if (r.pipe? step.pipe).isNone then some (.unknownPipe step.pipe) else none

end Registry

/-- Over a graph, a step in one registry does what another does in another registry. -/
structure Step.Interchanges (g : Graph) (r r' : Registry) (step step' : Step) : Prop where
  emulates : ∃ R, Emulates g R (r.stage step) (r'.stage step')
  notice : r'.notice? step' = r.notice? step

theorem Step.Interchanges.refl (g : Graph) (r : Registry) (step : Step) :
    step.Interchanges g r r step :=
  ⟨⟨Eq, .of_eq fun _ _ _ => rfl⟩, rfl⟩

namespace Query

variable {g : Graph} {r r' : Registry} {p p' : Program}

theorem stages_eq (q : Query) : q.stages = (q.program.map q.registry.stage).toArray := rfl

theorem unknownPipes_eq (q : Query) : q.unknownPipes = q.program.filterMap q.registry.notice? := by
  unfold unknownPipes
  induction q.program with
  | nil => rfl
  | cons step p ih =>
    rw [List.filterMap_cons, Registry.notice?, List.filter_cons]
    cases q.registry.pipe? step.pipe <;> simp [ih]

theorem forall₂_getElem? {α β : Type} {S : α → β → Prop} {as : List α} {bs : List β}
    (h : List.Forall₂ S as bs) (i : Nat) : Option.Rel S as[i]? bs[i]? := by
  induction h generalizing i with
  | nil => exact .none
  | cons hab _ ih =>
    cases i with
    | zero => exact .some hab
    | succ i => exact ih i

theorem filterMap_notice? (h : List.Forall₂ (Step.Interchanges g r r') p p') :
    p'.filterMap r'.notice? = p.filterMap r.notice? := by
  induction h with
  | nil => rfl
  | cons hstep _ ih => rw [List.filterMap_cons, List.filterMap_cons, hstep.notice, ih]

theorem accounts_congr {q q' : Query} (h : q.prepare = q'.prepare) (bound m : Nat) :
    q.accounts bound m = q'.accounts bound m := by
  cases m with
  | zero => rfl
  | succ m => simp only [accounts, run_congr h]

/-- Steps are interchanged from the start on, where every memory is untouched. -/
theorem InStep.prepare
    (h : List.Forall₂ (Step.Interchanges g r r') (r.transform p) (r'.transform p')) :
    ∃ R, (new g r p).prepare.InStep R (new g r' p').prepare := by
  have hlength := h.length_eq
  have hstages : ∀ i : Nat, ∃ R : Memory → Memory → Prop, R .untouched .untouched ∧
      Option.Rel (Emulates g R) ((r.transform p)[i]?.map r.stage)
        ((r'.transform p')[i]?.map r'.stage) := by
    intro i
    have hstep := forall₂_getElem? h i
    generalize (r.transform p)[i]? = a, (r'.transform p')[i]? = b at hstep ⊢
    cases hstep with
    | none => exact ⟨Eq, rfl, .none⟩
    | some hstep =>
      obtain ⟨R, hR⟩ := hstep.emulates
      exact ⟨R, hR.untouched, .some hR⟩
  choose R huntouched hemulates using hstages
  refine ⟨R, rfl, ⟨rfl, rfl⟩, hlength.symm, fun i => ?_, ?_, fun i => ?_, rfl, rfl⟩
  · simp only [stages_eq, List.getElem?_toArray, List.getElem?_map]
    exact hemulates i
  · rw [unknownPipes_eq, unknownPipes_eq]
    exact filterMap_notice? h
  · show Option.Rel (R i) (Array.replicate (r.transform p).length .untouched)[i]?
      (Array.replicate (r'.transform p').length .untouched)[i]?
    rw [← hlength, Array.getElem?_replicate]
    split
    · exact .some (huntouched i)
    · exact .none

/-- Programs that have not run give the same accounts if their steps are interchanged, one by one.
-/
theorem accounts_interchange
    (h : List.Forall₂ (Step.Interchanges g r r') (r.transform p) (r'.transform p'))
    (bound m : Nat) : (new g r p).accounts bound m = (new g r' p').accounts bound m := by
  obtain ⟨R, hstep⟩ := InStep.prepare h
  rw [← accounts_congr (new g r p).prepare_prepare, ← accounts_congr (new g r' p').prepare_prepare]
  exact hstep.accounts bound m

/-- Without passes, one step may be put for another wherever it stands. -/
theorem accounts_context {step step' : Step} (hpasses : r.passes = [])
    (h : step.Interchanges g r r step') (before after : Program) (bound m : Nat) :
    (new g r (before ++ step :: after)).accounts bound m =
      (new g r (before ++ step' :: after)).accounts bound m := by
  have htransform : ∀ p : Program, r.transform p = p := by
    intro p
    rw [Registry.transform, hpasses, List.foldl_nil]
  have hsame : ∀ p : Program, List.Forall₂ (Step.Interchanges g r r) p p := fun p =>
    List.forall₂_same.mpr fun step _ => .refl g r step
  apply accounts_interchange
  rw [htransform, htransform]
  exact List.rel_append (hsame before) (.cons h (hsame after))

end Query

-- ---------------------------------------------------------------------------
-- The standard registry
-- ---------------------------------------------------------------------------

namespace Registry

theorem stage_standard (step : Step) : standard.stage step = (step.kind.pipe, step.args) :=
  Prod.ext (PipeKind.pipe_ofName step.pipe) rfl

theorem notice?_standard {step : Step} (h : step.kind ≠ .other) : standard.notice? step = none := by
  have hknown : (standard.pipe? step.pipe).isNone = false := by
    rw [Step.kind, ne_eq, PipeKind.ofName_eq_other] at h
    simpa [Option.isSome_iff_ne_none] using h
  simp [notice?, hknown]

end Registry

/-- Steps of pipes that every graph knows, of which the second emulates the first. -/
theorem Step.Interchanges.standard {g : Graph} {step step' : Step} {R : Memory → Memory → Prop}
    (kind kind' : PipeKind) (hstep : step.kind = kind) (hstep' : step'.kind = kind')
    (hknown : kind ≠ .other ∧ kind' ≠ .other)
    (h : Emulates g R (kind.pipe, step.args) (kind'.pipe, step'.args)) :
    step.Interchanges g .standard .standard step' where
  emulates := ⟨R, by rwa [Registry.stage_standard, Registry.stage_standard, hstep, hstep']⟩
  notice := by
    rw [Registry.notice?_standard (hstep.trans_ne hknown.1),
      Registry.notice?_standard (hstep'.trans_ne hknown.2)]

-- ---------------------------------------------------------------------------
-- Back and merge
-- ---------------------------------------------------------------------------

/-- Where a walker goes that returns to a label: to the vertex bound under it, without its result,
or nowhere. -/
def Origins.homeward (o : Origins) (w : Walker) (label : String) : Reply Walker :=
  match o.bound? w label with
  | some v => .walker ⟨v, w.origin, none⟩
  | none => .pull

namespace Pipe

theorem back_label (g : Graph) (label : String) (w : Walker) (m : Memory) (o : Origins) :
    back g [.value (.str label)] (some w) m o = ⟨o.homeward w label, m, o, []⟩ := by
  have hbound : (firstString? [.value (.str label)]).bind (o.bound? w) = o.bound? w label := rfl
  simp only [back, stateless, hbound, Origins.homeward]
  cases o.bound? w label <;> rfl

/-- With nothing left to offer, a `merge` of one label offers at most one walker, and keeps none. -/
theorem merge_label (g : Graph) (label : String) (w : Walker) (source : Option Walker)
    (o : Origins) :
    merge g [.value (.str label)] (some w) (.spread source []) o =
      ⟨o.homeward w label, .spread (some w) [], o, []⟩ := by
  have htargets : (targets [.value (.str label)] o w).reverse = (o.bound? w label).toList := by
    show ([label].filterMap (o.bound? w)).reverse = _
    rw [List.filterMap_cons]
    cases o.bound? w label <;> rfl
  rw [merge_emptied]
  unfold merge Origins.homeward
  simp only [htargets]
  cases o.bound? w label <;> rfl

end Pipe

theorem emulates_merge (g : Graph) (label : String) :
    Emulates g (fun _ m => m = .untouched ∨ ∃ source, m = .spread source [])
      (Pipe.back, [.value (.str label)]) (Pipe.merge, [.value (.str label)]) where
  untouched := .inl rfl
  answers := by
    intro input o m m' hm
    dsimp only
    cases input with
    | none =>
      obtain rfl | ⟨source, rfl⟩ := hm
      · exact ⟨rfl, .inr ⟨none, rfl⟩, rfl, rfl⟩
      · cases source <;> exact ⟨rfl, .inr ⟨_, rfl⟩, rfl, rfl⟩
    | some w =>
      -- a `merge` that was never asked answers as one that has nothing left to offer
      have hmerge : Pipe.merge g [.value (.str label)] (some w) m' o =
          Pipe.merge g [.value (.str label)] (some w) (.spread none []) o := by
        obtain rfl | ⟨source, rfl⟩ := hm
        · rfl
        · rw [Pipe.merge_label, Pipe.merge_label]
      rw [hmerge, Pipe.back_label, Pipe.merge_label]
      exact ⟨rfl, .inr ⟨some w, rfl⟩, rfl, rfl⟩

namespace Query

/-- Both lead a walker to the vertex bound under the label, with its table and without its result,
or drop it if there is none. What a `merge` keeps does not show, so it may stand for a `back`
anywhere, in all runs. -/
theorem accounts_back (g : Graph) (label : String) :
    (∀ w m source o, Pipe.back g [.value (.str label)] (some w) m o =
        ⟨o.homeward w label, m, o, []⟩ ∧
      Pipe.merge g [.value (.str label)] (some w) (.spread source []) o =
        ⟨o.homeward w label, .spread (some w) [], o, []⟩) ∧
    ∀ (before after : Program) (bound m : Nat),
      (new g .standard (before ++ ⟨"back", [.value (.str label)]⟩ :: after)).accounts bound m =
        (new g .standard (before ++ ⟨"merge", [.value (.str label)]⟩ :: after)).accounts
          bound m := by
  refine ⟨fun w m source o => ⟨Pipe.back_label g label w m o, Pipe.merge_label g label w source o⟩,
    fun before after => ?_⟩
  exact accounts_context rfl
    (.standard .back .merge rfl rfl ⟨nofun, nofun⟩ (emulates_merge g label)) before after

end Query

end GraphWalk
