import GraphWalk.Cli.GraphCommand
import GraphWalk.Proofs.Line.Dry
import GraphWalk.Proofs.Takes
import GraphWalk.Proofs.Termination

/-!
# Empty batches

A run that returns nothing leaves nothing to return, unless a `take` before the last step was done
in it: such a `take` ends a run wherever its walkers have got to. `runs_exhausted` says what an
empty batch tells, and so what is printed up to the first of them.
-/

namespace GraphWalk

variable {g : Graph} {p : Program}

/-- No `take` before the last step was done. -/
def Run.Uncut (r : Run) : Prop :=
  ∀ e ∈ r.history, e.reply = .done → ∀ step ∈ r.query.program[e.step]?,
    step.pipe = "take" → e.step + 1 = r.query.program.length

instance {W : Type} : (reply : Reply W) → Decidable (reply = .done)
  | .done => isTrue rfl
  | .walker _ | .pull | .nothing => isFalse nofun

instance (r : Run) : Decidable r.Uncut := by
  unfold Run.Uncut
  infer_instance

namespace Line

variable {W σ : Type} {roles : List (Role W σ)} {l : Line W σ}

theorem drains_add (roles : List (Role W σ)) (k m : Nat) (l : Line W σ) :
    ∃ l', drains roles (k + m) l = drains roles k l ++ drains roles m l' := by
  induction k generalizing l with
  | zero => exact ⟨l, by rw [Nat.zero_add]; rfl⟩
  | succ k ih =>
    obtain ⟨l', hrest⟩ := ih (drain roles l.stocks l.shared).line
    refine ⟨l', ?_⟩
    rw [Nat.succ_add, drains, hrest]
    rfl

end Line

theorem Program.length_roles {W σ : Type} (c : Carrier W σ) (g : Graph) (p : Program) :
    (p.roles c g).length = p.length := by
  simp [roles]

namespace Query

open Machine (State)

variable {q q' : Query} {rs : List Run} {r : Run} {bound : Nat} {w : World}
  {s : State Walker World}

-- ---------------------------------------------------------------------------
-- One run
-- ---------------------------------------------------------------------------

theorem StandsFor.reaches (h : q.Standard g p) (hsize : w.memories.size = p.length)
    (hreach : q.machine.Reaches (q.machine.start w) s) :
    ∃ t, StandsFor g p s t ∧ (Line.machine (p.roles .shared g)).Reaches
      ((Line.machine (p.roles .shared g)).start (w.line g p)) t := by
  induction hreach with
  | refl => exact ⟨_, .start h hsize, .refl⟩
  | next _ hover ih =>
    obtain ⟨t, hst, ht⟩ := ih
    refine ⟨_, hst.next h, ht.next ?_⟩
    obtain ⟨rfl, -⟩ := hst
    rw [State.isOver, last_machine h]
    exact hover

theorem Standard.length_line (h : q.Standard g p) :
    q.line.stocks.length = (p.roles (W := Walker) .shared g).length := by
  simp [line, World.line, Program.roles, h.program, h.size]

/-- Where a run ends, its line has come to an end as well. -/
theorem Standard.ends (h : q.Standard g p) (hne : p ≠ []) (hrun : q.run bound = some r) :
    ∃ s, q.machine.Reaches (q.machine.start ⟨q.memories, q.origins, []⟩) s ∧
      (Line.machine (p.roles .shared g)).Reaches ((Line.machine (p.roles .shared g)).start q.line)
        (s.inWorld r.query.line) ∧
      State.isOver (Line.machine (p.roles .shared g)) (s.inWorld r.query.line) = true ∧
      r.outputs = s.results.reverse.map Output.ofWalker ∧ r.history = s.history.reverse ∧
      r.query = { q with memories := s.world.memories, origins := s.world.origins } := by
  have hprepare : q.prepare = q := if_pos h.prepared
  obtain ⟨s, hreach, hover, houtputs, hhistory, hquery⟩ :=
    reaches_of_run (by rwa [hprepare, h.program]) hrun
  rw [begin, hprepare] at hreach
  rw [hprepare] at hover hquery
  obtain ⟨t, ⟨rfl, -⟩, ht⟩ := StandsFor.reaches h h.size hreach
  have hline : s.world.line g p = r.query.line := by
    rw [hquery, ← h.graph, ← h.program]
    rfl
  have hstart : World.line g p ⟨q.memories, q.origins, []⟩ = q.line := by
    rw [← h.graph, ← h.program]
    rfl
  rw [hline, hstart] at ht
  refine ⟨s, hreach, ht, ?_, houtputs, hhistory, hquery⟩
  rw [State.isOver, last_machine h]
  exact hover

/-- A run returns what `drain` lets out and leaves the line that `drain` leaves. -/
theorem Standard.run_drain (h : q.Standard g p) (hrun : q.run bound = some r) :
    let outcome := Line.drain (p.roles .shared g) q.line.stocks q.line.shared
    r.query.Standard g p ∧ r.outputs = outcome.outputs.map Output.ofWalker ∧
      r.query.line = outcome.line := by
  obtain ⟨enough, hdrain⟩ := Line.run_drain h.length_line q.line.shared
  have hline := run_line h bound
  rw [hrun] at hline
  generalize hl : q.line.run (p.roles .shared g) bound = l at hline
  cases hline with
  | @some _ l hrl =>
    have hleft := Line.run_mono (Nat.le_max_left bound enough) hl
    have hright := Line.run_mono (Nat.le_max_right bound enough) hdrain
    obtain rfl := Option.some.inj (hleft.symm.trans hright)
    obtain ⟨houtputs, hquery, hleaves⟩ := hrl
    exact ⟨hquery, houtputs, hleaves⟩

/-- Nothing that a run with nothing to return leaves will ever be returned. -/
theorem Standard.run_dry (h : q.Standard g p)
    (hp : ∀ step ∈ p, step.pipe = "take" → Pipe.limit? step.args ≠ some 0)
    (hready : Line.Ready (p.roles .shared g) q.line.stocks) (hrun : q.run bound = some r) :
    Line.Ready (p.roles .shared g) r.query.line.stocks ∧
      (r.outputs = [] → r.Uncut → Line.Dry (p.roles .shared g) r.query.line.stocks) := by
  have hprogram := (h.run_drain hrun).1.program
  by_cases hne : p = []
  · subst hne
    have hempty : r.query.line.stocks = [] := by rw [line, hprogram]; rfl
    rw [hempty]
    exact ⟨by rintro _ ⟨⟩, fun _ _ => .quiet .nil⟩
  · obtain ⟨s, -, ht, hover, houtputs, hhistory, -⟩ := h.ends hne hrun
    have hroles : p.roles (W := Walker) .shared g ≠ [] := by simpa [Program.roles] using hne
    have hlength := h.length_line
    refine ⟨Line.ready_of_over hroles hlength (fun hgate => ?_) ht hover, fun hnone hcut => ?_⟩
    · exact Program.roles_limits hp _ hgate rfl
    · apply Line.dry_of_over hroles hlength hready ht hover
      · show s.results = []
        simpa [houtputs] using hnone
      · intro e he hdone role hrole hgate
        rw [Program.roles, List.getElem?_map] at hrole
        obtain ⟨step, hstep, rfl⟩ := Option.map_eq_some_iff.mp hrole
        rw [Step.isGate_role, decide_eq_true_eq] at hgate
        rw [Program.length_roles, ← hprogram]
        refine hcut e ?_ hdone step (hprogram ▸ hstep) hgate
        rw [hhistory]
        exact List.mem_reverse.mpr he

-- ---------------------------------------------------------------------------
-- Repeated runs
-- ---------------------------------------------------------------------------

/-- Between two runs of a program, and before the first. -/
structure Between (q : Query) (g : Graph) (p : Program) : Prop where
  standard : q.prepare.Standard g p
  ready : Line.Ready (p.roles .shared g) q.prepare.line.stocks

theorem Standard.prepare (h : q.Standard g p) : q.prepare = q := if_pos h.prepared

theorem Between.run (h : q.Between g p)
    (hp : ∀ step ∈ p, step.pipe = "take" → Pipe.limit? step.args ≠ some 0)
    (hrun : q.run bound = some r) : r.query.Between g p := by
  rw [← run_congr q.prepare_prepare] at hrun
  have hstandard := (h.standard.run_drain hrun).1
  refine ⟨?_, ?_⟩
  · rwa [hstandard.prepare]
  · rw [hstandard.prepare]
    exact (h.standard.run_dry hp h.ready hrun).1

theorem Between.runs (h : q.Between g p)
    (hp : ∀ step ∈ p, step.pipe = "take" → Pipe.limit? step.args ≠ some 0)
    (hruns : q.Runs rs q') : q'.Between g p := by
  induction hruns with
  | nil q => exact h
  | cons hrun _ ih => exact ih (h.run hp hrun)

theorem between_new (g : Graph) (p : Program)
    (hp : ∀ step ∈ p, step.pipe = "take" → Pipe.limit? step.args ≠ some 0) :
    (new g .standard p).Between g p := by
  refine ⟨prepare_new g p, ?_⟩
  rw [line_prepare_new]
  intro role hrole stock hstock
  obtain ⟨step, -, rfl⟩ := List.mem_map.mp (List.mem_of_getElem? hstock)
  refine Role.open_of_passed ?_ ?_
  · rintro rfl
    exact Program.roles_limits hp _ (List.mem_of_getElem? hrole) rfl
  · unfold Step.fresh
    cases step.kind <;> rfl

/-- Repeated runs return what repeated evaluations of the line let out. -/
theorem Runs.outputs (h : q.Runs rs q') (hq : q.prepare.Standard g p) :
    rs.map Run.outputs = (Line.drains (p.roles .shared g) rs.length q.prepare.line).map
      (List.map Output.ofWalker) := by
  induction h with
  | nil q => rfl
  | @cons q q' bound r rs hrun _ ih =>
    rw [← run_congr q.prepare_prepare] at hrun
    obtain ⟨hstandard, houtputs, hline⟩ := hq.run_drain hrun
    have hrest := ih (by rwa [hstandard.prepare])
    rw [hstandard.prepare, hline] at hrest
    rw [List.map_cons, houtputs, hrest]
    rfl

theorem Runs.append {q'' : Query} {rs' : List Run} (h : q.Runs rs q') (h' : q'.Runs rs' q'') :
    q.Runs (rs ++ rs') q'' := by
  induction h with
  | nil q => exact h'
  | cons hrun _ ih => exact .cons hrun (ih h')

theorem exists_runs (hq : q.prepare.Standard g p) (m : Nat) :
    ∃ rs q', rs.length = m ∧ q.Runs rs q' := by
  induction m generalizing q with
  | zero => exact ⟨[], q, rfl, .nil q⟩
  | succ m ih =>
    have hprovided : q.Provided := by rw [Provided, hq.size, hq.program]
    have hfamiliar : ∀ step ∈ q.prepare.program, q.prepare.registry.Familiar step.pipe := by
      intro step _
      rw [hq.registry]
      exact Registry.familiar_standard step.pipe
    obtain ⟨r, hr⟩ := run_ends hprovided hfamiliar
    have hrun : q.run r.history.length = some r := (hr _).trans (if_pos (Nat.le_refl _))
    have hquery : r.query.Standard g p :=
      (hq.run_drain ((run_congr q.prepare_prepare _).trans hrun)).1
    obtain ⟨rs, q', hlength, hruns⟩ := ih (q := r.query) (by rwa [hquery.prepare])
    exact ⟨r :: rs, q', congrArg Nat.succ hlength, .cons hrun hruns⟩

theorem run_mono {bound' : Nat} (hle : bound ≤ bound') (h : q.run bound = some r) :
    q.run bound' = some r := by
  by_cases hne : q.prepare.program = []
  · simpa [run, hne] using h
  · rw [run_eq hne] at h ⊢
    obtain ⟨extra, rfl⟩ := Nat.exists_eq_add_of_le hle
    obtain ⟨s, hs, rfl⟩ := Option.map_eq_some_iff.mp h
    rw [Machine.runFrom_add hs]
    rfl

theorem batches_mono {bound' m : Nat} {bs : List (List Output)} (hle : bound ≤ bound')
    (h : q.batches bound m = some bs) : q.batches bound' m = some bs := by
  induction m generalizing q bs with
  | zero => exact h
  | succ m ih =>
    obtain ⟨r, hr, hrest⟩ := Option.bind_eq_some_iff.mp h
    obtain ⟨rest, hbatches, rfl⟩ := Option.map_eq_some_iff.mp hrest
    simp only [batches, run_mono hle hr, Option.bind_some, ih hbatches, Option.map_some]

theorem gives_cons {outputs : List Output} {bs : List (List Output)} :
    q.Gives (outputs :: bs) ↔
      ∃ bound r, q.run bound = some r ∧ r.outputs = outputs ∧ r.query.Gives bs := by
  constructor
  · rintro ⟨bound, h⟩
    obtain ⟨r, hr, hrest⟩ := Option.bind_eq_some_iff.mp h
    obtain ⟨rest, hbatches, hbs⟩ := Option.map_eq_some_iff.mp hrest
    obtain ⟨rfl, rfl⟩ := List.cons.inj hbs
    exact ⟨bound, r, hr, rfl, bound, hbatches⟩
  · rintro ⟨first, r, hr, rfl, later, hbatches⟩
    refine ⟨max first later, ?_⟩
    simp only [List.length_cons, batches, run_mono (Nat.le_max_left first later) hr,
      Option.bind_some, batches_mono (Nat.le_max_right first later) hbatches, Option.map_some]

end Query

-- ---------------------------------------------------------------------------
-- Printed batches
-- ---------------------------------------------------------------------------

namespace Cli

variable {q q' : Query} {rs : List Run} {r : Run} {bound : Nat}

/-- Batches as they are printed, numbered on. -/
def chunkLines (g : Graph) (f : Format) (number : Nat) : List (List Output) → List String
  | [] => if number = 1 then ["No results"] else []
  | outputs :: rest =>
    s!"Batch {number}:" :: report (outputRows g outputs) ["#", "result"] f
      :: chunkLines g f (number + 1) rest

theorem outputRows_eq_nil (g : Graph) (outputs : List Output) :
    (outputRows g outputs).isEmpty = outputs.isEmpty := by
  cases outputs <;> rfl

/-- The batches before the first empty one are printed. -/
theorem printBatches_runs (hruns : q.Runs rs q') (hrun : q'.run bound = some r)
    (hempty : r.outputs = []) (hfull : ∀ r' ∈ rs, r'.outputs ≠ []) (number : Nat) :
    ∃ enough, ∀ c left, enough ≤ c.bound → rs.length < left →
      printBatches c true q number left =
        .ok (chunkLines q.graph c.format number (rs.map Run.outputs)) := by
  induction hruns generalizing number with
  | nil q =>
    refine ⟨bound, ?_⟩
    intro c left hbound hleft
    obtain ⟨left, rfl⟩ := Nat.exists_eq_add_one.mpr hleft
    simp [printBatches, Query.run_mono hbound hrun, outputRows_eq_nil, hempty, chunkLines]
  | @cons q q' first r' rs hfirst _ ih =>
    obtain ⟨hr', hrest⟩ := List.forall_mem_cons.mp hfull
    obtain ⟨enough, hprinted⟩ := ih hrun hrest (number + 1)
    have hgraph : r'.query.graph = q.graph := (Query.run_keeps hfirst).1
    refine ⟨max first enough, ?_⟩
    intro c left hbound hleft
    obtain ⟨left, rfl⟩ := Nat.exists_eq_add_one.mpr (Nat.zero_lt_of_lt hleft)
    have hstep := Query.run_mono (Nat.le_trans (Nat.le_max_left first enough) hbound) hfirst
    have hlater := hprinted c left (Nat.le_trans (Nat.le_max_right first enough) hbound)
      (Nat.lt_of_succ_lt_succ hleft)
    simp only [printBatches, hstep, outputRows_eq_nil, List.isEmpty_iff, hr', if_false, hlater,
      hgraph]
    rfl

end Cli

namespace Query

variable {q q' : Query} {rs : List Run} {r : Run} {bound : Nat}

theorem Runs.flatMap_outputs (h : (new g .standard p).Runs rs q) :
    rs.flatMap Run.outputs =
      (Line.drains (p.roles .shared g) rs.length (p.line g #[])).flatten.map Output.ofWalker := by
  rw [List.flatMap_def, h.outputs (prepare_new g p), line_prepare_new, List.map_flatten]

theorem Runs.outputs_dry (h : q.Runs rs q') (hq : q.prepare.Standard g p)
    (hdry : Line.Dry (p.roles .shared g) q.prepare.line.stocks) : ∀ r ∈ rs, r.outputs = [] := by
  intro r hr
  have hmem := List.mem_map_of_mem (f := Run.outputs) hr
  rw [h.outputs hq] at hmem
  obtain ⟨outputs, hdrains, houtputs⟩ := List.mem_map.mp hmem
  rw [← houtputs, Line.drains_dry hdry _ outputs hdrains]
  rfl

/-- From some run on, all runs of a program return nothing. -/
theorem runs_settle (g : Graph) (p : Program)
    (hp : ∀ step ∈ p, step.pipe = "take" → Pipe.limit? step.args ≠ some 0) :
    ∃ N, ∀ rs q, (new g .standard p).Runs rs q → ∀ r ∈ rs.drop N, r.outputs = [] := by
  obtain ⟨N, hN⟩ := Line.drains_flatten (Program.roles_limits hp) (p.line g #[])
    (p.length_line .shared g #[])
  refine ⟨N, ?_⟩
  intro rs q hruns r hr
  have hlong : N ≤ rs.length := by
    by_contra hshort
    rw [List.drop_eq_nil_of_le (by omega)] at hr
    cases hr
  obtain ⟨k, hlength⟩ := Nat.exists_eq_add_of_le hlong
  obtain ⟨l, hsplit⟩ := Line.drains_add (p.roles .shared g) N k (p.line g #[])
  have hrest : (Line.drains (p.roles .shared g) k l).flatten = [] := by
    have hall := hN (N + k) (Nat.le_add_right N k)
    rw [hsplit, List.flatten_append, hN N (Nat.le_refl N)] at hall
    exact List.append_cancel_left (hall.trans (List.append_nil _).symm)
  have hmem := List.mem_map_of_mem (f := Run.outputs) hr
  rw [List.map_drop, hruns.outputs (prepare_new g p), line_prepare_new, hlength, hsplit,
    List.map_append, List.drop_left' (by simp [Line.length_drains])] at hmem
  obtain ⟨outputs, hdrains, houtputs⟩ := List.mem_map.mp hmem
  rw [← houtputs, List.flatten_eq_nil_iff.mp hrest outputs hdrains]
  rfl

/-- What an empty batch tells, unless a `take` before the last step was done in its run: all later
batches are empty, those before hold all outputs there are, and as they are printed up to the first
empty one, all outputs are printed. In any case the batches are all empty in the end. -/
theorem runs_exhausted (g : Graph) (p : Program)
    (hp : ∀ step ∈ p, step.pipe = "take" → Pipe.limit? step.args ≠ some 0) :
    ∃ all, (new g .standard (Pass.without "take" p)).Gives [all] ∧
      (∀ rs q bound r, (new g .standard p).Runs rs q → q.run bound = some r →
        r.outputs = [] → r.Uncut →
        (∀ later q', r.query.Runs later q' → ∀ r' ∈ later, r'.outputs = []) ∧
        rs.flatMap Run.outputs = all ∧
        ((∀ r' ∈ rs, r'.outputs ≠ []) → ∃ enough, ∀ c left, enough ≤ c.bound → rs.length < left →
          Cli.printBatches c true (new g .standard p) 1 left =
            .ok (Cli.chunkLines g c.format 1 (rs.map Run.outputs)))) ∧
      (∀ m, ∃ rs q, rs.length = m ∧ (new g .standard p).Runs rs q) ∧
      ∃ N, ∀ rs q, (new g .standard p).Runs rs q → ∀ r ∈ rs.drop N, r.outputs = [] := by
  refine ⟨_, gives_rest g p, ?_, exists_runs (prepare_new g p), runs_settle g p hp⟩
  intro rs q bound r hruns hrun hempty huncut
  have hbetween := (between_new g p hp).runs hp hruns
  have hrun' : q.prepare.run bound = some r := (run_congr q.prepare_prepare bound).trans hrun
  obtain ⟨hstandard, -, -⟩ := hbetween.standard.run_drain hrun'
  have hdry := (hbetween.standard.run_dry hp hbetween.ready hrun').2 hempty huncut
  rw [← hstandard.prepare] at hdry
  have hprepared : r.query.prepare.Standard g p := by rwa [hstandard.prepare]
  refine ⟨fun later q' hlater => hlater.outputs_dry hprepared hdry, ?_, fun hfull =>
    Cli.printBatches_runs hruns hrun hempty hfull 1⟩
  -- enough further runs return nothing, so these have returned everything
  obtain ⟨N, hN⟩ := Line.drains_flatten (Program.roles_limits hp) (p.line g #[])
    (p.length_line .shared g #[])
  obtain ⟨more, q', hlength, hmore⟩ := exists_runs hprepared N
  have hnone : more.flatMap Run.outputs = [] :=
    List.flatMap_eq_nil_iff.mpr (hmore.outputs_dry hprepared hdry)
  have hwhole := (hruns.append (.cons hrun hmore)).flatMap_outputs
  rw [hN _ (by simp [hlength]; omega), List.flatMap_append, List.flatMap_cons, hempty, hnone,
    List.append_nil, List.append_nil] at hwhole
  exact hwhole

theorem runs_exhausted_stepwise :
    (∀ step ∈ stepwise.program, step.pipe = "take" → Pipe.limit? step.args ≠ some 0) ∧
      ∃ first second third : Run, stepwise.Runs [first, second] second.query ∧
        second.query.run 20 = some third ∧ third.outputs = [] ∧ third.Uncut ∧
        (∀ later q', third.query.Runs later q' → ∀ r' ∈ later, r'.outputs = []) ∧
        (new .fork .standard (Pass.without "take" stepwise.program)).Gives
          [first.outputs ++ second.outputs] := by
  have hp : ∀ step ∈ stepwise.program, step.pipe = "take" → Pipe.limit? step.args ≠ some 0 := by
    simp [stepwise, new, Pipe.limit?]
  have hends : ((stepwise.run 20).any fun first => (first.query.run 20).any fun second =>
      (second.query.run 20).any fun third => third.outputs.isEmpty && third.Uncut) = true := by
    decide +kernel
  simp only [Option.any_eq_true, Bool.and_eq_true, List.isEmpty_iff, decide_eq_true_eq] at hends
  obtain ⟨first, hfirst, second, hsecond, third, hthird, hempty, huncut⟩ := hends
  have hruns : stepwise.Runs [first, second] second.query := .cons hfirst (.cons hsecond (.nil _))
  obtain ⟨all, hall, hexhausted, -⟩ := runs_exhausted .fork stepwise.program hp
  obtain ⟨hlater, hwhole, -⟩ := hexhausted _ _ _ _ hruns hthird hempty huncut
  refine ⟨hp, first, second, third, hruns, hthird, hempty, huncut, hlater, ?_⟩
  rw [← hwhole] at hall
  simpa using hall

/-- Of two takes the first may be done before the second has got a walker: the third run returns
nothing, and the fourth goes on. -/
theorem gives_after_empty :
    let p : Program :=
      [⟨"vertex", []⟩, ⟨"take", [.value (.int 2)]⟩, ⟨"take", [.value (.int 1)]⟩]
    (∀ step ∈ p, step.pipe = "take" → Pipe.limit? step.args ≠ some 0) ∧
      ¬ ∀ bs, (new .fork .standard p).Gives bs →
        ∀ i j : Nat, i ≤ j → bs[i]? = some [] → ∀ outputs ∈ bs[j]?, outputs = [] := by
  intro p
  refine ⟨by simp [p, Pipe.limit?], ?_⟩
  intro h
  have hgives : (new .fork .standard p).Gives [[.vertex 2], [.vertex 1], [], [.vertex 0]] := by
    rw [gives_iff]
    rfl
  cases h _ hgives 2 3 (by decide) rfl [.vertex 0] rfl

end Query

end GraphWalk
