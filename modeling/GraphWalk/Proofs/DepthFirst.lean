import GraphWalk.Proofs.Query

/-!
# Depth-first evaluation

The machine that pulls walkers one question at a time returns what a plain recursion over the steps
returns: `visit` pushes a walker through all steps before it looks at the next. `first_run` says so
of the first run of a query.
-/

namespace GraphWalk.DepthFirst

/-- What one step has seen, and how many walkers it let pass. -/
structure Note where
  seen : List Nat := []
  passed : Nat := 0

/-- How far an evaluation has come. A step's note is kept under the number of steps to its right;
`stopped` is set by a `take` that has let enough walkers pass. -/
structure Progress where
  origins : Origins := #[]
  notes : Nat → Note := fun _ => {}
  outputs : List Output := []
  stopped : Bool := false

namespace Progress

def note (p : Progress) (i : Nat) (n : Note) : Progress :=
  { p with notes := fun j => if j = i then n else p.notes j }

/-- A walker has come to a step: the step binds its label and remembers the vertex. -/
def enter (step : Step) (i : Nat) (w : Walker) (p : Progress) : Progress :=
  let n := p.notes i
  let p := p.note i { n with seen := step.kind.remembers n.seen w.vertex }
  match step.kind.label? step.args with
  | some label => { p with origins := p.origins.bind w label }
  | none => p

def pass (i : Nat) (p : Progress) : Progress :=
  p.note i { p.notes i with passed := (p.notes i).passed + 1 }

end Progress

/-- Where the walkers go on that follow from one walker, in the order in which they go. -/
def onward (g : Graph) (step : Step) (seen : List Nat) (o : Origins) (w : Walker) : List Walker :=
  (step.kind.moves g step.args seen (o.sight w)).map fun v => ⟨v.1, w.origin, v.2⟩

/-- One item after the other, until the evaluation is over. -/
def each {α : Type} (f : α → Progress → Progress) : List α → Progress → Progress
  | [], p => p
  | a :: rest, p =>
    let q := f a p
    if q.stopped then q else each f rest q

/-- Pushes a walker through the steps. -/
def visit (g : Graph) : Program → Walker → Progress → Progress
  | [], w, p => { p with outputs := p.outputs ++ [.ofWalker w] }
  | step :: rest, w, p =>
    match step.kind with
    | .take =>
      let q := visit g rest w (p.pass rest.length)
      if step.limit?.any (· ≤ (q.notes rest.length).passed) then { q with stopped := true } else q
    | _ =>
      each (visit g rest) (onward g step (p.notes rest.length).seen p.origins w)
        (p.enter step rest.length w)

def launch (g : Graph) (steps : Program) (v : Nat) (p : Progress) : Progress :=
  let (w, origins) := p.origins.start v
  visit g steps w { p with origins }

/-- The outputs of a program that starts at the vertices selected, the last one first. A `take` of
none leaves nothing to do. -/
def outputs (g : Graph) (args : List Arg) (steps : Program) : List Output :=
  if steps.any fun step => step.limit? == some 0 then []
  else (each (launch g steps) (g.select args).1.reverse {}).outputs

-- ---------------------------------------------------------------------------
-- The line of an evaluation
-- ---------------------------------------------------------------------------

/-- Between two walkers nothing is still to be offered. -/
def Note.stock (n : Note) : Stock Walker := { seen := n.seen, passed := n.passed }

def kept : Program → (Nat → Note) → List (Stock Walker)
  | [], _ => []
  | _ :: rest, notes => (notes rest.length).stock :: kept rest notes

theorem kept_congr {steps : Program} {notes notes' : Nat → Note}
    (h : ∀ i < steps.length, notes i = notes' i) : kept steps notes = kept steps notes' := by
  induction steps with
  | nil => rfl
  | cons step rest ih =>
    have hhead : notes rest.length = notes' rest.length := h _ (by simp)
    have htail : kept rest notes = kept rest notes' :=
      ih fun i hi => h i (Nat.lt_succ_of_lt hi)
    simp only [kept, hhead, htail]

theorem notes_note_of_ne {i j : Nat} (h : j ≠ i) (p : Progress) (n : Note) :
    (p.note i n).notes j = p.notes j := if_neg h

theorem notes_note (i : Nat) (p : Progress) (n : Note) : (p.note i n).notes i = n := if_pos rfl

section
variable (step : Step) (i : Nat) (w : Walker) (p : Progress)

theorem notes_enter :
    (p.enter step i w).notes = (p.note i { p.notes i with
      seen := step.kind.remembers (p.notes i).seen w.vertex }).notes := by
  unfold Progress.enter
  split <;> rfl

theorem stopped_enter : (p.enter step i w).stopped = p.stopped := by
  unfold Progress.enter
  split <;> rfl

theorem outputs_enter : (p.enter step i w).outputs = p.outputs := by
  unfold Progress.enter
  split <;> rfl

theorem follow_enter (g : Graph) :
    step.kind.follow .shared g step.args (p.notes i).seen w p.origins =
      ⟨onward g step (p.notes i).seen p.origins w,
        step.kind.remembers (p.notes i).seen w.vertex, (p.enter step i w).origins⟩ := by
  unfold PipeKind.follow PipeKind.bound Progress.enter
  cases step.kind.label? step.args <;> rfl

end

/-- From `p` to `q` the evaluation did what `r` says; unless it is over, it holds what `r` left, and
has touched no more than `n` notes. -/
structure Agrees (n : Nat) (held : (Nat → Note) → List (Stock Walker)) (p q : Progress)
    (r : Outcome Walker Origins) : Prop where
  stopped : q.stopped = r.stopped
  outputs : q.outputs = p.outputs ++ r.outputs.map Output.ofWalker
  stocks : r.stopped = false → r.stocks = held q.notes
  shared : r.stopped = false → r.shared = q.origins
  notes : r.stopped = false → ∀ i, n ≤ i → q.notes i = p.notes i

theorem each_pour {α : Type} (launch : α → Origins → Walker × Origins)
    {f : α → Progress → Progress} {roles : List (Role Walker Origins)} {n : Nat}
    {held : (Nat → Note) → List (Stock Walker)}
    (hf : ∀ a p, p.stopped = false → Agrees n held p (f a p)
      (Line.send roles (launch a p.origins).1 (held p.notes) (launch a p.origins).2))
    (keep : List α → Stock Walker) (items : List α) {p : Progress} (hp : p.stopped = false) :
    Agrees n (fun notes => keep [] :: held notes) p (each f items p)
      (Line.pour launch keep (Line.send roles) items (held p.notes) p.origins) := by
  -- on the items left, with the notes that those before have made
  induction items generalizing p with
  | nil =>
    refine ⟨hp, ?_, fun _ => rfl, fun _ => rfl, fun _ _ _ => rfl⟩
    simp [each, Line.pour]
  | cons a rest ih =>
    have ha := hf a p hp
    simp only [each, Line.pour]
    cases hstopped : (f a p).stopped with
    | true =>
      have hsend := ha.stopped.symm.trans hstopped
      rw [if_pos rfl, if_pos hsend]
      have hr : ∀ {P : Prop}, ((Line.send roles (launch a p.origins).1 (held p.notes)
          (launch a p.origins).2).under (keep rest)).stopped = false → P := fun h =>
        absurd (hsend.symm.trans h) (by simp)
      exact ⟨ha.stopped, ha.outputs, hr, hr, hr⟩
    | false =>
      have hsend := ha.stopped.symm.trans hstopped
      have hrest := ih hstopped
      rw [if_neg (by simp), if_neg (by simp [hsend]), ha.stocks hsend, ha.shared hsend]
      refine ⟨hrest.stopped, ?_, hrest.stocks, hrest.shared, fun h i hi => ?_⟩
      · rw [hrest.outputs, ha.outputs]
        simp
      · rw [hrest.notes h i hi, ha.notes hsend i hi]

theorem Agrees.enter {step : Step} {rest : Program} {w : Walker} {p q : Progress}
    {r : Outcome Walker Origins} {held : Stock Walker}
    (h : Agrees rest.length (fun notes => held :: kept rest notes) (p.enter step rest.length w)
      q r)
    (hheld : held = (Note.mk (step.kind.remembers (p.notes rest.length).seen w.vertex)
      (p.notes rest.length).passed).stock) :
    Agrees (step :: rest).length (kept (step :: rest)) p q r := by
  refine ⟨h.stopped, ?_, fun hr => ?_, h.shared, fun hr i hi => ?_⟩
  · rw [h.outputs, outputs_enter]
  · have hnote := h.notes hr rest.length (Nat.le_refl _)
    rw [notes_enter, notes_note] at hnote
    rw [h.stocks hr, hheld, kept, hnote]
  · rw [h.notes hr i (Nat.le_of_succ_le hi), notes_enter,
      notes_note_of_ne (Nat.ne_of_gt hi)]

theorem kept_enter (step : Step) (rest : Program) (w : Walker) (p : Progress) :
    kept rest (p.enter step rest.length w).notes = kept rest p.notes := by
  refine kept_congr fun i hi => ?_
  rw [notes_enter, notes_note_of_ne (Nat.ne_of_lt hi)]

theorem Agrees.pass {step : Step} {rest : Program} {p q : Progress} {r : Outcome Walker Origins}
    {limit : Option Nat} (h : Agrees rest.length (kept rest) (p.pass rest.length) q r) :
    Agrees (step :: rest).length (kept (step :: rest)) p
      (if limit.any (· ≤ (q.notes rest.length).passed) then { q with stopped := true } else q)
      (r.gated limit (Note.mk (p.notes rest.length).seen
        ((p.notes rest.length).passed + 1)).stock) := by
  cases hstopped : r.stopped with
  | true =>
    have hq : (if limit.any (· ≤ (q.notes rest.length).passed) then { q with stopped := true }
        else q) = q := by
      have hqover : q.stopped = true := h.stopped.trans hstopped
      split
      · rw [← hqover]
      · rfl
    rw [hq, Outcome.gated, if_pos hstopped]
    have hr : ∀ {P : Prop}, r.stopped = false → P := fun hr =>
      absurd (hstopped.symm.trans hr) (by simp)
    exact ⟨h.stopped, h.outputs, hr, hr, hr⟩
  | false =>
    have hnote := h.notes hstopped rest.length (Nat.le_refl _)
    rw [Progress.pass, notes_note] at hnote
    have hfull : limit.any (· ≤ (q.notes rest.length).passed) =
        Role.isFull limit ((p.notes rest.length).passed + 1) := by rw [hnote]; rfl
    have hgated : r.gated limit (Note.mk (p.notes rest.length).seen
        ((p.notes rest.length).passed + 1)).stock =
        if Role.isFull limit ((p.notes rest.length).passed + 1) then
          (r.under { seen := (p.notes rest.length).seen }).ended
        else r.under ⟨[], [], (p.notes rest.length).seen, (p.notes rest.length).passed + 1⟩ := by
      rw [Outcome.gated, if_neg (by simp [hstopped])]
      rfl
    rw [hfull, hgated]
    split
    · refine ⟨rfl, h.outputs, ?_, ?_, ?_⟩ <;> rintro ⟨⟩
    · refine ⟨h.stopped, h.outputs, fun hr => ?_, h.shared, fun hr i hi => ?_⟩
      · rw [kept, hnote, Outcome.under, h.stocks hr]
        rfl
      · rw [h.notes hr i (Nat.le_of_succ_le hi), Progress.pass, notes_note_of_ne (Nat.ne_of_gt hi)]

theorem kept_pass (rest : Program) (p : Progress) :
    kept rest (p.pass rest.length).notes = kept rest p.notes := by
  refine kept_congr fun i hi => ?_
  rw [Progress.pass, notes_note_of_ne (Nat.ne_of_lt hi)]

theorem visit_take {g : Graph} {step : Step} {rest : Program} {w : Walker} {p : Progress}
    (h : step.kind = .take) :
    visit g (step :: rest) w p =
      let q := visit g rest w (p.pass rest.length)
      if step.limit?.any (· ≤ (q.notes rest.length).passed) then { q with stopped := true }
      else q := by
  rw [visit, h]

theorem visit_relay {g : Graph} {step : Step} {rest : Program} {w : Walker} {p : Progress}
    (h : step.kind ≠ .take) :
    visit g (step :: rest) w p =
      each (visit g rest) (onward g step (p.notes rest.length).seen p.origins w)
        (p.enter step rest.length w) := by
  rw [visit]
  cases hkind : step.kind with
  | take => exact absurd hkind h
  | _ => rfl

/-- A walker pushed through the steps fares as in the line. -/
theorem visit_send (g : Graph) {steps : Program} (hsteps : ∀ step ∈ steps, step.kind ≠ .vertex)
    (w : Walker) {p : Progress} (hp : p.stopped = false) :
    Agrees steps.length (kept steps) p (visit g steps w p)
      (Line.send (Program.roles .shared g steps) w (kept steps p.notes) p.origins) := by
  -- on the steps to the right; the notes of those to the left stay as they are
  induction steps generalizing w p with
  | nil => exact ⟨hp, rfl, fun _ => rfl, fun _ => rfl, fun _ _ _ => rfl⟩
  | cons step rest ih =>
    obtain ⟨hvertex, hsteps⟩ := List.forall_mem_cons.mp hsteps
    have hrest : ∀ w p, p.stopped = false → Agrees rest.length (kept rest) p (visit g rest w p)
        (Line.send (Program.roles .shared g rest) w (kept rest p.notes) p.origins) :=
      fun w p hp => ih hsteps w hp
    have hroles : Program.roles .shared g (step :: rest) =
        step.role .shared g :: Program.roles .shared g rest := rfl
    by_cases htake : step.kind = .take
    · rw [visit_take htake, hroles, Step.role_take .shared g htake]
      have hq := hrest w (p.pass rest.length) hp
      rw [kept_pass] at hq
      exact hq.pass
    · rw [visit_relay htake, hroles, Step.role_relay .shared g hvertex htake]
      have hstopped := (stopped_enter step rest.length w p).trans hp
      have hq := each_pour Prod.mk hrest ((Note.mk (step.kind.remembers
        (p.notes rest.length).seen w.vertex) (p.notes rest.length).passed).stock).hold
        (onward g step (p.notes rest.length).seen p.origins w) hstopped
      rw [kept_enter] at hq
      have hfollow : step.kind.follow .shared g step.args (p.notes rest.length).stock.seen w
          p.origins = _ := follow_enter step rest.length w p g
      rw [kept, Line.send_relay, hfollow]
      exact hq.enter rfl

-- ---------------------------------------------------------------------------
-- Whole evaluations
-- ---------------------------------------------------------------------------

theorem launch_send (g : Graph) {steps : Program} (hsteps : ∀ step ∈ steps, step.kind ≠ .vertex)
    (v : Nat) (p : Progress) (hp : p.stopped = false) :
    Agrees steps.length (kept steps) p (launch g steps v p)
      (Line.send (Program.roles .shared g steps) (p.origins.start v).1 (kept steps p.notes)
        (p.origins.start v).2) := by
  obtain ⟨hstopped, houtputs, hstocks, hshared, hnotes⟩ :=
    visit_send g hsteps (p.origins.start v).1 (p := { p with origins := (p.origins.start v).2 }) hp
  exact ⟨hstopped, houtputs, hstocks, hshared, hnotes⟩

theorem fresh_quiet {g : Graph} {steps : Program} (hsteps : ∀ step ∈ steps, step.kind ≠ .vertex)
    (hlimits : ∀ step ∈ steps, step.limit? ≠ some 0) :
    Line.Quiet (Program.roles .shared g steps) (steps.map (Step.fresh g)) := by
  induction steps with
  | nil => exact .nil
  | cons step rest ih =>
    obtain ⟨hvertex, hsteps⟩ := List.forall_mem_cons.mp hsteps
    obtain ⟨hlimit, hlimits⟩ := List.forall_mem_cons.mp hlimits
    refine .cons ?_ (ih hsteps hlimits)
    rw [Step.fresh_of_ne g hvertex]
    by_cases htake : step.kind = .take
    · rw [Step.role_take .shared g htake]
      show step.limit?.any (· ≤ 0) = false
      cases hn : step.limit? with
      | none => rfl
      | some n =>
        have hn0 : n ≠ 0 := fun h => hlimit (h ▸ hn)
        simpa using hn0
    · rw [Step.role_relay .shared g hvertex htake]
      rfl

theorem drain_shut {g : Graph} {steps : Program} (hsteps : ∀ step ∈ steps, step.kind ≠ .vertex)
    (hshut : ∃ step ∈ steps, step.limit? = some 0) (o : Origins) :
    (Line.drain (Program.roles .shared g steps) (steps.map (Step.fresh g)) o).stopped = true ∧
      (Line.drain (Program.roles .shared g steps) (steps.map (Step.fresh g)) o).outputs = [] := by
  induction steps with
  | nil => simp at hshut
  | cons step rest ih =>
    obtain ⟨-, hrest⟩ := List.forall_mem_cons.mp hsteps
    by_cases hlater : ∃ s ∈ rest, s.limit? = some 0
    · obtain ⟨hstopped, houtputs⟩ := ih hrest hlater
      have hunder : Line.drain (Program.roles .shared g (step :: rest))
          ((step :: rest).map (Step.fresh g)) o = _ := Line.drain_under hstopped _
      exact hunder ▸ ⟨hstopped, houtputs⟩
    · obtain ⟨shut, hmem, hlimit⟩ := hshut
      obtain rfl | hs := List.mem_cons.mp hmem
      · have hquiet := fresh_quiet (g := g) hrest fun s hs hzero => hlater ⟨s, hs, hzero⟩
        have hrole := Step.role_take .shared g (Step.kind_of_limit hlimit)
        have hdrain : Line.drain (Program.roles .shared g (shut :: rest))
            ((shut :: rest).map (Step.fresh g)) o =
            (Line.drain (Program.roles .shared g rest) (rest.map (Step.fresh g)) o).gated
              shut.limit? (shut.fresh g) := by
          rw [Program.roles, List.map_cons, hrole]
          rfl
        rw [hdrain, Line.drain_quiet hquiet, hlimit]
        exact ⟨rfl, rfl⟩
      · exact absurd ⟨shut, hs, hlimit⟩ hlater

theorem kept_new (g : Graph) {steps : Program} (hsteps : ∀ step ∈ steps, step.kind ≠ .vertex) :
    kept steps (fun _ => {}) = steps.map (Step.fresh g) := by
  induction steps with
  | nil => rfl
  | cons step rest ih =>
    obtain ⟨hvertex, hrest⟩ := List.forall_mem_cons.mp hsteps
    rw [kept, ih hrest, List.map_cons, Step.fresh_of_ne g hvertex]
    rfl

/-- The first run of a query returns what depth-first evaluation returns. -/
theorem first_run (g : Graph) (args : List Arg) (steps : Program)
    (hsteps : ∀ step ∈ steps, step.pipe ≠ "vertex") :
    (Query.new g .standard (⟨"vertex", args⟩ :: steps)).Gives [outputs g args steps] := by
  have hkinds : ∀ step ∈ steps, step.kind ≠ .vertex :=
    fun step hs h => hsteps step hs (Step.kind_eq_vertex.mp h)
  have hroles : Program.roles .shared g (⟨"vertex", args⟩ :: steps) =
      .source Carrier.shared.start :: Program.roles .shared g steps := rfl
  have hstocks : (⟨"vertex", args⟩ :: steps : Program).map (Step.fresh g) =
      ({ waiting := (g.select args).1.reverse } : Stock Walker) :: steps.map (Step.fresh g) := rfl
  rw [Query.gives_one, hroles, hstocks]
  unfold outputs
  -- a gate that is shut is asked before the source
  by_cases hshut : ∃ step ∈ steps, step.limit? = some 0
  · obtain ⟨hstopped, houtputs⟩ := drain_shut (g := g) hkinds hshut #[]
    obtain ⟨shut, hs, hlimit⟩ := hshut
    rw [if_pos (List.any_eq_true.mpr ⟨shut, hs, by simp [hlimit]⟩), Line.drain_under hstopped]
    simp [houtputs]
  · have hquiet := fresh_quiet (g := g) hkinds fun s hs hzero => hshut ⟨s, hs, hzero⟩
    have hopen : (steps.any fun step => step.limit? == some 0) = false := by
      simpa using fun s hs hzero => hshut ⟨s, hs, hzero⟩
    have heach := each_pour (fun v o => o.start v) (launch_send g hkinds)
      ({ waiting := (g.select args).1.reverse } : Stock Walker).await
      (g.select args).1.reverse (p := {}) rfl
    have hdrain := Line.drain_quiet hquiet (#[] : Origins)
    rw [if_neg (by simp [hopen]), Line.drain_source (by rw [hdrain]), hdrain, heach.outputs,
      kept_new g hkinds]
    rfl

theorem first_run_fork :
    (∀ step ∈ ([⟨"out", []⟩, ⟨"take", [.value (.int 1)]⟩] : Program), step.pipe ≠ "vertex") ∧
      (Query.new .fork .standard
        [⟨"vertex", []⟩, ⟨"out", []⟩, ⟨"take", [.value (.int 1)]⟩]).Gives [[.vertex 2]] :=
  ⟨by simp, first_run .fork [] [⟨"out", []⟩, ⟨"take", [.value (.int 1)]⟩] (by simp)⟩

end GraphWalk.DepthFirst
