import GraphWalk.Proofs.Owned

/-!
# Shared bindings

All walkers of one origin bind into one table, and yet no walker sees what a relative bound, in a
program in which every `as` stands to the left of the steps that read its label. `next_alike`:
question by question, the machine does what it does with walkers that have bindings of their own.
`shared_owned` says so of all runs.
-/

namespace GraphWalk

open Machine (State)

/-- Only relays have walkers still to offer. -/
def Role.Idle {W σ : Type} : Role W σ → Stock W → Prop
  | relay _ _, _ => True
  | _, stock => stock.pending = []

/-- A step that answers without a walker has none to offer. -/
theorem Role.ask_idle {W σ : Type} {role : Role W σ} {input : Option W} {stock : Stock W}
    (hidle : role.Idle stock) (hheld : input ≠ none → stock.pending = []) (s : σ) :
    role.Idle (role.ask input stock s).2.1 ∧
      ((∀ w, (role.ask input stock s).1 ≠ .walker w) →
        (role.ask input stock s).2.1.pending = []) := by
  cases role with
  | source start =>
    have hpending : stock.pending = [] := hidle
    have hkept : ((source start).ask input stock s).2.1.pending = [] := by
      cases hwaiting : stock.waiting with
      | nil => simp [ask, hwaiting, hpending]
      | cons v later => simp [ask, hwaiting, hpending, Stock.await]
    exact ⟨hkept, fun _ => hkept⟩
  | gate limit =>
    have hpending : stock.pending = [] := hidle
    have hkept : ((gate limit : Role W σ).ask input stock s).2.1.pending = [] := by
      cases hfull : isFull limit stock.passed with
      | true => simp [ask, hfull, hpending]
      | false => cases input <;> simp [ask, hfull, hpending]
    exact ⟨hkept, fun _ => hkept⟩
  | relay follow drops =>
    refine ⟨trivial, fun hnone => ?_⟩
    cases hpending : stock.pending with
    | cons w later =>
      cases input with
      | none => exact absurd (by simp [ask, hpending]) (hnone w)
      | some v => exact absurd (hpending.symm.trans (hheld (by simp))) (List.cons_ne_nil w later)
    | nil =>
      cases input with
      | none => simp [ask, hpending]
      | some v =>
        cases hwalkers : (follow stock.seen v s).walkers with
        | nil => simp [ask, hpending, hwalkers, Stock.remember]
        | cons w later => exact absurd (by simp [ask, hpending, hwalkers]) (hnone w)

def Program.Ordered (p : Program) : Prop := p.Pairwise fun a b => ∀ l, a.Reads l → ¬ b.Binds l

theorem Step.not_binds {step : Step} {l : String} (h : step.Reads l) : ¬ step.Binds l := by
  unfold Reads Binds at *
  intro hbinds
  cases hkind : step.kind with
  | bind =>
    rw [hkind] at h
    exact h
  | _ =>
    rw [hkind] at hbinds
    cases hbinds

theorem Program.Ordered.reads {p : Program} (h : p.Ordered) {i : Nat} {step : Step}
    (hstep : p[i]? = some step) (l : String) (hl : step.Reads l) :
    Program.Unbound (step :: p.drop (i + 1)) l := by
  obtain ⟨hi, rfl⟩ := List.getElem?_eq_some_iff.mp hstep
  have hordered : (p.drop i).Pairwise fun a b => ∀ l, a.Reads l → ¬ b.Binds l :=
    h.sublist (List.drop_sublist i p)
  rw [List.drop_eq_getElem_cons hi] at hordered
  refine Program.unbound_cons (Step.not_binds hl) fun later hlater => ?_
  exact (List.pairwise_cons.mp hordered).1 later hlater l hl

/-- The result of a walker with bindings of its own, or else the vertex at which it stands. -/
def Output.ofSight (s : Sight) : Output :=
  match s.result with
  | some v => value v
  | none => vertex s.vertex

theorem Like.output {p : Program} {o : Origins} {w : Walker} {s : Sight} (h : Like p o w s) :
    Output.ofWalker w = Output.ofSight s := by
  cases hresult : s.result <;>
    simp only [Output.ofWalker, Output.ofSight, h.vertex, h.result, hresult]

/-- Lines of a program whose walkers share their bindings, and whose walkers do not. -/
structure LineLike (g : Graph) (p : Program) (a : Line Walker Origins) (b : Line Sight Unit) :
    Prop where
  shared : a.stocks.length = p.length
  owned : b.stocks.length = p.length
  stocks : ∀ i step x y, p[i]? = some step → a.stocks[i]? = some x → b.stocks[i]? = some y →
    StockLike (p.drop (i + 1)) a.shared x y ∧ (step.role .shared g).Idle x

/-- States before the same question. Nothing is to be offered to the right of the machine, nor by
the step that it hands a walker. -/
structure Alike (g : Graph) (p : Program) (s : State Walker (Line Walker Origins))
    (t : State Sight (Line Sight Unit)) : Prop where
  position : t.position = s.position
  finished : t.finished = s.finished
  carried : Option.Rel (Like (p.drop s.position) s.world.shared) s.carried t.carried
  results : s.results.map Output.ofWalker = t.results.map Output.ofSight
  line : LineLike g p s.world t.world
  within : s.position < p.length
  right : ∀ i x, s.position < i → s.world.stocks[i]? = some x → x.pending = []
  here : s.carried ≠ none → ∀ x, s.world.stocks[s.position]? = some x → x.pending = []

variable {g : Graph} {p : Program} {s : State Walker (Line Walker Origins)}
  {t : State Sight (Line Sight Unit)}

theorem StockLike.of_idle {rest : Program} {o : Origins} {x : Stock Walker} {y : Stock Sight}
    (h : StockLike rest o x y) (hpending : x.pending = []) (o' : Origins) :
    StockLike rest o' x y := by
  obtain ⟨hwaiting, hboth, hseen, hpassed⟩ := h
  rw [hpending] at hboth
  refine ⟨hwaiting, ?_, hseen, hpassed⟩
  rw [hpending, List.forall₂_nil_left_iff.mp hboth]
  exact .nil

/-- One step's stocks are replaced, and what is bound changes under its own labels and later
ones. -/
theorem LineLike.set {a : Line Walker Origins} {b : Line Sight Unit} (h : LineLike g p a b)
    {i : Nat} {step : Step} (hstep : p[i]? = some step) {o' : Origins} {x : Stock Walker}
    {y : Stock Sight} (hkeeps : Keeps (step :: p.drop (i + 1)) a.shared o')
    (hright : ∀ j x, i < j → a.stocks[j]? = some x → x.pending = [])
    (hstock : StockLike (p.drop (i + 1)) o' x y) (hidle : (step.role .shared g).Idle x) :
    LineLike g p ⟨a.stocks.set i x, o'⟩ ⟨b.stocks.set i y, ()⟩ := by
  obtain ⟨hi, rfl⟩ := List.getElem?_eq_some_iff.mp hstep
  rw [← List.drop_eq_getElem_cons hi] at hkeeps
  refine ⟨by simp [h.shared], by simp [h.owned], fun j step' x' y' hstep' hx' hy' => ?_⟩
  rw [List.getElem?_set] at hx' hy'
  by_cases hij : i = j
  · subst hij
    rw [if_pos rfl, if_pos (h.shared.symm ▸ hi), Option.some.injEq] at hx'
    rw [if_pos rfl, if_pos (h.owned.symm ▸ hi), Option.some.injEq] at hy'
    obtain rfl : p[i] = step' := Option.some.inj ((List.getElem?_eq_getElem hi).symm.trans hstep')
    exact ⟨hx' ▸ hy' ▸ hstock, hx' ▸ hidle⟩
  · rw [if_neg hij] at hx' hy'
    -- steps to the right have nothing to offer, and those to the left count on no label bound here
    obtain ⟨hlike, hidle'⟩ := h.stocks j step' x' y' hstep' hx' hy'
    refine ⟨?_, hidle'⟩
    obtain hlt | hgt := Nat.lt_or_gt_of_ne hij
    · exact hlike.of_idle (hright j x' hlt hx') o'
    · exact hlike.keeps (hkeeps.suffix (List.drop_suffix_drop_left p hgt))

theorem Program.last_machine {W σ : Type} (c : Carrier W σ) (g : Graph) (p : Program) :
    (Line.machine (p.roles c g)).last = p.length - 1 := by
  simp [Line.machine, Program.roles]

theorem advance_alike (h : Alike g p s t) (finished : Option Nat) {w : Option Walker}
    {v : Option Sight} (hcarried : Option.Rel (Like (p.drop (s.position + 1)) s.world.shared) w v) :
    Alike g p
      (State.advance (Line.machine (p.roles .shared g)) { s with finished, carried := w })
      (State.advance (Line.machine (p.roles .owned g)) { t with finished, carried := v }) := by
  have hwithin := h.within
  unfold State.advance
  simp only [Program.last_machine, h.position]
  split
  · rename_i hlt
    refine ⟨rfl, rfl, hcarried, h.results, h.line, ?_, fun i x hi => ?_, fun _ x => ?_⟩
    · show s.position + 1 < p.length
      omega
    · exact h.right i x (Nat.lt_of_succ_lt hi)
    · exact h.right (s.position + 1) x (Nat.lt_succ_self _)
  · rename_i hge
    have hlast : p.length - 1 = s.position := by omega
    rw [hlast]
    refine ⟨rfl, rfl, .none, ?_, h.line, hwithin, h.right, fun hnone => absurd rfl hnone⟩
    cases hcarried with
    | none => exact h.results
    | some hlike => exact congrArg₂ List.cons hlike.output h.results

theorem react_alike (h : Alike g p s t) (hcarried : s.carried = none) {reply : Reply Walker}
    {reply' : Reply Sight}
    (hreply : ReplyLike (p.drop (s.position + 1)) s.world.shared reply reply')
    (hnone : (∀ w, reply ≠ .walker w) →
      ∀ x, s.world.stocks[s.position]? = some x → x.pending = []) :
    Alike g p (State.react (Line.machine (p.roles .shared g)) s reply)
      (State.react (Line.machine (p.roles .owned g)) t reply') := by
  obtain ⟨position, finished, carried, results, world, history⟩ := s
  obtain ⟨position', finished', carried', results', world', history'⟩ := t
  obtain rfl : position' = position := h.position
  obtain rfl : finished' = finished := h.finished
  obtain rfl : carried = none := hcarried
  obtain rfl : carried' = none := by
    have hrel : Option.Rel _ none carried' := h.carried
    cases hrel
    rfl
  cases hreply with
  | pull =>
    simp only [State.react]
    have hcan : State.canPull ⟨position', finished', none, results', world', history'⟩ =
        State.canPull ⟨position', finished', none, results, world, history⟩ := rfl
    rw [hcan]
    split
    · refine ⟨rfl, rfl, .none, h.results, h.line, ?_, fun i x hi => ?_, fun hc => absurd rfl hc⟩
      · exact Nat.lt_of_le_of_lt (Nat.sub_le _ _) h.within
      · obtain rfl | hlt := Nat.eq_or_lt_of_le (Nat.le_of_pred_lt hi)
        · exact hnone (by rintro w ⟨⟩) x
        · exact h.right i x hlt
    · exact advance_alike h (some position') .none
  | done => exact advance_alike h (some position') .none
  | nothing => exact advance_alike h finished' .none
  | walker hlike => exact advance_alike h finished' (.some hlike)

theorem machine_ask {W σ : Type} (c : Carrier W σ) (g : Graph) {p : Program} {i : Nat}
    {step : Step} (hstep : p[i]? = some step) {stocks : List (Stock W)} {x : Stock W}
    (hx : stocks[i]? = some x) (input : Option W) (shared : σ) :
    (Line.machine (p.roles c g)).ask i input ⟨stocks, shared⟩ =
      (((step.role c g).ask input x shared).1,
        ⟨stocks.set i ((step.role c g).ask input x shared).2.1,
          ((step.role c g).ask input x shared).2.2⟩) := by
  simp only [Line.machine, Line.ask, Program.roles, List.getElem?_map, hstep, hx, Option.map_some]

theorem next_alike (hp : p.Ordered) (h : Alike g p s t) :
    Alike g p ((Line.machine (p.roles .shared g)).next s)
      ((Line.machine (p.roles .owned g)).next t) := by
  obtain ⟨position, finished, carried, results, ⟨stocks, o⟩, history⟩ := s
  obtain ⟨position', finished', carried', results', ⟨stocks', ⟨⟩⟩, history'⟩ := t
  obtain rfl : position' = position := h.position
  obtain rfl : finished' = finished := h.finished
  have hwithin : position' < p.length := h.within
  have hstep : p[position']? = some p[position'] := List.getElem?_eq_getElem hwithin
  obtain ⟨x, hx⟩ : ∃ x, stocks[position']? = some x :=
    ⟨_, List.getElem?_eq_getElem (h.line.shared.symm ▸ hwithin)⟩
  obtain ⟨y, hy⟩ : ∃ y, stocks'[position']? = some y :=
    ⟨_, List.getElem?_eq_getElem (h.line.owned.symm ▸ hwithin)⟩
  obtain ⟨hstock, hidle⟩ := h.line.stocks position' _ x y hstep hx hy
  have hcarried : Option.Rel (Like (p[position'] :: p.drop (position' + 1)) o) carried carried' :=
    List.drop_eq_getElem_cons hwithin ▸ h.carried
  have hheld : carried ≠ none → x.pending = [] := fun hc => h.here hc x hx
  obtain ⟨hreply, hasked, hkeeps⟩ := ask_like (hp.reads hstep) hstock hcarried hheld g
  obtain ⟨hidle', hnone⟩ := Role.ask_idle hidle hheld o
  -- both machines ask the same step, with alike stocks and walkers
  have hask := machine_ask .shared g hstep hx carried o
  have hask' := machine_ask .owned g hstep hy carried' ()
  simp only [Machine.next, hask, hask']
  generalize (p[position'].role .shared g).ask carried x o = answer at *
  generalize (p[position'].role .owned g).ask carried' y () = answer' at *
  obtain ⟨reply, x₁, o₁⟩ := answer
  obtain ⟨reply', y₁, ⟨⟩⟩ := answer'
  have halike : Alike g p
      ⟨position', finished', none, results, ⟨stocks.set position' x₁, o₁⟩,
        ⟨position', carried, reply⟩ :: history⟩
      ⟨position', finished', none, results', ⟨stocks'.set position' y₁, ()⟩,
        ⟨position', carried', reply'⟩ :: history'⟩ := by
    refine ⟨rfl, rfl, .none, h.results, ?_, hwithin, fun i z hi hz => ?_, fun hc => absurd rfl hc⟩
    · exact h.line.set hstep hkeeps h.right hasked hidle'
    · refine h.right i z hi ?_
      rwa [List.getElem?_set_ne (Nat.ne_of_lt hi)] at hz
  refine react_alike halike rfl hreply fun hother z hz => ?_
  rw [List.getElem?_set_self (h.line.shared.symm ▸ hwithin), Option.some.injEq] at hz
  exact hz ▸ hnone hother

-- ---------------------------------------------------------------------------
-- Whole runs
-- ---------------------------------------------------------------------------

theorem start_alike {a : Line Walker Origins} {b : Line Sight Unit} (h : LineLike g p a b)
    (hp : p ≠ []) :
    Alike g p ((Line.machine (p.roles .shared g)).start a)
      ((Line.machine (p.roles .owned g)).start b) := by
  have hlength : 0 < p.length := List.length_pos_iff.mpr hp
  refine ⟨?_, rfl, .none, rfl, h, ?_, fun i x hi hx => ?_, fun hc => absurd rfl hc⟩
  · exact (p.last_machine .owned g).trans (p.last_machine .shared g).symm
  · show (Line.machine (p.roles .shared g)).last < p.length
    rw [p.last_machine]
    omega
  · have hi' : p.length - 1 < i := p.last_machine .shared g ▸ hi
    have hout : i < a.stocks.length := (List.getElem?_eq_some_iff.mp hx).1
    have hshared := h.shared
    omega

theorem run_alike (hp : p.Ordered) {a : Line Walker Origins} {b : Line Sight Unit}
    (h : LineLike g p a b) (bound : Nat) :
    Option.Rel (fun x y => x.1.map Output.ofWalker = y.1.map Output.ofSight ∧ LineLike g p x.2 y.2)
      (a.run (p.roles .shared g) bound) (b.run (p.roles .owned g) bound) := by
  have hempty : ∀ {W σ : Type} (c : Carrier W σ), (p.roles c g).isEmpty = p.isEmpty :=
    fun _ => List.isEmpty_map
  unfold Line.run
  rw [hempty, hempty]
  split
  · exact .some ⟨rfl, h⟩
  · rename_i hne
    have hstart := start_alike h (by simpa using hne)
    have hover : ∀ {s t}, Alike g p s t → s.isOver (Line.machine (p.roles .shared g)) =
        t.isOver (Line.machine (p.roles .owned g)) := by
      intro s t hst
      unfold State.isOver
      rw [hst.finished, p.last_machine, p.last_machine]
    have hrun := Machine.runFrom_lockstep hover (next_alike hp) hstart bound
    unfold Machine.run
    generalize (Line.machine (p.roles .shared g)).runFrom bound _ = x,
      (Line.machine (p.roles .owned g)).runFrom bound _ = y at hrun ⊢
    cases hrun with
    | none => exact .none
    | some hst =>
      refine .some ⟨?_, hst.line⟩
      simpa using congrArg List.reverse hst.results

theorem batches_alike (hp : p.Ordered) {a : Line Walker Origins} {b : Line Sight Unit}
    (h : LineLike g p a b) (bound m : Nat) :
    (Line.batches (p.roles .shared g) bound m a).map (List.map (List.map Output.ofWalker)) =
      (Line.batches (p.roles .owned g) bound m b).map (List.map (List.map Output.ofSight)) := by
  induction m generalizing a b with
  | zero => rfl
  | succ m ih =>
    have hrun := run_alike hp h bound
    simp only [Line.batches]
    generalize a.run (p.roles .shared g) bound = x, b.run (p.roles .owned g) bound = y at hrun ⊢
    cases hrun with
    | none => rfl
    | some hxy =>
      obtain ⟨houtputs, hline⟩ := hxy
      have hlater := ih hline
      have hcons : ∀ {V : Type} (f : V → Output) (first : List V) (later : Option (List (List V))),
          (later.map (first :: ·)).map (List.map (List.map f)) =
            (later.map (List.map (List.map f))).map (first.map f :: ·) := by
        intro V f first later
        cases later <;> rfl
      simp only [Option.bind_some]
      rw [hcons, hcons, hlater, houtputs]

theorem fresh_like (g : Graph) (step : Step) (rest : Program) (o : Origins) :
    StockLike rest o (step.fresh g) (step.fresh g) ∧ (step.role .shared g).Idle (step.fresh g) := by
  unfold Step.fresh Step.role
  cases step.kind with
  | vertex => exact ⟨⟨rfl, .nil, rfl, rfl⟩, rfl⟩
  | take => exact ⟨⟨rfl, .nil, rfl, rfl⟩, rfl⟩
  | _ => exact ⟨⟨rfl, .nil, rfl, rfl⟩, trivial⟩

theorem new_alike (g : Graph) (p : Program) : LineLike g p (p.line g #[]) (p.line g ()) := by
  refine ⟨List.length_map _, List.length_map _, fun i step x y hstep hx hy => ?_⟩
  simp only [Program.line, List.getElem?_map, hstep, Option.map_some, Option.some.injEq] at hx hy
  exact hx ▸ hy ▸ fresh_like g step (p.drop (i + 1)) #[]

namespace Query

/-- What runs of a program return if every walker has bindings of its own. -/
def ownBatches (g : Graph) (p : Program) (bound m : Nat) : Option (List (List Output)) :=
  (Line.batches (p.roles .owned g) bound m (p.line g ())).map (List.map (List.map Output.ofSight))

/-- States of the runs of a new query, each beside the state after as many questions if every
walker has bindings of its own. -/
inductive Beside (g : Graph) (p : Program) :
    State Walker World → State Sight (Line Sight Unit) → Prop
  | start : Beside g p
      ((new g .standard p).prepare.machine.start
        ⟨(new g .standard p).prepare.memories, #[], []⟩)
      ((Line.machine (p.roles .owned g)).start (p.line g ()))
  | next {s : State Walker World} {t : State Sight (Line Sight Unit)} (h : Beside g p s t)
      (hover : s.isOver (new g .standard p).prepare.machine = false) :
    Beside g p ((new g .standard p).prepare.machine.next s)
      ((Line.machine (p.roles .owned g)).next t)
  | again {s : State Walker World} {t : State Sight (Line Sight Unit)} (h : Beside g p s t)
      (hover : s.isOver (new g .standard p).prepare.machine = true) :
    Beside g p
      ((new g .standard p).prepare.machine.start ⟨s.world.memories, s.world.origins, []⟩)
      ((Line.machine (p.roles .owned g)).start t.world)

/-- What holds of two runs question by question holds of all runs. -/
theorem Beside.alike (hp : p.Ordered) (hne : p ≠ []) {s : State Walker World}
    {t : State Sight (Line Sight Unit)} (h : Beside g p s t) :
    s.world.memories.size = p.length ∧ Alike g p (s.inWorld (s.world.line g p)) t := by
  have hstandard := prepare_new g p
  induction h with
  | start =>
    refine ⟨hstandard.size, ?_⟩
    have hstart := start_alike (new_alike g p) hne
    rw [← line_prepare_new] at hstart
    have hworld := StandsFor.start (w := ⟨(new g .standard p).prepare.memories, #[], []⟩) hstandard
      hstandard.size
    exact hworld.1 ▸ hstart
  | next h _ ih =>
    obtain ⟨hsize, halike⟩ := ih
    obtain ⟨hnext, hsize'⟩ := StandsFor.next hstandard ⟨rfl, hsize⟩
    exact ⟨hsize', hnext ▸ next_alike hp halike⟩
  | again h _ ih =>
    obtain ⟨hsize, halike⟩ := ih
    refine ⟨hsize, ?_⟩
    have hstart := start_alike halike.line hne
    exact (StandsFor.start hstandard hsize).1 ▸ hstart

/-- With every `as` to the left of the steps that read its label, runs return what they would if
every walker had bindings of its own, after as many questions, and they all end. Whenever a step
reads a label, the shared table has what the walker's own bindings have. -/
theorem shared_owned (g : Graph) (p : Program)
    (hp : p.Pairwise fun a b => ∀ l, a.Reads l → ¬ b.Binds l) :
    (∀ bound m, (new g .standard p).batches bound m = ownBatches g p bound m) ∧
      (∀ m, ∃ bs, bs.length = m ∧ (new g .standard p).Gives bs) ∧
      ∀ s t, Beside g p s t → ∀ step ∈ p[s.position]?, ∀ l, step.Reads l → ∀ w ∈ s.carried,
        ∃ v ∈ t.carried, v.vertex = w.vertex ∧
          s.world.origins.bound? w l = v.bindings.get? l := by
  refine ⟨fun bound m => ?_, gives_exists g p, ?_⟩
  · rw [batches_new, ownBatches]
    exact batches_alike hp (new_alike g p) bound m
  · intro s t h step hstep l hl w hw
    have hne : p ≠ [] := by
      rintro rfl
      cases hstep
    obtain ⟨-, halike⟩ := h.alike hp hne
    have hunbound := Program.Ordered.reads hp hstep l hl
    obtain ⟨hi, rfl⟩ := List.getElem?_eq_some_iff.mp hstep
    rw [← List.drop_eq_getElem_cons hi] at hunbound
    have hcarried : Option.Rel (Like (p.drop s.position) s.world.origins) s.carried t.carried :=
      halike.carried
    rw [Option.mem_def.mp hw] at hcarried
    generalize t.carried = carried at hcarried ⊢
    cases hcarried with
    | some hlike => exact ⟨_, rfl, hlike.vertex.symm, hlike.bindings l hunbound⟩

/-- From every vertex along an edge and back. -/
def roundTrip : Program :=
  [⟨"vertex", []⟩, ⟨"as", [.value (.str "from")]⟩, ⟨"out", []⟩, ⟨"back", [.value (.str "from")]⟩]

theorem roundTrip_ordered : roundTrip.Pairwise fun a b => ∀ l, a.Reads l → ¬ b.Binds l := by
  simp [roundTrip, Step.Reads, Step.Binds, Step.kind, PipeKind.ofName, PipeKind.Reads,
    PipeKind.label?]

theorem shared_owned_roundTrip :
    (roundTrip.Pairwise fun a b => ∀ l, a.Reads l → ¬ b.Binds l) ∧
      (∀ bound m, (new .fork .standard roundTrip).batches bound m =
        ownBatches .fork roundTrip bound m) ∧
      (∀ m, ∃ bs, bs.length = m ∧ (new .fork .standard roundTrip).Gives bs) ∧
      ∀ s t, Beside .fork roundTrip s t → ∀ step ∈ roundTrip[s.position]?, ∀ l, step.Reads l →
        ∀ w ∈ s.carried, ∃ v ∈ t.carried, v.vertex = w.vertex ∧
          s.world.origins.bound? w l = v.bindings.get? l :=
  ⟨roundTrip_ordered, shared_owned .fork roundTrip roundTrip_ordered⟩

end Query

end GraphWalk
