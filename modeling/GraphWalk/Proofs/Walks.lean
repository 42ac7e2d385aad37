import GraphWalk.Proofs.Line.Free
import GraphWalk.Proofs.Sharing

/-!
# The walks of a program

Steps that deal with every walker by itself need no machine to say what they return: `walks`
leads a walker with bindings of its own through them, one step after the other. `gives_walks`:
the first run returns where the walks from the selected vertices end.
-/

namespace GraphWalk

namespace Line

variable {W α : Type}

/-- Carrying walkers through steps that stay as they are collects what each of them leads to. -/
theorem pour_flatMap (launch : α → Unit → W × Unit) (keep : List α → Stock W)
    {onward : W → List (Stock W) → Unit → Outcome W Unit} {found : W → List W}
    {stocks : List (Stock W)}
    (h : ∀ w, ∃ n, onward w stocks () = ⟨found w, n, stocks, (), false⟩) (items : List α) :
    ∃ n, pour launch keep onward items stocks () =
      ⟨items.flatMap fun x => found (launch x ()).1, n, keep [] :: stocks, (), false⟩ := by
  induction items with
  | nil => exact ⟨0, rfl⟩
  | cons x rest ih =>
    obtain ⟨n, hfirst⟩ := h (launch x ()).1
    obtain ⟨m, hrest⟩ := ih
    exact ⟨n + 1 + m, by rw [pour_on hfirst rfl, hrest]; rfl⟩

end Line

namespace Step

/-- The step deals with every walker by itself: it starts none, counts none and remembers none. -/
structure Carries (step : Step) : Prop where
  vertex : step.kind ≠ .vertex
  take : step.kind ≠ .take
  unique : step.kind ≠ .unique

/-- Where a walker with bindings of its own goes on, first to be offered first. -/
def onward (g : Graph) (step : Step) (s : Sight) : List Sight :=
  (step.kind.moves g step.args [] s).map
    (Carrier.owned.place (step.kind.bound .owned step.args s ()).1)

theorem Carries.follow {step : Step} (h : step.Carries) (g : Graph) (s : Sight) :
    step.kind.follow .owned g step.args [] s () = ⟨step.onward g s, [], ()⟩ := by
  have hseen : step.kind.remembers [] s.vertex = [] := by
    have hunique := h.unique
    cases hkind : step.kind with
    | unique => exact absurd hkind hunique
    | _ => rfl
  exact congrArg (Onward.mk _ · _) hseen

end Step

namespace Program

variable {g : Graph} {p : Program}

/-- The walkers that come of one when the steps carry it through. -/
def walks (g : Graph) : Program → Sight → List Sight
  | [], s => [s]
  | step :: rest, s => (step.onward g s).flatMap (walks g rest)

theorem send_walks (h : ∀ step ∈ p, step.Carries) (s : Sight) :
    ∃ n, Line.send (p.roles .owned g) s (p.map (Step.fresh g)) () =
      ⟨p.walks g s, n, p.map (Step.fresh g), (), false⟩ := by
  induction p generalizing s with
  | nil => exact ⟨0, rfl⟩
  | cons step rest ih =>
    obtain ⟨hstep, hrest⟩ := List.forall_mem_cons.mp h
    have hrole := step.role_relay .owned g hstep.vertex hstep.take
    have hfresh : step.fresh g = ({} : Stock Sight) := step.fresh_of_ne g hstep.vertex
    obtain ⟨n, hpour⟩ := Line.pour_flatMap Prod.mk (({} : Stock Sight).remember []).hold
      (ih hrest) (step.onward g s)
    refine ⟨n, ?_⟩
    rw [roles, List.map_cons, List.map_cons, hrole, hfresh, Line.send_relay, hstep.follow g s]
    exact hpour

theorem quiet_fresh (h : ∀ step ∈ p, step.Carries) :
    Line.Quiet (p.roles .owned g) (p.map (Step.fresh g)) := by
  rw [Line.Quiet, roles, List.forall₂_map_left_iff, List.forall₂_map_right_iff, List.forall₂_same]
  intro step hmem
  have hstep := h step hmem
  rw [step.role_relay .owned g hstep.vertex hstep.take, step.fresh_of_ne g hstep.vertex]
  rfl

/-- The walkers that the selected vertices lead to. -/
def found (g : Graph) (args : List Arg) (rest : Program) : List Sight :=
  (g.select args).1.reverse.flatMap fun v => rest.walks g ⟨v, ∅, none⟩

theorem drain_walks (args : List Arg) (h : ∀ step ∈ p, step.Carries) :
    (Line.drain (Program.roles .owned g (⟨"vertex", args⟩ :: p))
      (Program.line g (⟨"vertex", args⟩ :: p) ()).stocks ()).outputs = p.found g args := by
  have hrest := Line.drain_quiet (quiet_fresh (g := g) h) ()
  let stock : Stock Sight := Step.fresh g ⟨"vertex", args⟩
  obtain ⟨n, hpour⟩ := Line.pour_flatMap Carrier.owned.start stock.await (send_walks (g := g) h)
    (g.select args).1.reverse
  have hdrain : Line.drain (.source Carrier.owned.start :: p.roles .owned g)
      (stock :: p.map (Step.fresh g)) () = _ :=
    Line.drain_source (congrArg Outcome.stopped hrest)
  rw [hrest] at hdrain
  refine (congrArg Outcome.outputs hdrain).trans ?_
  exact congrArg Outcome.outputs hpour

end Program

namespace Query

/-- The first run returns what the walks from the selected vertices end with. -/
theorem gives_walks (g : Graph) {args : List Arg} {rest : Program}
    (hp : Program.Ordered (⟨"vertex", args⟩ :: rest)) (h : ∀ step ∈ rest, step.Carries) :
    (new g .standard (⟨"vertex", args⟩ :: rest)).Gives
      [(rest.found g args).map Output.ofSight] := by
  obtain ⟨enough, hdrains⟩ := Line.batches_drains 1
    (Program.length_line .owned g (⟨"vertex", args⟩ :: rest) ())
  refine ⟨enough, ?_⟩
  have hbatches := batches_alike hp (new_alike g (⟨"vertex", args⟩ :: rest)) enough 1
  rw [hdrains, ← batches_new] at hbatches
  rw [← Program.drain_walks args h]
  exact hbatches

end Query

end GraphWalk
