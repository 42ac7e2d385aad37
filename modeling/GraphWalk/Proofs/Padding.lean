import GraphWalk.Proofs.Line.Free
import GraphWalk.Proofs.Query

/-!
# Steps of no registered name

A step whose name no pipe is registered under hands every walker on and keeps nothing. In a line it
may stand anywhere: `drains_padded` says that repeated evaluations let out the same without such
steps, and `gives_known` says it of the runs of a query.
-/

namespace GraphWalk

variable {W σ : Type}

/-- A relay that hands every walker on. -/
def Role.pass : Role W σ := .relay (fun seen w s => ⟨[w], seen, s⟩) false

namespace Line

/-- The first line has the steps of the second, what they keep included, and between them any
number of steps that hand every walker on. -/
inductive Padded : List (Role W σ) → List (Stock W) → List (Role W σ) → List (Stock W) → Prop
  | nil : Padded [] [] [] []
  | step (role : Role W σ) (stock : Stock W) {roles stocks roles' stocks'}
    (h : Padded roles stocks roles' stocks') :
    Padded (role :: roles) (stock :: stocks) (role :: roles') (stock :: stocks')
  | pass {roles stocks roles' stocks'} (h : Padded roles stocks roles' stocks') :
    Padded (Role.pass :: roles) ({} :: stocks) roles' stocks'

end Line

/-- Evaluations of two such lines that came to the same, up to the number of offers. -/
structure Outcome.Padded (roles roles' : List (Role W σ)) (r r' : Outcome W σ) : Prop where
  outputs : r.outputs = r'.outputs
  shared : r.shared = r'.shared
  stopped : r.stopped = r'.stopped
  stocks : Line.Padded roles r.stocks roles' r'.stocks

namespace Outcome.Padded

variable {roles roles' : List (Role W σ)} {r r' : Outcome W σ}

theorem under (h : Padded roles roles' r r') (role : Role W σ) (stock : Stock W) :
    Padded (role :: roles) (role :: roles') (r.under stock) (r'.under stock) :=
  ⟨h.outputs, h.shared, h.stopped, .step role stock h.stocks⟩

theorem ended (h : Padded roles roles' r r') : Padded roles roles' r.ended r'.ended :=
  ⟨h.outputs, h.shared, rfl, h.stocks⟩

theorem after (h : Padded roles roles' r r') {a a' : List W} (ha : a = a') (n n' : Nat) :
    Padded roles roles' (r.after a n) (r'.after a' n') :=
  ⟨congrArg₂ (· ++ ·) ha h.outputs, h.shared, h.stopped, h.stocks⟩

theorem gated (h : Padded roles roles' r r') (limit : Option Nat) (stock : Stock W) :
    Padded (.gate limit :: roles) (.gate limit :: roles') (r.gated limit stock)
      (r'.gated limit stock) := by
  unfold Outcome.gated
  rw [h.stopped]
  split
  · exact h.under _ stock
  · split
    · exact (h.under _ _).ended
    · exact h.under _ stock

end Outcome.Padded

namespace Line

variable {roles roles' : List (Role W σ)} {stocks stocks' : List (Stock W)}

theorem pour_padded {α : Type} {launch : α → σ → W × σ} {keep : List α → Stock W}
    {onward onward' : W → List (Stock W) → σ → Outcome W σ}
    (honward : ∀ w s {stocks stocks'}, Padded roles stocks roles' stocks' →
      Outcome.Padded roles roles' (onward w stocks s) (onward' w stocks' s))
    (h : Padded roles stocks roles' stocks') (role : Role W σ) (items : List α) (s : σ) :
    Outcome.Padded (role :: roles) (role :: roles') (pour launch keep onward items stocks s)
      (pour launch keep onward' items stocks' s) := by
  induction items generalizing stocks stocks' s with
  | nil => exact ⟨rfl, rfl, rfl, .step role _ h⟩
  | cons a rest ih =>
    have hr := honward (launch a s).1 (launch a s).2 h
    simp only [pour, ← hr.stopped]
    split
    · exact (hr.under role _).after rfl 1 1
    · rw [← hr.shared]
      exact (ih hr.stocks _).after hr.outputs _ _

/-- A walker that is handed on goes through the other steps as it would go by itself. -/
theorem pour_pass {onward : W → List (Stock W) → σ → Outcome W σ} {w : W} {s : σ}
    {r' : Outcome W σ} (h : Outcome.Padded roles roles' (onward w stocks s) r') :
    Outcome.Padded (Role.pass :: roles) roles'
      (pour Prod.mk ({} : Stock W).hold onward [w] stocks s) r' := by
  cases hstopped : (onward w stocks s).stopped with
  | true =>
    rw [pour_stop hstopped]
    exact ⟨h.outputs, h.shared, h.stopped, .pass h.stocks⟩
  | false =>
    rw [pour_on rfl hstopped, pour_nil]
    exact ⟨by simpa using h.outputs, h.shared, hstopped.symm.trans h.stopped, .pass h.stocks⟩

theorem send_padded (w : W) (s : σ) (h : Padded roles stocks roles' stocks') :
    Outcome.Padded roles roles' (send roles w stocks s) (send roles' w stocks' s) := by
  induction roles generalizing roles' stocks stocks' w s with
  | nil =>
    cases h
    exact ⟨rfl, rfl, rfl, .nil⟩
  | cons role roles ih =>
    cases h with
    | step _ stock h =>
      cases role with
      | source start => exact ⟨rfl, rfl, rfl, .step _ stock h⟩
      | gate limit => exact (ih w s h).gated limit _
      | relay follow drops => exact pour_padded (fun w s => ih w s) h _ _ _
    | pass h => exact pour_pass (ih w s h)

theorem drain_padded (s : σ) (h : Padded roles stocks roles' stocks') :
    Outcome.Padded roles roles' (drain roles stocks s) (drain roles' stocks' s) := by
  induction h with
  | nil => exact ⟨rfl, rfl, rfl, .nil⟩
  | @step role stock roles stocks roles' stocks' h ih =>
    cases hstopped : (drain roles stocks s).stopped with
    | true =>
      rw [drain_under hstopped, drain_under (ih.stopped ▸ hstopped)]
      exact ih.under role stock
    | false =>
      have hstopped' : (drain roles' stocks' s).stopped = false := ih.stopped ▸ hstopped
      cases role with
      | source start =>
        rw [drain_source hstopped, drain_source hstopped', ← ih.shared]
        refine Outcome.Padded.ended (.after ?_ ih.outputs _ _)
        exact pour_padded (fun w s => send_padded w s) ih.stocks _ _ _
      | gate limit => exact ih.gated limit stock
      | relay follow drops =>
        rw [drain_relay hstopped, drain_relay hstopped', ← ih.shared]
        refine .after ?_ ih.outputs _ _
        exact pour_padded (fun w s => send_padded w s) ih.stocks _ _ _
  | @pass roles stocks roles' stocks' h ih =>
    cases hstopped : (drain roles stocks s).stopped with
    | true =>
      rw [drain_under hstopped]
      exact ⟨ih.outputs, ih.shared, ih.stopped, .pass ih.stocks⟩
    | false =>
      have hdrain : drain (Role.pass :: roles) ({} :: stocks) s = _ := drain_relay hstopped
      rw [hdrain, pour_nil]
      exact ⟨by simpa using ih.outputs, ih.shared, hstopped.symm.trans ih.stopped, .pass ih.stocks⟩

/-- Repeated evaluations let out the same without the steps that hand every walker on. -/
theorem drains_padded (h : Padded roles stocks roles' stocks') (s : σ) (m : Nat) :
    drains roles m ⟨stocks, s⟩ = drains roles' m ⟨stocks', s⟩ := by
  induction m generalizing stocks stocks' s with
  | zero => rfl
  | succ m ih =>
    have hdrain := drain_padded s h
    have hrest := ih hdrain.stocks (drain roles stocks s).shared
    rw [hdrain.shared] at hrest
    simp only [drains, Outcome.line, hdrain.outputs, hdrain.shared, hrest]

end Line

namespace Registry

/-- The steps whose pipes are registered. -/
def known (r : Registry) (p : Program) : Program := p.filter fun step => (r.pipe? step.pipe).isSome

end Registry

namespace PipeKind

theorem ofName_eq_other {name : String} :
    ofName name = other ↔ Registry.standard.pipe? name = none := by
  simp only [Registry.standard, List.foldl_cons, List.foldl_nil, Registry.pipe?_addPipe]
  have hempty : Registry.empty.pipe? name = none := rfl
  fun_cases ofName name with
  | case12 => simp_all [eq_comm (b := name)]
  | _ => simp

end PipeKind

namespace Program

variable {g : Graph}

theorem padded_known (p : Program) :
    Line.Padded (p.roles .shared g) (p.map (Step.fresh g))
      (Program.roles .shared g (Registry.standard.known p))
      ((Registry.standard.known p).map (Step.fresh g)) := by
  induction p with
  | nil => exact .nil
  | cons step p ih =>
    cases hpipe : Registry.standard.pipe? step.pipe with
    | some pipe =>
      have hknown : Registry.standard.known (step :: p) = step :: Registry.standard.known p :=
        List.filter_cons_of_pos (by simp [hpipe])
      rw [hknown]
      exact .step _ _ ih
    | none =>
      have hknown : Registry.standard.known (step :: p) = Registry.standard.known p :=
        List.filter_cons_of_neg (by simp [hpipe])
      have hkind : step.kind = .other := PipeKind.ofName_eq_other.mpr hpipe
      have hrole : step.role .shared g = (.pass : Role Walker Origins) := by
        rw [step.role_relay .shared g (hkind ▸ nofun) (hkind ▸ nofun), hkind]
        rfl
      have hfresh : step.fresh g = ({} : Stock Walker) := step.fresh_of_ne g (hkind ▸ nofun)
      rw [hknown, roles, List.map_cons, List.map_cons, hrole, hfresh]
      exact .pass ih

end Program

namespace Query

/-- Wherever a program has steps of no registered name, and however many, its runs return what the
runs of the program without them do. -/
theorem gives_known (g : Graph) (p : Program) :
    (∀ m, ∃ bs, bs.length = m ∧ (new g .standard p).Gives bs) ∧
      ∀ bs, (new g .standard p).Gives bs ↔
        (new g .standard (Registry.standard.known p)).Gives bs := by
  refine ⟨gives_exists g p, fun bs => ?_⟩
  rw [gives_iff, gives_iff]
  have hdrains := Line.drains_padded (p.padded_known (g := g)) #[] bs.length
  exact Eq.congr rfl (congrArg _ hdrains)

example : Registry.standard.known [⟨"nowhere", []⟩, ⟨"vertex", []⟩, ⟨"Out", []⟩, ⟨"out", []⟩] =
    [⟨"vertex", []⟩, ⟨"out", []⟩] := by
  rfl

end Query

end GraphWalk
