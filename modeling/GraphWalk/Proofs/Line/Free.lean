import GraphWalk.Proofs.Line.Drain

/-!
# Lines without their gates

Whatever a gate stops, the steps between the gates still keep. `drain_free`: what an evaluation
leaves behind, emptied without the gates, is what it would have let out itself without them.
-/

namespace GraphWalk

variable {W σ : Type}

namespace Outcome

@[simp] theorem after_zero (r : Outcome W σ) : r.after [] 0 = r := by simp [after]

theorem after_after (r : Outcome W σ) (a b : List W) (m n : Nat) :
    (r.after a m).after b n = r.after (b ++ a) (n + m) := by
  simp [after, Nat.add_assoc]

theorem under_after (r : Outcome W σ) (a : List W) (n : Nat) (stock : Stock W) :
    (r.after a n).under stock = (r.under stock).after a n := rfl

theorem ended_after (r : Outcome W σ) (a : List W) (n : Nat) :
    (r.after a n).ended = r.ended.after a n := rfl

section
variable (r : Outcome W σ) (limit : Option Nat) (stock : Stock W)

theorem gated_after (a : List W) (n : Nat) :
    (r.after a n).gated limit stock = (r.gated limit stock).after a n := by
  have hstopped : (r.after a n).stopped = r.stopped := rfl
  unfold gated
  rw [hstopped]
  split
  · rfl
  · split <;> rfl

@[simp] theorem outputs_gated : (r.gated limit stock).outputs = r.outputs := by
  unfold gated
  split
  · rfl
  · split <;> rfl

@[simp] theorem offers_gated : (r.gated limit stock).offers = r.offers := by
  unfold gated
  split
  · rfl
  · split <;> rfl

@[simp] theorem shared_gated : (r.gated limit stock).shared = r.shared := by
  unfold gated
  split
  · rfl
  · split <;> rfl

theorem stocks_gated : ∃ stock', (r.gated limit stock).stocks = stock' :: r.stocks := by
  unfold gated
  split
  · exact ⟨stock, rfl⟩
  · split
    · exact ⟨{ stock with passed := 0 }, rfl⟩
    · exact ⟨stock, rfl⟩

end

end Outcome

namespace Line

def free (roles : List (Role W σ)) : List (Role W σ) := roles.filter fun role => !role.isGate

def thin : List (Role W σ) → List (Stock W) → List (Stock W)
  | [], _ => []
  | role :: roles, stocks =>
    if role.isGate then thin roles stocks.tail
    else stocks.headD default :: thin roles stocks.tail

variable {roles : List (Role W σ)} {role : Role W σ} {stocks stocks' : List (Stock W)}
  {stock : Stock W} {w : W} {s s' : σ} {limit : Option Nat} {start : Nat → σ → W × σ}
  {follow : List Nat → W → σ → Onward W σ} {drops : Bool}

theorem free_gate : free (.gate limit :: roles) = free roles := rfl

theorem free_source : free (.source start :: roles) = .source start :: free roles := rfl

theorem free_relay : free (.relay follow drops :: roles) = .relay follow drops :: free roles := rfl

theorem thin_gate : thin (.gate limit :: roles) (stock :: stocks) = thin roles stocks := rfl

theorem thin_source : thin (.source start :: roles) (stock :: stocks) =
    stock :: thin roles stocks := rfl

theorem thin_relay : thin (.relay follow drops :: roles) (stock :: stocks) =
    stock :: thin roles stocks := rfl

theorem Quiet.thin (h : Quiet roles stocks) : Quiet (free roles) (Line.thin roles stocks) := by
  induction h with
  | nil => exact .nil
  | @cons role stock roles stocks hq _ ih =>
    cases role with
    | source start => exact hq.elim
    | gate limit => exact ih
    | relay follow drops => exact .cons hq ih

theorem free_not_gate (roles : List (Role W σ)) : ∀ role ∈ free roles, role.isGate = false := by
  intro role h
  simpa using (List.mem_filter.mp h).2

theorem free_not_source (h : Quiet roles stocks) : ∀ role ∈ free roles, role.isSource = false :=
  fun role hrole => h.not_source role (List.mem_filter.mp hrole).1

section
variable {α : Type} {launch : α → σ → W × σ} {keep : List α → Stock W}

theorem pour_nil (onward : W → List (Stock W) → σ → Outcome W σ) :
    pour launch keep onward [] stocks s = ⟨[], 0, keep [] :: stocks, s, false⟩ := rfl

theorem pour_stop {onward : W → List (Stock W) → σ → Outcome W σ} {x : α} {rest : List α}
    (h : (onward (launch x s).1 stocks (launch x s).2).stopped = true) :
    pour launch keep onward (x :: rest) stocks s =
      ((onward (launch x s).1 stocks (launch x s).2).under (keep rest)).after [] 1 := by
  simp [pour, h]

theorem pour_on {onward : W → List (Stock W) → σ → Outcome W σ} {x : α} {rest : List α}
    {r : Outcome W σ} (hr : onward (launch x s).1 stocks (launch x s).2 = r)
    (h : r.stopped = false) :
    pour launch keep onward (x :: rest) stocks s =
      (pour launch keep onward rest r.stocks r.shared).after r.outputs (r.offers + 1) := by
  simp [pour, hr, h]

theorem stopped_pour {onward : W → List (Stock W) → σ → Outcome W σ}
    (h : ∀ w stocks s, (onward w stocks s).stopped = false) (items : List α)
    (stocks : List (Stock W)) (s : σ) :
    (pour launch keep onward items stocks s).stopped = false := by
  induction items generalizing stocks s with
  | nil => rfl
  | cons x rest ih =>
    rw [pour_on rfl (h _ _ _)]
    exact ih _ _

end

theorem stopped_send (h : ∀ role ∈ roles, role.isGate = false) (w : W) (stocks : List (Stock W))
    (s : σ) : (send roles w stocks s).stopped = false := by
  induction roles generalizing w stocks s with
  | nil => rfl
  | cons role roles ih =>
    obtain ⟨hgate, hgates⟩ := List.forall_mem_cons.mp h
    cases role with
    | source start => rfl
    | gate limit => cases hgate
    | relay follow drops => exact stopped_pour (ih hgates) _ _ _

theorem stopped_drain (h : ∀ role ∈ roles, role.isGate = false)
    (hsource : ∀ role ∈ roles, role.isSource = false) (stocks : List (Stock W)) (s : σ) :
    (drain roles stocks s).stopped = false := by
  induction roles generalizing stocks s with
  | nil => rfl
  | cons role roles ih =>
    obtain ⟨hgate, hgates⟩ := List.forall_mem_cons.mp h
    obtain ⟨hsource, hsources⟩ := List.forall_mem_cons.mp hsource
    cases role with
    | source start => cases hsource
    | gate limit => cases hgate
    | relay follow drops =>
      rw [drain, if_neg (by simp [ih hgates hsources])]
      exact stopped_pour (stopped_send hgates) _ _ _

-- ---------------------------------------------------------------------------
-- Going on without the gates
-- ---------------------------------------------------------------------------

/-- What an evaluation let out, and after it what it left behind, emptied without the gates. -/
def resumed (roles : List (Role W σ)) (r : Outcome W σ) : Outcome W σ :=
  (drain (free roles) (thin roles r.stocks) r.shared).after r.outputs r.offers

theorem resumed_after (r : Outcome W σ) (outputs : List W) (n : Nat) :
    resumed roles (r.after outputs n) = (resumed roles r).after outputs n :=
  (Outcome.after_after _ _ _ _ _).symm

theorem resumed_gated (r : Outcome W σ) :
    resumed (.gate limit :: roles) (r.gated limit stock) = resumed roles r := by
  obtain ⟨stock', hstocks⟩ := r.stocks_gated limit stock
  unfold resumed
  rw [hstocks, r.shared_gated, r.outputs_gated, r.offers_gated, free_gate, thin_gate]

theorem resumed_quiet {r : Outcome W σ} (h : Quiet roles r.stocks) :
    resumed roles r = ⟨r.outputs, r.offers, thin roles r.stocks, r.shared, false⟩ := by
  unfold resumed
  rw [drain_quiet h.thin]
  simp [Outcome.after]

theorem resumed_exhausted {r : Outcome W σ} (h : Quiet roles stocks)
    (hstocks : r.stocks = stock.await [] :: stocks) :
    (resumed (.source start :: roles) r).outputs = r.outputs ∧
      (resumed (.source start :: roles) r).stopped = true := by
  have hstopped : (drain (free roles) (thin roles stocks) r.shared).stopped = false := by
    rw [drain_quiet h.thin]
  unfold resumed
  rw [hstocks, free_source, thin_source, drain_source hstopped, drain_quiet h.thin]
  simp [pour_nil, Stock.await]

/-- Items that are not all launched are launched later, once the steps to the right are empty. -/
theorem pour_free {α : Type} (launch : α → σ → W × σ) (keep : List α → Stock W)
    (hsend : ∀ {w stocks s}, Quiet roles stocks →
      send (free roles) w (thin roles stocks) s = resumed roles (send roles w stocks s))
    (items : List α) (h : Quiet roles stocks) (s : σ) :
    ∃ left b, (pour launch keep (send roles) items stocks s).stocks = keep left :: b ∧
      pour launch keep (send (free roles)) items (thin roles stocks) s =
        let r := pour launch keep (send roles) items stocks s
        let d := drain (free roles) (thin roles b) r.shared
        ((pour launch keep (send (free roles)) left d.stocks d.shared).after d.outputs
          d.offers).after r.outputs r.offers := by
  induction items generalizing stocks s with
  | nil =>
    refine ⟨[], stocks, rfl, ?_⟩
    simp only [pour_nil, drain_quiet h.thin, Outcome.after_zero]
  | cons x rest ih =>
    have hx := hsend (w := (launch x s).1) (s := (launch x s).2) h
    have hfree := stopped_send (free_not_gate roles) (launch x s).1
      (thin roles stocks) (launch x s).2
    generalize hr : send roles (launch x s).1 stocks (launch x s).2 = r at hx
    rw [hx] at hfree
    rw [pour_on hx hfree]
    cases hstopped : r.stopped with
    | true =>
      -- a gate stopped the walker: the items after it are left
      refine ⟨rest, r.stocks, ?_, ?_⟩
      · rw [pour_stop (by rw [hr, hstopped]), hr]
        rfl
      · rw [pour_stop (by rw [hr, hstopped]), hr]
        simp [resumed, Outcome.after, Outcome.under]
        omega
    | false =>
      have hq : Quiet roles r.stocks := hr ▸ send_quiet h (hr ▸ hstopped)
      obtain ⟨left, b, hstocks, hpour⟩ := ih hq r.shared
      rw [resumed_quiet hq, pour_on hr hstopped]
      refine ⟨left, b, hstocks, ?_⟩
      rw [hpour]
      simp [Outcome.after]
      omega

section
variable (hsend : ∀ {w stocks s}, Quiet roles stocks →
  send (free roles) w (thin roles stocks) s = resumed roles (send roles w stocks s))
include hsend

theorem pour_relay_free (follow : List Nat → W → σ → Onward W σ) (drops : Bool) (stock : Stock W)
    (walkers : List W) (h : Quiet roles stocks) (s : σ) :
    pour Prod.mk stock.hold (send (free roles)) walkers (thin roles stocks) s =
      resumed (.relay follow drops :: roles)
        (pour Prod.mk stock.hold (send roles) walkers stocks s) := by
  obtain ⟨left, b, hstocks, hpour⟩ := pour_free Prod.mk stock.hold hsend walkers h s
  have hstopped := stopped_drain (free_not_gate roles) (free_not_source h) (thin roles b)
    (pour Prod.mk stock.hold (send roles) walkers stocks s).shared
  rw [hpour, resumed, hstocks, free_relay, thin_relay, drain_relay hstopped]
  rfl

theorem pour_source_free (start : Nat → σ → W × σ) (stock : Stock W) (vertices : List Nat)
    (h : Quiet roles stocks) (s : σ) :
    (pour start stock.await (send (free roles)) vertices (thin roles stocks) s).ended =
      resumed (.source start :: roles)
        (pour start stock.await (send roles) vertices stocks s).ended := by
  obtain ⟨left, b, hstocks, hpour⟩ := pour_free start stock.await hsend vertices h s
  have hstopped := stopped_drain (free_not_gate roles) (free_not_source h) (thin roles b)
    (pour start stock.await (send roles) vertices stocks s).shared
  have hended : (pour start stock.await (send roles) vertices stocks s).ended.stocks =
    stock.await left :: b := hstocks
  rw [hpour, resumed, hended, free_source, thin_source]
  have hdrain : drain (.source start :: free roles) (stock.await left :: thin roles b)
      (pour start stock.await (send roles) vertices stocks s).shared = _ := drain_source hstopped
  exact (congrArg (Outcome.after · _ _) hdrain).symm

end

theorem send_free (h : Quiet roles stocks) (w : W) (s : σ) :
    send (free roles) w (thin roles stocks) s = resumed roles (send roles w stocks s) := by
  induction roles generalizing w stocks s with
  | nil => rfl
  | cons role roles ih =>
    cases h with
    | @cons _ stock _ stocks hq hqs =>
    cases role with
    | source start => exact hq.elim
    | gate limit =>
      rw [free_gate, thin_gate, send_gate, resumed_gated]
      exact ih hqs w s
    | relay follow drops =>
      rw [free_relay, thin_relay, send_relay, send_relay]
      exact pour_relay_free (fun h => ih h _ _) follow drops _ _ hqs _

/-- If two evaluations of the steps to the right differ by what came first, so do those of all. -/
theorem drain_after {outputs : List W} {n : Nat}
    (h : drain roles stocks s = (drain roles stocks' s').after outputs n) (role : Role W σ)
    (stock : Stock W) :
    drain (role :: roles) (stock :: stocks) s =
      (drain (role :: roles) (stock :: stocks') s').after outputs n := by
  have hstopped : (drain roles stocks s).stopped = (drain roles stocks' s').stopped := by
    rw [h]
    rfl
  cases hr : (drain roles stocks' s').stopped with
  | true => rw [drain_under (hstopped.trans hr), drain_under hr, h, Outcome.under_after]
  | false =>
    cases role with
    | source start =>
      rw [drain_source (hstopped.trans hr), drain_source hr, h]
      simp [Outcome.after, Outcome.ended]
      omega
    | gate limit =>
      rw [drain_gate, drain_gate, h, Outcome.gated_after]
    | relay follow drops =>
      rw [drain_relay (hstopped.trans hr), drain_relay hr, h]
      simp [Outcome.after]
      omega

/-- An evaluation without the gates goes on where one with them was over. -/
theorem drain_free (hlen : stocks.length = roles.length) (s : σ) :
    drain (free roles) (thin roles stocks) s = resumed roles (drain roles stocks s) := by
  induction roles generalizing stocks s with
  | nil => rfl
  | cons role roles ih =>
    obtain ⟨stock, stocks, rfl⟩ := List.exists_cons_of_length_eq_add_one hlen
    have hrest := ih (Nat.succ.inj hlen : stocks.length = roles.length) s
    cases hstopped : (drain roles stocks s).stopped with
    | true =>
      rw [drain_under hstopped]
      cases role with
      | gate limit => exact hrest
      | source start => exact drain_after hrest _ _
      | relay follow drops => exact drain_after hrest _ _
    | false =>
      have hq := drain_quiet_stocks hstopped
      rw [resumed_quiet hq] at hrest
      cases role with
      | gate limit =>
        rw [free_gate, thin_gate, drain_gate, resumed_gated, hrest, resumed_quiet hq]
      | source start =>
        rw [free_source, thin_source, drain_source hstopped, drain_source (by rw [hrest]), hrest,
          Outcome.ended_after, Outcome.ended_after, resumed_after]
        exact congrArg (Outcome.after · _ _)
          (pour_source_free (fun h => send_free h _ _) start stock _ hq _)
      | relay follow drops =>
        rw [free_relay, thin_relay, drain_relay hstopped, drain_relay (by rw [hrest]), hrest,
          resumed_after]
        exact congrArg (Outcome.after · _ _)
          (pour_relay_free (fun h => send_free h _ _) follow drops stock _ hq _)

end Line

end GraphWalk
