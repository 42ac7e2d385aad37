import GraphWalk.Proofs.Line
import GraphWalk.Proofs.Machine
import Mathlib.Tactic.Simps.Basic

/-!
# Draining a line

The machine asks from the right; what it does can be said from the left, as a recursion over the
steps. `send` carries one walker all the way through the steps to its right, and `drain` empties
a line: first what the steps on the right still keep, then the leftmost step. A gate that is full
ends the evaluation, and what was not offered by then stays in the stocks.
-/

namespace GraphWalk

variable {W σ : Type}

/-- What an evaluation let out, in order, how many walkers sources and relays offered in it, what
it left behind, and whether it ended with a step that was done. -/
structure Outcome (W σ : Type) where
  outputs : List W
  offers : Nat
  stocks : List (Stock W)
  shared : σ
  stopped : Bool

namespace Outcome

/-- Seen from one step further left. -/
@[simps] def under (r : Outcome W σ) (stock : Stock W) : Outcome W σ :=
  { r with stocks := stock :: r.stocks }

/-- Preceded by some outputs and offers. -/
@[simps] def after (r : Outcome W σ) (outputs : List W) (offers : Nat) : Outcome W σ :=
  { r with outputs := outputs ++ r.outputs, offers := offers + r.offers }

@[simps] def ended (r : Outcome W σ) : Outcome W σ := { r with stopped := true }

/-- Whether a gate at the left of an evaluation that came to rest is done now. -/
def gated (r : Outcome W σ) (limit : Option Nat) (stock : Stock W) : Outcome W σ :=
  if r.stopped then r.under stock
  else if Role.isFull limit stock.passed then (r.under { stock with passed := 0 }).ended
  else r.under stock

def line (r : Outcome W σ) : Line W σ := ⟨r.stocks, r.shared⟩

end Outcome

namespace Line

/-- Launches walkers from a list of items and carries each through before the next; `keep` is the
stock that still has some items to launch. -/
def pour {α : Type} (launch : α → σ → W × σ) (keep : List α → Stock W)
    (onward : W → List (Stock W) → σ → Outcome W σ) :
    List α → List (Stock W) → σ → Outcome W σ
  | [], stocks, s => ⟨[], 0, keep [] :: stocks, s, false⟩
  | a :: rest, stocks, s =>
    let r := onward (launch a s).1 stocks (launch a s).2
    if r.stopped then (r.under (keep rest)).after [] 1
    else (pour launch keep onward rest r.stocks r.shared).after r.outputs (r.offers + 1)

/-- Carries a walker through the steps. Stocks that are missing count as empty. -/
def send : List (Role W σ) → W → List (Stock W) → σ → Outcome W σ
  | [], w, _, s => ⟨[w], 0, [], s, false⟩
  | role :: roles, w, stocks, s =>
    let stock := stocks.headD default
    match role with
    -- A source never pulls, so no walker comes to it.
    | .source _ => ⟨[], 0, stock :: stocks.tail, s, false⟩
    | .gate limit =>
      (send roles w stocks.tail s).gated limit { stock with passed := stock.passed + 1 }
    | .relay follow _ =>
      let onward := follow stock.seen w s
      pour Prod.mk (stock.remember onward.seen).hold (send roles) onward.walkers stocks.tail
        onward.shared

/-- Empties the steps, from the right. A source lets nothing to its left be emptied. -/
def drain : List (Role W σ) → List (Stock W) → σ → Outcome W σ
  | [], _, s => ⟨[], 0, [], s, false⟩
  | role :: roles, stocks, s =>
    let stock := stocks.headD default
    let r := drain roles stocks.tail s
    match role with
    | .source start =>
      if r.stopped then r.under stock
      else
        ((pour start stock.await (send roles) stock.waiting r.stocks r.shared).after r.outputs
          r.offers).ended
    | .gate limit => r.gated limit stock
    | .relay _ _ =>
      if r.stopped then r.under stock
      else
        (pour Prod.mk stock.hold (send roles) stock.pending r.stocks r.shared).after r.outputs
          r.offers

variable {roles : List (Role W σ)} {stocks : List (Stock W)} {stock : Stock W} {w : W} {s : σ}
  {start : Nat → σ → W × σ} {limit : Option Nat} {follow : List Nat → W → σ → Onward W σ}
  {drops : Bool}

theorem send_gate : send (.gate limit :: roles) w (stock :: stocks) s =
    (send roles w stocks s).gated limit { stock with passed := stock.passed + 1 } := rfl

theorem send_relay : send (.relay follow drops :: roles) w (stock :: stocks) s =
    pour Prod.mk (stock.remember (follow stock.seen w s).seen).hold (send roles)
      (follow stock.seen w s).walkers stocks (follow stock.seen w s).shared := rfl

theorem drain_gate : drain (.gate limit :: roles) (stock :: stocks) s =
    (drain roles stocks s).gated limit stock := rfl

theorem drain_under (h : (drain roles stocks s).stopped = true) (role : Role W σ) :
    drain (role :: roles) (stock :: stocks) s = (drain roles stocks s).under stock := by
  cases role <;> simp [drain, Outcome.gated, h]

theorem drain_source (h : (drain roles stocks s).stopped = false) :
    drain (.source start :: roles) (stock :: stocks) s =
      ((pour start stock.await (send roles) stock.waiting (drain roles stocks s).stocks
        (drain roles stocks s).shared).after (drain roles stocks s).outputs
          (drain roles stocks s).offers).ended := by
  simp [drain, h]

theorem drain_relay (h : (drain roles stocks s).stopped = false) :
    drain (.relay follow drops :: roles) (stock :: stocks) s =
      (pour Prod.mk stock.hold (send roles) stock.pending (drain roles stocks s).stocks
        (drain roles stocks s).shared).after (drain roles stocks s).outputs
          (drain roles stocks s).offers := by
  simp [drain, h]

-- ---------------------------------------------------------------------------
-- Lines at rest
-- ---------------------------------------------------------------------------

theorem Quiet.not_source (h : Quiet roles stocks) : ∀ role ∈ roles, role.isSource = false := by
  induction h with
  | nil => simp
  | @cons role stock roles stocks hq _ ih =>
    intro r hr
    rcases List.mem_cons.mp hr with rfl | hr
    · cases r with
      | source start => exact hq.elim
      | gate limit => rfl
      | relay follow drops => rfl
    · exact ih r hr

theorem drain_quiet (h : Quiet roles stocks) (s : σ) :
    drain roles stocks s = ⟨[], 0, stocks, s, false⟩ := by
  induction h with
  | nil => rfl
  | @cons role stock roles stocks hq _ ih =>
    cases role with
    | source start => exact hq.elim
    | gate limit =>
      have hfull : Role.isFull limit stock.passed = false := hq
      simp [drain, ih, Outcome.gated, Outcome.under, hfull]
    | relay follow drops =>
      obtain ⟨waiting, pending, seen, passed⟩ := stock
      have hp : pending = [] := hq
      simp [drain, ih, pour, Outcome.after, Stock.hold, hp]

theorem pour_quiet {α : Type} {launch : α → σ → W × σ} {keep : List α → Stock W}
    (hsend : ∀ {w stocks s}, Quiet roles stocks → (send roles w stocks s).stopped = false →
      Quiet roles (send roles w stocks s).stocks)
    {items : List α} {s : σ} (h : Quiet roles stocks)
    (hstopped : (pour launch keep (send roles) items stocks s).stopped = false) :
    ∃ rest, (pour launch keep (send roles) items stocks s).stocks = keep [] :: rest ∧
      Quiet roles rest := by
  induction items generalizing stocks s with
  | nil => exact ⟨stocks, rfl, h⟩
  | cons a rest ih =>
    simp only [pour] at hstopped ⊢
    split at hstopped
    · rename_i hr
      simp [hr] at hstopped
    · rename_i hr
      rw [if_neg hr]
      exact ih (hsend h (by simpa using hr)) hstopped

theorem gated_quiet {r : Outcome W σ} {limit : Option Nat} {stock : Stock W}
    (h : r.stopped = false → Quiet roles r.stocks)
    (hstopped : (r.gated limit stock).stopped = false) :
    Quiet (.gate limit :: roles) (r.gated limit stock).stocks := by
  unfold Outcome.gated at hstopped ⊢
  split at hstopped
  · rename_i hr
    simp [hr] at hstopped
  · rename_i hr
    split at hstopped
    · simp at hstopped
    · rename_i hfull
      rw [if_neg hr, if_neg hfull]
      exact .cons (by simpa [Role.Quiet] using hfull) (h (by simpa using hr))

theorem send_quiet {w : W} {s : σ} (h : Quiet roles stocks)
    (hstopped : (send roles w stocks s).stopped = false) :
    Quiet roles (send roles w stocks s).stocks := by
  induction roles generalizing w stocks s with
  | nil => exact .nil
  | cons role roles ih =>
    cases h with
    | @cons _ stock _ stocks hq hqs =>
    cases role with
    | source start => exact hq.elim
    | gate limit => exact gated_quiet (ih hqs) hstopped
    | relay follow drops =>
      obtain ⟨rest, hstocks, hrest⟩ := pour_quiet ih hqs hstopped
      exact hstocks ▸ .cons rfl hrest

theorem drain_quiet_stocks {s : σ} (hstopped : (drain roles stocks s).stopped = false) :
    Quiet roles (drain roles stocks s).stocks := by
  induction roles generalizing stocks s with
  | nil => exact .nil
  | cons role roles ih =>
    cases role with
    | source start =>
      simp only [drain] at hstopped
      split at hstopped
      · rename_i hr
        simp [hr] at hstopped
      · simp at hstopped
    | gate limit => exact gated_quiet ih hstopped
    | relay follow drops =>
      simp only [drain] at hstopped ⊢
      split at hstopped
      · rename_i hr
        simp [hr] at hstopped
      · rename_i hr
        rw [if_neg hr]
        obtain ⟨rest, hstocks, hrest⟩ :=
          pour_quiet send_quiet (ih (by simpa using hr)) hstopped
        exact hstocks ▸ .cons rfl hrest

end Line

end GraphWalk
