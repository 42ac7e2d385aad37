import GraphWalk.Proofs.Line.Batches
import GraphWalk.Proofs.Line.Free

/-!
# A relay at the end of a line

A relay at the right end that leaves alone what the steps share is handed what the line lets out
without it, one walker at a time. What it keeps back changes nothing for the steps before it, and so
an evaluation lets out what is left of these walkers: `drains_sifted`.
-/

namespace GraphWalk

variable {W σ : Type} {sieve : List Nat → W → List W × List Nat} {seen : List Nat}

/-- Puts walkers through a sieve one by one: what each leads to, and the vertices seen then. -/
def sift (sieve : List Nat → W → List W × List Nat) : List Nat → List W → List W × List Nat
  | seen, [] => ([], seen)
  | seen, w :: ws =>
    let (first, seen) := sieve seen w
    let (rest, seen) := sift sieve seen ws
    (first ++ rest, seen)

theorem sift_append (sieve : List Nat → W → List W × List Nat) (seen : List Nat) (a b : List W) :
    sift sieve seen (a ++ b) =
      ((sift sieve seen a).1 ++ (sift sieve (sift sieve seen a).2 b).1,
        (sift sieve (sift sieve seen a).2 b).2) := by
  induction a generalizing seen with
  | nil => rfl
  | cons w a ih => simp [sift, ih]

/-- Puts several lists of walkers through a sieve, one after the other. -/
def sifts (sieve : List Nat → W → List W × List Nat) : List Nat → List (List W) → List (List W)
  | _, [] => []
  | seen, ws :: rest =>
    let (first, seen) := sift sieve seen ws
    first :: sifts sieve seen rest

theorem length_sifts (sieve : List Nat → W → List W × List Nat) (seen : List Nat)
    (ws : List (List W)) : (sifts sieve seen ws).length = ws.length := by
  induction ws generalizing seen with
  | nil => rfl
  | cons ws rest ih => exact congrArg Nat.succ (ih _)

/-- A sieve that decides about each walker by itself. -/
theorem sifts_filterMap (f : W → Option W) (seen : List Nat) (ws : List (List W)) :
    sifts (fun seen w => ((f w).toList, seen)) seen ws = ws.map (List.filterMap f) := by
  have hsift : ∀ ws, sift (fun seen w => ((f w).toList, seen)) seen ws =
      (ws.filterMap f, seen) := by
    intro ws
    induction ws with
    | nil => rfl
    | cons w ws ih => cases hw : f w <;> simp [sift, ih, hw]
  induction ws with
  | nil => rfl
  | cons ws rest ih => simp only [sifts, hsift, ih, List.map_cons]

/-- The second evaluation came to the same as the first, with one more step at the end. -/
structure Outcome.Sifted (sieve : List Nat → W → List W × List Nat) (seen : List Nat)
    (r r' : Outcome W σ) : Prop where
  outputs : r'.outputs = (sift sieve seen r.outputs).1
  stocks : r'.stocks = r.stocks ++ [{ seen := (sift sieve seen r.outputs).2 }]
  shared : r'.shared = r.shared
  stopped : r'.stopped = r.stopped

namespace Outcome.Sifted

variable {r r' : Outcome W σ}

theorem under (h : Sifted sieve seen r r') (stock : Stock W) :
    Sifted sieve seen (r.under stock) (r'.under stock) :=
  ⟨h.outputs, congrArg (stock :: ·) h.stocks, h.shared, h.stopped⟩

theorem ended (h : Sifted sieve seen r r') : Sifted sieve seen r.ended r'.ended :=
  ⟨h.outputs, h.stocks, h.shared, rfl⟩

theorem after {first : List W} (h : Sifted sieve (sift sieve seen first).2 r r') (n n' : Nat) :
    Sifted sieve seen (r.after first n) (r'.after (sift sieve seen first).1 n') := by
  refine ⟨?_, ?_, h.shared, h.stopped⟩
  · simp [sift_append, h.outputs]
  · simp [sift_append, h.stocks]

theorem after_nothing (h : Sifted sieve seen r r') (n n' : Nat) :
    Sifted sieve seen (r.after [] n) (r'.after [] n') :=
  ⟨h.outputs, h.stocks, h.shared, h.stopped⟩

theorem gated (h : Sifted sieve seen r r') (limit : Option Nat) (stock : Stock W) :
    Sifted sieve seen (r.gated limit stock) (r'.gated limit stock) := by
  unfold Outcome.gated
  rw [h.stopped]
  split
  · exact h.under stock
  · split
    · exact (h.under _).ended
    · exact h.under stock

end Outcome.Sifted

namespace Line

open Outcome (Sifted)

variable {roles : List (Role W σ)} {stocks : List (Stock W)} {s : σ}
  {follow : List Nat → W → σ → Onward W σ} {drops : Bool}

theorem pour_out (keep : List W → Stock W) (ws : List W) (s : σ) :
    pour Prod.mk keep (send []) ws [] s = ⟨ws, ws.length, [keep []], s, false⟩ := by
  induction ws with
  | nil => rfl
  | cons w ws ih =>
    have hsend : send [] w [] s = (⟨[w], 0, [], s, false⟩ : Outcome W σ) := rfl
    rw [pour_on hsend rfl, ih]
    simp [Outcome.after, Nat.add_comm]

theorem pour_sifted {α : Type} {launch : α → σ → W × σ} {keep : List α → Stock W}
    {onward onward' : W → List (Stock W) → σ → Outcome W σ} {n : Nat}
    (hlength : ∀ w stocks s, stocks.length = n → (onward w stocks s).stocks.length = n)
    (honward : ∀ w stocks s seen, stocks.length = n →
      Sifted sieve seen (onward w stocks s) (onward' w (stocks ++ [{ seen := seen }]) s))
    (h : stocks.length = n) (items : List α) (s : σ) (seen : List Nat) :
    Sifted sieve seen (pour launch keep onward items stocks s)
      (pour launch keep onward' items (stocks ++ [{ seen := seen }]) s) := by
  induction items generalizing stocks s seen with
  | nil => exact ⟨rfl, rfl, rfl, rfl⟩
  | cons a rest ih =>
    have hr := honward (launch a s).1 stocks (launch a s).2 seen h
    have hlen := hlength (launch a s).1 stocks (launch a s).2 h
    simp only [pour, hr.stopped]
    split
    · exact (hr.under _).after_nothing 1 1
    · rw [hr.stocks, hr.shared, hr.outputs]
      exact (ih hlen _ _).after _ _

section
variable (hfollow : ∀ seen w s, follow seen w s = ⟨(sieve seen w).1, (sieve seen w).2, s⟩)
include hfollow

theorem send_sifted (w : W) (s : σ) (seen : List Nat) (h : stocks.length = roles.length) :
    Sifted sieve seen (send roles w stocks s)
      (send (roles ++ [.relay follow drops]) w (stocks ++ [{ seen := seen }]) s) := by
  induction roles generalizing w stocks s seen with
  | nil =>
    obtain rfl := List.length_eq_zero_iff.mp h
    rw [List.nil_append, List.nil_append, send_relay, hfollow, pour_out]
    exact ⟨by simp [sift, send], by simp [sift, send, Stock.remember, Stock.hold], rfl, rfl⟩
  | cons role roles ih =>
    obtain ⟨stock, stocks, rfl⟩ := List.exists_cons_of_length_eq_add_one h
    have hlen : stocks.length = roles.length := Nat.succ.inj h
    cases role with
    | source start => exact ⟨rfl, rfl, rfl, rfl⟩
    | gate limit => exact (ih w s seen hlen).gated limit _
    | relay follow' drops' =>
      exact pour_sifted (fun w _ s => length_send roles w s) (fun w _ s seen => ih w s seen) hlen
        _ _ _

theorem drain_sifted (s : σ) (seen : List Nat) (h : stocks.length = roles.length) :
    Sifted sieve seen (drain roles stocks s)
      (drain (roles ++ [.relay follow drops]) (stocks ++ [{ seen := seen }]) s) := by
  induction roles generalizing stocks with
  | nil =>
    obtain rfl := List.length_eq_zero_iff.mp h
    exact ⟨rfl, rfl, rfl, rfl⟩
  | cons role roles ih =>
    obtain ⟨stock, stocks, rfl⟩ := List.exists_cons_of_length_eq_add_one h
    have hr := ih (Nat.succ.inj h : stocks.length = roles.length)
    have hlen := length_drain roles s (Nat.succ.inj h : stocks.length = roles.length)
    rw [List.cons_append, List.cons_append]
    cases hstopped : (drain roles stocks s).stopped with
    | true =>
      rw [drain_under hstopped, drain_under (hr.stopped.trans hstopped)]
      exact hr.under stock
    | false =>
      have hstopped' := hr.stopped.trans hstopped
      cases role with
      | source start =>
        rw [drain_source hstopped, drain_source hstopped', hr.stocks, hr.shared, hr.outputs]
        exact ((pour_sifted (fun w _ s => length_send roles w s)
          (fun w _ s seen => send_sifted hfollow w s seen) hlen _ _ _).after _ _).ended
      | gate limit => exact hr.gated limit stock
      | relay follow' drops' =>
        rw [drain_relay hstopped, drain_relay hstopped', hr.stocks, hr.shared, hr.outputs]
        exact (pour_sifted (fun w _ s => length_send roles w s)
          (fun w _ s seen => send_sifted hfollow w s seen) hlen _ _ _).after _ _

/-- Repeated evaluations let out what is left of the walkers that the steps before let out. -/
theorem drains_sifted (m : Nat) (s : σ) (seen : List Nat) (h : stocks.length = roles.length) :
    drains (roles ++ [.relay follow drops]) m ⟨stocks ++ [{ seen := seen }], s⟩ =
      sifts sieve seen (drains roles m ⟨stocks, s⟩) := by
  induction m generalizing stocks s seen with
  | zero => rfl
  | succ m ih =>
    have hdrain : Sifted sieve seen (drain roles stocks s)
        (drain (roles ++ [.relay follow drops]) (stocks ++ [{ seen := seen }]) s) :=
      drain_sifted hfollow s seen h
    have hrest := ih (drain roles stocks s).shared
      (sift sieve seen (drain roles stocks s).outputs).2 (length_drain roles s h)
    simp only [drains, Outcome.line, sifts, hdrain.outputs, hdrain.stocks, hdrain.shared, hrest]

end

end Line

end GraphWalk
