import GraphWalk.Proofs.Line.Run

/-!
# Repeated runs of a line

Each run goes on from the line that the one before left. `batches_drains`: with enough questions
allowed to each, the runs let out what as many evaluations by `drain` do.
-/

namespace GraphWalk.Line

variable {W σ : Type} {roles : List (Role W σ)} {l : Line W σ}

/-- What a number of evaluations let out, each on the line that the one before left. -/
def drains (roles : List (Role W σ)) : Nat → Line W σ → List (List W)
  | 0, _ => []
  | m + 1, l =>
    let r := drain roles l.stocks l.shared
    r.outputs :: drains roles m r.line

theorem length_drains (roles : List (Role W σ)) (m : Nat) (l : Line W σ) :
    (drains roles m l).length = m := by
  induction m generalizing l with
  | zero => rfl
  | succ m ih => simp [drains, ih]

theorem length_pour {α : Type} {launch : α → σ → W × σ} {keep : List α → Stock W}
    {onward : W → List (Stock W) → σ → Outcome W σ} {n : Nat}
    (honward : ∀ w stocks s, stocks.length = n → (onward w stocks s).stocks.length = n)
    (items : List α) {stocks : List (Stock W)} (s : σ) (h : stocks.length = n) :
    (pour launch keep onward items stocks s).stocks.length = n + 1 := by
  induction items generalizing stocks s with
  | nil => simp [pour, h]
  | cons a rest ih =>
    have hr := honward (launch a s).1 stocks (launch a s).2 h
    simp only [pour]
    split
    · simp [hr]
    · exact ih _ hr

theorem length_gated (r : Outcome W σ) (limit : Option Nat) (stock : Stock W) :
    (r.gated limit stock).stocks.length = r.stocks.length + 1 := by
  unfold Outcome.gated
  split
  · rfl
  · split <;> rfl

theorem length_send (roles : List (Role W σ)) (w : W) {stocks : List (Stock W)} (s : σ)
    (h : stocks.length = roles.length) : (send roles w stocks s).stocks.length = roles.length := by
  induction roles generalizing w stocks s with
  | nil => rfl
  | cons role roles ih =>
    obtain ⟨stock, stocks, rfl⟩ := List.exists_cons_of_length_eq_add_one h
    have hstocks : stocks.length = roles.length := Nat.succ.inj h
    cases role with
    | source start => exact h
    | gate limit =>
      rw [send_gate, length_gated, ih w s hstocks]
      rfl
    | relay follow drops => exact length_pour (fun w _ s => ih w s) _ _ hstocks

theorem length_drain (roles : List (Role W σ)) {stocks : List (Stock W)} (s : σ)
    (h : stocks.length = roles.length) : (drain roles stocks s).stocks.length = roles.length := by
  induction roles generalizing stocks s with
  | nil => rfl
  | cons role roles ih =>
    obtain ⟨stock, stocks, rfl⟩ := List.exists_cons_of_length_eq_add_one h
    have hr := ih s (Nat.succ.inj h : stocks.length = roles.length)
    cases hstopped : (drain roles stocks s).stopped with
    | true => simp [drain_under hstopped, hr]
    | false =>
      cases role with
      | source start =>
        rw [drain_source hstopped]
        exact length_pour (fun w _ s => length_send roles w s) _ _ hr
      | gate limit =>
        rw [drain_gate, length_gated, hr]
        rfl
      | relay follow drops =>
        rw [drain_relay hstopped]
        exact length_pour (fun w _ s => length_send roles w s) _ _ hr

theorem run_mono {bound bound' : Nat} {r : List W × Line W σ} (hle : bound ≤ bound')
    (h : l.run roles bound = some r) : l.run roles bound' = some r := by
  obtain ⟨extra, rfl⟩ := Nat.exists_eq_add_of_le hle
  unfold run at h ⊢
  split at h
  · rename_i hempty
    rw [if_pos hempty]
    exact h
  · rename_i hempty
    rw [if_neg hempty]
    obtain ⟨s, hs, rfl⟩ := Option.map_eq_some_iff.mp h
    rw [Machine.run_add hs]
    rfl

theorem batches_mono {bound bound' m : Nat} {bs : List (List W)} (hle : bound ≤ bound')
    (h : batches roles bound m l = some bs) : batches roles bound' m l = some bs := by
  induction m generalizing l bs with
  | zero => exact h
  | succ m ih =>
    obtain ⟨r, hr, hrest⟩ := Option.bind_eq_some_iff.mp h
    obtain ⟨rest, hbatches, rfl⟩ := Option.map_eq_some_iff.mp hrest
    simp only [batches, run_mono hle hr, Option.bind_some, ih hbatches, Option.map_some]

/-- Repeated runs end, each with what `drain` lets out. -/
theorem batches_drains (m : Nat) (h : l.stocks.length = roles.length) :
    ∃ bound, batches roles bound m l = some (drains roles m l) := by
  induction m generalizing l with
  | zero => exact ⟨0, rfl⟩
  | succ m ih =>
    obtain ⟨first, hfirst⟩ := run_drain h l.shared
    obtain ⟨rest, hrest⟩ := ih (l := (drain roles l.stocks l.shared).line)
      (length_drain roles l.shared h)
    refine ⟨max first rest, ?_⟩
    have hrun := run_mono (Nat.le_max_left first rest) hfirst
    have hbatches := batches_mono (Nat.le_max_right first rest) hrest
    simp only [batches, hrun, Option.bind_some, hbatches, Option.map_some, drains]

end GraphWalk.Line
