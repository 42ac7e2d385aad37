import GraphWalk.Proofs.Line.Batches
import GraphWalk.Proofs.Line.Free

/-!
# Stopping and going on

Every evaluation of a line with gates offers something, opens a gate that was full, or finds
nothing left (`drain_stopped`). So repeated evaluations come to an end, and together they let out
what the line lets out without its gates: `drains_flatten`.
-/

namespace GraphWalk

variable {W σ : Type}

def Role.blocks : Role W σ → Stock W → Bool
  | gate limit, stock => isFull limit stock.passed
  | _, _ => false

namespace Line

variable {roles : List (Role W σ)} {stocks : List (Stock W)} {s : σ}

theorem pour_idle {α : Type} {launch : α → σ → W × σ} {keep : List α → Stock W}
    {onward : W → List (Stock W) → σ → Outcome W σ} {items : List α}
    (h : (pour launch keep onward items stocks s).offers = 0) : items = [] := by
  cases items with
  | nil => rfl
  | cons x rest =>
    simp only [pour] at h
    split at h
    · simp at h
    · simp at h

theorem drain_idle (hlen : stocks.length = roles.length)
    (h : (drain roles stocks s).offers = 0) : (drain roles stocks s).outputs = [] := by
  induction roles generalizing stocks s with
  | nil => rfl
  | cons role roles ih =>
    obtain ⟨stock, stocks, rfl⟩ := List.exists_cons_of_length_eq_add_one hlen
    have hlen' : stocks.length = roles.length := Nat.succ.inj hlen
    cases hstopped : (drain roles stocks s).stopped with
    | true =>
      rw [drain_under hstopped] at h ⊢
      exact ih hlen' h
    | false =>
      cases role with
      | gate limit =>
        rw [drain_gate, Outcome.offers_gated] at h
        rw [drain_gate, Outcome.outputs_gated]
        exact ih hlen' h
      | source start =>
        rw [drain_source hstopped] at h ⊢
        obtain ⟨hr, hpour⟩ := Nat.add_eq_zero_iff.mp h
        rw [pour_idle hpour]
        simp [pour_nil, ih hlen' hr]
      | relay follow drops =>
        rw [drain_relay hstopped] at h ⊢
        obtain ⟨hr, hpour⟩ := Nat.add_eq_zero_iff.mp h
        rw [pour_idle hpour]
        simp [pour_nil, ih hlen' hr]

def full : List (Role W σ) → List (Stock W) → Nat
  | [], _ => 0
  | role :: roles, stocks => (role.blocks (stocks.headD default)).toNat + full roles stocks.tail

theorem full_quiet (h : Quiet roles stocks) : full roles stocks = 0 := by
  induction h with
  | nil => rfl
  | @cons role stock roles stocks hq _ ih =>
    have hblocks : role.blocks stock = false := by
      cases role with
      | source start => rfl
      | gate limit => exact hq
      | relay follow drops => rfl
    simp [full, hblocks, ih]

/-- An evaluation that offered nothing was over because nothing is left, or because of a gate that
was full and is so no more. -/
theorem drain_stopped (hlimits : ∀ limit, .gate limit ∈ roles → limit ≠ some 0)
    (hlen : stocks.length = roles.length) (hstopped : (drain roles stocks s).stopped = true)
    (hoffers : (drain roles stocks s).offers = 0) :
    (drain (free roles) (thin roles stocks) s).stopped = true ∧
        (drain (free roles) (thin roles stocks) s).offers = 0 ∨
      full roles (drain roles stocks s).stocks < full roles stocks := by
  induction roles generalizing stocks s with
  | nil => cases hstopped
  | cons role roles ih =>
    obtain ⟨stock, stocks, rfl⟩ := List.exists_cons_of_length_eq_add_one hlen
    have hlimits' := fun limit h => hlimits limit (List.mem_cons_of_mem _ h)
    have hlen' : stocks.length = roles.length := Nat.succ.inj hlen
    cases hr : (drain roles stocks s).stopped with
    | true =>
      rw [drain_under hr] at hoffers ⊢
      obtain ⟨hfree, hidle⟩ | hless := ih hlimits' hlen' hr hoffers
      · left
        cases role with
        | gate limit => exact ⟨hfree, hidle⟩
        | source start =>
          rw [free_source, thin_source, drain_under hfree]
          exact ⟨hfree, hidle⟩
        | relay follow drops =>
          rw [free_relay, thin_relay, drain_under hfree]
          exact ⟨hfree, hidle⟩
      · right
        exact Nat.add_lt_add_left hless _
    | false =>
      have hq := drain_quiet_stocks hr
      cases role with
      | gate limit =>
        right
        have hlimit := hlimits limit List.mem_cons_self
        cases hfull : Role.isFull limit stock.passed with
        | true =>
          have hempty : Role.isFull limit 0 = false := by
            cases limit with
            | none => rfl
            | some n =>
              have hn : n ≠ 0 := fun h => hlimit (congrArg some h)
              simpa [Role.isFull] using hn
          rw [drain_gate, Outcome.gated, if_neg (by simp [hr]), if_pos hfull]
          calc full (.gate limit :: roles)
                ((((drain roles stocks s).under { stock with passed := 0 }).ended).stocks)
              = (Role.isFull limit 0).toNat + full roles (drain roles stocks s).stocks := rfl
            _ = 0 := by rw [hempty, full_quiet hq, Bool.toNat_false]
            _ < (Role.isFull limit stock.passed).toNat + full roles stocks := by
              rw [hfull, Bool.toNat_true]
              omega
        | false =>
          rw [drain_gate, Outcome.gated, if_neg (by simp [hr]),
            if_neg (by simp [hfull])] at hstopped
          exact absurd (hr.symm.trans hstopped) (by simp)
      | source start =>
        left
        rw [drain_source hr] at hoffers
        obtain ⟨hr', hpour⟩ := Nat.add_eq_zero_iff.mp hoffers
        have hfree := drain_free hlen' s
        rw [resumed_quiet hq] at hfree
        rw [free_source, thin_source, drain_source (by rw [hfree]), hfree, pour_idle hpour]
        exact ⟨rfl, by simpa [Outcome.after, Outcome.ended, pour_nil] using hr'⟩
      | relay follow drops =>
        rw [drain_relay hr] at hoffers hstopped
        obtain ⟨-, hpour⟩ := Nat.add_eq_zero_iff.mp hoffers
        rw [pour_idle hpour] at hstopped
        cases hstopped

/-- What a line lets out without its gates. -/
def rest (roles : List (Role W σ)) (l : Line W σ) : Outcome W σ :=
  drain (free roles) (thin roles l.stocks) l.shared

theorem rest_drain {l : Line W σ} (hlen : l.stocks.length = roles.length) :
    rest roles l = (rest roles (drain roles l.stocks l.shared).line).after
      (drain roles l.stocks l.shared).outputs (drain roles l.stocks l.shared).offers :=
  drain_free hlen l.shared

theorem length_thin (hlen : stocks.length = roles.length) :
    (thin roles stocks).length = (free roles).length := by
  induction roles generalizing stocks with
  | nil => rfl
  | cons role roles ih =>
    obtain ⟨stock, stocks, rfl⟩ := List.exists_cons_of_length_eq_add_one hlen
    have hrest := ih (Nat.succ.inj hlen : stocks.length = roles.length)
    cases role with
    | source start => exact congrArg Nat.succ hrest
    | gate limit => exact hrest
    | relay follow drops => exact congrArg Nat.succ hrest

theorem drains_idle {l : Line W σ} (hlen : l.stocks.length = roles.length)
    (h : (rest roles l).offers = 0) (m : Nat) : (drains roles m l).flatten = [] := by
  induction m generalizing l with
  | zero => rfl
  | succ m ih =>
    rw [rest_drain hlen] at h
    obtain ⟨hr, hrest⟩ := Nat.add_eq_zero_iff.mp h
    have hlater := ih (length_drain roles l.shared hlen) hrest
    simp only [drains, List.flatten_cons, drain_idle hlen hr, List.nil_append]
    exact hlater

/-- Where something is left, an evaluation leaves less, or as much with fewer gates full. -/
theorem rest_decreases (hlimits : ∀ limit, .gate limit ∈ roles → limit ≠ some 0) {l : Line W σ}
    (hlen : l.stocks.length = roles.length) (h : (rest roles l).offers ≠ 0) :
    Prod.Lex (· < ·) (· < ·)
      ((rest roles (drain roles l.stocks l.shared).line).offers,
        full roles (drain roles l.stocks l.shared).stocks)
      ((rest roles l).offers, full roles l.stocks) := by
  have hrest := congrArg Outcome.offers (rest_drain hlen)
  by_cases hoffers : (drain roles l.stocks l.shared).offers = 0
  · cases hstopped : (drain roles l.stocks l.shared).stopped with
    | false =>
      -- an evaluation that came to rest has offered all there was
      have hquiet := resumed_quiet (drain_quiet_stocks hstopped)
      rw [← drain_free hlen] at hquiet
      exact absurd ((congrArg Outcome.offers hquiet).trans hoffers) h
    | true =>
      obtain ⟨-, hnone⟩ | hless := drain_stopped hlimits hlen hstopped hoffers
      · exact absurd hnone h
      · have hsame : (rest roles l).offers =
            (rest roles (drain roles l.stocks l.shared).line).offers := by
          rw [hrest, Outcome.after, hoffers, Nat.zero_add]
        rw [hsame]
        exact .right _ hless
  · refine .left _ _ ?_
    rw [hrest]
    exact Nat.lt_add_of_pos_left (Nat.pos_of_ne_zero hoffers)

/-- Stopping at gates and going on loses nothing, repeats nothing and changes no order. -/
theorem drains_flatten (hlimits : ∀ limit, .gate limit ∈ roles → limit ≠ some 0) (l : Line W σ)
    (hlen : l.stocks.length = roles.length) :
    ∃ N, ∀ m ≥ N, (drains roles m l).flatten = (rest roles l).outputs := by
  by_cases hidle : (rest roles l).offers = 0
  · refine ⟨0, fun m _ => ?_⟩
    rw [drains_idle hlen hidle]
    exact (drain_idle (length_thin hlen) hidle).symm
  · have hless := rest_decreases hlimits hlen hidle
    obtain ⟨N, hN⟩ := drains_flatten hlimits (drain roles l.stocks l.shared).line
      (length_drain roles l.shared hlen)
    refine ⟨N + 1, fun m hm => ?_⟩
    cases m with
    | zero => omega
    | succ m =>
      rw [rest_drain hlen]
      have hlater := hN m (Nat.le_of_succ_le_succ hm)
      simp only [drains, List.flatten_cons, hlater]
      rfl
termination_by ((rest roles l).offers, full roles l.stocks)
decreasing_by exact hless

end Line

end GraphWalk
