import GraphWalk.Proofs.Line.Resume

/-!
# A gate at the end of a line

With one gate, at the right end, every evaluation lets out as many walkers as the gate allows,
until nothing is left: `drains_chunks`. Between two evaluations the gate has counted none, unless
nothing is left; `drain_counts` carries this through an evaluation.
-/

namespace GraphWalk.Line

variable {W σ : Type} {roles : List (Role W σ)} {role : Role W σ} {b stocks : List (Stock W)}
  {stock last : Stock W} {s : σ} {n c : Nat}

/-- A gate of limit `n` that had counted `c` is done and counts anew, or has counted the outputs. -/
def Counts (n c : Nat) (r : Outcome W σ) : Prop :=
  ∃ b last, r.stocks = b ++ [last] ∧
    (r.stopped = true ∧ c + r.outputs.length = n ∧ last.passed = 0 ∨
      r.stopped = false ∧ c + r.outputs.length < n ∧ last.passed = c + r.outputs.length)

theorem stocks_length (hb : b.length = roles.length) (last : Stock W) :
    (b ++ [last]).length = (roles ++ [Role.gate (some n)]).length := by
  simp [hb]

theorem Counts.under {r : Outcome W σ} (h : Counts n c r) (stock : Stock W) :
    Counts n c (r.under stock) := by
  obtain ⟨b, last, hstocks, hcount⟩ := h
  exact ⟨stock :: b, last, congrArg (stock :: ·) hstocks, hcount⟩

theorem Counts.after {r : Outcome W σ} {outputs : List W}
    (h : Counts n (c + outputs.length) r) (offers : Nat) : Counts n c (r.after outputs offers) := by
  obtain ⟨b, last, hstocks, hcount⟩ := h
  have hlength : c + (r.after outputs offers).outputs.length =
      c + outputs.length + r.outputs.length := by
    simp [Nat.add_assoc]
  exact ⟨b, last, hstocks, by rw [hlength]; exact hcount⟩

theorem pour_counts {α : Type}
    (hsend : ∀ {w b last s}, b.length = roles.length → last.passed < n →
      Counts n last.passed (send (roles ++ [.gate (some n)]) w (b ++ [last]) s))
    (launch : α → σ → W × σ) (keep : List α → Stock W) (items : List α)
    (hb : b.length = roles.length) (hlast : last.passed < n) (s : σ) :
    Counts n last.passed
      (pour launch keep (send (roles ++ [.gate (some n)])) items (b ++ [last]) s) := by
  induction items generalizing b last s with
  | nil => exact ⟨keep [] :: b, last, rfl, .inr ⟨rfl, hlast, rfl⟩⟩
  | cons x rest ih =>
    have hcounts := hsend (w := (launch x s).1) (s := (launch x s).2) hb hlast
    have hlength := length_send (roles ++ [.gate (some n)]) (launch x s).1 (launch x s).2
      (stocks_length hb last)
    generalize hr : send (roles ++ [.gate (some n)]) (launch x s).1 (b ++ [last])
      (launch x s).2 = r at hcounts hlength
    cases hstopped : r.stopped with
    | true =>
      have hunder : Counts n (last.passed + ([] : List W).length) (r.under (keep rest)) :=
        hcounts.under _
      rw [pour_stop (hr ▸ hstopped), hr]
      exact hunder.after 1
    | false =>
      rw [pour_on hr hstopped]
      obtain ⟨b', last', hstocks, ⟨hclosed, -, -⟩ | ⟨-, hless, hpassed⟩⟩ := hcounts
      · exact absurd (hstopped.symm.trans hclosed) (by simp)
      · have hb' : b'.length = roles.length := by simpa [hstocks] using hlength
        have hrest := ih hb' (hpassed ▸ hless) r.shared
        rw [← hstocks, hpassed] at hrest
        exact hrest.after _

theorem gated_counts {r : Outcome W σ} (hlast : last.passed < n) (hstopped : r.stopped = false)
    (houtputs : r.outputs = []) (hstocks : r.stocks = []) :
    Counts n last.passed (r.gated (some n) last) := by
  have hopen : Role.isFull (some n) last.passed = false := by simpa [Role.isFull] using hlast
  rw [Outcome.gated, if_neg (by simp [hstopped]), if_neg (by simp [hopen])]
  refine ⟨[], last, congrArg (last :: ·) hstocks, .inr ⟨hstopped, ?_, ?_⟩⟩
  · simpa [Outcome.under, houtputs] using hlast
  · simp [houtputs]

theorem send_counts (hgates : ∀ role ∈ roles, role.isGate = false)
    (hsources : ∀ role ∈ roles, role.isSource = false) (hb : b.length = roles.length)
    (hlast : last.passed < n) (w : W) (s : σ) :
    Counts n last.passed (send (roles ++ [.gate (some n)]) w (b ++ [last]) s) := by
  induction roles generalizing w b last s with
  | nil =>
    obtain rfl : b = [] := List.length_eq_zero_iff.mp hb
    rw [List.nil_append, List.nil_append, send_gate]
    cases hfull : Role.isFull (some n) (last.passed + 1) with
    | true =>
      have hn : n ≤ last.passed + 1 := by simpa [Role.isFull] using hfull
      have hgated : (send ([] : List (Role W σ)) w [] s).gated (some n)
          { last with passed := last.passed + 1 } =
          ⟨[w], 0, [{ last with passed := 0 }], s, true⟩ := by
        simp [send, Outcome.gated, Outcome.under, Outcome.ended, hfull]
      rw [hgated]
      exact ⟨[], _, rfl, .inl ⟨rfl, Nat.le_antisymm hlast hn, rfl⟩⟩
    | false =>
      have hn : last.passed + 1 < n := by simpa [Role.isFull] using hfull
      have hgated : (send ([] : List (Role W σ)) w [] s).gated (some n)
          { last with passed := last.passed + 1 } =
          ⟨[w], 0, [{ last with passed := last.passed + 1 }], s, false⟩ := by
        simp [send, Outcome.gated, Outcome.under, hfull]
      rw [hgated]
      exact ⟨[], _, rfl, .inr ⟨rfl, hn, rfl⟩⟩
  | cons role roles ih =>
    obtain ⟨stock, b, rfl⟩ := List.exists_cons_of_length_eq_add_one hb
    obtain ⟨hgate, hgates'⟩ := List.forall_mem_cons.mp hgates
    obtain ⟨hsource, hsources'⟩ := List.forall_mem_cons.mp hsources
    cases role with
    | source start => cases hsource
    | gate limit => cases hgate
    | relay follow drops =>
      rw [List.cons_append, List.cons_append, send_relay]
      exact pour_counts (fun hb hlast => ih hgates' hsources' hb hlast _ _) _ _ _
        (Nat.succ.inj hb) hlast _

theorem free_append_gate (hgates : ∀ role ∈ roles, role.isGate = false) (limit : Option Nat) :
    free (roles ++ [.gate limit]) = roles := by
  have hroles : roles.filter (fun role => !role.isGate) = roles :=
    List.filter_eq_self.mpr fun role h => by simp [hgates role h]
  rw [free, List.filter_append, hroles]
  simp [Role.isGate]

theorem thin_append_gate (hgates : ∀ role ∈ roles, role.isGate = false) (limit : Option Nat)
    (hb : b.length = roles.length) (last : Stock W) :
    thin (roles ++ [.gate limit]) (b ++ [last]) = b := by
  induction roles generalizing b with
  | nil => exact (List.length_eq_zero_iff.mp hb).symm
  | cons role roles ih =>
    obtain ⟨stock, b, rfl⟩ := List.exists_cons_of_length_eq_add_one hb
    obtain ⟨hgate, hgates⟩ := List.forall_mem_cons.mp hgates
    have hrest := ih hgates (Nat.succ.inj hb)
    simp [thin, hgate, hrest]

/-- The same of an evaluation, which is also over when nothing is left of `all`. -/
def Ends (n c : Nat) (r all : Outcome W σ) : Prop :=
  ∃ b last, r.stocks = b ++ [last] ∧
    (r.stopped = true ∧ c + r.outputs.length = n ∧ last.passed = 0 ∨
      c + r.outputs.length < n ∧ last.passed = c + r.outputs.length ∧
        r.outputs = all.outputs ∧ r.stopped = all.stopped)

theorem drain_append_gate (hgates : ∀ role ∈ roles, role.isGate = false) (limit : Option Nat)
    (hb : b.length = roles.length) (last : Stock W) (s : σ) :
    drain roles b s = resumed (roles ++ [.gate limit])
      (drain (roles ++ [.gate limit]) (b ++ [last]) s) := by
  have hlen : (b ++ [last]).length = (roles ++ [Role.gate limit]).length := by simp [hb]
  have hfree := drain_free hlen s
  rwa [free_append_gate hgates, thin_append_gate hgates limit hb] at hfree

theorem Counts.ends (hgates : ∀ role ∈ roles, role.isGate = false)
    (hb : b.length = roles.length)
    (h : Counts n c (drain (roles ++ [.gate (some n)]) (b ++ [last]) s)) :
    Ends n c (drain (roles ++ [.gate (some n)]) (b ++ [last]) s) (drain roles b s) := by
  obtain ⟨b', last', hstocks, hclosed | ⟨hstopped, hless, hpassed⟩⟩ := h
  · exact ⟨b', last', hstocks, .inl hclosed⟩
  · rw [drain_append_gate hgates (some n) hb last, resumed_quiet (drain_quiet_stocks hstopped)]
    exact ⟨b', last', hstocks, .inr ⟨hless, hpassed, rfl, hstopped⟩⟩

theorem pour_drain_counts {α : Type} {all : Outcome W σ} (hb : b.length = roles.length)
    (hgates : ∀ role ∈ roles, role.isGate = false)
    (h : Ends n last.passed (drain (roles ++ [.gate (some n)]) (b ++ [last]) s) all)
    (hstopped : (drain (roles ++ [.gate (some n)]) (b ++ [last]) s).stopped = false)
    (launch : α → σ → W × σ) (keep : List α → Stock W) (items : List α) :
    let r := drain (roles ++ [.gate (some n)]) (b ++ [last]) s
    Counts n last.passed
      ((pour launch keep (send (roles ++ [.gate (some n)])) items r.stocks r.shared).after
        r.outputs r.offers) := by
  have hlength := length_drain (roles ++ [.gate (some n)]) s (stocks_length hb last)
  have hsources : ∀ r ∈ roles, r.isSource = false := fun r hr =>
    (drain_quiet_stocks hstopped).not_source r (List.mem_append_left _ hr)
  obtain ⟨b', last', hstocks, ⟨hclosed, -, -⟩ | ⟨hless, hpassed, -, -⟩⟩ := h
  · exact absurd (hstopped.symm.trans hclosed) (by simp)
  · have hb' : b'.length = roles.length := by simpa [hstocks] using hlength
    have hpour := pour_counts (fun hb hlast => send_counts hgates hsources hb hlast _ _) launch
      keep items hb' (hpassed ▸ hless)
      (drain (roles ++ [.gate (some n)]) (b ++ [last]) s).shared
    rw [← hstocks, hpassed] at hpour
    exact hpour.after _

/-- An evaluation ends with the gate done, or with nothing left and all outputs counted. -/
theorem drain_counts (hgates : ∀ role ∈ roles, role.isGate = false)
    (hb : b.length = roles.length) (hlast : last.passed < n) (s : σ) :
    Ends n last.passed (drain (roles ++ [.gate (some n)]) (b ++ [last]) s) (drain roles b s) := by
  induction roles generalizing b with
  | nil =>
    refine Counts.ends hgates hb ?_
    obtain rfl : b = [] := List.length_eq_zero_iff.mp hb
    exact gated_counts hlast rfl rfl rfl
  | cons role roles ih =>
    obtain ⟨stock, b, rfl⟩ := List.exists_cons_of_length_eq_add_one hb
    obtain ⟨hgate, hgates'⟩ := List.forall_mem_cons.mp hgates
    have hb' : b.length = roles.length := Nat.succ.inj hb
    have hrest := ih hgates' hb'
    cases hstopped : (drain (roles ++ [.gate (some n)]) (b ++ [last]) s).stopped with
    | true =>
      rw [List.cons_append, List.cons_append, drain_under hstopped]
      obtain ⟨b', last', hstocks, hends⟩ := hrest
      refine ⟨stock :: b', last', congrArg (stock :: ·) hstocks, ?_⟩
      obtain hclosed | ⟨hless, hpassed, houtputs, hall⟩ := hends
      · exact .inl hclosed
      · rw [drain_under (hall.symm.trans hstopped)]
        exact .inr ⟨hless, hpassed, houtputs, hall⟩
    | false =>
      cases role with
      | gate limit => cases hgate
      | relay follow drops =>
        refine Counts.ends hgates hb ?_
        rw [List.cons_append, List.cons_append, drain_relay hstopped]
        exact pour_drain_counts hb' hgates' hrest hstopped Prod.mk stock.hold stock.pending
      | source start =>
        -- a source ends the evaluation, and the gate may have some walkers counted
        have hcounts := pour_drain_counts hb' hgates' hrest hstopped start stock.await stock.waiting
        have hall := drain_append_gate hgates (some n) hb last s
        rw [List.cons_append, List.cons_append, drain_source hstopped] at hall ⊢
        obtain ⟨b', last', hstocks, ⟨-, hfull, hpassed⟩ | ⟨hpour, hless, hpassed⟩⟩ := hcounts
        · exact ⟨b', last', hstocks, .inl ⟨rfl, hfull, hpassed⟩⟩
        · obtain ⟨stocks, hkept, hq⟩ := pour_quiet send_quiet (drain_quiet_stocks hstopped) hpour
          refine ⟨b', last', hstocks, .inr ⟨hless, hpassed, ?_⟩⟩
          rw [hall]
          refine And.imp Eq.symm Eq.symm ?_
          exact resumed_exhausted hq hkept

/-- Chunk after chunk: the first has `n` elements, unless it is all. -/
theorem chunks_append {α : Type} {a rest : List α}
    (h : a.length = n ∨ a.length < n ∧ rest = []) (m : Nat) :
    ((List.range (m + 1)).map fun i => ((a ++ rest).drop (i * n)).take n) =
      a :: (List.range m).map fun i => (rest.drop (i * n)).take n := by
  rw [List.range_succ_eq_map, List.map_cons, List.map_map]
  obtain rfl | ⟨hless, rfl⟩ := h
  · refine congrArg₂ List.cons (by simp) (List.map_congr_left fun i _ => ?_)
    show ((a ++ rest).drop ((i + 1) * a.length)).take a.length = _
    rw [Nat.succ_mul, Nat.add_comm, ← List.drop_drop, List.drop_left]
  · refine congrArg₂ List.cons ?_ (List.map_congr_left fun i _ => ?_)
    · simp [List.take_of_length_le (Nat.le_of_lt hless)]
    · have hdrop : a.length ≤ (i + 1) * n := by
        rw [Nat.succ_mul]
        omega
      simp [List.drop_eq_nil_of_le hdrop]

/-- Every evaluation lets out the next `n` outputs of the line without the gate. -/
theorem drains_chunks (hgates : ∀ role ∈ roles, role.isGate = false) (m : Nat)
    (hb : b.length = roles.length) (hlast : last.passed < n)
    (hnone : last.passed = 0 ∨ (drain roles b s).outputs = []) :
    drains (roles ++ [.gate (some n)]) m ⟨b ++ [last], s⟩ =
      (List.range m).map fun i => ((drain roles b s).outputs.drop (i * n)).take n := by
  induction m generalizing b last s with
  | zero => rfl
  | succ m ih =>
    have hlength := length_drain (roles ++ [.gate (some n)]) s (stocks_length hb last)
    obtain ⟨b', last', hstocks, hends⟩ := drain_counts hgates hb hlast s
    have hb' : b'.length = roles.length := by simpa [hstocks] using hlength
    have hall := drain_append_gate hgates (some n) hb last s
    rw [resumed, hstocks, free_append_gate hgates, thin_append_gate hgates (some n) hb'] at hall
    have hdrains : drains (roles ++ [.gate (some n)]) (m + 1) ⟨b ++ [last], s⟩ =
        (drain (roles ++ [.gate (some n)]) (b ++ [last]) s).outputs ::
          drains (roles ++ [.gate (some n)]) m
            ⟨b' ++ [last'], (drain (roles ++ [.gate (some n)]) (b ++ [last]) s).shared⟩ := by
      rw [← hstocks]
      rfl
    generalize drain (roles ++ [.gate (some n)]) (b ++ [last]) s = r at *
    have houtputs : (drain roles b s).outputs = r.outputs ++ (drain roles b' r.shared).outputs :=
      congrArg Outcome.outputs hall
    rw [hdrains, houtputs]
    rw [houtputs] at hnone
    -- either the gate ended the evaluation and counts anew, or nothing is left
    obtain ⟨-, hfull, hpassed⟩ | ⟨hless, hpassed, hsame, -⟩ := hends
    · have hcount : r.outputs.length = n := by
        obtain hzero | hempty := hnone
        · omega
        · rw [(List.append_eq_nil_iff.mp hempty).1] at hfull
          exact absurd hfull (Nat.ne_of_lt hlast)
      rw [chunks_append (.inl hcount), ih hb' (by omega) (.inl hpassed)]
    · have hnone' : (drain roles b' r.shared).outputs = [] := by
        rw [houtputs] at hsame
        exact List.append_cancel_left (hsame.symm.trans (List.append_nil _).symm)
      rw [chunks_append (.inr ⟨by omega, hnone'⟩), ih hb' (by omega) (.inr hnone')]

end GraphWalk.Line
