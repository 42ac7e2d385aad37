import GraphWalk.Proofs.Line.Drain

/-!
# A run drains the line

`run_drain`: from whatever stocks a run starts, it ends, its results are the outputs of `drain`,
and it leaves behind what `drain` leaves. The proof follows the recursion of `send` and `drain`:
each of their calls is a stretch of questions after which the machine is back at the step where
it was.
-/

namespace GraphWalk.Line

open Machine (Leads State.react State.advance)

variable {W σ : Type} {roles left right : List (Role W σ)} {role : Role W σ}
  {a b stocks : List (Stock W)} {stock stock' : Stock W} {s s' : σ} {out : List W} {p : Nat}

abbrev standing (p : Nat) (finished : Option Nat) (carried : Option W) (out : List W)
    (l : Line W σ) : Machine.State W (Line W σ) :=
  ⟨p, finished, carried, out, l, []⟩

abbrev resting (p : Nat) (out : List W) (l : Line W σ) : Machine.State W (Line W σ) :=
  standing p none none out l

abbrev finished (roles : List (Role W σ)) (out : List W) (l : Line W σ) :
    Machine.State W (Line W σ) :=
  standing (roles.length - 1) (some (roles.length - 1)) none out l

/-- Where an evaluation at step `p` ends: the run is over, or it comes back to `p`. -/
def settled (roles : List (Role W σ)) (p : Nat) (out : List W) (a : List (Stock W))
    (r : Outcome W σ) : Machine.State W (Line W σ) :=
  if r.stopped then finished roles (r.outputs.reverse ++ out) ⟨a ++ r.stocks, r.shared⟩
  else resting p (r.outputs.reverse ++ out) ⟨a ++ r.stocks, r.shared⟩

abbrev react (roles : List (Role W σ)) (s : Machine.State W (Line W σ)) (reply : Reply W) :
    Machine.State W (Line W σ) :=
  State.react (machine roles) s reply

-- ---------------------------------------------------------------------------
-- One question
-- ---------------------------------------------------------------------------

/-- Step `p` is `role`, between `left` and `right`. -/
structure Splits (roles left : List (Role W σ)) (role : Role W σ) (right : List (Role W σ))
    (p : Nat) : Prop where
  roles : roles = left ++ role :: right
  position : left.length = p

namespace Splits

variable {next : Role W σ}

theorem first (role : Role W σ) (right : List (Role W σ)) :
    Splits (role :: right) [] role right 0 := ⟨rfl, rfl⟩

theorem following (h : Splits roles left role (next :: right) p) :
    Splits roles (left ++ [role]) next right (p + 1) :=
  ⟨by simp [h.roles], by simp [h.position]⟩

theorem last (h : Splits roles left role [] p) : roles.length - 1 = p := by
  simp [h.roles, h.position]

theorem lt (h : Splits roles left role (next :: right) p) : p < roles.length - 1 := by
  simp [h.roles, h.position]

theorem ask (h : Splits roles left role right p) (ha : a.length = p) (input : Option W)
    (stock : Stock W) (s : σ) :
    Line.ask roles p input ⟨a ++ stock :: b, s⟩ = ((role.ask input stock s).1,
      ⟨a ++ (role.ask input stock s).2.1 :: b, (role.ask input stock s).2.2⟩) := by
  simp [Line.ask, h.roles, h.position, ha]

end Splits

theorem leads_ask (h : Splits roles left role right p) (ha : a.length = p) (out : List W)
    (done : Option Nat) (hdone : ∀ d ∈ done, d < p) {carried : Option W}
    {reply : Reply W} (hask : role.ask carried stock s = (reply, stock', s')) :
    Leads (machine roles) (standing p done carried out ⟨a ++ stock :: b, s⟩)
      (react roles (standing p done none out ⟨a ++ stock' :: b, s'⟩) reply) := by
  refine Leads.ask ?_ ((h.ask ha carried stock s).trans (by rw [hask]))
  have hlast : p ≤ roles.length - 1 := by simp [h.roles, h.position]
  cases done with
  | none => rfl
  | some d =>
    have hd := hdone d rfl
    simp [Machine.State.isOver, machine]
    omega

theorem react_pull (l : Line W σ) :
    react roles (resting (p + 1) out l) .pull = resting p out l := by
  simp [State.react, Machine.State.canPull]

/-- A pull beside a finished step is answered as if the puller were done. -/
theorem react_pull_finished (l : Line W σ) :
    react roles (standing (p + 1) (some p) none out l) .pull =
      react roles (resting (p + 1) out l) .done := by
  simp [State.react, Machine.State.canPull]

-- ---------------------------------------------------------------------------
-- The end of a run
-- ---------------------------------------------------------------------------

/-- Once a step is done, all steps to its right find nothing to pull from and finish. -/
theorem leads_finished (h : Splits roles left role right p) (ha : a.length = p)
    (hb : Quiet right b) :
    Leads (machine roles) (react roles (resting p out ⟨a ++ stock :: b, s⟩) .done)
      (finished roles out ⟨a ++ stock :: b, s⟩) := by
  -- each step to the right pulls and is answered as if it were done itself
  induction hb generalizing left role a stock p with
  | nil =>
    have hend : react roles (resting p out ⟨a ++ [stock], s⟩) .done =
        finished roles out ⟨a ++ [stock], s⟩ := by
      simp [State.react, State.advance, machine, h.last]
    exact hend ▸ Leads.refl _
  | @cons next stock' right b hq _ ih =>
    have hstart : react roles (resting p out ⟨a ++ stock :: stock' :: b, s⟩) .done =
        standing (p + 1) (some p) none out ⟨a ++ stock :: stock' :: b, s⟩ := by
      simp [State.react, State.advance, machine, h.lt]
    have ha' : (a ++ [stock]).length = p + 1 := by simp [ha]
    have hask := leads_ask (b := b) h.following ha' out (some p) (by simp) (hq.ask s)
    have hrest : Leads (machine roles)
        (react roles (resting (p + 1) out ⟨(a ++ [stock]) ++ stock' :: b, s⟩) .done)
        (finished roles out ⟨(a ++ [stock]) ++ stock' :: b, s⟩) := ih h.following ha'
    rw [react_pull_finished] at hask
    simp only [List.append_assoc, List.singleton_append] at hask hrest
    exact hstart ▸ hask.trans hrest

-- ---------------------------------------------------------------------------
-- Walkers carried through
-- ---------------------------------------------------------------------------

/-- What `leads_send` says of a walker offered by step `p`. -/
abbrev SendLeads (roles right : List (Role W σ)) (p : Nat) : Prop :=
  ∀ {a b : List (Stock W)} {s : σ} {out : List W} (stock : Stock W) (w : W), a.length = p →
    Quiet right b →
    Leads (machine roles) (react roles (resting p out ⟨a ++ stock :: b, s⟩) (.walker w))
      (settled roles p out a ((send right w b s).under stock))

/-- Asked without a walker, the step launches the next of its items. -/
abbrev Offers {α : Type} (role : Role W σ) (launch : α → σ → W × σ) (keep : List α → Stock W) :
    Prop :=
  ∀ x rest s, role.ask none (keep (x :: rest)) s =
    (.walker (launch x s).1, keep rest, (launch x s).2)

theorem offers_source (start : Nat → σ → W × σ) (stock : Stock W) :
    Offers (.source start) start stock.await :=
  fun _ _ _ => rfl

theorem offers_relay (follow : List Nat → W → σ → Onward W σ) (drops : Bool) (stock : Stock W) :
    Offers (.relay follow drops) Prod.mk stock.hold :=
  fun _ _ _ => rfl

theorem settled_after (r : Outcome W σ) (outputs : List W) (n : Nat) :
    settled roles p (outputs.reverse ++ out) a r = settled roles p out a (r.after outputs n) := by
  simp [settled]

section
variable {α : Type} {launch : α → σ → W × σ} {keep : List α → Stock W}

theorem settled_pour {onward : W → List (Stock W) → σ → Outcome W σ} {x : α} {rest : List α}
    {r : Outcome W σ} (hr : onward (launch x s).1 b (launch x s).2 = r) :
    settled roles p out a (pour launch keep onward (x :: rest) b s) =
      if r.stopped then settled roles p out a (r.under (keep rest))
      else settled roles p (r.outputs.reverse ++ out) a
        (pour launch keep onward rest r.stocks r.shared) := by
  simp only [pour, hr]
  split
  · rename_i hstopped
    simp [settled, hstopped]
  · simp [settled]

/-- The walkers of one step, carried through one after the other; the first is on its way. -/
theorem leads_pour (h : Splits roles left role right p) (ha : a.length = p)
    (hsend : SendLeads roles right p)
    (hoffer : Offers role launch keep)
    (x : α) (rest : List α) (hb : Quiet right b) :
    Leads (machine roles)
      (react roles (resting p out ⟨a ++ keep rest :: b, (launch x s).2⟩) (.walker (launch x s).1))
      (settled roles p out a (pour launch keep (send right) (x :: rest) b s)) := by
  induction rest generalizing x b s out with
  | nil =>
    refine (hsend (keep []) (launch x s).1 ha hb).trans ?_
    rw [settled_pour rfl]
    split
    · exact Leads.refl _
    · rename_i hstopped
      simp only [settled, Outcome.under, hstopped, pour]
      exact Leads.refl _
  | cons y rest ih =>
    refine (hsend (keep (y :: rest)) (launch x s).1 ha hb).trans ?_
    rw [settled_pour rfl]
    split
    · exact Leads.refl _
    · rename_i hstopped
      simp only [settled, Outcome.under, hstopped]
      exact (leads_ask h ha _ none (by simp) (hoffer y rest _)).trans
        (ih y (send_quiet hb (by simpa using hstopped)))

theorem leads_empty (out : List W) (h : Splits roles left role right p) (ha : a.length = p)
    (hsend : SendLeads roles right p)
    (hoffer : Offers role launch keep)
    (items : List α) (hb : Quiet right b) :
    Leads (machine roles) (resting p out ⟨a ++ keep items :: b, s⟩)
      (settled roles p out a (pour launch keep (send right) items b s)) := by
  cases items with
  | nil => exact Leads.refl _
  | cons x rest =>
    exact (leads_ask h ha _ none (by simp) (hoffer x rest s)).trans
      (leads_pour h ha hsend hoffer x rest hb)

end

/-- After an evaluation at step `p` that came to rest, the step pulls. -/
def pulled (roles : List (Role W σ)) (p : Nat) (out : List W) (a : List (Stock W))
    (r : Outcome W σ) : Machine.State W (Line W σ) :=
  if r.stopped then finished roles (r.outputs.reverse ++ out) ⟨a ++ r.stocks, r.shared⟩
  else react roles (resting p (r.outputs.reverse ++ out) ⟨a ++ r.stocks, r.shared⟩) .pull

theorem pulled_succ (r : Outcome W σ) :
    pulled roles (p + 1) out (a ++ [stock]) r = settled roles p out a (r.under stock) := by
  unfold pulled settled
  split
  · rename_i hstopped
    simp [hstopped]
  · rename_i hstopped
    simp [hstopped, react_pull]

theorem leads_pulled (h : Splits roles left role right p) (ha : a.length = p) (out : List W)
    {r : Outcome W σ}
    (hr : r.stopped = false → ∃ stock rest, r.stocks = stock :: rest ∧ role.Quiet stock) :
    Leads (machine roles) (settled roles p out a r) (pulled roles p out a r) := by
  unfold settled pulled
  split
  · exact Leads.refl _
  · rename_i hstopped
    obtain ⟨stock, rest, hstocks, hq⟩ := hr (by simpa using hstopped)
    rw [hstocks]
    exact leads_ask h ha _ none (by simp) (hq.ask _)

theorem leads_gated {limit : Option Nat} (h : Splits roles left (.gate limit) right p)
    (ha : a.length = p) {r : Outcome W σ} (hr : r.stopped = false → Quiet right r.stocks) :
    Leads (machine roles) (settled roles p out a (r.under stock))
      (pulled roles p out a (r.gated limit stock)) := by
  cases hstopped : r.stopped with
  | true =>
    simp only [settled, pulled, Outcome.gated, Outcome.under, hstopped, if_true]
    exact Leads.refl _
  | false =>
    cases hfull : Role.isFull limit stock.passed with
    | true =>
      have hask : (Role.gate limit : Role W σ).ask none stock r.shared =
          (.done, { stock with passed := 0 }, r.shared) := by simp [Role.ask, hfull]
      have hdone := (leads_ask (b := r.stocks) h ha (r.outputs.reverse ++ out) none (by simp)
        hask).trans (leads_finished h ha (hr hstopped))
      simpa [settled, pulled, Outcome.gated, Outcome.under, Outcome.ended, hstopped, hfull]
        using hdone
    | false =>
      have hgated : r.gated limit stock = r.under stock := by
        simp [Outcome.gated, hstopped, hfull]
      rw [hgated]
      exact leads_pulled h ha _ fun _ => ⟨stock, r.stocks, rfl, hfull⟩

theorem leads_nothing (h : Splits roles left role right p) (ha : a.length = p)
    (hb : Quiet right b) :
    Leads (machine roles) (react roles (resting p out ⟨a ++ stock :: b, s⟩) .nothing)
      (resting p out ⟨a ++ stock :: b, s⟩) := by
  cases hb with
  | nil =>
    have hend : react roles (resting p out ⟨a ++ [stock], s⟩) .nothing =
        resting p out ⟨a ++ [stock], s⟩ := by
      simp [State.react, State.advance, machine, h.last]
    rw [hend]
    exact Leads.refl _
  | @cons next stock' right b hq _ =>
    have hstart : react roles (resting p out ⟨a ++ stock :: stock' :: b, s⟩) .nothing =
        resting (p + 1) out ⟨a ++ stock :: stock' :: b, s⟩ := by
      simp [State.react, State.advance, machine, h.lt]
    have hask := leads_ask (a := a ++ [stock]) (b := b) h.following (by simp [ha]) out none
      (by simp) (hq.ask s)
    rw [react_pull] at hask
    simp only [List.append_assoc, List.singleton_append] at hask
    exact hstart ▸ hask

theorem leads_relay {follow : List Nat → W → σ → Onward W σ} {drops : Bool}
    (h : Splits roles left (.relay follow drops) right p) (ha : a.length = p)
    (hsend : SendLeads roles right p) (hp : stock.pending = []) (w : W) (hb : Quiet right b) :
    Leads (machine roles) (standing p none (some w) out ⟨a ++ stock :: b, s⟩)
      (pulled roles p out a (send (.relay follow drops :: right) w (stock :: b) s)) := by
  have hpulled := leads_pulled h ha out
    (r := send (.relay follow drops :: right) w (stock :: b) s) fun hstopped => by
      obtain ⟨rest, hstocks, -⟩ := pour_quiet send_quiet hb hstopped
      exact ⟨_, rest, hstocks, rfl⟩
  cases hws : (follow stock.seen w s).walkers with
  | nil =>
    have hask : (Role.relay follow drops).ask (some w) stock s =
        (if drops then .nothing else .pull,
          (stock.remember (follow stock.seen w s).seen).hold [],
          (follow stock.seen w s).shared) := by
      simp [Role.ask, Stock.hold, Stock.remember, hp, hws]
    refine (leads_ask h ha _ none (by simp) hask).trans ?_
    cases drops with
    | true =>
      refine (leads_nothing h ha hb).trans (Leads.trans ?_ hpulled)
      rw [send_relay, hws]
      exact Leads.refl _
    | false =>
      rw [send_relay, hws]
      exact Leads.refl _
  | cons x rest =>
    have hask : (Role.relay follow drops).ask (some w) stock s =
        (.walker x, (stock.remember (follow stock.seen w s).seen).hold rest,
          (follow stock.seen w s).shared) := by
      simp [Role.ask, hp, hws]
    refine (leads_ask h ha _ none (by simp) hask).trans (Leads.trans ?_ hpulled)
    rw [send_relay, hws]
    exact leads_pour h ha hsend (offers_relay follow drops _) x rest hb

/-- The machine carries a walker through the steps to its right as `send` does. -/
theorem leads_send (h : Splits roles left role right p) : SendLeads roles right p := by
  induction right generalizing left role p with
  | nil =>
    intro a b s out stock w ha hb
    cases hb
    have hend : react roles (resting p out ⟨a ++ [stock], s⟩) (.walker w) =
        resting p (w :: out) ⟨a ++ [stock], s⟩ := by
      simp [State.react, State.advance, machine, h.last]
    exact hend ▸ Leads.refl _
  | cons next right ih =>
    intro a b s out stock w ha hb
    cases hb with
    | @cons _ stock' _ b hq hqs =>
    have ha' : (a ++ [stock]).length = p + 1 := by simp [ha]
    have hstart : react roles (resting p out ⟨a ++ stock :: stock' :: b, s⟩) (.walker w) =
        standing (p + 1) none (some w) out ⟨(a ++ [stock]) ++ stock' :: b, s⟩ := by
      simp [State.react, State.advance, machine, h.lt]
    -- the next step takes the walker, and pulls once it has come to rest
    rw [hstart, ← pulled_succ]
    cases next with
    | source start => exact hq.elim
    | gate limit =>
      have hfull : Role.isFull limit stock'.passed = false := hq
      have hask : (Role.gate limit : Role W σ).ask (some w) stock' s =
          (.walker w, { stock' with passed := stock'.passed + 1 }, s) := by
        simp [Role.ask, hfull]
      refine (leads_ask h.following ha' _ none (by simp) hask).trans ?_
      refine (ih h.following _ w ha' hqs).trans ?_
      exact leads_gated h.following ha' (send_quiet hqs)
    | relay follow drops => exact leads_relay h.following ha' (ih h.following) hq w hqs

-- ---------------------------------------------------------------------------
-- Whole runs
-- ---------------------------------------------------------------------------

theorem leads_exhausted {start : Nat → σ → W × σ} {vertices : List Nat} {outputs : List W}
    {n : Nat} (h : Splits roles left (.source start) right p) (ha : a.length = p)
    (hb : Quiet right b) :
    Leads (machine roles)
      (settled roles p out a
        ((pour start stock.await (send right) vertices b s).after outputs n))
      (pulled roles p out a
        ((pour start stock.await (send right) vertices b s).after outputs n).ended) := by
  cases hstopped : (pour start stock.await (send right) vertices b s).stopped with
  | true =>
    simp only [settled, pulled, Outcome.after, Outcome.ended, hstopped, if_true]
    exact Leads.refl _
  | false =>
    obtain ⟨rest, hstocks, hrest⟩ := pour_quiet send_quiet hb hstopped
    simp only [settled, pulled, Outcome.after, Outcome.ended, hstopped, if_true, hstocks]
    exact (leads_ask h ha _ none (by simp) rfl).trans (leads_finished h ha hrest)

theorem leads_step (h : Splits roles left role right p) (ha : a.length = p) :
    Leads (machine roles) (settled roles p out a ((drain right b s).under stock))
      (pulled roles p out a (drain (role :: right) (stock :: b) s)) := by
  cases hstopped : (drain right b s).stopped with
  | true =>
    rw [drain_under hstopped]
    simp only [settled, pulled, Outcome.under, hstopped, if_true]
    exact Leads.refl _
  | false =>
    have hq := drain_quiet_stocks hstopped
    cases role with
    | gate limit => exact leads_gated h ha fun _ => hq
    | source start =>
      rw [drain_source hstopped]
      have hempty := leads_empty (s := (drain right b s).shared)
        ((drain right b s).outputs.reverse ++ out) h ha (leads_send h)
        (offers_source start stock) stock.waiting hq
      rw [settled_after] at hempty
      simp only [settled, Outcome.under, hstopped]
      refine hempty.trans ?_
      exact leads_exhausted h ha hq
    | relay follow drops =>
      rw [drain_relay hstopped]
      have hempty := leads_empty (s := (drain right b s).shared)
        ((drain right b s).outputs.reverse ++ out) h ha (leads_send h)
        (offers_relay follow drops stock) stock.pending hq
      rw [settled_after] at hempty
      simp only [settled, Outcome.under, hstopped]
      refine hempty.trans (leads_pulled h ha _ fun hpour => ?_)
      obtain ⟨rest, hstocks, -⟩ := pour_quiet send_quiet hq hpour
      exact ⟨_, rest, hstocks, rfl⟩

/-- Starting from the right end, the machine empties the steps as `drain` does. -/
theorem leads_drain (h : Splits roles left role right p) (ha : a.length = p)
    (hb : b.length = right.length) :
    Leads (machine roles) (resting (roles.length - 1) out ⟨a ++ stock :: b, s⟩)
      (pulled roles p out a (drain (role :: right) (stock :: b) s)) := by
  -- on the steps to the right, which are emptied before this one
  induction right generalizing left role p a stock b with
  | nil =>
    obtain rfl : b = [] := List.length_eq_zero_iff.mp hb
    rw [h.last]
    exact leads_step h ha
  | cons next right ih =>
    cases b with
    | nil => simp at hb
    | cons stock' b =>
    have hright : Leads (machine roles)
        (resting (roles.length - 1) out ⟨(a ++ [stock]) ++ stock' :: b, s⟩)
        (pulled roles (p + 1) out (a ++ [stock]) (drain (next :: right) (stock' :: b) s)) :=
      ih h.following (by simp [ha]) (by simpa using hb)
    rw [pulled_succ, List.append_assoc, List.singleton_append] at hright
    exact hright.trans (leads_step h ha)

theorem leads_end {r : Outcome W σ} (hr : r.stopped = false → Quiet (role :: right) r.stocks) :
    Leads (machine (role :: right)) (pulled (role :: right) 0 [] [] r)
      (finished (role :: right) r.outputs.reverse r.line) := by
  unfold pulled
  split
  · simpa [Outcome.line] using Leads.refl _
  · rename_i hstopped
    have hdone : react (role :: right) (resting 0 (r.outputs.reverse ++ []) r.line) .pull =
        react (role :: right) (resting 0 r.outputs.reverse r.line) .done := by
      simp [State.react, Machine.State.canPull]
    rw [List.nil_append]
    refine hdone ▸ ?_
    obtain ⟨outputs, n, stocks, shared, stopped⟩ := r
    cases hr (by simpa using hstopped) with
    | cons _ hrest => exact leads_finished (a := []) (Splits.first role right) rfl hrest

/-- Every run ends, with the outputs of `drain` as its results and the line that `drain` leaves. -/
theorem run_drain (hlen : stocks.length = roles.length) (s : σ) :
    ∃ bound, Line.run roles bound ⟨stocks, s⟩ =
      some ((drain roles stocks s).outputs, (drain roles stocks s).line) := by
  cases roles with
  | nil => exact ⟨0, by rw [List.length_eq_zero_iff.mp hlen]; rfl⟩
  | cons role right =>
    cases stocks with
    | nil => simp at hlen
    | cons stock b =>
    have hdrain : Leads (machine (role :: right)) (resting right.length [] ⟨stock :: b, s⟩)
        (pulled (role :: right) 0 [] [] (drain (role :: right) (stock :: b) s)) :=
      leads_drain (a := []) (Splits.first role right) rfl (by simpa using hlen)
    obtain ⟨bound, history, hrun⟩ := (hdrain.trans (leads_end drain_quiet_stocks)).run
      (by simp [Machine.State.isOver, machine])
    have hstart : (machine (role :: right)).run bound ⟨stock :: b, s⟩ = _ := hrun
    refine ⟨bound, ?_⟩
    simp only [Line.run, List.isEmpty_cons, Bool.false_eq_true, if_false, hstart, Option.map_some,
      List.reverse_reverse]

end GraphWalk.Line
