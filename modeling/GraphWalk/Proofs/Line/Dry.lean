import GraphWalk.Proofs.Line.Resume
import GraphWalk.Proofs.Machine.Orderly

/-!
# Lines that have run dry

A line is dry when its steps would all pull, or those after a source that has started all its
walkers. It lets nothing out and stays as it is (`drain_dry`). A run that lets nothing out leaves a
dry line, unless a gate before its end was done: `dry_of_over`.
-/

namespace GraphWalk

variable {W σ : Type}

namespace Role

variable {role : Role W σ} {input : Option W} {stock : Stock W} {s : σ}

theorem quiet_of_pull (h : (role.ask input stock s).1 = .pull) :
    role.Quiet (role.ask input stock s).2.1 := by
  cases role with
  | source start =>
    simp only [ask] at h
    split at h <;> cases h
  | gate limit =>
    cases hfull : isFull limit stock.passed with
    | true =>
      simp only [ask, hfull, if_true] at h
      cases h
    | false =>
      cases input with
      | none => simp [ask, hfull, Quiet]
      | some w =>
        simp only [ask, hfull] at h
        cases h
  | relay follow drops =>
    obtain ⟨waiting, pending, seen, passed⟩ := stock
    cases pending with
    | cons w rest => cases h
    | nil =>
      cases input with
      | none => rfl
      | some w =>
        simp only [ask] at h ⊢
        split at h
        · rfl
        · cases h

theorem waiting_of_done {start : Nat → σ → W × σ}
    (h : ((source start).ask input stock s).1 = .done) :
    ((source start).ask input stock s).2.1.waiting = [] := by
  cases hwaiting : stock.waiting with
  | nil => simp [ask, hwaiting]
  | cons v rest =>
    simp only [ask, hwaiting] at h
    cases h

theorem relay_not_done {follow : List Nat → W → σ → Onward W σ} {drops : Bool} :
    ((relay follow drops).ask input stock s).1 ≠ .done := by
  intro h
  obtain ⟨waiting, pending, seen, passed⟩ := stock
  cases pending with
  | cons w rest => cases h
  | nil =>
    cases input with
    | none => cases h
    | some w =>
      simp only [ask] at h
      split at h
      · split at h <;> cases h
      · cases h

theorem passed_of_done {limit : Option Nat}
    (h : ((gate limit : Role W σ).ask input stock s).1 = .done) :
    ((gate limit : Role W σ).ask input stock s).2.1.passed = 0 := by
  cases hfull : isFull limit stock.passed with
  | true => simp [ask, hfull]
  | false =>
    cases input with
    | none =>
      simp only [ask, hfull] at h
      cases h
    | some w =>
      simp only [ask, hfull] at h
      cases h

/-- A gate that is not full; any step that is no gate. -/
def Open : Role W σ → Stock W → Prop
  | gate limit, stock => isFull limit stock.passed = false
  | _, _ => True

theorem Quiet.open (h : role.Quiet stock) : role.Open stock := by
  cases role with
  | gate limit => exact h
  | _ => trivial

theorem open_of_passed (hlimit : role ≠ .gate (some 0)) (h : stock.passed = 0) :
    role.Open stock := by
  cases role with
  | gate limit =>
    cases limit with
    | none => rfl
    | some n =>
      have hn : n ≠ 0 := fun hn => hlimit (hn ▸ rfl)
      simpa [Open, isFull, h] using hn
  | _ => trivial

/-- A step that is finished, since it is done or pulls in vain, is open again. -/
theorem open_of_ask (hlimit : role ≠ .gate (some 0))
    (h : (role.ask input stock s).1 = .done ∨ (role.ask input stock s).1 = .pull) :
    role.Open (role.ask input stock s).2.1 := by
  obtain hdone | hpull := h
  · cases role with
    | gate limit => exact open_of_passed hlimit (passed_of_done hdone)
    | _ => trivial
  · exact (quiet_of_pull hpull).open

theorem Open.not_done (hgate : role.isGate = true) (h : role.Open stock) :
    (role.ask input stock s).1 ≠ .done := by
  cases role with
  | gate limit =>
    have hfull : isFull limit stock.passed = false := h
    cases input <;> simp [ask, hfull]
  | _ => cases hgate

/-- An open gate stays open while it lets no walker pass. -/
theorem Open.ask (h : role.Open stock) (hreply : (role.ask input stock s).1.walker? = none) :
    role.Open (role.ask input stock s).2.1 := by
  cases role with
  | gate limit =>
    have hfull : isFull limit stock.passed = false := h
    cases input with
    | none => simp [Role.ask, hfull, Open]
    | some w =>
      simp only [Role.ask, hfull] at hreply
      cases hreply
  | _ => trivial

end Role

namespace Line

variable {roles : List (Role W σ)} {role : Role W σ} {stocks : List (Stock W)} {stock : Stock W}

/-- Nothing is left: all steps would pull, or those after a source with no walker to start. -/
inductive Dry : List (Role W σ) → List (Stock W) → Prop
  | quiet {roles : List (Role W σ)} {stocks : List (Stock W)} (h : Quiet roles stocks) :
    Dry roles stocks
  | source {left right : List (Role W σ)} {a b : List (Stock W)} {stock : Stock W}
    (start : Nat → σ → W × σ) (hleft : a.length = left.length) (hwaiting : stock.waiting = [])
    (h : Quiet right b) : Dry (left ++ .source start :: right) (a ++ stock :: b)

theorem Dry.snoc (h : Dry roles stocks) (hstock : role.Quiet stock) :
    Dry (roles ++ [role]) (stocks ++ [stock]) := by
  cases h with
  | quiet h => exact .quiet (List.rel_append h (.cons hstock .nil))
  | source start hleft hwaiting h =>
    rw [List.append_assoc, List.append_assoc]
    exact .source start hleft hwaiting (List.rel_append h (.cons hstock .nil))

/-- A source that is done leaves a dry line, whatever stands to its left. -/
theorem Dry.of_done {input : Option W} {s : σ} (hlength : stocks.length = roles.length)
    (hgate : role.isGate = true → role.Open stock) (h : (role.ask input stock s).1 = .done) :
    Dry (roles ++ [role]) (stocks ++ [(role.ask input stock s).2.1]) := by
  cases role with
  | source start => exact .source start hlength (Role.waiting_of_done h) .nil
  | gate limit => exact absurd h (Role.Open.not_done rfl (hgate rfl))
  | relay follow drops => exact absurd h Role.relay_not_done

/-- A dry line lets nothing out and stays as it is. -/
theorem drain_dry (h : Dry roles stocks) (s : σ) :
    ∃ stopped, drain roles stocks s = ⟨[], 0, stocks, s, stopped⟩ := by
  cases h with
  | quiet h => exact ⟨false, drain_quiet h s⟩
  | @source left right a b stock start hleft hwaiting h =>
    refine ⟨true, ?_⟩
    induction left generalizing a with
    | nil =>
      obtain rfl : a = [] := List.length_eq_zero_iff.mp hleft
      have hright := drain_quiet h s
      obtain ⟨waiting, pending, seen, passed⟩ := stock
      obtain rfl : waiting = [] := hwaiting
      rw [List.nil_append, List.nil_append, drain_source (by rw [hright]), hright]
      rfl
    | cons role left ih =>
      obtain ⟨stock', a, rfl⟩ := List.exists_cons_of_length_eq_add_one hleft
      have hrest := ih (Nat.succ.inj hleft)
      rw [List.cons_append, List.cons_append, drain_under (by rw [hrest]), hrest]
      rfl

theorem drains_dry {l : Line W σ} (h : Dry roles l.stocks) (m : Nat) :
    ∀ outputs ∈ drains roles m l, outputs = [] := by
  induction m with
  | zero => nofun
  | succ m ih =>
    obtain ⟨stopped, hdrain⟩ := drain_dry h l.shared
    simp only [drains, hdrain, List.forall_mem_cons, true_and]
    exact ih

end Line

namespace Machine

variable {m : Machine W σ} {s : State W σ}

/-- A step is finished by its own answer: it is done, or it pulls and all before it is finished. -/
theorem next_finished (hwithin : s.position ≤ m.last) :
    (m.next s).finished = s.finished ∨ (m.next s).finished = some s.position ∧
      ((s.exchange m).reply = .done ∨ (s.exchange m).reply = .pull ∧ s.canPull = false) := by
  unfold next State.exchange
  generalize m.ask s.position s.carried s.world = answer
  obtain ⟨reply, world⟩ := answer
  cases reply with
  | pull =>
    simp only [State.react]
    split
    next => exact .inl rfl
    next hcan =>
      have hcannot : s.canPull = false := Bool.eq_false_iff.mpr hcan
      exact .inr ⟨by simp [advance_eq, hwithin], .inr ⟨trivial, hcannot⟩⟩
  | _ => simp [State.react, advance_eq, hwithin]

/-- A step that pulls in vain is the first, or comes right after those that are finished. -/
theorem Orderly.finished_before (h : Orderly m s) (hover : s.isOver m = false)
    (hcannot : s.canPull = false) {p : Nat} (hposition : s.position = p + 1) :
    s.finished = some p := by
  cases hfinished : s.finished with
  | none => simp [State.canPull, hposition, hfinished] at hcannot
  | some d =>
    have hbehind := h.behind hover d hfinished
    have hreaches : p ≤ d := by simpa [State.canPull, hposition, hfinished] using hcannot
    exact congrArg some (by omega)

end Machine

-- ---------------------------------------------------------------------------
-- Runs that let nothing out
-- ---------------------------------------------------------------------------

namespace Line

open Machine (Orderly Reaches)

variable {roles : List (Role W σ)} {l : Line W σ} {s : Machine.State W (Line W σ)}

/-- The last step is not a gate that is full. -/
def Ready (roles : List (Role W σ)) (stocks : List (Stock W)) : Prop :=
  ∀ role ∈ roles[roles.length - 1]?, ∀ stock ∈ stocks[roles.length - 1]?, role.Open stock

/-- No gate before the end was done. -/
def Uncut (roles : List (Role W σ)) (history : List (Exchange W)) : Prop :=
  ∀ e ∈ history, e.reply = .done → ∀ role ∈ roles[e.step]?, role.isGate = true →
    e.step + 1 = roles.length

/-- What a run keeps that lets nothing out and is not cut off. -/
structure Idle (roles : List (Role W σ)) (s : Machine.State W (Line W σ)) : Prop where
  dry : ∀ d ∈ s.finished, Dry (roles.take (d + 1)) (s.world.stocks.take (d + 1))
  ready : Ready roles s.world.stocks

/-- A question to one step, and what it leaves in the stocks. -/
theorem next_asks (hposition : s.position < roles.length)
    (hlength : s.world.stocks.length = roles.length) :
    ∃ role stock, roles[s.position]? = some role ∧ s.world.stocks[s.position]? = some stock ∧
      (s.exchange (machine roles)).reply = (role.ask s.carried stock s.world.shared).1 ∧
      ((machine roles).next s).world.stocks =
        s.world.stocks.set s.position (role.ask s.carried stock s.world.shared).2.1 := by
  have hrole := List.getElem?_eq_getElem hposition
  have hstock := List.getElem?_eq_getElem (hlength.symm ▸ hposition)
  refine ⟨_, _, hrole, hstock, ?_, ?_⟩
  · simp only [Machine.State.exchange, machine, Line.ask, hrole, hstock]
  · rw [Machine.next_world]
    simp only [machine, Line.ask, hrole, hstock]

theorem length_reaches (h : (machine roles).Reaches ((machine roles).start l) s) :
    s.world.stocks.length = l.stocks.length := by
  induction h with
  | refl => rfl
  | @next t _ _ ih =>
    rw [Machine.next_world, ← ih]
    simp only [machine, Line.ask]
    split
    · exact List.length_set
    · rfl

theorem take_snoc {α : Type} {as : List α} {i : Nat} {a : α} (h : as[i]? = some a) :
    as.take (i + 1) = as.take i ++ [a] := by
  rw [List.take_add_one, h]
  rfl

theorem Idle.next (h : Idle roles s) (hs : Orderly (machine roles) s)
    (hposition : s.position < roles.length) (hlength : s.world.stocks.length = roles.length)
    (hover : s.isOver (machine roles) = false)
    (hcut : Uncut roles ((machine roles).next s).history)
    (hresults : ((machine roles).next s).results = []) : Idle roles ((machine roles).next s) := by
  obtain ⟨role, stock, hrole, hstock, hreply, hstocks⟩ := next_asks hposition hlength
  obtain ⟨hhistory, -, hoffered⟩ := Machine.next_offer hs.within
  have hkept : ∀ d ≤ s.position,
      ((machine roles).next s).world.stocks.take d = s.world.stocks.take d := by
    intro d hd
    rw [hstocks, List.take_set_of_le hd]
  have hself : ((machine roles).next s).world.stocks[s.position]? =
      some (role.ask s.carried stock s.world.shared).2.1 := by
    rw [hstocks, List.getElem?_set_self (hlength ▸ hposition)]
  refine ⟨fun d hd => ?_, ?_⟩
  · obtain hsame | ⟨hfinished, hend⟩ := Machine.next_finished hs.within
    · rw [hsame] at hd
      rw [hkept _ (hs.behind hover d hd)]
      exact h.dry d hd
    · obtain rfl : s.position = d := by simpa [hfinished] using hd
      rw [take_snoc hrole, take_snoc hself, hkept _ (Nat.le_refl _)]
      rw [hreply] at hend
      obtain hdone | ⟨hpull, hcannot⟩ := hend
      · refine Dry.of_done (by simp [hlength]) (fun hgate => ?_) hdone
        -- only the gate at the end may be done, and it is open while nothing was let out
        have hlast : s.position + 1 = roles.length :=
          hcut _ (hhistory ▸ List.mem_cons_self) (hreply.trans hdone) role hrole hgate
        have hlast' : roles.length - 1 = s.position := by omega
        exact h.ready role (hlast' ▸ hrole) stock (hlast' ▸ hstock)
      · refine Dry.snoc ?_ (Role.quiet_of_pull hpull)
        cases hpos : s.position with
        | zero => exact .quiet .nil
        | succ p => exact h.dry p (hs.finished_before hover hcannot hpos)
  · intro role' hrole' stock' hstock'
    rw [hoffered, List.append_eq_nil_iff] at hresults
    by_cases hlast : s.position = roles.length - 1
    · rw [← hlast] at hrole' hstock'
      obtain rfl : role = role' := Option.some.inj (hrole.symm.trans hrole')
      obtain rfl := Option.some.inj (hself.symm.trans hstock')
      refine (h.ready role (hlast ▸ hrole) stock (hlast ▸ hstock)).ask ?_
      rw [← hreply]
      have hnone := hresults.1
      simpa [Machine.State.exchange, Exchange.result?, machine, hlast] using hnone
    · rw [hstocks, List.getElem?_set_ne hlast] at hstock'
      exact h.ready role' hrole' stock' hstock'

theorem position_lt (hs : Orderly (machine roles) s) (hne : roles ≠ []) :
    s.position < roles.length := by
  have hwithin : s.position ≤ roles.length - 1 := hs.within
  have hpos := List.length_pos_iff.mpr hne
  omega

theorem idle_of_reaches (hne : roles ≠ []) (hlength : l.stocks.length = roles.length)
    (hready : Ready roles l.stocks) (h : (machine roles).Reaches ((machine roles).start l) s)
    (hresults : s.results = []) (hcut : Uncut roles s.history) : Idle roles s := by
  induction h with
  | refl => exact ⟨nofun, hready⟩
  | @next t hreach hover ih =>
    have ht := hreach.orderly
    obtain ⟨hhistory, -, hoffered⟩ := Machine.next_offer ht.within
    have hbefore : t.results = [] := by
      rw [hoffered, List.append_eq_nil_iff] at hresults
      exact hresults.2
    have hidle : Idle roles t := by
      apply ih hbefore
      intro e he
      exact hcut e (hhistory ▸ List.mem_cons_of_mem _ he)
    exact hidle.next ht (position_lt ht hne) ((length_reaches hreach).trans hlength) hover hcut
      hresults

/-- A run that lets nothing out, and in which no gate before the end was done, leaves a dry
line. -/
theorem dry_of_over (hne : roles ≠ []) (hlength : l.stocks.length = roles.length)
    (hready : Ready roles l.stocks) (h : (machine roles).Reaches ((machine roles).start l) s)
    (hover : s.isOver (machine roles) = true) (hresults : s.results = [])
    (hcut : Uncut roles s.history) : Dry roles s.world.stocks := by
  have hidle := idle_of_reaches hne hlength hready h hresults hcut
  have hfinished : s.finished = some (roles.length - 1) := by
    simpa [Machine.State.isOver, machine] using hover
  have hpos := List.length_pos_iff.mpr hne
  have hstocks := (length_reaches h).trans hlength
  have hdry := hidle.dry _ hfinished
  rwa [Nat.sub_add_cancel hpos, List.take_length, ← hstocks, List.take_length] at hdry

/-- Every run leaves its last step ready. -/
theorem ready_of_over (hne : roles ≠ []) (hlength : l.stocks.length = roles.length)
    (hlimits : .gate (some 0) ∉ roles)
    (h : (machine roles).Reaches ((machine roles).start l) s)
    (hover : s.isOver (machine roles) = true) : Ready roles s.world.stocks := by
  cases h with
  | refl => cases hover
  | @next t hreach hgoing =>
    have ht := hreach.orderly
    have hposition := position_lt ht hne
    obtain ⟨role, stock, hrole, -, hreply, hstocks⟩ :=
      next_asks hposition ((length_reaches hreach).trans hlength)
    obtain hsame | ⟨hfinished, hend⟩ := Machine.next_finished ht.within
    · rw [Machine.State.isOver, hsame] at hover
      exact absurd (hgoing.symm.trans hover) (by simp)
    · rw [Machine.State.isOver, hfinished] at hover
      have hlast : t.position = roles.length - 1 := by simpa [machine] using hover
      intro role' hrole' stock' hstock'
      rw [← hlast] at hrole' hstock'
      rw [hstocks, List.getElem?_set_self (by rwa [length_reaches hreach, hlength])] at hstock'
      obtain rfl : role = role' := Option.some.inj (hrole.symm.trans hrole')
      obtain rfl := Option.some.inj hstock'
      rw [hreply] at hend
      refine Role.open_of_ask ?_ (hend.imp id And.left)
      rintro rfl
      exact hlimits (List.mem_of_getElem? hrole)

end Line

end GraphWalk
