import GraphWalk.Proofs.Machine
import Mathlib.Data.List.Chain

/-!
# The order of a run

What holds in every state of a run, whatever the steps answer and whatever they keep: `Orderly`,
from `Orderly.next` for one question by induction. Finished steps stay behind the machine, those
in front of it have pulled, and a walker is handed on at once, to a step that asked for it.
-/

namespace GraphWalk

variable {W σ : Type}

/-- The walker that is offered. -/
def Reply.walker? : Reply W → Option W
  | walker w => some w
  | _ => none

namespace Exchange

/-- What the next question hands to the step to the right. -/
def handed? (last : Nat) (e : Exchange W) : Option W :=
  if e.step < last then e.reply.walker? else none

/-- What becomes a result. -/
def result? (last : Nat) (e : Exchange W) : Option W :=
  if e.step = last then e.reply.walker? else none

/-- The latest answer of a step in a history, which has the newest exchange first. -/
def latest (step : Nat) (history : List (Exchange W)) : Option (Reply W) :=
  (history.find? (·.step = step)).map (·.reply)

@[simp] theorem latest_cons (step : Nat) (e : Exchange W) (history : List (Exchange W)) :
    latest step (e :: history) = if e.step = step then some e.reply else latest step history := by
  by_cases h : e.step = step <;> simp [latest, h]

end Exchange

namespace Machine

open Exchange (latest)

variable {m : Machine W σ} {s t : State W σ}

/-- States that questions lead to while the run is not over. -/
inductive Reaches (m : Machine W σ) (s : State W σ) : State W σ → Prop
  | refl : Reaches m s s
  | next {t : State W σ} (h : Reaches m s t) (hover : t.isOver m = false) : Reaches m s (m.next t)

/-- What every state of a run keeps. -/
structure Orderly (m : Machine W σ) (s : State W σ) : Prop where
  within : s.position ≤ m.last
  behind : s.isOver m = false → ∀ d ∈ s.finished, d < s.position
  pulled : ∀ i, s.position < i → i ≤ m.last → latest i s.history = some .pull
  /-- The machine carries what the latest answer hands on, to the step that it stands at. -/
  carried : s.carried = s.history.head?.bind (Exchange.handed? m.last)
  arrived : ∀ e ∈ s.history.head?, (e.handed? m.last).isSome → s.position = e.step + 1
  awaited : s.carried.isSome → latest s.position s.history = some .pull
  /-- Every question hands on what the answer before it offered, one step to the right. -/
  handed : s.history.IsChain fun e before => e.input = before.handed? m.last ∧
    ((before.handed? m.last).isSome → e.step = before.step + 1)
  results : s.results = s.history.filterMap (Exchange.result? m.last)
  /-- A step that is handed a walker pulled when it was last asked. -/
  received : ∀ e earlier, e :: earlier <:+ s.history → e.input.isSome →
    latest e.step earlier = some .pull

/-- What later states of a run keep of an earlier one. -/
structure Later (s t : State W σ) : Prop where
  finished : ∀ d ∈ s.finished, ∃ d' ∈ t.finished, d ≤ d'
  /-- No step up to a finished one has been asked again. -/
  asked : ∃ asked, t.history = asked ++ s.history ∧ ∀ e ∈ asked, ∀ d ∈ s.finished, d < e.step

theorem Orderly.start (m : Machine W σ) (world : σ) : Orderly m (m.start world) where
  within := Nat.le_refl _
  behind _ d hd := by cases hd
  pulled i hlt hle := absurd hlt (Nat.not_lt.mpr hle)
  carried := rfl
  arrived e he := by cases he
  awaited h := by cases h
  handed := .nil
  results := rfl
  received e earlier h := by simp [Machine.start] at h

-- ---------------------------------------------------------------------------
-- One question
-- ---------------------------------------------------------------------------

/-- The exchange of the next question. -/
def State.exchange (m : Machine W σ) (s : State W σ) : Exchange W :=
  ⟨s.position, s.carried, (m.ask s.position s.carried s.world).1⟩

theorem advance_eq (hwithin : s.position ≤ m.last) :
    State.advance m s = { s with
      position := min (s.position + 1) m.last
      carried := if s.position < m.last then s.carried else none
      results := (if s.position = m.last then s.carried else none).toList ++ s.results } := by
  unfold State.advance
  rcases Nat.lt_or_eq_of_le hwithin with hlt | heq
  · have hmin : min (s.position + 1) m.last = s.position + 1 := Nat.min_eq_left hlt
    rw [if_pos hlt, if_pos hlt, if_neg (Nat.ne_of_lt hlt), hmin]
    rfl
  · simp [heq]

/-- A question is filed, and what it offers is handed on or becomes a result. -/
theorem next_offer (hwithin : s.position ≤ m.last) :
    (m.next s).history = s.exchange m :: s.history ∧
      (m.next s).carried = (s.exchange m).handed? m.last ∧
      (m.next s).results = ((s.exchange m).result? m.last).toList ++ s.results := by
  unfold next State.exchange Exchange.handed? Exchange.result?
  generalize m.ask s.position s.carried s.world = answer
  obtain ⟨reply, world⟩ := answer
  cases reply with
  | pull =>
    simp only [State.react]
    split
    · simp [Reply.walker?]
    · simp [Reply.walker?, advance_eq, hwithin]
  | _ => simp [State.react, Reply.walker?, advance_eq, hwithin]

/-- Whatever is carried was offered just before. -/
theorem offered_of_carried (hwithin : s.position ≤ m.last) {w : W} (hw : w ∈ (m.next s).carried) :
    w ∈ (m.ask s.position s.carried s.world).1.walker? := by
  rw [(next_offer hwithin).2.1, Exchange.handed?] at hw
  split at hw
  · exact hw
  · cases hw

/-- A step that pulls sends the machine left. After any other answer, and when all to the left is
finished, the machine goes right, unless it is at the last step; a step that is finished is one
it leaves behind. -/
theorem next_moves (hwithin : s.position ≤ m.last) :
    (s.exchange m).reply = .pull ∧ (m.next s).position + 1 = s.position ∧
        (m.next s).finished = s.finished ∧ (∀ d ∈ s.finished, d < (m.next s).position) ∨
      (m.next s).position = min (s.position + 1) m.last ∧
        ((m.next s).finished = s.finished ∨ (m.next s).finished = some s.position) := by
  unfold next State.exchange
  generalize m.ask s.position s.carried s.world = answer
  obtain ⟨reply, world⟩ := answer
  cases reply with
  | pull =>
    simp only [State.react]
    split
    next hcan =>
      simp only [State.canPull, Bool.and_eq_true, decide_eq_true_eq] at hcan
      obtain ⟨hpos, hbefore⟩ := hcan
      refine .inl ⟨by simp, Nat.sub_add_cancel hpos, rfl, fun d hd => ?_⟩
      rw [Option.mem_def.mp hd] at hbefore
      simpa using hbefore
    next => exact .inr (by simp [advance_eq, hwithin])
  | _ => exact .inr (by simp [State.react, advance_eq, hwithin])

/-- A walker that is handed on takes the machine along. -/
theorem next_arrives (hwithin : s.position ≤ m.last)
    (hsome : ((s.exchange m).handed? m.last).isSome) :
    (m.next s).position = s.position + 1 ∧ s.position < m.last := by
  unfold Exchange.handed? at hsome
  split at hsome
  next hlt =>
    rcases next_moves hwithin with ⟨hpull, -⟩ | ⟨hposition, -⟩
    · simp [hpull, Reply.walker?] at hsome
    · exact ⟨hposition.trans (Nat.min_eq_left hlt), hlt⟩
  next => cases hsome

theorem Orderly.next_behind (h : Orderly m s) (hover : s.isOver m = false)
    (hover' : (m.next s).isOver m = false) {d : Nat} (hd : d ∈ (m.next s).finished) :
    d < (m.next s).position := by
  have hwithin := h.within
  rcases next_moves hwithin with ⟨-, -, hfinished, hbefore⟩ | ⟨hposition, hfinished | hfinished⟩
  · exact hbefore d (hfinished ▸ hd)
  · have hlt := h.behind hover d (hfinished ▸ hd)
    omega
  · obtain rfl : s.position = d := by simpa [hfinished] using hd
    have hne : s.position ≠ m.last := by simpa [State.isOver, hfinished] using hover'
    omega

theorem Orderly.next_pulled (h : Orderly m s) :
    (∀ i, s.position < i → i ≤ m.last → latest i (m.next s).history = some .pull) ∧
      ∀ i, (m.next s).position < i → i ≤ m.last → latest i (m.next s).history = some .pull := by
  have hhistory := (next_offer h.within).1
  have hstep : (s.exchange m).step = s.position := rfl
  have hright : ∀ i, s.position < i → i ≤ m.last →
      latest i (m.next s).history = some .pull := by
    intro i hlt hle
    rw [hhistory, Exchange.latest_cons, hstep, if_neg (Nat.ne_of_lt hlt)]
    exact h.pulled i hlt hle
  refine ⟨hright, fun i hlt hle => ?_⟩
  rcases next_moves h.within with ⟨hpull, hposition, -⟩ | ⟨hposition, -⟩
  · by_cases hi : s.position = i
    · rw [hhistory, Exchange.latest_cons, hstep, if_pos hi, hpull]
    · exact hright i (by omega) hle
  · exact hright i (by omega) hle

theorem Orderly.next (h : Orderly m s) (hover : s.isOver m = false) : Orderly m (m.next s) := by
  obtain ⟨hhistory, hcarried, hresults⟩ := next_offer h.within
  have hwithin := h.within
  refine ⟨?_, fun hover' d hd => h.next_behind hover hover' hd, h.next_pulled.2, ?_, ?_, ?_, ?_, ?_,
    ?_⟩
  · rcases next_moves hwithin with ⟨-, hposition, -⟩ | ⟨hposition, -⟩ <;> omega
  · rw [hcarried, hhistory]
    rfl
  · intro e he hsome
    obtain rfl : s.exchange m = e := by simpa [hhistory] using he
    exact (next_arrives hwithin hsome).1
  · intro hsome
    obtain ⟨hposition, hlt⟩ := next_arrives hwithin (hcarried ▸ hsome)
    exact hposition ▸ h.next_pulled.1 _ (Nat.lt_succ_self _) hlt
  · rw [hhistory, List.isChain_cons]
    refine ⟨fun before hbefore => ⟨?_, h.arrived before hbefore⟩, h.handed⟩
    show s.carried = _
    rw [h.carried, Option.mem_def.mp hbefore]
    rfl
  · rw [hresults, hhistory, h.results]
    cases hresult : (s.exchange m).result? m.last <;> simp [hresult]
  · intro e earlier hsuffix hsome
    rw [hhistory, List.suffix_cons_iff] at hsuffix
    rcases hsuffix with heq | hsuffix
    · obtain ⟨rfl, rfl⟩ := List.cons.inj heq
      exact h.awaited hsome
    · exact h.received e earlier hsuffix hsome

-- ---------------------------------------------------------------------------
-- Whole runs
-- ---------------------------------------------------------------------------

theorem Reaches.orderly {world : σ} (h : m.Reaches (m.start world) s) : Orderly m s := by
  induction h with
  | refl => exact .start m world
  | next _ hover ih => exact ih.next hover

/-- Nothing is handed to the first step. -/
theorem Orderly.carried_first (h : Orderly m s) (hfirst : s.position = 0) : s.carried = none := by
  rw [h.carried]
  cases hlast : s.history.head? with
  | none => rfl
  | some e =>
    refine Option.not_isSome_iff_eq_none.mp fun hsome => ?_
    have hright := h.arrived e hlast hsome
    omega

/-- A walker handed in comes from the step to the left. -/
theorem Orderly.input (h : Orderly m s) {e : Exchange W} (he : e ∈ s.history)
    (hinput : e.input.isSome) : ∃ before ∈ s.history, e.step = before.step + 1 := by
  obtain ⟨newer, earlier, hhistory⟩ := List.append_of_mem he
  have hsuffix : e :: earlier <:+ s.history := ⟨newer, hhistory.symm⟩
  cases earlier with
  | nil => cases h.received e [] hsuffix hinput
  | cons before earlier =>
    obtain ⟨hfrom, hright⟩ := (h.handed.suffix hsuffix).rel
    exact ⟨before, hsuffix.mem (by simp), hright (hfrom ▸ hinput)⟩

theorem Reaches.trans {u : State W σ} (hst : m.Reaches s t) (htu : m.Reaches t u) :
    m.Reaches s u := by
  induction htu with
  | refl => exact hst
  | next _ hover ih => exact ih.next hover

theorem Later.refl (s : State W σ) : Later s s :=
  ⟨fun d hd => ⟨d, hd, Nat.le_refl d⟩, [], rfl, fun _ he => nomatch he⟩

theorem Later.next (h : Later s t) (ht : Orderly m t) (hover : t.isOver m = false) :
    Later s (m.next t) := by
  obtain ⟨asked, hhistory, hasked⟩ := h.asked
  have hbehind : ∀ d ∈ s.finished, d < t.position := by
    intro d hd
    obtain ⟨d', hd', hle⟩ := h.finished d hd
    exact Nat.lt_of_le_of_lt hle (ht.behind hover d' hd')
  refine ⟨fun d hd => ?_, t.exchange m :: asked, ?_, fun e he d hd => ?_⟩
  · rcases next_moves ht.within with ⟨-, -, hfinished, -⟩ | ⟨-, hfinished | hfinished⟩
    · exact hfinished ▸ h.finished d hd
    · exact hfinished ▸ h.finished d hd
    · exact ⟨t.position, hfinished, Nat.le_of_lt (hbehind d hd)⟩
  · rw [(next_offer ht.within).1, hhistory]
    rfl
  · rcases List.mem_cons.mp he with rfl | he
    · exact hbehind d hd
    · exact hasked e he d hd

theorem Reaches.later (hs : Orderly m s) (h : m.Reaches s t) : Later s t := by
  suffices Orderly m t ∧ Later s t from this.2
  induction h with
  | refl => exact ⟨hs, .refl s⟩
  | next _ hover ih => exact ⟨ih.1.next hover, ih.2.next ih.1 hover⟩

theorem reaches_of_runFrom {bound : Nat} (h : m.runFrom bound s = some t) :
    m.Reaches s t ∧ t.isOver m = true := by
  refine runFrom_induction h ?_ ?_
  · intro hover bound
    exact ⟨.refl, hover⟩
  · rintro bound s hover - ⟨hreaches, hend⟩
    exact ⟨(Reaches.refl.next hover).trans hreaches, hend⟩

theorem runFrom_of_reaches (h : m.Reaches s t) (hover : t.isOver m = true) :
    ∃ bound, m.runFrom bound s = some t := by
  suffices ∃ asked, ∀ bound, m.runFrom (asked + bound) s = m.runFrom bound t by
    obtain ⟨asked, hasked⟩ := this
    exact ⟨asked + 0, (hasked 0).trans (runFrom_over hover 0)⟩
  clear hover
  induction h with
  | refl => exact ⟨0, fun bound => by rw [Nat.zero_add]⟩
  | @next t _ hopen ih =>
    obtain ⟨asked, hasked⟩ := ih
    refine ⟨asked + 1, fun bound => ?_⟩
    rw [Nat.add_assoc, hasked, Nat.add_comm 1, runFrom_succ hopen]

end Machine

end GraphWalk
