import GraphWalk.Walk.Machine
import Mathlib.Data.List.Forall2

/-!
# Lines of roles

Seen from the machine, a step plays one of three roles, whatever its pipe. A source starts
walkers, a gate lets a number of them pass, and a relay answers each walker with those that
follow from it, one at a time. A line is what the steps keep between two questions.
-/

namespace GraphWalk

variable {W σ : Type}

/-- What follows from a walker, first to be offered first. -/
structure Onward (W σ : Type) where
  walkers : List W
  seen : List Nat
  shared : σ

/-- A relay that `drops` answers a walker from which nothing follows with `nothing` instead of
`pull`. -/
inductive Role (W σ : Type)
  | source (start : Nat → σ → W × σ)
  | gate (limit : Option Nat)
  | relay (follow : List Nat → W → σ → Onward W σ) (drops : Bool)

/-- What a step keeps: vertices at which a source is still to start a walker, walkers that a
relay is still to offer, the vertices it has seen, and how many walkers a gate let pass. -/
structure Stock (W : Type) where
  waiting : List Nat := []
  pending : List W := []
  seen : List Nat := []
  passed : Nat := 0

instance : Inhabited (Stock W) := ⟨{}⟩

namespace Stock

def await (stock : Stock W) (vertices : List Nat) : Stock W := { stock with waiting := vertices }

def hold (stock : Stock W) (walkers : List W) : Stock W := { stock with pending := walkers }

def remember (stock : Stock W) (seen : List Nat) : Stock W := { stock with seen }

end Stock

namespace Role

def isSource : Role W σ → Bool
  | source _ => true
  | _ => false

def isGate : Role W σ → Bool
  | gate _ => true
  | _ => false

def isFull (limit : Option Nat) (passed : Nat) : Bool := limit.any (· ≤ passed)

def ask : Role W σ → Option W → Stock W → σ → Reply W × Stock W × σ
  | source start, _, stock, s =>
    match stock.waiting with
    | [] => (.done, stock, s)
    | v :: rest => (.walker (start v s).1, stock.await rest, (start v s).2)
  | gate limit, input, stock, s =>
    if isFull limit stock.passed then (.done, { stock with passed := 0 }, s)
    else
      match input with
      | none => (.pull, stock, s)
      | some w => (.walker w, { stock with passed := stock.passed + 1 }, s)
  | relay follow drops, input, stock, s =>
    match stock.pending, input with
    | w :: rest, _ => (.walker w, stock.hold rest, s)
    | [], none => (.pull, stock, s)
    | [], some w =>
      let onward := follow stock.seen w s
      match onward.walkers with
      | [] => (if drops then .nothing else .pull, stock.remember onward.seen, onward.shared)
      | w :: rest => (.walker w, (stock.remember onward.seen).hold rest, onward.shared)

section
variable {follow : List Nat → W → σ → Onward W σ} {drops : Bool} {stock : Stock W} {w x : W}
  {rest : List W} {seen : List Nat} {s s' : σ}

theorem ask_relay_nil (hp : stock.pending = []) (h : follow stock.seen w s = ⟨[], seen, s'⟩) :
    (relay follow drops).ask (some w) stock s =
      (if drops then .nothing else .pull, stock.remember seen, s') := by
  simp [ask, hp, h]

theorem ask_relay_cons (hp : stock.pending = [])
    (h : follow stock.seen w s = ⟨x :: rest, seen, s'⟩) :
    (relay follow drops).ask (some w) stock s =
      (.walker x, (stock.remember seen).hold rest, s') := by
  simp [ask, hp, h]

end

/-- A step that pulls when it is asked without a walker. -/
def Quiet : Role W σ → Stock W → Prop
  | source _, _ => False
  | gate limit, stock => isFull limit stock.passed = false
  | relay _ _, stock => stock.pending = []

theorem Quiet.ask {role : Role W σ} {stock : Stock W} (h : role.Quiet stock) (s : σ) :
    role.ask none stock s = (.pull, stock, s) := by
  cases role with
  | source start => exact h.elim
  | gate limit =>
    have hfull : isFull limit stock.passed = false := h
    simp [Role.ask, hfull]
  | relay follow drops =>
    have hp : stock.pending = [] := h
    simp [Role.ask, hp]

end Role

/-- The stocks of the steps, and what all steps share. -/
structure Line (W σ : Type) where
  stocks : List (Stock W)
  shared : σ

namespace Line

abbrev Quiet : List (Role W σ) → List (Stock W) → Prop := List.Forall₂ Role.Quiet

def ask (roles : List (Role W σ)) (i : Nat) (input : Option W) (l : Line W σ) :
    Reply W × Line W σ :=
  match roles[i]?, l.stocks[i]? with
  | some role, some stock =>
    let (reply, stock, shared) := role.ask input stock l.shared
    (reply, ⟨l.stocks.set i stock, shared⟩)
  | _, _ => (.nothing, l)

def machine (roles : List (Role W σ)) : Machine W (Line W σ) := ⟨roles.length - 1, ask roles⟩

def run (roles : List (Role W σ)) (bound : Nat) (l : Line W σ) : Option (List W × Line W σ) :=
  if roles.isEmpty then some ([], l)
  else ((machine roles).run bound l).map fun s => (s.results.reverse, s.world)

/-- What a number of runs let out, one list for each. -/
def batches (roles : List (Role W σ)) (bound : Nat) : Nat → Line W σ → Option (List (List W))
  | 0, _ => some []
  | m + 1, l =>
    (l.run roles bound).bind fun r => (batches roles bound m r.2).map (r.1 :: ·)

end Line

end GraphWalk
