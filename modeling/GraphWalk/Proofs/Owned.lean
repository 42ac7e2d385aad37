import GraphWalk.Proofs.Reading

/-!
# Walkers with bindings of their own

Here every walker carries a copy of the bindings, to which an `as` adds. A walker that shares its
table and one that does not are alike before some steps if they see the same under all labels that
these steps do not bind. `ask_like`: alike walkers stay alike, as long as no step reads a label
that it or a later step binds.
-/

namespace GraphWalk

/-- A walker is its sight: it has the bindings to itself. -/
def Carrier.owned : Carrier Sight Unit where
  start v _ := (⟨v, ∅, none⟩, ())
  sight _ s := s
  bind _ s label := ({ s with bindings := s.bindings.insert label s.vertex }, ())
  place s p := ⟨p.1, s.bindings, p.2⟩

def Program.Unbound (p : Program) (label : String) : Prop := ∀ step ∈ p, ¬ step.Binds label

theorem Program.unbound_cons {step : Step} {rest : Program} {label : String}
    (hstep : ¬ step.Binds label) (hrest : rest.Unbound label) :
    Program.Unbound (step :: rest) label := by
  intro step' hmem
  obtain rfl | hmem := List.mem_cons.mp hmem
  · exact hstep
  · exact hrest step' hmem

/-- A walker and a walker with bindings of its own that have the steps `p` ahead. -/
structure Like (p : Program) (o : Origins) (w : Walker) (s : Sight) : Prop where
  vertex : w.vertex = s.vertex
  result : w.result = s.result
  origin : w.origin < o.size
  bindings : ∀ l, p.Unbound l → o.bound? w l = s.bindings.get? l

/-- Whatever stands under labels that `p` does not bind stays there. -/
structure Keeps (p : Program) (o o' : Origins) : Prop where
  size : o.size ≤ o'.size
  bound : ∀ w : Walker, w.origin < o.size → ∀ l, p.Unbound l → o'.bound? w l = o.bound? w l

open Program (Unbound unbound_cons)

variable {p rest : Program} {step : Step} {o o' o'' : Origins} {w : Walker} {s : Sight} {g : Graph}

theorem Keeps.refl (p : Program) (o : Origins) : Keeps p o o := ⟨Nat.le_refl _, fun _ _ _ _ => rfl⟩

theorem Keeps.suffix (h : Keeps rest o o') (hsuffix : rest <:+ p) : Keeps p o o' :=
  ⟨h.size, fun w hw l hl => h.bound w hw l fun step hs => hl step (hsuffix.mem hs)⟩

theorem Like.keeps (h : Like p o w s) (hkeeps : Keeps p o o') : Like p o' w s :=
  ⟨h.vertex, h.result, Nat.lt_of_lt_of_le h.origin hkeeps.size, fun l hl =>
    (hkeeps.bound w h.origin l hl).trans (h.bindings l hl)⟩

theorem keeps_start (p : Program) (o : Origins) (v : Nat) : Keeps p o (o.start v).2 := by
  refine ⟨?_, fun w hw l _ => ?_⟩
  · simp [Origins.start]
  · rw [Origins.bound?, Origins.bindings_start]
    rfl

theorem like_start (p : Program) (o : Origins) (v : Nat) :
    Like p (o.start v).2 (o.start v).1 (Carrier.owned.start v ()).1 := by
  refine ⟨rfl, rfl, ?_, fun l _ => ?_⟩
  · simp [Origins.start]
  · rw [Origins.bound?, Origins.bindings_start]
    simp [Origins.bindings, Origins.start, Carrier.owned]

theorem bound_bind (o : Origins) (w v : Walker) (label l : String) (h : v.origin < o.size)
    (hl : label ≠ l) : (o.bind w label).bound? v l = o.bound? v l := by
  by_cases horigin : w.origin = v.origin
  · have hv : ∀ o : Origins, o.bound? v l = o.bound? w l := fun o => by
      rw [Origins.bound?, Origins.bound?, Origins.bindings, Origins.bindings, horigin]
    rw [hv, hv, Origins.bound?_bind o w label l (horigin ▸ h), if_neg hl]
  · rw [Origins.bound?, Origins.bindings_bind_of_ne o label horigin]
    rfl

theorem keeps_bound (step : Step) (rest : Program) (o : Origins) (w : Walker) :
    Keeps (step :: rest) o (step.kind.bound .shared step.args w o).2 := by
  unfold PipeKind.bound
  split
  · rename_i label hlabel
    refine ⟨?_, fun v hv l hl => ?_⟩
    · simp [Carrier.shared, Origins.bind]
    · refine bound_bind o w v label l hv fun heq => ?_
      exact hl step List.mem_cons_self (heq ▸ hlabel)
  · exact .refl _ _

theorem Like.pass (h : Like (step :: rest) o w s) (hlabel : step.kind.label? step.args = none) :
    Like rest o w s :=
  ⟨h.vertex, h.result, h.origin, fun l hl => h.bindings l
    (unbound_cons (fun hbinds => nomatch hlabel.symm.trans hbinds) hl)⟩

theorem Like.bound (h : Like (step :: rest) o w s) :
    Like rest (step.kind.bound .shared step.args w o).2 (step.kind.bound .shared step.args w o).1
      (step.kind.bound .owned step.args s ()).1 := by
  unfold PipeKind.bound
  cases hlabel : step.kind.label? step.args with
  | none => exact h.pass hlabel
  | some label =>
    refine ⟨h.vertex, h.result, ?_, fun l hl => ?_⟩
    · simpa [Carrier.shared, Origins.bind] using h.origin
    · show (o.bind w label).bound? w l = (s.bindings.insert label s.vertex).get? l
      rw [Origins.bound?_bind o w label l h.origin, Table.get?_insert]
      by_cases heq : label = l
      · rw [if_pos heq, if_pos heq, h.vertex]
      · rw [if_neg heq, if_neg heq]
        refine h.bindings l (unbound_cons (fun hbinds => heq ?_) hl)
        exact Option.some.inj (hlabel.symm.trans hbinds)

theorem Like.place (h : Like p o w s) (v : Nat × Option Json) :
    Like p o (Carrier.shared.place w v) (Carrier.owned.place s v) :=
  ⟨rfl, rfl, h.origin, h.bindings⟩

/-- From alike walkers alike walkers follow, if the step reads no label that it or a later one
binds. -/
theorem follow_like (hreads : ∀ l, step.Reads l → Unbound (step :: rest) l)
    (h : Like (step :: rest) o w s) (g : Graph) (seen : List Nat) :
    let a := step.kind.follow .shared g step.args seen w o
    let b := step.kind.follow .owned g step.args seen s ()
    List.Forall₂ (Like rest a.shared) a.walkers b.walkers ∧ a.seen = b.seen ∧
      Keeps (step :: rest) o a.shared := by
  have hmoves : step.kind.moves g step.args seen (o.sight w) =
      step.kind.moves g step.args seen s :=
    PipeKind.moves_congr step.kind seen h.vertex h.result fun l hl => h.bindings l (hreads l hl)
  refine ⟨?_, ?_, keeps_bound step rest o w⟩
  · show List.Forall₂ (Like rest _) (List.map _ (step.kind.moves g step.args seen (o.sight w)))
      (List.map _ (step.kind.moves g step.args seen s))
    rw [hmoves, List.forall₂_map_left_iff, List.forall₂_map_right_iff, List.forall₂_same]
    exact fun v _ => h.bound.place v
  · exact congrArg (PipeKind.remembers seen · step.kind) h.vertex

structure StockLike (rest : Program) (o : Origins) (a : Stock Walker) (b : Stock Sight) :
    Prop where
  waiting : a.waiting = b.waiting
  pending : List.Forall₂ (Like rest o) a.pending b.pending
  seen : a.seen = b.seen
  passed : a.passed = b.passed

theorem StockLike.keeps {a : Stock Walker} {b : Stock Sight} (h : StockLike rest o a b)
    (hkeeps : Keeps rest o o') : StockLike rest o' a b :=
  { h with pending := h.pending.imp fun _ _ hlike => hlike.keeps hkeeps }

inductive ReplyLike (rest : Program) (o : Origins) : Reply Walker → Reply Sight → Prop
  | pull : ReplyLike rest o .pull .pull
  | done : ReplyLike rest o .done .done
  | nothing : ReplyLike rest o .nothing .nothing
  | walker {w : Walker} {s : Sight} (h : Like rest o w s) :
    ReplyLike rest o (.walker w) (.walker s)

/-- What `ask_like` says of two answers. -/
abbrev AnswerLike (step : Step) (rest : Program) (o : Origins)
    (x : Reply Walker × Stock Walker × Origins) (y : Reply Sight × Stock Sight × Unit) : Prop :=
  ReplyLike rest x.2.2 x.1 y.1 ∧ StockLike rest x.2.2 x.2.1 y.2.1 ∧ Keeps (step :: rest) o x.2.2

section
variable {a : Stock Walker} {b : Stock Sight} {input : Option Walker} {input' : Option Sight}

theorem ask_source_like (hstock : StockLike rest o a b) :
    AnswerLike step rest o ((Role.source Carrier.shared.start).ask input a o)
      ((Role.source Carrier.owned.start).ask input' b ()) := by
  obtain ⟨waiting, pending, seen, passed⟩ := a
  obtain ⟨waiting', pending', seen', passed'⟩ := b
  obtain rfl : waiting = waiting' := hstock.waiting
  cases waiting with
  | nil => exact ⟨.done, hstock, .refl _ _⟩
  | cons v later =>
    have hlater : StockLike rest o ⟨later, pending, seen, passed⟩
        ⟨later, pending', seen', passed'⟩ :=
      ⟨rfl, hstock.pending, hstock.seen, hstock.passed⟩
    exact ⟨.walker (like_start rest o v), hlater.keeps (keeps_start rest o v),
      keeps_start (step :: rest) o v⟩

theorem ask_gate_like {limit : Option Nat} (hstock : StockLike rest o a b)
    (hinput : Option.Rel (Like rest o) input input') :
    AnswerLike step rest o ((Role.gate limit).ask input a o)
      ((Role.gate limit).ask input' b ()) := by
  have hfull : Role.isFull limit b.passed = Role.isFull limit a.passed := by rw [hstock.passed]
  unfold Role.ask
  simp only [hfull]
  split
  · exact ⟨.done, ⟨hstock.waiting, hstock.pending, hstock.seen, rfl⟩, .refl _ _⟩
  · cases hinput with
    | none => exact ⟨.pull, hstock, .refl _ _⟩
    | some h =>
      exact ⟨.walker h, ⟨hstock.waiting, hstock.pending, hstock.seen,
        congrArg Nat.succ hstock.passed⟩, .refl _ _⟩

theorem ask_relay_like {drops : Bool} (hreads : ∀ l, step.Reads l → Unbound (step :: rest) l)
    (hstock : StockLike rest o a b) (hinput : Option.Rel (Like (step :: rest) o) input input')
    (hheld : input ≠ none → a.pending = []) (g : Graph) :
    AnswerLike step rest o
      ((Role.relay (step.kind.follow .shared g step.args) drops).ask input a o)
      ((Role.relay (step.kind.follow .owned g step.args) drops).ask input' b ()) := by
  obtain ⟨waiting, pending, seen, passed⟩ := a
  obtain ⟨waiting', pending', seen', passed'⟩ := b
  obtain ⟨hwaiting, hpending, rfl, hpassed⟩ := hstock
  cases hpending with
  | cons h hlater =>
    -- A walker that is still to be offered is offered before any is taken.
    cases hinput with
    | none => exact ⟨.walker h, ⟨hwaiting, hlater, rfl, hpassed⟩, .refl _ _⟩
    | some _ => exact nomatch hheld (by simp)
  | nil =>
    cases hinput with
    | none => exact ⟨.pull, ⟨hwaiting, .nil, rfl, hpassed⟩, .refl _ _⟩
    | @some w s h =>
      obtain ⟨hwalkers, hseen, hkeeps⟩ := follow_like hreads h g seen
      generalize hx : step.kind.follow .shared g step.args seen w o = x at hwalkers hseen hkeeps
      generalize hy : step.kind.follow .owned g step.args seen s () = y at hwalkers hseen
      obtain ⟨walkers, seen₁, o₁⟩ := x
      obtain ⟨walkers', seen₂, ⟨⟩⟩ := y
      obtain rfl : seen₁ = seen₂ := hseen
      cases hwalkers with
      | nil =>
        rw [Role.ask_relay_nil rfl hx, Role.ask_relay_nil rfl hy]
        refine ⟨?_, ⟨hwaiting, .nil, rfl, hpassed⟩, hkeeps⟩
        cases drops with
        | true => exact .nothing
        | false => exact .pull
      | cons hfirst hlater =>
        rw [Role.ask_relay_cons rfl hx, Role.ask_relay_cons rfl hy]
        exact ⟨.walker hfirst, ⟨hwaiting, hlater, rfl, hpassed⟩, hkeeps⟩

/-- Asked alike, a step answers alike. -/
theorem ask_like (hreads : ∀ l, step.Reads l → Unbound (step :: rest) l)
    (hstock : StockLike rest o a b) (hinput : Option.Rel (Like (step :: rest) o) input input')
    (hheld : input ≠ none → a.pending = []) (g : Graph) :
    AnswerLike step rest o ((step.role .shared g).ask input a o)
      ((step.role .owned g).ask input' b ()) := by
  by_cases hvertex : step.kind = .vertex
  · rw [Step.role_vertex .shared g hvertex, Step.role_vertex .owned g hvertex]
    exact ask_source_like hstock
  by_cases htake : step.kind = .take
  · rw [Step.role_take .shared g htake, Step.role_take .owned g htake]
    have hlabel : step.kind.label? step.args = none := by rw [htake]; rfl
    refine ask_gate_like hstock ?_
    cases hinput with
    | none => exact .none
    | some h => exact .some (h.pass hlabel)
  · rw [Step.role_relay .shared g hvertex htake, Step.role_relay .owned g hvertex htake]
    exact ask_relay_like hreads hstock hinput hheld g

end

end GraphWalk
