import GraphWalk.Proofs.Machine.Abreast
import GraphWalk.Proofs.Roles
import GraphWalk.Walk.Pipe.Extra

/-!
# Binding tables under other numbers

The number under which a query keeps a binding table is a name for it and no more: a pipe reads and
binds through the walkers it has, and starts walkers with a table of their own. `Pipe.Unnumbered`
says so of a pipe: where the same tables stand under other numbers, among any further ones, it does
the same under those numbers. All pipes here are like that.
-/

namespace GraphWalk

/-- The walker, with its table under another number. -/
def Walker.reorigin (ρ : Nat → Nat) (w : Walker) : Walker := { w with origin := ρ w.origin }

namespace Memory

def reorigin (ρ : Nat → Nat) : Memory → Memory
  | crossing source edges => crossing (source.map (·.reorigin ρ)) edges
  | spread source vertices => spread (source.map (·.reorigin ρ)) vertices
  | own value walkers => own value (walkers.map (·.reorigin ρ))
  | m => m

/-- The walkers that a step keeps. -/
def walkers : Memory → List Walker
  | crossing source _ => source.toList
  | spread source _ => source.toList
  | own _ walkers => walkers
  | _ => []

end Memory

/-- The tables of the first are among those of the second, under the numbers that `ρ` gives. -/
structure Origins.Embeds (ρ : Nat → Nat) (o o' : Origins) : Prop where
  table : ∀ i < o.size, o'[ρ i]? = o[i]?
  injective : ∀ i < o.size, ∀ j < o.size, ρ i = ρ j → i = j

/-- The second answer is the first, under the numbers that `ρ` gives. -/
structure Answer.Renamed (ρ : Nat → Nat) (a a' : Answer) : Prop where
  reply : a'.reply = a.reply.map (Walker.reorigin ρ)
  memory : a'.memory = a.memory.reorigin ρ
  origins : a.origins.Embeds ρ a'.origins
  offered : ∀ w ∈ a.reply.walker?, w.origin < a.origins.size
  kept : ∀ w ∈ a.memory.walkers, w.origin < a.origins.size

/-- A pipe to which the number of a table is a name: it answers alike under other numbers, and
those of new tables may be any. -/
def Pipe.Unnumbered (pipe : Pipe) : Prop :=
  ∀ (g : Graph) (args : List Arg) (input : Option Walker) (m : Memory) (ρ : Nat → Nat)
    (o o' : Origins), o.Embeds ρ o' → (∀ w ∈ input, w.origin < o.size) →
    (∀ w ∈ m.walkers, w.origin < o.size) →
    o.size ≤ (pipe g args input m o).origins.size ∧ ∃ ρ' : Nat → Nat, (∀ i < o.size, ρ' i = ρ i) ∧
      (pipe g args input m o).Renamed ρ'
        (pipe g args (input.map (Walker.reorigin ρ)) (m.reorigin ρ) o')

variable {ρ ρ' : Nat → Nat} {o o' : Origins} {w : Walker}

-- ---------------------------------------------------------------------------
-- Tables
-- ---------------------------------------------------------------------------

theorem Walker.reorigin_congr (h : ∀ i < o.size, ρ' i = ρ i) (hw : w.origin < o.size) :
    w.reorigin ρ' = w.reorigin ρ := by
  simp only [reorigin, h _ hw]

theorem Memory.reorigin_congr (h : ∀ i < o.size, ρ' i = ρ i) {m : Memory}
    (hm : ∀ w ∈ m.walkers, w.origin < o.size) : m.reorigin ρ' = m.reorigin ρ := by
  cases m with
  | crossing source edges =>
    cases source with
    | none => rfl
    | some w => simp [reorigin, Walker.reorigin_congr h (hm w (by simp [walkers]))]
  | spread source vertices =>
    cases source with
    | none => rfl
    | some w => simp [reorigin, Walker.reorigin_congr h (hm w (by simp [walkers]))]
  | own value ws =>
    have hws : ws.map (Walker.reorigin ρ') = ws.map (Walker.reorigin ρ) :=
      List.map_congr_left fun w hw => Walker.reorigin_congr h (hm w hw)
    simp only [reorigin, hws]
  | _ => rfl

namespace Origins.Embeds

theorem congr (h : o.Embeds ρ o') (hρ : ∀ i < o.size, ρ' i = ρ i) : o.Embeds ρ' o' := by
  refine ⟨fun i hi => ?_, fun i hi j hj hij => ?_⟩
  · rw [hρ i hi, h.table i hi]
  · exact h.injective i hi j hj (by rw [← hρ i hi, ← hρ j hj, hij])

theorem bindings (h : o.Embeds ρ o') (hw : w.origin < o.size) :
    o'.bindings (w.reorigin ρ) = o.bindings w := by
  simp only [Origins.bindings, Walker.reorigin, h.table _ hw]

theorem sight (h : o.Embeds ρ o') (hw : w.origin < o.size) :
    o'.sight (w.reorigin ρ) = o.sight w := by
  rw [Origins.sight, Origins.sight, h.bindings hw]
  rfl

theorem bound? (h : o.Embeds ρ o') (hw : w.origin < o.size) :
    o'.bound? (w.reorigin ρ) = o.bound? w := by
  funext label
  rw [Origins.bound?, Origins.bound?, h.bindings hw]

theorem bind (h : o.Embeds ρ o') (hw : w.origin < o.size) (label : String) :
    (o.bind w label).Embeds ρ (o'.bind (w.reorigin ρ) label) := by
  have hsize : (o.bind w label).size = o.size := Array.size_modify
  refine ⟨fun i hi => ?_, by rw [hsize]; exact h.injective⟩
  rw [hsize] at hi
  have hsame : ρ w.origin = ρ i ↔ w.origin = i :=
    ⟨h.injective _ hw _ hi, congrArg ρ⟩
  simp only [Origins.bind, Walker.reorigin, Array.getElem?_modify, hsame, h.table i hi]

theorem lt_size (h : o.Embeds ρ o') {i : Nat} (hi : i < o.size) : ρ i < o'.size := by
  have htable := h.table i hi
  rw [Array.getElem?_eq_getElem hi] at htable
  exact (Array.getElem?_eq_some_iff.mp htable).1

/-- A table more in the second changes nothing. -/
theorem push (h : o.Embeds ρ o') (table : Bindings) : o.Embeds ρ (o'.push table) := by
  refine ⟨fun i hi => ?_, h.injective⟩
  rw [Array.getElem?_push, if_neg (Nat.ne_of_lt (h.lt_size hi)), h.table i hi]

/-- Walkers that start in both have their new tables for each other. -/
theorem start (h : o.Embeds ρ o') (vertex : Nat) :
    ∃ ρ' : Nat → Nat, (∀ i < o.size, ρ' i = ρ i) ∧
      (o.start vertex).2.Embeds ρ' (o'.start vertex).2 ∧
      (o'.start vertex).1 = (o.start vertex).1.reorigin ρ' := by
  let ρ' i := if i = o.size then o'.size else ρ i
  have hnew : ρ' o.size = o'.size := if_pos rfl
  have hold : ∀ i < o.size, ρ' i = ρ i := fun i hi => if_neg (Nat.ne_of_lt hi)
  have hcases : ∀ i < (o.start vertex).2.size, i < o.size ∨ i = o.size := by
    intro i hi
    rwa [Origins.start, Array.size_push, Nat.lt_succ_iff_lt_or_eq] at hi
  refine ⟨ρ', hold, ⟨fun i hi => ?_, fun i hi j hj hij => ?_⟩, ?_⟩
  · rcases hcases i hi with hi | rfl
    · rw [hold i hi, Origins.start, Origins.start, (h.push ∅).table i hi, Array.getElem?_push,
        if_neg (Nat.ne_of_lt hi)]
    · simp [hnew, Origins.start]
  · -- no old table stands under the new number
    have hne : ∀ i < o.size, ρ i ≠ o'.size := fun i hi => Nat.ne_of_lt (h.lt_size hi)
    rcases hcases i hi with hi | rfl <;> rcases hcases j hj with hj | rfl
    · exact h.injective i hi j hj (by rwa [hold i hi, hold j hj] at hij)
    · exact absurd (by rwa [hold i hi, hnew] at hij) (hne i hi)
    · exact absurd (by rwa [hold j hj, hnew, eq_comm] at hij) (hne j hj)
    · rfl
  · rw [Origins.start, Origins.start, Walker.reorigin, hnew]

end Origins.Embeds

-- ---------------------------------------------------------------------------
-- Pipes
-- ---------------------------------------------------------------------------

namespace Pipe

/-- A pipe that starts no walkers. -/
theorem unnumbered_of_same {pipe : Pipe}
    (h : ∀ g args input m ρ o o', o.Embeds ρ o' → (∀ w ∈ input, w.origin < o.size) →
      (∀ w ∈ m.walkers, w.origin < o.size) →
      (pipe g args input m o).origins.size = o.size ∧
        (pipe g args input m o).Renamed ρ
          (pipe g args (input.map (Walker.reorigin ρ)) (m.reorigin ρ) o')) :
    pipe.Unnumbered := by
  intro g args input m ρ o o' ho hinput hm
  obtain ⟨hsize, hsame⟩ := h g args input m ρ o o' ho hinput hm
  exact ⟨Nat.le_of_eq hsize.symm, ρ, fun _ _ => rfl, hsame⟩

/-- A pipe that keeps nothing in mind and hands on the walker it gets, if any. -/
theorem unnumbered_stateless
    {act : Graph → List Arg → Walker → Origins → Reply Walker × Origins × List Notice}
    (h : ∀ g args w ρ o o', o.Embeds ρ o' → w.origin < o.size →
      (act g args w o).2.1.size = o.size ∧
        (act g args w o).2.1.Embeds ρ (act g args (w.reorigin ρ) o').2.1 ∧
        (act g args (w.reorigin ρ) o').1 = (act g args w o).1.map (Walker.reorigin ρ) ∧
        ∀ v ∈ (act g args w o).1.walker?, v.origin = w.origin) :
    (stateless act).Unnumbered := by
  refine unnumbered_of_same fun g args input m ρ o o' ho hinput hm => ?_
  cases input with
  | none => exact ⟨rfl, rfl, rfl, ho, nofun, hm⟩
  | some w =>
    obtain ⟨hsize, hembeds, hreply, horigin⟩ := h g args w ρ o o' ho (hinput w rfl)
    refine ⟨hsize, hreply, rfl, hembeds, fun v hv => ?_, fun v hv => ?_⟩
    · exact hsize.symm ▸ horigin v hv ▸ hinput w rfl
    · exact hsize.symm ▸ hm v hv

theorem unnumbered_passthrough : passthrough.Unnumbered :=
  unnumbered_stateless fun _ _ _ _ _ _ ho _ => ⟨rfl, ho, rfl, by rintro _ ⟨⟩; rfl⟩

theorem unnumbered_property : property.Unnumbered := by
  refine unnumbered_stateless fun g args w ρ o o' ho hw => ?_
  dsimp only [Walker.reorigin]
  split
  next v _ =>
    cases v.isNull with
    | true => exact ⟨rfl, ho, rfl, nofun⟩
    | false => exact ⟨rfl, ho, rfl, by rintro _ ⟨⟩; rfl⟩
  next => exact ⟨rfl, ho, rfl, nofun⟩

theorem unnumbered_filter : filter.Unnumbered := by
  refine unnumbered_stateless fun g args w ρ o o' ho hw => ?_
  have hpass : ∀ fits : Bool, ∀ v ∈ (if fits then .walker w else .pull : Reply Walker).walker?,
      v.origin = w.origin := by
    rintro (_ | _) v ⟨⟩
    rfl
  rw [show (w.reorigin ρ).vertex = w.vertex from rfl, ho.sight hw]
  dsimp only
  split
  · exact ⟨rfl, ho, by split <;> rfl, hpass _⟩
  · exact ⟨rfl, ho, by split <;> rfl, hpass _⟩
  · exact ⟨rfl, ho, rfl, hpass true⟩

theorem unnumbered_bind : bind.Unnumbered := by
  refine unnumbered_stateless fun g args w ρ o o' ho hw => ?_
  split
  next label _ => exact ⟨Array.size_modify, ho.bind hw label, rfl, by rintro _ ⟨⟩; rfl⟩
  next => exact ⟨rfl, ho, rfl, by rintro _ ⟨⟩; rfl⟩

theorem unnumbered_back : back.Unnumbered := by
  refine unnumbered_stateless fun g args w ρ o o' ho hw => ?_
  rw [ho.bound? hw]
  split
  · exact ⟨rfl, ho, rfl, by rintro _ ⟨⟩; rfl⟩
  · exact ⟨rfl, ho, rfl, nofun⟩

theorem unnumbered_except : except.Unnumbered := by
  refine unnumbered_stateless fun g args w ρ o o' ho hw => ?_
  rw [ho.bound? hw, show (w.reorigin ρ).vertex = w.vertex from rfl]
  split
  · exact ⟨rfl, ho, rfl, nofun⟩
  · exact ⟨rfl, ho, rfl, by rintro _ ⟨⟩; rfl⟩

theorem unnumbered_vertex : vertex.Unnumbered := by
  intro g args input m ρ o o' ho hinput hm
  have hmemory : ∀ o, vertex g args (input.map (Walker.reorigin ρ)) (m.reorigin ρ) o =
      vertex g args input m o := by
    intro o
    cases m <;> rfl
  rw [hmemory]
  unfold vertex
  dsimp only
  split
  · exact ⟨Nat.le_refl _, ρ, fun _ _ => rfl, rfl, rfl, ho, nofun, nofun⟩
  next v rest _ =>
    obtain ⟨ρ', hold, hembeds, hwalker⟩ := ho.start v
    refine ⟨by simp [Origins.start], ρ', hold, congrArg Reply.walker hwalker, rfl, hembeds, ?_,
      nofun⟩
    rintro _ ⟨⟩
    simp [Origins.start]

/-- A pipe that leads a walker to one place after the other. Its memory is the walker it was handed
last with the items still to be offered, and it takes any other for one with nothing to offer. -/
structure Spreads (pipe : Pipe) (keep : Option Walker → List Nat → Memory)
    (items : Graph → List Arg → Walker → Origins → List Nat) (land : Graph → Nat → Nat) : Prop where
  offer : ∀ g args input w x rest o, pipe g args input (keep (some w) (x :: rest)) o =
    ⟨.walker (w.goto (land g x)), keep (some w) rest, o, []⟩
  idle : ∀ g args source o,
    pipe g args none (keep source []) o = ⟨.pull, keep source [], o, []⟩
  turn : ∀ g args source w o, pipe g args (some w) (keep source []) o =
    match items g args w o with
    | [] => ⟨.pull, keep (some w) [], o, []⟩
    | x :: rest => ⟨.walker (w.goto (land g x)), keep (some w) rest, o, []⟩
  reorigin : ∀ ρ source rest, (keep source rest).reorigin ρ =
    keep (source.map (Walker.reorigin ρ)) rest
  walkers : ∀ source rest, (keep source rest).walkers = source.toList
  other : ∀ m, (∃ source, m = keep source []) ∨ (∃ w x rest, m = keep (some w) (x :: rest)) ∨
    ∀ ρ g args input o, pipe g args input m o = pipe g args input (keep none []) o ∧
      pipe g args input (m.reorigin ρ) o = pipe g args input (keep none []) o

theorem unnumbered_of_spreads {pipe : Pipe} {keep : Option Walker → List Nat → Memory}
    {items : Graph → List Arg → Walker → Origins → List Nat} {land : Graph → Nat → Nat}
    (h : Spreads pipe keep items land)
    (hitems : ∀ {g args w ρ o o'}, o.Embeds ρ o' → w.origin < o.size →
      items g args (w.reorigin ρ) o' = items g args w o) :
    pipe.Unnumbered := by
  refine unnumbered_of_same fun g args input m ρ o o' ho hinput hm => ?_
  have hkept : ∀ {source : Option Walker} {rest}, (∀ w ∈ source, w.origin < o.size) →
      ∀ w ∈ (keep source rest).walkers, w.origin < o.size := by
    intro source rest hsource w hw
    rw [h.walkers, Option.mem_toList] at hw
    exact hsource w hw
  have hrest : ∀ source : Option Walker, (∀ w ∈ source, w.origin < o.size) →
      (pipe g args input (keep source []) o).origins.size = o.size ∧
      (pipe g args input (keep source []) o).Renamed ρ
        (pipe g args (input.map (Walker.reorigin ρ))
          (keep (source.map (Walker.reorigin ρ)) []) o') := by
    intro source hsource
    cases input with
    | none =>
      rw [Option.map_none, h.idle, h.idle]
      exact ⟨rfl, rfl, (h.reorigin ρ _ _).symm, ho, by rintro _ ⟨⟩, hkept hsource⟩
    | some w =>
      have hw := hinput w rfl
      rw [Option.map_some, h.turn, h.turn, hitems ho hw]
      split
      · exact ⟨rfl, rfl, (h.reorigin ρ (some w) _).symm, ho, by rintro _ ⟨⟩, hkept hinput⟩
      · exact ⟨rfl, rfl, (h.reorigin ρ (some w) _).symm, ho, by rintro _ ⟨⟩; exact hw, hkept hinput⟩
  obtain ⟨source, rfl⟩ | ⟨w, x, rest, rfl⟩ | hother := h.other m
  · rw [h.reorigin]
    refine hrest source fun w hw => hm w ?_
    rw [h.walkers]
    exact Option.mem_toList.mpr hw
  · have hw : w.origin < o.size := hm w (by simp [h.walkers])
    rw [h.reorigin, Option.map_some, h.offer, h.offer]
    refine ⟨rfl, rfl, (h.reorigin ρ (some w) _).symm, ho, by rintro _ ⟨⟩; exact hw, hkept ?_⟩
    rintro _ ⟨⟩
    exact hw
  · rw [(hother ρ g args input o).1, (hother ρ g args _ o').2]
    exact hrest none (by rintro _ ⟨⟩)

theorem unnumbered_cross (d : Direction) : (cross d).Unnumbered := by
  have hspreads : Spreads (cross d) .crossing
      (fun g args w _ => (crossed g args d w.vertex).reverse) (landing · d) := by
    refine ⟨fun _ _ _ _ _ _ _ => rfl, ?_, ?_, fun _ _ _ => rfl, fun _ _ => rfl, ?_⟩
    · intro g args source o
      cases source <;> rfl
    · intro g args source w o
      cases source <;> rfl
    · intro m
      cases m with
      | crossing source edges =>
        cases edges with
        | nil => exact .inl ⟨source, rfl⟩
        | cons edge rest =>
          cases source with
          | none => exact .inr (.inr fun _ _ _ _ _ => ⟨rfl, rfl⟩)
          | some w => exact .inr (.inl ⟨w, edge, rest, rfl⟩)
      | _ => exact .inr (.inr fun _ _ _ _ _ => ⟨rfl, rfl⟩)
  exact unnumbered_of_spreads hspreads fun _ _ => rfl

theorem unnumbered_merge : merge.Unnumbered := by
  have hspreads : Spreads merge .spread
      (fun _ args w o => (targets args o w).reverse) (fun _ v => v) := by
    refine ⟨fun _ _ _ _ _ _ _ => rfl, ?_, ?_, fun _ _ _ => rfl, fun _ _ => rfl, ?_⟩
    · intro g args source o
      cases source <;> rfl
    · intro g args source w o
      cases source <;> rfl
    · intro m
      cases m with
      | spread source vertices =>
        cases vertices with
        | nil => exact .inl ⟨source, rfl⟩
        | cons v rest =>
          cases source with
          | none => exact .inr (.inr fun _ _ _ _ _ => ⟨rfl, rfl⟩)
          | some w => exact .inr (.inl ⟨w, v, rest, rfl⟩)
      | _ => exact .inr (.inr fun _ _ _ _ _ => ⟨rfl, rfl⟩)
  refine unnumbered_of_spreads hspreads fun ho hw => ?_
  rw [targets, targets, ho.bound? hw]

theorem unnumbered_unique : unique.Unnumbered := by
  refine unnumbered_of_same fun g args input m ρ o o' ho hinput hm => ?_
  cases input with
  | none => exact ⟨rfl, rfl, rfl, ho, nofun, hm⟩
  | some w =>
    obtain ⟨seen, hsame, hsame'⟩ : ∃ seen,
        unique g args (some w) m o = unique g args (some w) (.seen seen) o ∧
        unique g args (some (w.reorigin ρ)) (m.reorigin ρ) o' =
          unique g args (some (w.reorigin ρ)) (.seen seen) o' := by
      cases m with
      | seen seen => exact ⟨seen, rfl, rfl⟩
      | _ => exact ⟨[], rfl, rfl⟩
    rw [hsame, Option.map_some, hsame']
    have hpass : ∀ v ∈ (Reply.walker w).walker?, v.origin < o.size := by
      rintro _ ⟨⟩
      exact hinput w rfl
    unfold unique
    dsimp only [Walker.reorigin]
    split
    · exact ⟨rfl, rfl, rfl, ho, nofun, nofun⟩
    · exact ⟨rfl, rfl, rfl, ho, hpass, nofun⟩

theorem unnumbered_take : take.Unnumbered := by
  refine unnumbered_of_same fun g args input m ρ o o' ho hinput hm => ?_
  obtain ⟨count, hsame, hsame'⟩ : ∃ count,
      take g args input m o = take g args input (.taken count) o ∧
      take g args (input.map (Walker.reorigin ρ)) (m.reorigin ρ) o' =
        take g args (input.map (Walker.reorigin ρ)) (.taken count) o' := by
    cases m with
    | taken count => exact ⟨count, rfl, rfl⟩
    | _ => exact ⟨0, rfl, rfl⟩
  rw [hsame, hsame']
  unfold take
  dsimp only
  split
  · exact ⟨rfl, rfl, rfl, ho, nofun, nofun⟩
  · cases input with
    | none => exact ⟨rfl, rfl, rfl, ho, nofun, nofun⟩
    | some w => exact ⟨rfl, rfl, rfl, ho, hinput, nofun⟩

theorem unnumbered_shout : shout.Unnumbered :=
  unnumbered_stateless fun _ _ _ _ _ _ ho _ => ⟨rfl, ho, rfl, by rintro _ ⟨⟩; rfl⟩

theorem unnumbered_drop : drop.Unnumbered :=
  unnumbered_stateless fun _ _ _ _ _ _ ho _ => ⟨rfl, ho, rfl, nofun⟩

theorem unnumbered_stop : stop.Unnumbered :=
  unnumbered_of_same fun _ _ _ _ _ _ _ ho _ hm => ⟨rfl, rfl, rfl, ho, nofun, hm⟩

theorem unnumbered_constant : constant.Unnumbered :=
  unnumbered_stateless fun _ _ _ _ _ _ ho _ => ⟨rfl, ho, rfl, by rintro _ ⟨⟩; rfl⟩

theorem unnumbered_bindings : bindings.Unnumbered := by
  refine unnumbered_stateless fun g args w ρ o o' ho hw => ⟨rfl, ho, ?_, by rintro _ ⟨⟩; rfl⟩
  dsimp only
  rw [ho.bindings hw]
  rfl

theorem unnumbered_fresh : fresh.Unnumbered := by
  intro g args input m ρ o o' ho hinput hm
  cases input with
  | none => exact ⟨Nat.le_refl _, ρ, fun _ _ => rfl, rfl, rfl, ho, nofun, hm⟩
  | some w =>
    obtain ⟨ρ', hold, hembeds, hwalker⟩ := ho.start w.vertex
    have hsize : (o.start w.vertex).2.size = o.size + 1 := Array.size_push ∅
    refine ⟨hsize ▸ Nat.le_succ _, ρ', hold, congrArg Reply.walker hwalker,
      (Memory.reorigin_congr hold hm).symm, hembeds, ?_, fun v hv => ?_⟩
    · rintro _ ⟨⟩
      exact hsize ▸ Nat.lt_succ_self _
    · exact hsize ▸ Nat.lt_succ_of_lt (hm v hv)

theorem unnumbered_twice : twice.Unnumbered := by
  refine unnumbered_of_same fun g args input m ρ o o' ho hinput hm => ?_
  have hrest : ∀ value, (twice g args input (.own value []) o).origins.size = o.size ∧
      (twice g args input (.own value []) o).Renamed ρ
        (twice g args (input.map (Walker.reorigin ρ)) (.own value []) o') := by
    intro value
    cases input with
    | none => exact ⟨rfl, rfl, rfl, ho, nofun, nofun⟩
    | some w =>
      refine ⟨rfl, rfl, rfl, ho, hinput, fun v hv => ?_⟩
      obtain rfl := List.mem_singleton.mp hv
      exact hinput v rfl
  cases m with
  | own value walkers =>
    cases walkers with
    | nil => exact hrest value
    | cons w rest =>
      exact ⟨rfl, rfl, rfl, ho, by rintro _ ⟨⟩; exact hm w List.mem_cons_self, nofun⟩
  | _ => cases input <;> exact hrest .null

end Pipe

/-- The pipes that every graph knows. -/
theorem PipeKind.unnumbered_pipe (kind : PipeKind) : kind.pipe.Unnumbered := by
  cases kind with
  | vertex => exact Pipe.unnumbered_vertex
  | cross d => exact Pipe.unnumbered_cross d
  | property => exact Pipe.unnumbered_property
  | unique => exact Pipe.unnumbered_unique
  | filter => exact Pipe.unnumbered_filter
  | take => exact Pipe.unnumbered_take
  | bind => exact Pipe.unnumbered_bind
  | back => exact Pipe.unnumbered_back
  | except => exact Pipe.unnumbered_except
  | merge => exact Pipe.unnumbered_merge
  | other => exact Pipe.unnumbered_passthrough

theorem Registry.unnumbered_standard (name : String) :
    ∀ pipe ∈ Registry.standard.pipe? name, pipe.Unnumbered := by
  intro pipe hpipe
  have hkind := PipeKind.pipe_ofName name
  rw [Option.mem_def.mp hpipe, Option.getD_some] at hkind
  rw [hkind]
  exact (PipeKind.ofName name).unnumbered_pipe

end GraphWalk
