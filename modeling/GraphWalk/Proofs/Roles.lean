import GraphWalk.Proofs.Line
import GraphWalk.Walk.Registry

/-!
# The roles of the pipes

Each pipe of the standard registry plays a role: `vertex` is a source, `take` a gate, all others
are relays. What a relay does with a walker is said by `moves`, of what can be seen of the
walker alone; how walkers carry their bindings is left to a `Carrier`. `ask_pipe` says that a pipe
behaves as its role does on what its memory stands for.
-/

namespace GraphWalk

/-- The pipes of the standard registry. A step of any other name hands every walker on. -/
inductive PipeKind
  | vertex
  | cross (d : Direction)
  | property
  | unique
  | filter
  | take
  | bind
  | back
  | except
  | merge
  | other

/-- How walkers of some kind carry their bindings: at the start, when seen, when the vertex is bound
under a label, and on the way to another place. -/
structure Carrier (W σ : Type) where
  start : Nat → σ → W × σ
  sight : σ → W → Sight
  bind : σ → W → String → W × σ
  place : W → Nat × Option Json → W

/-- All walkers of one origin share a table. -/
def Carrier.shared : Carrier Walker Origins where
  start v o := o.start v
  sight o w := o.sight w
  bind o w label := (w, o.bind w label)
  place w p := ⟨p.1, w.origin, p.2⟩

namespace PipeKind

def ofName : String → PipeKind
  | "vertex" => vertex
  | "in" => cross .incoming
  | "out" => cross .outgoing
  | "property" => property
  | "unique" => unique
  | "filter" => filter
  | "take" => take
  | "as" => bind
  | "back" => back
  | "except" => except
  | "merge" => merge
  | _ => other

def pipe : PipeKind → Pipe
  | vertex => Pipe.vertex
  | cross d => Pipe.cross d
  | property => Pipe.property
  | unique => Pipe.unique
  | filter => Pipe.filter
  | take => Pipe.take
  | bind => Pipe.bind
  | back => Pipe.back
  | except => Pipe.except
  | merge => Pipe.merge
  | other => Pipe.passthrough

theorem pipe_ofName (name : String) :
    (Registry.standard.pipe? name).getD Pipe.passthrough = (ofName name).pipe := by
  simp only [Registry.standard, List.foldl_cons, List.foldl_nil, Registry.pipe?_addPipe]
  have hempty : Registry.empty.pipe? name = none := rfl
  fun_cases ofName name with
  | case12 =>
    simp_all [pipe, eq_comm (b := name)]
  | _ => simp [pipe]

def limit? (args : List Arg) : PipeKind → Option Nat
  | take => Pipe.limit? args
  | _ => none

def label? (args : List Arg) : PipeKind → Option String
  | bind => firstString? args
  | _ => none

def keeps (g : Graph) (args : List Arg) (s : Sight) : Bool :=
  match args.head? with
  | some (.value (.obj wanted)) => (g.vertices[s.vertex]?.getD default).fits wanted
  | some (.predicate test) => test (g.vertices[s.vertex]?.getD default) s
  | _ => true

def value? (g : Graph) (args : List Arg) (vertex : Nat) : Option Json := do
  (← g.vertices[vertex]?).get? (← firstString? args)

/-- Where a walker goes on, first to be offered first: the vertex, and the result there. -/
def moves (g : Graph) (args : List Arg) (seen : List Nat) (s : Sight) :
    PipeKind → List (Nat × Option Json)
  | cross d =>
    (Pipe.crossed g args d s.vertex).reverse.map fun edge => (Pipe.landing g d edge, none)
  | property =>
    match value? g args s.vertex with
    | some v => if v.isNull then [] else [(s.vertex, some v)]
    | none => []
  | unique => if seen.contains s.vertex then [] else [(s.vertex, s.result)]
  | filter => if keeps g args s then [(s.vertex, s.result)] else []
  | back => ((firstString? args).bind s.bindings.get?).toList.map (·, none)
  | except =>
    if (firstString? args).bind s.bindings.get? == some s.vertex then []
    else [(s.vertex, s.result)]
  | merge => ((args.filterMap Arg.string?).filterMap s.bindings.get?).reverse.map (·, none)
  | vertex | take | bind | other => [(s.vertex, s.result)]

/-- The vertices seen once a walker has come by. -/
def remembers (seen : List Nat) (vertex : Nat) : PipeKind → List Nat
  | unique => if seen.contains vertex then seen else vertex :: seen
  | _ => seen

def isProperty : PipeKind → Bool
  | property => true
  | _ => false

section
variable {W σ : Type} (c : Carrier W σ) (g : Graph) (args : List Arg)

/-- The walker and what is shared once the step has bound its label. -/
def bound (w : W) (s : σ) (kind : PipeKind) : W × σ :=
  match kind.label? args with
  | some label => c.bind s w label
  | none => (w, s)

def follow (kind : PipeKind) (seen : List Nat) (w : W) (s : σ) : Onward W σ :=
  let sight := c.sight s w
  let (w, s) := kind.bound c args w s
  ⟨(kind.moves g args seen sight).map (c.place w), kind.remembers seen sight.vertex, s⟩

def role : PipeKind → Role W σ
  | vertex => .source c.start
  | take => .gate (Pipe.limit? args)
  | kind => .relay (kind.follow c g args) kind.isProperty

end

/-- What a memory stands for. The memory of another kind of pipe stands for none. -/
def stock (g : Graph) (args : List Arg) : PipeKind → Memory → Stock Walker
  | vertex, .candidates waiting => { waiting }
  | vertex, _ => { waiting := (g.select args).1.reverse }
  | cross d, .crossing (some w) edges =>
    { pending := edges.map fun edge => w.goto (Pipe.landing g d edge) }
  | merge, .spread (some w) vertices => { pending := vertices.map w.goto }
  | unique, .seen seen => { seen }
  | take, .taken passed => { passed }
  | _, _ => {}

section
variable (g : Graph) (args : List Arg) (d : Direction) (w : Walker) (o : Origins)

theorem follow_cross (seen : List Nat) : (cross d).follow .shared g args seen w o =
    ⟨(Pipe.crossed g args d w.vertex).reverse.map fun edge => w.goto (Pipe.landing g d edge),
      seen, o⟩ := by
  simp only [follow, moves, bound, label?, remembers, List.map_map]
  rfl

theorem follow_merge (seen : List Nat) : merge.follow .shared g args seen w o =
    ⟨(Pipe.targets args o w).reverse.map w.goto, seen, o⟩ := by
  simp only [follow, moves, bound, label?, remembers, List.map_map]
  rfl

theorem follow_unique (seen : List Nat) : unique.follow .shared g args seen w o =
    if seen.contains w.vertex then ⟨[], seen, o⟩ else ⟨[w], w.vertex :: seen, o⟩ := by
  show (⟨(if seen.contains w.vertex then [] else [(w.vertex, w.result)]).map
      (Carrier.shared.place w), if seen.contains w.vertex then seen else w.vertex :: seen, o⟩ :
        Onward Walker Origins) = _
  split <;> rfl

theorem follow_valueless (seen : List Nat) (h : value? g args w.vertex = none) :
    property.follow .shared g args seen w o = ⟨[], seen, o⟩ := by
  have hmoves : property.moves g args seen (o.sight w) = [] := by
    show (match value? g args w.vertex with | some v => _ | none => _) = _
    rw [h]
  show (⟨(property.moves g args seen (o.sight w)).map _, seen, o⟩ : Onward Walker Origins) = _
  rw [hmoves]
  rfl

theorem follow_value {v : Json} (seen : List Nat) (h : value? g args w.vertex = some v) :
    property.follow .shared g args seen w o =
      ⟨if v.isNull then [] else [{ w with result := some v }], seen, o⟩ := by
  have hmoves : property.moves g args seen (o.sight w) =
      if v.isNull then [] else [(w.vertex, some v)] := by
    show (match value? g args w.vertex with | some v => _ | none => _) = _
    rw [h]
    rfl
  show (⟨(property.moves g args seen (o.sight w)).map _, seen, o⟩ : Onward Walker Origins) = _
  rw [hmoves]
  split <;> rfl

theorem follow_filter (seen : List Nat) : filter.follow .shared g args seen w o =
    ⟨if keeps g args (o.sight w) then [w] else [], seen, o⟩ := by
  show (⟨(if keeps g args (o.sight w) then [(w.vertex, w.result)] else []).map
      (Carrier.shared.place w), seen, o⟩ : Onward Walker Origins) = _
  split <;> rfl

theorem follow_except (seen : List Nat) : except.follow .shared g args seen w o =
    ⟨if (firstString? args).bind (o.bound? w) == some w.vertex then [] else [w], seen, o⟩ := by
  show (⟨(if (firstString? args).bind (o.bound? w) == some w.vertex then []
      else [(w.vertex, w.result)]).map (Carrier.shared.place w), seen, o⟩ :
        Onward Walker Origins) = _
  split <;> rfl

end

theorem ask_cross (g : Graph) (args : List Arg) (d : Direction) (input : Option Walker)
    (m : Memory) (o : Origins) :
    ((cross d).role .shared g args).ask input ((cross d).stock g args m) o =
      ((Pipe.cross d g args input m o).reply,
        (cross d).stock g args (Pipe.cross d g args input m o).memory,
        (Pipe.cross d g args input m o).origins) := by
  -- Unless something is still to be offered, the pipe does what it does with a new memory.
  have hrest : ∀ source, ((cross d).role .shared g args).ask input {} o =
      ((Pipe.cross d g args input (.crossing source []) o).reply,
        (cross d).stock g args (Pipe.cross d g args input (.crossing source []) o).memory,
        (Pipe.cross d g args input (.crossing source []) o).origins) := by
    intro source
    cases input with
    | none => cases source <;> rfl
    | some w =>
      simp only [role, Role.ask, follow_cross, Pipe.cross]
      cases (Pipe.crossed g args d w.vertex).reverse <;> rfl
  cases m with
  | crossing source edges =>
    cases source with
    | none =>
      cases input <;> exact hrest none
    | some w =>
      cases edges with
      | nil => exact hrest (some w)
      | cons edge rest => rfl
  | _ => exact hrest none

theorem ask_merge (g : Graph) (args : List Arg) (input : Option Walker) (m : Memory)
    (o : Origins) :
    (merge.role .shared g args).ask input (merge.stock g args m) o =
      ((Pipe.merge g args input m o).reply,
        merge.stock g args (Pipe.merge g args input m o).memory,
        (Pipe.merge g args input m o).origins) := by
  have hrest : ∀ source, (merge.role .shared g args).ask input {} o =
      ((Pipe.merge g args input (.spread source []) o).reply,
        merge.stock g args (Pipe.merge g args input (.spread source []) o).memory,
        (Pipe.merge g args input (.spread source []) o).origins) := by
    intro source
    cases input with
    | none => cases source <;> rfl
    | some w =>
      simp only [role, Role.ask, follow_merge, Pipe.merge]
      cases (Pipe.targets args o w).reverse <;> rfl
  cases m with
  | spread source vertices =>
    cases source with
    | none => cases input <;> exact hrest none
    | some w =>
      cases vertices with
      | nil => exact hrest (some w)
      | cons v rest => rfl
  | _ => exact hrest none

theorem ask_unique (g : Graph) (args : List Arg) (input : Option Walker) (m : Memory)
    (o : Origins) :
    (unique.role .shared g args).ask input (unique.stock g args m) o =
      ((Pipe.unique g args input m o).reply,
        unique.stock g args (Pipe.unique g args input m o).memory,
        (Pipe.unique g args input m o).origins) := by
  have hseen : ∀ w seen, (unique.role .shared g args).ask (some w) { seen } o =
      ((Pipe.unique g args (some w) (.seen seen) o).reply,
        unique.stock g args (Pipe.unique g args (some w) (.seen seen) o).memory,
        (Pipe.unique g args (some w) (.seen seen) o).origins) := by
    intro w seen
    have hfollow := follow_unique g args w o seen
    by_cases h : seen.contains w.vertex = true
    · have hpipe : Pipe.unique g args (some w) (.seen seen) o = ⟨.pull, .seen seen, o, []⟩ :=
        if_pos h
      rw [hpipe]
      exact Role.ask_relay_nil rfl (hfollow.trans (if_pos h))
    · have hpipe : Pipe.unique g args (some w) (.seen seen) o =
          ⟨.walker w, .seen (w.vertex :: seen), o, []⟩ := if_neg h
      rw [hpipe]
      exact Role.ask_relay_cons rfl (hfollow.trans (if_neg h))
  cases input with
  | none => cases m <;> rfl
  | some w =>
    cases m with
    | seen seen => exact hseen w seen
    | _ => exact hseen w []

theorem ask_take (g : Graph) (args : List Arg) (input : Option Walker) (m : Memory)
    (o : Origins) :
    (take.role .shared g args).ask input (take.stock g args m) o =
      ((Pipe.take g args input m o).reply, take.stock g args (Pipe.take g args input m o).memory,
        (Pipe.take g args input m o).origins) := by
  have htaken : ∀ passed, (take.role .shared g args).ask input { passed } o =
      ((Pipe.take g args input (.taken passed) o).reply,
        take.stock g args (Pipe.take g args input (.taken passed) o).memory,
        (Pipe.take g args input (.taken passed) o).origins) := by
    intro passed
    by_cases h : (Pipe.limit? args).any (· ≤ passed) = true
    · have hpipe : Pipe.take g args input (.taken passed) o = ⟨.done, .taken 0, o, []⟩ := if_pos h
      rw [hpipe]
      exact if_pos h
    · cases input with
      | none =>
        have hpipe : Pipe.take g args none (.taken passed) o = ⟨.pull, .taken passed, o, []⟩ :=
          if_neg h
        rw [hpipe]
        exact if_neg h
      | some w =>
        have hpipe : Pipe.take g args (some w) (.taken passed) o =
            ⟨.walker w, .taken (passed + 1), o, []⟩ := if_neg h
        rw [hpipe]
        exact if_neg h
  cases m with
  | taken passed => exact htaken passed
  | _ => exact htaken 0

section
variable (g : Graph) (args : List Arg) (w : Walker) (m : Memory) (o : Origins)

theorem ask_property :
    (property.role .shared g args).ask (some w) {} o =
      ((Pipe.property g args (some w) m o).reply, {},
        (Pipe.property g args (some w) m o).origins) := by
  obtain hvalue | ⟨v, hvalue⟩ := (value? g args w.vertex).eq_none_or_eq_some
  · have hfound : (do (← g.vertices[w.vertex]?).get? (← firstString? args)) = none := hvalue
    have hpipe : Pipe.property g args (some w) m o = ⟨.nothing, m, o, []⟩ := by
      simp only [Pipe.property, Pipe.stateless, hfound]
    rw [hpipe]
    exact Role.ask_relay_nil rfl (follow_valueless g args w o [] hvalue)
  · have hfound : (do (← g.vertices[w.vertex]?).get? (← firstString? args)) = some v := hvalue
    have hfollow := follow_value g args w o [] hvalue
    have hpipe : Pipe.property g args (some w) m o =
        ⟨if v.isNull then .nothing else .walker { w with result := some v }, m, o, []⟩ := by
      simp only [Pipe.property, Pipe.stateless, hfound]
    rw [hpipe]
    by_cases h : v.isNull = true
    · rw [if_pos h] at hfollow ⊢
      exact Role.ask_relay_nil rfl hfollow
    · rw [if_neg h] at hfollow ⊢
      exact Role.ask_relay_cons rfl hfollow

theorem ask_filter :
    (filter.role .shared g args).ask (some w) {} o =
      ((Pipe.filter g args (some w) m o).reply, {},
        (Pipe.filter g args (some w) m o).origins) := by
  have hfollow := follow_filter g args w o []
  have hpipe : ∃ notices, Pipe.filter g args (some w) m o =
      ⟨if keeps g args (o.sight w) then .walker w else .pull, m, o, notices⟩ := by
    cases args with
    | nil => exact ⟨_, rfl⟩
    | cons arg rest =>
      cases arg with
      | predicate test => exact ⟨_, rfl⟩
      | value v => cases v <;> exact ⟨_, rfl⟩
  obtain ⟨notices, hpipe⟩ := hpipe
  rw [hpipe]
  by_cases h : keeps g args (o.sight w) = true
  · rw [if_pos h] at hfollow ⊢
    exact Role.ask_relay_cons rfl hfollow
  · rw [if_neg h] at hfollow ⊢
    exact Role.ask_relay_nil rfl hfollow

theorem ask_except :
    (except.role .shared g args).ask (some w) {} o =
      ((Pipe.except g args (some w) m o).reply, {},
        (Pipe.except g args (some w) m o).origins) := by
  have hfollow := follow_except g args w o []
  by_cases h : ((firstString? args).bind (o.bound? w) == some w.vertex) = true
  · have hpipe : Pipe.except g args (some w) m o = ⟨.pull, m, o, []⟩ := by
      simp only [Pipe.except, Pipe.stateless, if_pos h]
    rw [hpipe]
    rw [if_pos h] at hfollow
    exact Role.ask_relay_nil rfl hfollow
  · have hpipe : Pipe.except g args (some w) m o = ⟨.walker w, m, o, []⟩ := by
      simp only [Pipe.except, Pipe.stateless, if_neg h]
    rw [hpipe]
    rw [if_neg h] at hfollow
    exact Role.ask_relay_cons rfl hfollow

end

/-- A pipe answers as its role does, and its memory goes on standing for the stock of the role. -/
theorem ask_pipe (kind : PipeKind) (g : Graph) (args : List Arg) (input : Option Walker)
    (m : Memory) (o : Origins) :
    (kind.role .shared g args).ask input (kind.stock g args m) o =
      ((kind.pipe g args input m o).reply, kind.stock g args (kind.pipe g args input m o).memory,
        (kind.pipe g args input m o).origins) := by
  cases kind with
  | vertex =>
    cases m with
    | candidates waiting => cases waiting <;> rfl
    | _ =>
      simp only [stock, role, Role.ask, pipe, Pipe.vertex]
      cases (g.select args).1.reverse <;> rfl
  | cross d => exact ask_cross g args d input m o
  | unique => exact ask_unique g args input m o
  | take => exact ask_take g args input m o
  | merge => exact ask_merge g args input m o
  | property => cases input with
    | none => rfl
    | some w => exact ask_property g args w m o
  | filter => cases input with
    | none => rfl
    | some w => exact ask_filter g args w m o
  | except => cases input with
    | none => rfl
    | some w => exact ask_except g args w m o
  | bind => cases input with
    | none => rfl
    | some w =>
      simp only [role, Role.ask, stock, follow, moves, bound, label?, pipe, Pipe.bind,
        Pipe.stateless]
      cases firstString? args <;> rfl
  | back => cases input with
    | none => rfl
    | some w =>
      have h : (firstString? args).bind (Carrier.shared.sight o w).bindings.get? =
          (firstString? args).bind (o.bound? w) := rfl
      simp only [role, Role.ask, stock, follow, moves, bound, label?, pipe, Pipe.back,
        Pipe.stateless, h]
      cases (firstString? args).bind (o.bound? w) <;> rfl
  | other => cases input <;> rfl

end PipeKind

end GraphWalk
