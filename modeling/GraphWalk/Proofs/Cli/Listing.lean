import GraphWalk.Proofs.Cli.Stores

/-!
# The edges listed at a vertex

Asked for both directions, a listing has the edges that leave the vertex and behind them those that
enter it. No edge is left out that has an end at the vertex, and no other is listed, but a loop is
on both lists. `edges_listed`: the rows are those that name the vertex in the list of all edges and,
once more, those of its loops; so they are no more than the former exactly if there is no loop.
-/

namespace GraphWalk

/-- Carries the label that is asked for, if one is. -/
def Edge.carries (label : Option String) (e : Edge) : Bool := label.isNone || e.label == label

/-- Has an end at the vertex. -/
def Edge.isAt (u : Nat) (e : Edge) : Bool := e.tail = u || e.head = u

/-- Has both ends at the vertex. -/
def Edge.isLoopAt (u : Nat) (e : Edge) : Bool := e.tail = u && e.head = u

-- ---------------------------------------------------------------------------
-- Edges
-- ---------------------------------------------------------------------------

theorem perm_filter_append {α : Type} (p q : α → Bool) (l : List α) :
    (l.filter p ++ l.filter q).Perm
      ((l.filter fun a => p a || q a) ++ l.filter fun a => p a && q a) := by
  have hsum := Multiset.filter_add_filter (p · = true) (q · = true) (l : Multiset α)
  simpa only [Multiset.filter_coe, Multiset.coe_add, Multiset.coe_eq_coe, Bool.decide_or,
    Bool.decide_and, Bool.decide_eq_true] using hsum

/-- Whatever limit has room for a part of a list leaves just that part exactly if there is no
more. -/
theorem forall_take_perm_iff {α : Type} {l part more : List α} {n : Nat}
    (hperm : l.Perm (part ++ more)) (hpart : part.length ≤ n) :
    (∀ limit, n ≤ limit → (l.take limit).Perm part) ↔ more = [] := by
  have hlength := hperm.length_eq
  rw [List.length_append] at hlength
  constructor
  · -- a limit that cuts nothing off leaves no room for more
    intro hall
    have hcut := (hall (n + l.length) (Nat.le_add_right _ _)).length_eq
    rw [List.take_of_length_le (Nat.le_add_left _ _)] at hcut
    exact List.length_eq_zero_iff.mp (by omega)
  · rintro rfl limit hlimit
    rw [List.append_nil] at hperm
    rwa [List.take_of_length_le (hperm.length_eq ▸ hpart.trans hlimit)]

namespace Graph

variable {g : Graph} {u v : Nat}

/-- The edges that carry the label, in the order in which they were added. -/
def labelled (g : Graph) (label : Option String) : List Edge :=
  g.edges.toList.filter (Edge.carries label)

/-- The edges of the label that leave a vertex, and then those that enter it. -/
def both (g : Graph) (u : Nat) (label : Option String) : List Edge :=
  (g.labelled label).filter (·.tail = u) ++ (g.labelled label).filter (·.head = u)

/-- They are the edges at the vertex, and the loops once more. -/
theorem both_perm (g : Graph) (u : Nat) (label : Option String) :
    (g.both u label).Perm ((g.labelled label).filter (Edge.isAt u) ++
      (g.labelled label).filter (Edge.isLoopAt u)) :=
  perm_filter_append _ _ _

theorem Sound.both_eq (h : g.Sound) (u : Nat) (label : Option String) :
    (([Direction.outgoing, .incoming].flatMap (g.adjacent u)).filterMap (g.edges[·]?)).filter
      (Edge.carries label) = g.both u label := by
  simp only [both, labelled, List.flatMap_cons, List.flatMap_nil, List.append_nil, h.adjacent,
    List.filterMap_append, filterMap_incident, List.filter_append]
  rw [List.filter_comm, List.filter_comm (Edge.carries label)]
  rfl

theorem length_labelled_le (g : Graph) (label : Option String) :
    (g.labelled label).length ≤ g.edges.size :=
  List.length_filter_le _ _

theorem filter_isLoopAt_eq_nil (g : Graph) (u : Nat) (label : Option String) :
    (g.labelled label).filter (Edge.isLoopAt u) = [] ↔
      ∀ e ∈ g.edges, e.carries label → e.isLoopAt u = false := by
  rw [List.filter_eq_nil_iff]
  constructor
  · intro h e he hcarries
    exact Bool.eq_false_iff.mpr (h e (List.mem_filter.mpr ⟨he.val, hcarries⟩))
  · intro h e he
    obtain ⟨hmem, hcarries⟩ := List.mem_filter.mp he
    exact Bool.eq_false_iff.mp (h e (Array.mem_toList_iff.mp hmem) hcarries)

theorem Sound.idOf_inj (h : g.Sound) (hu : u < g.vertices.size) (hv : v < g.vertices.size) :
    g.idOf u = g.idOf v ↔ u = v := by
  refine ⟨fun hid => ?_, fun heq => heq ▸ rfl⟩
  have hfound := h.shows_idOf hu
  rw [hid, h.shows_idOf hv] at hfound
  exact (Option.some.inj hfound).symm

end Graph

theorem VertexId.toJson_beq (a b : VertexId) : (a.toJson == b.toJson) = decide (a = b) := by
  cases a with
  | int m =>
    cases b with
    | int n => exact (Bool.beq_eq_decide_eq m n).trans (by simp)
    | text t => rfl
  | text s =>
    cases b with
    | int n => rfl
    | text t => exact (Bool.beq_eq_decide_eq s t).trans (by simp)

namespace Cli

variable {c : Context} {s : Store} {g : Graph} {u : Nat} {e : Edge} {label : Option String}

-- ---------------------------------------------------------------------------
-- Rows
-- ---------------------------------------------------------------------------

/-- The row of an edge names the vertex of an id at one of the ends. -/
def namesEnd (id : VertexId) (row : Json) : Bool :=
  row.field? "_out" == some id.toJson || row.field? "_in" == some id.toJson

/-- The row of an edge names the vertex of an id at both ends. -/
def namesBoth (id : VertexId) (row : Json) : Bool :=
  row.field? "_out" == some id.toJson && row.field? "_in" == some id.toJson

theorem field?_edgeRow (g : Graph) (e : Edge) :
    (edgeRow g e).field? "_out" = some (g.idOf e.tail).toJson ∧
      (edgeRow g e).field? "_in" = some (g.idOf e.head).toJson := by
  have hfield : ∀ name, (edgeRow g e).field? name = _ := fun name => Table.get?_ofList _ name
  constructor
  · rw [hfield]
    rfl
  · rw [hfield]
    rfl

theorem names_edgeRow (h : g.Sound) (hu : u < g.vertices.size) (he : e ∈ g.edges) :
    namesEnd (g.idOf u) (edgeRow g e) = e.isAt u ∧
      namesBoth (g.idOf u) (edgeRow g e) = e.isLoopAt u := by
  have hend : ∀ d, (some (g.idOf (e.endpoint d)).toJson == some (g.idOf u).toJson) =
      decide (e.endpoint d = u) := by
    intro d
    show ((g.idOf (e.endpoint d)).toJson == (g.idOf u).toJson) = _
    simp only [VertexId.toJson_beq, h.idOf_inj (h.endpoint_lt e he d) hu]
  obtain ⟨hout, hin⟩ := field?_edgeRow g e
  constructor
  · rw [namesEnd, hout, hin]
    exact congrArg₂ _ (hend .outgoing) (hend .incoming)
  · rw [namesBoth, hout, hin]
    exact congrArg₂ _ (hend .outgoing) (hend .incoming)

/-- The rows of the edges at a vertex are the rows that name it. -/
theorem filter_edgeRow (h : g.Sound) (hu : u < g.vertices.size) (label : Option String) :
    ((g.labelled label).map (edgeRow g)).filter (namesEnd (g.idOf u)) =
        ((g.labelled label).filter (Edge.isAt u)).map (edgeRow g) ∧
      ((g.labelled label).map (edgeRow g)).filter (namesBoth (g.idOf u)) =
        ((g.labelled label).filter (Edge.isLoopAt u)).map (edgeRow g) := by
  have hmem : ∀ e ∈ g.labelled label, e ∈ g.edges := fun e he =>
    Array.mem_toList_iff.mp (List.mem_filter.mp he).1
  rw [List.filter_map, List.filter_map]
  constructor
  · exact congrArg _ (List.filter_congr fun e he => (names_edgeRow h hu (hmem e he)).1)
  · exact congrArg _ (List.filter_congr fun e he => (names_edgeRow h hu (hmem e he)).2)

-- ---------------------------------------------------------------------------
-- The command
-- ---------------------------------------------------------------------------

/-- A command succeeds, keeps the store and shows rows of edges, or says that there are none. -/
def Lists (c : Context) (s : Store) (command : Command) (rows : List Json) : Prop :=
  command.onStore? c s = some (.ok (printed s [rowsOr c rows ["_out", "_label", "_in", "properties"]
    s!"No edges found in graph '{c.graphName}'"]))

theorem directionsOf_both : directionsOf "both" = .ok [.outgoing, .incoming] := by
  have hlower : Text.lower "both" = "both" := by decide +kernel
  rw [directionsOf, hlower]
  rfl

theorem lists_of_listedEdges (hload : c.load s = .ok g) {vertex : Option String}
    {edges : List Edge}
    (hlisted : listedEdges c g vertex [.outgoing, .incoming] = .ok edges) (limit : Nat) :
    Lists c s (.edgeList vertex "both" label limit)
      (((edges.filter (Edge.carries label)).take limit).map (edgeRow g)) := by
  show some (listEdges c s vertex "both" label limit) = _
  rw [listEdges, hload, directionsOf_both]
  show some (listedEdges c g vertex [.outgoing, .incoming] >>= _) = _
  rw [hlisted]
  rfl

theorem lists_all (hload : c.load s = .ok g) (label : Option String) {limit : Nat}
    (hlimit : g.edges.size ≤ limit) :
    Lists c s (.edgeList none "both" label limit) ((g.labelled label).map (edgeRow g)) := by
  have hlisted : listedEdges c g none [.outgoing, .incoming] = .ok g.edges.toList := rfl
  have hlength : (g.labelled label).length ≤ limit := (g.length_labelled_le label).trans hlimit
  rw [← List.take_of_length_le hlength]
  exact lists_of_listedEdges hload hlisted limit

theorem lists_both (hload : c.load s = .ok g) {word : String}
    (hfind : g.find? (VertexId.ofWord word) = some u) (label : Option String) (limit : Nat) :
    Lists c s (.edgeList (some word) "both" label limit)
      (((g.both u label).take limit).map (edgeRow g)) := by
  rw [← (loadedFrom_of_load hload).sound.both_eq]
  refine lists_of_listedEdges hload ?_ limit
  rw [listedEdges, hfind]

/-- A listing at a vertex shows the edges that leave it and then those that enter it, as far as the
limit goes. These are the edges with an end there and, once more, the loops; by their rows, those
of the list of all edges that name the vertex and, once more, those that name it twice. So where the
limit takes in all edges of the graph, each edge at the vertex is shown once and no other exactly if
none is a loop. With a loop there is a row too many, and a limit without room for it drops that row
or another's. -/
theorem edges_listed (hload : c.load s = .ok g) {word : String}
    (hfind : g.find? (VertexId.ofWord word) = some u) (label : Option String) :
    let shown := (g.both u label).map (edgeRow g)
    let all := (g.labelled label).map (edgeRow g)
    (∀ limit, Lists c s (.edgeList (some word) "both" label limit) (shown.take limit)) ∧
    (∀ limit, g.edges.size ≤ limit → Lists c s (.edgeList none "both" label limit) all) ∧
    (g.both u label).Perm ((g.labelled label).filter (Edge.isAt u) ++
      (g.labelled label).filter (Edge.isLoopAt u)) ∧
    shown.Perm (all.filter (namesEnd (g.idOf u)) ++ all.filter (namesBoth (g.idOf u))) ∧
    ((∀ limit, g.edges.size ≤ limit →
        (shown.take limit).Perm (all.filter (namesEnd (g.idOf u)))) ↔
      ∀ e ∈ g.edges, e.carries label → e.isLoopAt u = false) := by
  intro shown all
  have hsound := (loadedFrom_of_load hload).sound
  obtain ⟨hends, hloops⟩ := filter_edgeRow hsound (hsound.find?_lt hfind) label
  have hperm : shown.Perm (all.filter (namesEnd (g.idOf u)) ++
      all.filter (namesBoth (g.idOf u))) := by
    rw [hends, hloops, ← List.map_append]
    exact (g.both_perm u label).map _
  have hnames : (all.filter (namesEnd (g.idOf u))).length ≤ g.edges.size := by
    refine (List.length_filter_le _ _).trans ?_
    rw [List.length_map]
    exact g.length_labelled_le label
  refine ⟨fun limit => ?_, fun limit => lists_all hload label, g.both_perm u label, hperm, ?_⟩
  · rw [← List.map_take]
    exact lists_both hload hfind label limit
  · rw [forall_take_perm_iff hperm hnames, hloops, List.map_eq_nil_iff, g.filter_isLoopAt_eq_nil]

/-- A vertex with a loop and, behind it, an edge from another vertex. -/
def looping : Graph :=
  let vertices := ((∅ : Graph).insertVertex (.int 1) ∅).insertVertex (.int 2) ∅
  (vertices.insertEdge ⟨none, 0, 0, ∅⟩).insertEdge ⟨none, 1, 0, ∅⟩

/-- The loop is shown twice, and within the limit of two rows the other edge is not. -/
theorem edges_listed_looping : ∃ g loop other,
    plain.load (plain.save ∅ looping) = .ok g ∧ g.find? (VertexId.ofWord "1") = some 0 ∧
      g.edges.toList = [loop, other] ∧ loop.isLoopAt 0 ∧ other.isAt 0 ∧
      Lists plain (plain.save ∅ looping) (.edgeList none "both" none 2)
        ([loop, other].map (edgeRow g)) ∧
      Lists plain (plain.save ∅ looping) (.edgeList (some "1") "both" none 2)
        ([loop, loop].map (edgeRow g)) ∧
      Lists plain (plain.save ∅ looping) (.edgeList (some "1") "both" none 3)
        ([loop, loop, other].map (edgeRow g)) := by
  obtain ⟨g, hload, hends⟩ : ∃ g, plain.load (plain.save ∅ looping) = .ok g ∧
      (g.find? (VertexId.ofWord "1"), g.edges.toList.map fun e => (e.tail, e.head)) =
        (some 0, [(0, 0), (1, 0)]) := by
    have hends : (plain.load (plain.save ∅ looping)).toOption.map (fun g =>
        (g.find? (VertexId.ofWord "1"), g.edges.toList.map fun e => (e.tail, e.head))) =
          some (some 0, [(0, 0), (1, 0)]) := by decide +kernel
    cases hload : plain.load (plain.save ∅ looping) with
    | ok g => exact ⟨g, rfl, by simpa [hload, Except.toOption] using hends⟩
    | error cause => simp [hload, Except.toOption] at hends
  obtain ⟨hfind, hends⟩ := Prod.mk.inj hends
  obtain ⟨loop, rest, hedges, hloop, hrest⟩ := List.map_eq_cons_iff.mp hends
  obtain ⟨other, rfl, hother⟩ := List.map_eq_singleton_iff.mp hrest
  obtain ⟨htail, hhead⟩ := Prod.mk.inj hloop
  obtain ⟨htail', hhead'⟩ := Prod.mk.inj hother
  obtain ⟨hshown, hall, -⟩ := edges_listed hload hfind none
  have hlabelled : g.labelled none = [loop, other] := by
    rw [Graph.labelled, hedges]
    rfl
  have hboth : g.both 0 none = [loop, loop, other] := by
    simp [Graph.both, hlabelled, htail, hhead, htail', hhead']
  have hsize : g.edges.size = 2 := by
    rw [← Array.length_toList, hedges]
    rfl
  rw [hboth] at hshown
  rw [hlabelled, hsize] at hall
  exact ⟨g, loop, other, hload, hfind, hedges, by simp [Edge.isLoopAt, htail, hhead],
    by simp [Edge.isAt, hhead'], hall 2 (Nat.le_refl 2), hshown 2, hshown 3⟩

end Cli

end GraphWalk
