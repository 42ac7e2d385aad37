import GraphWalk.Proofs.Reordering

/-!
# Both directions of an edge

A walk along the edges that leave a vertex and one along those that enter another meet the same
edges between the two, though each reads a list of its own. `crossings_converse`: as many outputs
of the one end at the second vertex as outputs of the other end at the first, and as many as there
are edges between them that pass.
-/

namespace GraphWalk

/-- The vertex of an output that is none of its values. -/
def Output.vertex? : Output → Option Nat
  | vertex number => some number
  | value _ => none

/-- How many outputs are the vertex. -/
def Output.countAt (u : Nat) (outputs : List Output) : Nat := (outputs.filterMap vertex?).count u

namespace Graph

variable {g : Graph} {j : Json} {u : Nat}

/-- The value is an id of the vertex, in either kind. -/
def Names (g : Graph) (j : Json) (u : Nat) : Prop :=
  ∃ id, VertexId.ofJson? j = some id ∧ g.find? id = some u

/-- The key of a vertex is a name for it, whatever the kind of its id. -/
theorem Sound.names_key (h : g.Sound) {v : Vertex} (hv : g.vertices[u]? = some v) :
    g.Names (.str v.id.key) u :=
  ⟨.text v.id.key, rfl, (h.index _ u).mpr ⟨v, hv, rfl⟩⟩

/-- A name alone selects its vertex, reporting nothing. -/
theorem Names.select (h : g.Names j u) : g.select [.value j] = ([u], []) := by
  obtain ⟨id, hid, hfind⟩ := h
  have hnamed : g.named [id] = [u] := List.filterMap_cons_some hfind
  have hselectors : selectors [.value j] = ([id], []) := by
    simp [selectors, VertexId.parseJson, hid]
  cases j with
  | obj fields => cases hid
  | _ => exact (congrArg (fun s => (g.named s.1, s.2)) hselectors).trans (by rw [hnamed])

/-- The edges from one vertex to another that pass the first argument of a crossing. -/
def between (g : Graph) (args : List Arg) (u w : Nat) : List Edge :=
  g.edges.toList.filter fun e => e.tail = u && e.head = w && Pipe.edgePasses g e args.head?

/-- The vertices across the edges that a walker crosses, the newest edge first. -/
def neighbours (g : Graph) (args : List Arg) (d : Direction) (u : Nat) : List Nat :=
  ((g.across args d u).map (·.endpoint d.opposite)).reverse

theorem count_neighbours (args : List Arg) (d : Direction) (u w : Nat) :
    (g.neighbours args d u).count w =
      (g.edges.toList.filter fun e => e.endpoint d = u && e.endpoint d.opposite = w
        && Pipe.edgePasses g e args.head?).length := by
  rw [neighbours, List.count_reverse, List.count_eq_countP, List.countP_map, across,
    List.countP_filter, ← List.countP_eq_length_filter]
  refine List.countP_congr fun e _ => ?_
  simp only [Function.comp_apply, Bool.and_eq_true, beq_iff_eq, decide_eq_true_eq]
  tauto

theorem count_neighbours_out (args : List Arg) (u w : Nat) :
    (g.neighbours args .outgoing u).count w = (g.between args u w).length :=
  count_neighbours args .outgoing u w

theorem count_neighbours_in (args : List Arg) (u w : Nat) :
    (g.neighbours args .incoming w).count u = (g.between args u w).length := by
  rw [count_neighbours, between]
  refine congrArg List.length (List.filter_congr fun e _ => ?_)
  exact congrArg (· && _) (Bool.and_comm (decide (e.head = w)) (decide (e.tail = u)))

end Graph

namespace Step

/-- The step that crosses edges in a direction. -/
def crossing (d : Direction) (args : List Arg) : Step := ⟨d.name, args⟩

theorem kind_crossing (d : Direction) (args : List Arg) : (crossing d args).kind = .cross d := by
  cases d <;> rfl

theorem carries_crossing (d : Direction) (args : List Arg) : (crossing d args).Carries := by
  constructor <;> rw [kind_crossing] <;> exact nofun

end Step

namespace Query

open Step (crossing kind_crossing carries_crossing)

variable {g : Graph} {j : Json} {u : Nat}

/-- A crossing binds no label. -/
theorem ordered_crossing (start args : List Arg) (d : Direction) :
    Program.Ordered [⟨"vertex", start⟩, crossing d args] := by
  refine List.pairwise_pair.mpr fun l _ hbinds => ?_
  rw [Step.Binds, kind_crossing] at hbinds
  cases hbinds

theorem walks_crossing (h : g.Sound) (d : Direction) (args : List Arg) (s : Sight) :
    (Program.walks g [crossing d args] s).map Output.ofSight =
      (g.neighbours args d s.vertex).map .vertex := by
  have hlast : ∀ ts : List Sight, ts.flatMap (Program.walks g []) = ts := fun ts =>
    List.flatMap_singleton' ts
  have hmoves : (crossing d args).kind.moves g args [] s =
      (g.neighbours args d s.vertex).map fun v => (v, none) := by
    rw [kind_crossing, h.moves_cross, Graph.neighbours, List.map_reverse, List.map_map]
    rfl
  have honward : (crossing d args).onward g s = _ := congrArg (List.map _) hmoves
  rw [Program.walks, hlast, honward, List.map_map, List.map_map]
  rfl

/-- Crossing edges from one vertex returns what is across them. -/
theorem gives_neighbours (h : g.Sound) (hname : g.Names j u) (d : Direction) (args : List Arg) :
    (new g .standard [⟨"vertex", [.value j]⟩, crossing d args]).Gives
      [(g.neighbours args d u).map .vertex] := by
  have hcarries : ∀ step ∈ [crossing d args], step.Carries := by
    simpa using carries_crossing d args
  have hgives := gives_walks g (ordered_crossing [.value j] args d) hcarries
  have hfound : Program.found g [.value j] [crossing d args] =
      Program.walks g [crossing d args] ⟨u, ∅, none⟩ := by
    simp [Program.found, hname.select]
  rwa [hfound, walks_crossing h] at hgives

/-- Following edges out of one vertex leads to another as often as following edges into that one
leads back: once for each edge between the two that passes, whatever the filter. Every vertex has a
name to start from. -/
theorem crossings_converse (h : g.Built) (args : List Arg) :
    (∀ u < g.vertices.size, ∃ j, g.Names j u) ∧
    ∀ (j k : Json) (u w : Nat), g.Names j u → g.Names k w → ∃ outs ins : List Output,
      (new g .standard [⟨"vertex", [.value j]⟩, ⟨"out", args⟩]).Gives [outs] ∧
      (new g .standard [⟨"vertex", [.value k]⟩, ⟨"in", args⟩]).Gives [ins] ∧
      Output.countAt w outs = (g.between args u w).length ∧
      Output.countAt u ins = (g.between args u w).length := by
  have hsound := h.sound
  refine ⟨fun u hu => ⟨_, hsound.names_key (Array.getElem?_eq_getElem hu)⟩, ?_⟩
  intro j k u w hu hw
  have hcount : ∀ (v : Nat) (vs : List Nat),
      Output.countAt v (vs.map Output.vertex) = vs.count v := by
    intro v vs
    rw [Output.countAt, List.filterMap_map]
    exact congrArg (List.count v) List.filterMap_some
  refine ⟨_, _, gives_neighbours hsound hu .outgoing args,
    gives_neighbours hsound hw .incoming args, ?_, ?_⟩
  · rw [hcount, Graph.count_neighbours_out]
  · rw [hcount, Graph.count_neighbours_in]

/-- Three edges from one vertex to another, two of them labelled alike, and a loop at the other. -/
def parallel : Graph :=
  let edge (tail head : Int) (label : Option String) : EdgeRecord := ⟨.int tail, .int head, label, ∅⟩
  let vertices : Insertion := .vertices [⟨some (.int 1), ∅⟩, ⟨some (.text "2"), ∅⟩]
  let edges : Insertion := .edges
    [edge 1 2 (some "to"), edge 1 2 none, edge 1 2 (some "to"), edge 2 2 (some "to")]
  (((∅ : Graph).insert vertices).2.insert edges).2

theorem crossings_converse_parallel : parallel.Built ∧
    parallel.Names (.int 1) 0 ∧ parallel.Names (.int 2) 1 ∧ ∃ outs ins : List Output,
      (new parallel .standard
        [⟨"vertex", [.value (.int 1)]⟩, ⟨"out", [.value (.str "to")]⟩]).Gives [outs] ∧
      (new parallel .standard
        [⟨"vertex", [.value (.int 2)]⟩, ⟨"in", [.value (.str "to")]⟩]).Gives [ins] ∧
      Output.countAt 1 outs = 2 ∧ Output.countAt 0 ins = 2 := by
  have hbuilt : parallel.Built := .insert (.insert .empty _) _
  have hfirst : parallel.Names (.int 1) 0 := ⟨.int 1, rfl, rfl⟩
  have hsecond : parallel.Names (.int 2) 1 := ⟨.int 2, rfl, rfl⟩
  obtain ⟨-, hall⟩ := crossings_converse hbuilt [.value (.str "to")]
  exact ⟨hbuilt, hfirst, hsecond, hall _ _ _ _ hfirst hsecond⟩

end Query

end GraphWalk
