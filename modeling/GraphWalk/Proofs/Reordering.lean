import GraphWalk.Proofs.Graph.Renumbering
import GraphWalk.Proofs.Walks

/-!
# Insertion order and results

A graph under other numbers is walked alike: every walk in it is a walk in the other under the
numbers there. Vertices and edges are offered in another order, though, so the walks are the same
up to theirs. `outputs_perm`: the same records, added in two orders, make graphs over which a
program returns the same outputs, each as often.
-/

namespace GraphWalk

def Sight.renumber (ρ : Nat → Nat) (s : Sight) : Sight := ⟨ρ s.vertex, s.bindings.map ρ, s.result⟩

/-- A place under the other numbers, with the result there. -/
def placed (ρ : Nat → Nat) (p : Nat × Option Json) : Nat × Option Json := (ρ p.1, p.2)

theorem Sight.get?_renumber (ρ : Nat → Nat) (s : Sight) :
    (s.renumber ρ).bindings.get? = fun l => (s.bindings.get? l).map ρ :=
  funext fun l => Table.get?_map ρ s.bindings l

theorem Sight.bound_renumber (ρ : Nat → Nat) (s : Sight) (args : List Arg) :
    (firstString? args).bind (s.renumber ρ).bindings.get? =
      ((firstString? args).bind s.bindings.get?).map ρ := by
  rw [s.get?_renumber]
  cases firstString? args <;> rfl

theorem Sight.bind_renumber (ρ : Nat → Nat) (s : Sight) (kind : PipeKind) (args : List Arg) :
    (kind.bound .owned args (s.renumber ρ) ()).1 =
      (kind.bound .owned args s ()).1.renumber ρ := by
  unfold PipeKind.bound
  cases kind.label? args with
  | none => rfl
  | some label =>
    simp only [Carrier.owned, Sight.renumber, Table.map_insert]

namespace Vertex

variable {v w : Vertex}

theorem get?_of_record (h : v.toRecord = w.toRecord) : v.get? = w.get? := by
  obtain ⟨hid, hprops⟩ := VertexRecord.mk.inj h
  funext name
  rw [get?, get?, Option.some.inj hid, hprops]

theorem fits_of_record (h : v.toRecord = w.toRecord) : v.fits = w.fits := by
  funext wanted
  rw [fits, fits, get?_of_record h]

theorem json_of_record (h : v.toRecord = w.toRecord) :
    Output.vertexJson v = Output.vertexJson w := by
  obtain ⟨hid, hprops⟩ := VertexRecord.mk.inj h
  rw [Output.vertexJson, Output.vertexJson, Option.some.inj hid, hprops]

end Vertex

namespace Graph

variable {g : Graph}

/-- The edges that a walker at a vertex crosses. -/
def across (g : Graph) (args : List Arg) (d : Direction) (u : Nat) : List Edge :=
  g.edges.toList.filter fun e => e.endpoint d = u && Pipe.edgePasses g e args.head?

theorem Sound.map_crossed (h : g.Sound) (args : List Arg) (d : Direction) (u : Nat) :
    (Pipe.crossed g args d u).map (g.edges[·]?.getD default) = g.across args d u := by
  rw [Pipe.crossed, h.adjacent, incident, List.filter_filter, across, g.toList_edges,
    List.filter_map]
  refine congrArg (List.map _) (List.filter_congr fun n hn => ?_)
  have hn' : n < g.edges.size := List.mem_range.mp hn
  simp [hn', Bool.and_comm]

theorem Sound.moves_cross (h : g.Sound) (args : List Arg) (d : Direction) (s : Sight) :
    (PipeKind.cross d).moves g args [] s =
      ((g.across args d s.vertex).map fun e => (e.endpoint d.opposite, none)).reverse := by
  rw [← h.map_crossed, PipeKind.moves, List.map_map, List.map_reverse]
  rfl

end Graph

namespace Graph.Renumbers

variable {ρ : Nat → Nat} {g g' : Graph} (h : Renumbers ρ g g')
include h

-- ---------------------------------------------------------------------------
-- Vertices and edges
-- ---------------------------------------------------------------------------

/-- A number names a vertex of the same record in both graphs, or none in either. -/
theorem vertex (u : Nat) : Option.Rel (fun v w : Vertex => v.toRecord = w.toRecord)
    g'.vertices[ρ u]? g.vertices[u]? := by
  have hrecord := h.record u
  cases hv : g.vertices[u]? <;> cases hv' : g'.vertices[ρ u]? <;> simp_all

theorem getD_vertex (u : Nat) : (g'.vertices[ρ u]?.getD default).toRecord =
    (g.vertices[u]?.getD default).toRecord := by
  have hvertex := h.vertex u
  generalize g'.vertices[ρ u]? = v, g.vertices[u]? = w at hvertex ⊢
  cases hvertex with
  | none => rfl
  | some hsame => exact hsame

theorem idOf (u : Nat) : g'.idOf (ρ u) = g.idOf u := idOf_eq_of_record (h.record u)

theorem edgeFits (e : Edge) : g'.edgeFits (e.renumber ρ) = g.edgeFits e := by
  have hget : g'.edgeGet? (e.renumber ρ) = g.edgeGet? e := by
    funext name
    simp only [edgeGet?, Edge.renumber, h.idOf]
  funext wanted
  rw [Graph.edgeFits, Graph.edgeFits, hget]

theorem edgePasses (e : Edge) (arg : Option Arg) :
    Pipe.edgePasses g' (e.renumber ρ) arg = Pipe.edgePasses g e arg := by
  unfold Pipe.edgePasses
  rw [h.edgeFits]
  rfl

theorem across (args : List Arg) (d : Direction) (u : Nat) :
    (g'.across args d (ρ u)).Perm ((g.across args d u).map (Edge.renumber ρ)) := by
  refine (h.edges.filter _).trans (.of_eq ?_)
  rw [List.filter_map]
  refine congrArg (List.map _) (List.filter_congr fun e _ => ?_)
  simp only [Function.comp_apply, Edge.endpoint_renumber, h.injective.eq_iff, h.edgePasses]

theorem search (wanted : List (String × Json)) :
    (g'.search wanted).Perm ((g.search wanted).map ρ) := by
  refine (h.range.filter _).trans (.of_eq ?_)
  rw [List.filter_map]
  refine congrArg (List.map _) (List.filter_congr fun u _ => ?_)
  have hvertex := h.vertex u
  rw [Function.comp_apply]
  generalize g'.vertices[ρ u]? = v, g.vertices[u]? = w at hvertex ⊢
  cases hvertex with
  | none => rfl
  | some hsame => exact congrFun (Vertex.fits_of_record hsame) wanted

theorem named (ids : List VertexId) : g'.named ids = (g.named ids).map ρ := by
  rw [Graph.named, Graph.named, List.map_filterMap]
  exact List.filterMap_congr fun id _ => h.find? id

theorem select (args : List Arg) : (g'.select args).1.Perm ((g.select args).1.map ρ) := by
  unfold Graph.select
  split
  · exact h.range
  · exact h.search _
  · exact .of_eq (h.named _)

-- ---------------------------------------------------------------------------
-- Steps
-- ---------------------------------------------------------------------------

theorem value? (args : List Arg) (u : Nat) :
    PipeKind.value? g' args (ρ u) = PipeKind.value? g args u := by
  have hvertex := h.vertex u
  unfold PipeKind.value?
  generalize g'.vertices[ρ u]? = v, g.vertices[u]? = w at hvertex ⊢
  cases hvertex with
  | none => rfl
  | @some v w hsame =>
    show (firstString? args).bind (fun name => v.get? name) = _
    rw [Vertex.get?_of_record hsame]
    rfl

theorem keeps {args : List Arg} (hargs : ∀ test, args.head? ≠ some (.predicate test)) (s : Sight) :
    PipeKind.keeps g' args (s.renumber ρ) = PipeKind.keeps g args s := by
  unfold PipeKind.keeps
  split
  · exact congrFun (Vertex.fits_of_record (h.getD_vertex s.vertex)) _
  · rename_i test hhead
    exact absurd hhead (hargs test)
  · rfl

/-- From a vertex under its other number a walker goes on to the same places under theirs. -/
theorem moves (hg : g.Sound) (hg' : g'.Sound) {kind : PipeKind} {args : List Arg}
    (hargs : kind = .filter → ∀ test, args.head? ≠ some (.predicate test)) (s : Sight) :
    (kind.moves g' args [] (s.renumber ρ)).Perm ((kind.moves g args [] s).map (placed ρ)) := by
  cases kind with
  | cross d =>
    rw [hg'.moves_cross, hg.moves_cross, List.map_reverse]
    refine (List.reverse_perm _).trans (.trans ?_ (List.reverse_perm _).symm)
    refine ((h.across args d s.vertex).map _).trans (.of_eq ?_)
    rw [List.map_map, List.map_map]
    refine List.map_congr_left fun e _ => ?_
    rw [Function.comp_apply, Edge.endpoint_renumber]
    rfl
  | property =>
    refine .of_eq ?_
    have hvalue : PipeKind.value? g' args (s.renumber ρ).vertex = PipeKind.value? g args s.vertex :=
      h.value? args s.vertex
    rw [PipeKind.moves, PipeKind.moves, hvalue]
    cases PipeKind.value? g args s.vertex with
    | none => rfl
    | some v => cases hnull : v.isNull <;> simp [hnull, placed, Sight.renumber]
  | filter =>
    refine .of_eq ?_
    rw [PipeKind.moves, PipeKind.moves, h.keeps (hargs rfl)]
    split <;> rfl
  | back =>
    refine .of_eq ?_
    rw [PipeKind.moves, PipeKind.moves, s.bound_renumber]
    cases (firstString? args).bind s.bindings.get? <;> rfl
  | except =>
    have hsame : ∀ u : Option Nat, (u.map ρ == some (ρ s.vertex)) = (u == some s.vertex) := by
      intro u
      cases u <;> simp [h.injective.eq_iff]
    refine .of_eq ?_
    rw [PipeKind.moves, PipeKind.moves, s.bound_renumber]
    simp only [Sight.renumber, hsame]
    split <;> rfl
  | merge =>
    refine .of_eq ?_
    rw [PipeKind.moves, PipeKind.moves, s.get?_renumber, ← List.map_filterMap, ← List.map_reverse,
      List.map_map, List.map_map]
    rfl
  | _ => exact .refl _

theorem onward (hg : g.Sound) (hg' : g'.Sound) {step : Step}
    (hargs : step.kind = .filter → ∀ test, step.args.head? ≠ some (.predicate test)) (s : Sight) :
    (step.onward g' (s.renumber ρ)).Perm ((step.onward g s).map (Sight.renumber ρ)) := by
  refine ((h.moves hg hg' hargs s).map _).trans (.of_eq ?_)
  rw [Step.onward, List.map_map, List.map_map, s.bind_renumber]
  rfl

/-- The walks from a vertex under its other number are the walks from the vertex, under theirs. -/
theorem walks (hg : g.Sound) (hg' : g'.Sound) {p : Program}
    (hp : ∀ step ∈ p, step.kind = .filter → ∀ test, step.args.head? ≠ some (.predicate test))
    (s : Sight) : (p.walks g' (s.renumber ρ)).Perm ((p.walks g s).map (Sight.renumber ρ)) := by
  induction p generalizing s with
  | nil => exact .refl _
  | cons step rest ih =>
    obtain ⟨hstep, hrest⟩ := List.forall_mem_cons.mp hp
    rw [Program.walks, Program.walks, List.map_flatMap]
    refine ((h.onward hg hg' hstep s).flatMap_right _).trans ?_
    rw [List.flatMap_map]
    exact List.Perm.flatMap_left _ fun t _ => ih hrest t

theorem found (hg : g.Sound) (hg' : g'.Sound) (args : List Arg) {p : Program}
    (hp : ∀ step ∈ p, step.kind = .filter → ∀ test, step.args.head? ≠ some (.predicate test)) :
    (p.found g' args).Perm ((p.found g args).map (Sight.renumber ρ)) := by
  have hselected : (g'.select args).1.reverse.Perm ((g.select args).1.reverse.map ρ) := by
    rw [List.map_reverse]
    exact (List.reverse_perm _).trans ((h.select args).trans (List.reverse_perm _).symm)
  rw [Program.found, Program.found, List.map_flatMap]
  refine (hselected.flatMap_right _).trans ?_
  rw [List.flatMap_map]
  exact List.Perm.flatMap_left _ fun v _ => h.walks hg hg' hp ⟨v, ∅, none⟩

theorem toJson (s : Sight) :
    (Output.ofSight (s.renumber ρ)).toJson g' = (Output.ofSight s).toJson g := by
  cases hresult : s.result with
  | some v => simp only [Output.ofSight, Sight.renumber, hresult, Output.toJson]
  | none =>
    simp only [Output.ofSight, Sight.renumber, hresult, Output.toJson]
    exact Vertex.json_of_record (h.getD_vertex s.vertex)

end Graph.Renumbers

theorem Step.carries {step : Step}
    (h : step.pipe ∈ ["in", "out", "filter", "property", "as", "back", "except", "merge"]) :
    step.Carries := by
  obtain ⟨pipe, args⟩ := step
  simp only [List.mem_cons, List.not_mem_nil, or_false] at h
  obtain rfl | rfl | rfl | rfl | rfl | rfl | rfl | rfl := h <;> exact ⟨nofun, nofun, nofun⟩

theorem Step.kind_eq_filter {step : Step} : step.kind = .filter ↔ step.pipe = "filter" := by
  unfold kind PipeKind.ofName
  split <;> simp_all

namespace Query

/-- The order in which records are added decides about the order of the outputs only: over the same
vertices with ids of their own and the same edges, the first run returns the same outputs, each as
often. -/
theorem outputs_perm {V V' : List VertexRecord} {E E' : List EdgeRecord} {args : List Arg}
    {steps : Program} (hids : ∀ r ∈ V, r.id.isSome)
    (hkeys : V.Pairwise fun a b => ∀ i ∈ a.id, ∀ j ∈ b.id, i.key ≠ j.key)
    (hV : V.Perm V') (hE : E.Perm E')
    (hsteps : ∀ step ∈ steps,
      step.pipe ∈ ["in", "out", "filter", "property", "as", "back", "except", "merge"])
    (hfilter : ∀ step ∈ steps, step.pipe = "filter" →
      ∃ wanted, step.args.head? = some (.value (.obj wanted)))
    (hordered : Program.Ordered (⟨"vertex", args⟩ :: steps)) :
    ∃ outputs outputs' : List Output,
      (new (Graph.ofFlat ⟨V, E⟩).graph .standard (⟨"vertex", args⟩ :: steps)).Gives [outputs] ∧
      (new (Graph.ofFlat ⟨V', E'⟩).graph .standard (⟨"vertex", args⟩ :: steps)).Gives [outputs'] ∧
      (outputs.map (·.toJson (Graph.ofFlat ⟨V, E⟩).graph)).Perm
        (outputs'.map (·.toJson (Graph.ofFlat ⟨V', E'⟩).graph)) := by
  obtain ⟨ρ, hρ⟩ := Graph.renumbers_ofFlat hids hkeys hV hE
  have hcarries : ∀ step ∈ steps, step.Carries := fun step hstep => Step.carries (hsteps step hstep)
  have htests : ∀ step ∈ steps, step.kind = .filter →
      ∀ test, step.args.head? ≠ some (.predicate test) := by
    intro step hstep hkind test
    obtain ⟨wanted, hwanted⟩ := hfilter step hstep (Step.kind_eq_filter.mp hkind)
    rw [hwanted]
    rintro ⟨⟩
  have hfound := hρ.found (Graph.sound_ofFlat _) (Graph.sound_ofFlat _) args htests
  refine ⟨_, _, gives_walks _ hordered hcarries, gives_walks _ hordered hcarries, ?_⟩
  rw [List.map_map, List.map_map]
  refine (List.Perm.trans (hfound.map _) (.of_eq ?_)).symm
  rw [List.map_map]
  exact List.map_congr_left fun s _ => hρ.toJson s

/-- Two vertices with an edge each way, and the same in the opposite order. -/
theorem outputs_perm_swapped :
    let a : VertexRecord := ⟨some (.text "a"), ∅⟩
    let b : VertexRecord := ⟨some (.int 1), ∅⟩
    let there : EdgeRecord := ⟨.text "a", .text "1", none, ∅⟩
    let back : EdgeRecord := ⟨.int 1, .text "a", some "back", ∅⟩
    let g := (Graph.ofFlat ⟨[a, b], [there, back]⟩).graph
    let g' := (Graph.ofFlat ⟨[b, a], [back, there]⟩).graph
    ∃ outputs outputs' : List Output, (new g .standard roundTrip).Gives [outputs] ∧
      (new g' .standard roundTrip).Gives [outputs'] ∧
      (outputs.map (·.toJson g)).Perm (outputs'.map (·.toJson g')) := by
  intro a b there back
  have hids : ∀ r ∈ [a, b], r.id.isSome := by simp [a, b]
  refine outputs_perm hids ?_ (.swap b a []) (.swap back there []) ?_ ?_ roundTrip_ordered
  · refine List.pairwise_pair.mpr ?_
    rintro _ ⟨⟩ _ ⟨⟩
    decide
  · simp
  · simp

end Query

end GraphWalk
