import GraphWalk.Proofs.Interchange

/-!
# Edge filters

A label, a list of just that label and a record that asks for it let the same edges pass, those
that carry the label. A longer list lets pass what one of its strings does. `accounts_label`
states this for single edges, for the edges that a walker crosses, and for whole runs.
-/

namespace GraphWalk

/-- The ways to ask a crossing for the edges of one label. -/
inductive LabelForm
  | text
  | list
  | record

def LabelForm.json (label : String) : LabelForm → Json
  | text => .str label
  | list => .arr [.str label]
  | record => .obj [("_label", .str label)]

namespace Pipe

variable (g : Graph)

theorem edgeFits_label (e : Edge) (label : String) :
    g.edgeFits e [("_label", .str label)] = (e.label == some label) := by
  have hget : g.edgeGet? e "_label" = e.label.map .str := rfl
  simp only [Graph.edgeFits, recordMatches, List.all_cons, List.all_nil, Bool.and_true, hget]
  cases e.label <;> rfl

/-- A list lets an edge pass if one of its strings does. -/
theorem edgePasses_arr (e : Edge) (items : List Json) :
    edgePasses g e (some (.value (.arr items))) =
      (items.filterMap Json.asString?).any fun label =>
        edgePasses g e (some (.value (.str label))) := by
  rw [Bool.eq_iff_iff]
  simp only [edgePasses, Option.any_eq_true, List.any_eq_true, List.mem_filterMap, beq_iff_eq]
  constructor
  · rintro ⟨label, hlabel, item, hitem, hstring⟩
    exact ⟨label, ⟨item, hitem, hstring⟩, hlabel⟩
  · rintro ⟨label, ⟨item, hitem, hstring⟩, hlabel⟩
    exact ⟨label, hlabel, item, hitem, hstring⟩

theorem edgePasses_form (e : Edge) (form : LabelForm) (label : String) :
    edgePasses g e (some (.value (form.json label))) = (e.label == some label) := by
  cases form with
  | text => rfl
  | list =>
    show edgePasses g e (some (.value (.arr [.str label]))) = _
    rw [edgePasses_arr]
    exact Bool.or_false _
  | record => exact edgeFits_label g e label

theorem crossed_congr {args args' : List Arg}
    (h : ∀ e, edgePasses g e args.head? = edgePasses g e args'.head?) (d : Direction) (v : Nat) :
    crossed g args d v = crossed g args' d v := by
  simp only [crossed, h]

/-- Of the edges at a vertex, a list keeps those that one of its strings keeps. -/
theorem crossed_arr (items : List Json) (more : List Arg) (d : Direction) (v : Nat) :
    crossed g (.value (.arr items) :: more) d v =
      (g.adjacent v d).filter fun n => (items.filterMap Json.asString?).any fun label =>
        (crossed g [.value (.str label)] d v).contains n := by
  refine List.filter_congr fun n hn => ?_
  rw [Bool.eq_iff_iff]
  simp only [crossed, List.head?_cons, edgePasses_arr, Option.any_eq_true, List.any_eq_true,
    List.contains_iff_mem, List.mem_filter]
  constructor
  · rintro ⟨e, he, label, hlabel, hpasses⟩
    exact ⟨label, hlabel, hn, e, he, hpasses⟩
  · rintro ⟨label, hlabel, -, e, he, hpasses⟩
    exact ⟨e, he, label, hlabel, hpasses⟩

/-- A crossing depends on its arguments by the edges that it crosses. -/
theorem cross_congr {args args' : List Arg} {d : Direction}
    (h : ∀ v, crossed g args d v = crossed g args' d v) (input : Option Walker) (m : Memory)
    (o : Origins) : cross d g args input m o = cross d g args' input m o := by
  simp only [cross, h]

end Pipe

namespace Query

/-- A crossing may be written with other arguments that let the same edges pass. -/
theorem accounts_cross {g : Graph} {args args' : List Arg} (d : Direction)
    (h : ∀ e, Pipe.edgePasses g e args.head? = Pipe.edgePasses g e args'.head?)
    (before after : Program) (bound m : Nat) :
    (new g .standard (before ++ ⟨d.name, args⟩ :: after)).accounts bound m =
      (new g .standard (before ++ ⟨d.name, args'⟩ :: after)).accounts bound m := by
  have hkind : ∀ args : List Arg, (⟨d.name, args⟩ : Step).kind = .cross d := fun _ => by
    cases d <;> rfl
  refine accounts_context rfl (.standard (.cross d) (.cross d) (hkind args) (hkind args')
    ⟨nofun, nofun⟩ (.of_eq ?_)) before after bound m
  exact Pipe.cross_congr g (Pipe.crossed_congr g h d)

/-- All forms of a label let the edges pass that carry it, and no run tells them apart. A list
keeps, of the edges at a vertex, those that one of its strings keeps, in their order; what else it
lists could be left out. -/
theorem accounts_label (g : Graph) (d : Direction) :
    (∀ (form : LabelForm) label e,
      Pipe.edgePasses g e (some (.value (form.json label))) = true ↔ e.label = some label) ∧
    (∀ (form form' : LabelForm) label more before after bound m,
      (new g .standard (before ++ ⟨d.name, .value (form.json label) :: more⟩ :: after)).accounts
          bound m =
        (new g .standard (before ++ ⟨d.name, .value (form'.json label) :: more⟩ :: after)).accounts
          bound m) ∧
    (∀ items more v, Pipe.crossed g (.value (.arr items) :: more) d v =
      (g.adjacent v d).filter fun n => (items.filterMap Json.asString?).any fun label =>
        (Pipe.crossed g [.value (.str label)] d v).contains n) ∧
    (∀ items more before after bound m,
      (new g .standard (before ++ ⟨d.name, .value (.arr items) :: more⟩ :: after)).accounts
          bound m =
        (new g .standard (before ++
          ⟨d.name, .value (.arr ((items.filterMap Json.asString?).map .str)) :: more⟩ ::
          after)).accounts bound m) := by
  refine ⟨fun form label e => ?_, fun form form' label more => ?_, fun items more v => ?_,
    fun items more => ?_⟩
  · rw [Pipe.edgePasses_form, beq_iff_eq]
  · refine accounts_cross d fun e => ?_
    rw [List.head?_cons, List.head?_cons, Pipe.edgePasses_form, Pipe.edgePasses_form]
  · exact Pipe.crossed_arr g items more d v
  · refine accounts_cross d fun e => ?_
    have hstrings : ((items.filterMap Json.asString?).map Json.str).filterMap Json.asString? =
        items.filterMap Json.asString? := by
      rw [List.filterMap_map]
      exact List.filterMap_some
    rw [List.head?_cons, List.head?_cons, Pipe.edgePasses_arr, Pipe.edgePasses_arr, hstrings]

end Query

end GraphWalk
