import GraphWalk.Proofs.Query
import GraphWalk.Proofs.Table

/-!
# The labels that a step reads

Where a walker goes on depends on the vertex, the result and the labels that the step reads:
`moves_congr`. A predicate reads a label if what is bound under it can change the answer.
-/

namespace GraphWalk

/-- Two sights that differ under the label only are told apart. -/
def Predicate.Reads (test : Predicate) (label : String) : Prop :=
  ∃ v s bindings, (∀ l, l ≠ label → bindings.get? l = s.bindings.get? l) ∧
    test v { s with bindings } ≠ test v s

namespace Predicate

variable {test : Predicate} {b b' : Bindings}

/-- A label after the other is changed, and either it is not read or nothing changes. -/
theorem eq_of_labels (v : Vertex) (s : Sight) (labels : List String)
    (hlabels : ∀ l, l ∉ labels → b.get? l = b'.get? l)
    (h : ∀ l, test.Reads l → b.get? l = b'.get? l) :
    test v { s with bindings := b } = test v { s with bindings := b' } := by
  induction labels generalizing b with
  | nil =>
    have heq : b = b' := Table.ext_get? fun l => hlabels l List.not_mem_nil
    rw [heq]
  | cons label labels ih =>
    have hcopy : test v { s with bindings := b } =
        test v { s with bindings := b.copy b' label } := by
      by_cases hreads : test.Reads label
      · have heq : b.copy b' label = b := by
          refine Table.ext_get? fun l => ?_
          rw [Table.get?_copy]
          split
          · rename_i hl
            exact hl ▸ (h label hreads).symm
          · rfl
        rw [heq]
      · by_contra hne
        refine hreads ⟨v, { s with bindings := b }, b.copy b' label, fun l hl => ?_, Ne.symm hne⟩
        rw [Table.get?_copy, if_neg (Ne.symm hl)]
    refine hcopy.trans (ih (fun l hl => ?_) fun l hl => ?_)
    · rw [Table.get?_copy]
      split
      · rename_i heq
        rw [heq]
      · rename_i hne
        refine hlabels l fun hmem => ?_
        obtain rfl | hmem := List.mem_cons.mp hmem
        · exact hne rfl
        · exact hl hmem
    · rw [Table.get?_copy]
      split
      · rename_i heq
        rw [heq]
      · exact h l hl

theorem congr (v : Vertex) (s : Sight) (h : ∀ l, test.Reads l → b.get? l = b'.get? l) :
    test v { s with bindings := b } = test v { s with bindings := b' } := by
  refine eq_of_labels v s (b.keys ++ b'.keys) (fun l hl => ?_) h
  rw [List.mem_append, not_or] at hl
  rw [Table.get?_eq_none hl.1, Table.get?_eq_none hl.2]

end Predicate

namespace PipeKind

/-- The step looks at what is bound under the label. -/
def Reads (args : List Arg) (label : String) : PipeKind → Prop
  | back | except => firstString? args = some label
  | merge => label ∈ args.filterMap Arg.string?
  | filter => ∃ test, args.head? = some (.predicate test) ∧ test.Reads label
  | _ => False

theorem keeps_congr {g : Graph} {args : List Arg} {s t : Sight} (hvertex : s.vertex = t.vertex)
    (hresult : s.result = t.result)
    (h : ∀ l, filter.Reads args l → s.bindings.get? l = t.bindings.get? l) :
    keeps g args s = keeps g args t := by
  obtain ⟨vertex, b, result⟩ := s
  obtain ⟨vertex', b', result'⟩ := t
  obtain rfl : vertex = vertex' := hvertex
  obtain rfl : result = result' := hresult
  unfold keeps
  split
  · rfl
  · rename_i test hargs
    exact Predicate.congr _ ⟨vertex, b, result⟩ fun l hl => h l ⟨test, hargs, hl⟩
  · rfl

theorem first_congr {args : List Arg} {b b' : Bindings}
    (h : ∀ l, firstString? args = some l → b.get? l = b'.get? l) :
    (firstString? args).bind b.get? = (firstString? args).bind b'.get? := by
  cases hfirst : firstString? args with
  | none => rfl
  | some l => exact h l hfirst

/-- Where a walker goes on depends on the labels read, of all that are bound. -/
theorem moves_congr (kind : PipeKind) {g : Graph} {args : List Arg} (seen : List Nat)
    {s t : Sight} (hvertex : s.vertex = t.vertex) (hresult : s.result = t.result)
    (h : ∀ l, kind.Reads args l → s.bindings.get? l = t.bindings.get? l) :
    kind.moves g args seen s = kind.moves g args seen t := by
  cases kind with
  | filter => simp only [moves, keeps_congr hvertex hresult h, hvertex, hresult]
  | back => simp only [moves, first_congr h]
  | except => simp only [moves, first_congr h, hvertex, hresult]
  | merge =>
    have htargets : (args.filterMap Arg.string?).filterMap s.bindings.get? =
        (args.filterMap Arg.string?).filterMap t.bindings.get? :=
      List.filterMap_congr h
    simp only [moves, htargets]
  | _ => simp only [moves, hvertex, hresult]

end PipeKind

namespace Step

def Reads (step : Step) (label : String) : Prop := step.kind.Reads step.args label

def Binds (step : Step) (label : String) : Prop := step.kind.label? step.args = some label

end Step

end GraphWalk
