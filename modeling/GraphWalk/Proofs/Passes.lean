import GraphWalk.Proofs.Alias
import GraphWalk.Proofs.Interchange
import GraphWalk.Proofs.Termination

/-!
# The order of passes

Passes are placed one by one, each in front of those of lower priority. What comes of it is the
stable order of falling priority, whatever calls came before (`Ranked.extend`), and there is only
one (`Ranked.unique`). A query applies the passes before its first run and never again:
`runs_transform` says which program each run goes by.
-/

namespace GraphWalk

/-- A call that extends a registry: a pass, or a name. An alias is both. -/
inductive Extension
  | pass (p : Pass)
  | registration (call : Registration)

namespace Extension

def apply (r : Registry) : Extension → Registry
  | pass p => r.addPass p
  | registration call => call.apply r

def pass? : Extension → Option Pass
  | pass p => some p
  | registration (.stage ..) => none
  | registration (.shorthand name target defaults) =>
    some ⟨Registry.aliasPriority, List.map (Registry.expandAlias name target defaults)⟩

theorem passes_apply (r : Registry) (call : Extension) :
    (call.apply r).passes = call.pass?.elim r.passes (Registry.placePass · r.passes) := by
  rcases call with p | (⟨name, pipe⟩ | ⟨name, target, defaults⟩) <;> rfl

end Extension

-- ---------------------------------------------------------------------------
-- Falling priority
-- ---------------------------------------------------------------------------

/-- No pass stands behind one of lower priority. -/
abbrev Falling (passes : List Pass) : Prop := passes.Pairwise fun p q => q.priority ≤ p.priority

/-- The same passes, none behind one of lower priority, and those of one priority in the order in
which they were added. -/
structure Ranked (added ranked : List Pass) : Prop where
  perm : ranked.Perm added
  falling : Falling ranked
  stable : ∀ n, ranked.filter (·.priority = n) = added.filter (·.priority = n)

theorem Falling.le_head {p q : Pass} {passes : List Pass} (h : Falling (p :: passes))
    (hq : q ∈ p :: passes) : q.priority ≤ p.priority := by
  obtain rfl | hq := List.mem_cons.mp hq
  · exact Int.le_refl _
  · exact List.rel_of_pairwise_cons h hq

namespace Registry

variable {p q : Pass} {passes : List Pass}

theorem placePass_perm (p : Pass) (passes : List Pass) :
    (placePass p passes).Perm (p :: passes) := by
  fun_induction placePass p passes with
  | case1 => exact .refl _
  | case2 q rest h => exact .refl _
  | case3 q rest h ih => exact (ih.cons q).trans (.swap p q rest)

theorem placePass_falling (h : Falling passes) : Falling (placePass p passes) := by
  fun_induction placePass p passes with
  | case1 => exact List.pairwise_singleton _ _
  | case2 q rest hlower =>
    exact .cons (fun s hs => Int.le_trans (h.le_head hs) (Int.le_of_lt hlower)) h
  | case3 q rest hlower ih =>
    obtain ⟨hq, hrest⟩ := List.pairwise_cons.mp h
    refine .cons (fun s hs => ?_) (ih hrest)
    obtain rfl | hs := List.mem_cons.mp ((placePass_perm p rest).mem_iff.mp hs)
    · exact Int.not_lt.mp hlower
    · exact hq s hs

/-- A pass comes behind all others of its priority. -/
theorem filter_placePass (h : Falling passes) (n : Int) :
    (placePass p passes).filter (·.priority = n) =
      passes.filter (·.priority = n) ++ [p].filter (·.priority = n) := by
  fun_induction placePass p passes with
  | case1 => rfl
  | case2 q rest hlower =>
    rw [← List.singleton_append, List.filter_append]
    by_cases hp : p.priority = n
    · -- behind the first pass of lower priority, all are lower
      have hbehind : (q :: rest).filter (·.priority = n) = [] := by
        refine List.filter_eq_nil_iff.mpr fun s hs => ?_
        simpa using Int.ne_of_lt (Int.lt_of_le_of_lt (h.le_head hs) (hp ▸ hlower))
      rw [hbehind, List.append_nil, List.nil_append]
    · have hnone : [p].filter (·.priority = n) = [] := by simp [hp]
      rw [hnone, List.append_nil, List.nil_append]
  | case3 q rest hlower ih =>
    rw [List.filter_cons, List.filter_cons, ih (List.pairwise_cons.mp h).2]
    split <;> rfl

end Registry

namespace Ranked

variable {added ranked : List Pass}

theorem nil : Ranked [] [] := ⟨.refl _, .nil, fun _ => rfl⟩

theorem place (h : Ranked added ranked) (p : Pass) :
    Ranked (added ++ [p]) (Registry.placePass p ranked) where
  perm := (Registry.placePass_perm p ranked).trans
    ((h.perm.cons p).trans (List.perm_append_singleton p added).symm)
  falling := Registry.placePass_falling h.falling
  stable n := by rw [Registry.filter_placePass h.falling, h.stable, List.filter_append]

theorem extend {r : Registry} (h : Ranked added r.passes) (calls : List Extension) :
    Ranked (added ++ calls.filterMap Extension.pass?) (calls.foldl Extension.apply r).passes := by
  induction calls generalizing r added with
  | nil => simpa using h
  | cons call calls ih =>
    have hcall : Ranked (added ++ call.pass?.toList) (call.apply r).passes := by
      rw [call.passes_apply]
      cases call.pass? with
      | none => simpa using h
      | some p => exact h.place p
    have hsplit : (call :: calls).filterMap Extension.pass? =
        call.pass?.toList ++ calls.filterMap Extension.pass? := by
      rw [List.filterMap_cons]
      cases call.pass? <;> rfl
    rw [List.foldl_cons, hsplit, ← List.append_assoc]
    exact ih hcall

/-- The sort of the library, which is stable, gives it. -/
theorem mergeSort (added : List Pass) :
    Ranked added (added.mergeSort fun p q => q.priority ≤ p.priority) := by
  have htrans : ∀ p q s : Pass, decide (q.priority ≤ p.priority) = true →
      decide (s.priority ≤ q.priority) = true → decide (s.priority ≤ p.priority) = true := by
    simp only [decide_eq_true_eq]
    exact fun p q s hqp hsq => Int.le_trans hsq hqp
  have htotal : ∀ p q : Pass,
      (decide (q.priority ≤ p.priority) || decide (p.priority ≤ q.priority)) = true := by
    simp only [Bool.or_eq_true, decide_eq_true_eq]
    exact fun p q => Int.le_total _ _
  refine ⟨List.mergeSort_perm _ _, ?_, fun n => ?_⟩
  · simpa using List.pairwise_mergeSort htrans htotal added
  · -- passes of one priority are in order, so the sort leaves them in theirs
    have hlevel : (added.filter (·.priority = n)).Pairwise fun p q =>
        decide (q.priority ≤ p.priority) = true := by
      refine List.pairwise_of_forall_mem_list fun p hp q hq => ?_
      simp only [List.mem_filter, decide_eq_true_eq] at hp hq
      exact decide_eq_true (Int.le_of_eq (hq.2.trans hp.2.symm))
    have hsublist := (List.sublist_mergeSort htrans htotal hlevel List.filter_sublist).filter
      (·.priority = n)
    rw [List.filter_filter] at hsublist
    simp only [Bool.and_self] at hsublist
    exact (hsublist.eq_of_length
      ((List.mergeSort_perm added _).symm.filter _).length_eq).symm

end Ranked

/-- Lists of falling priority are equal if each priority has the same passes in the same order. -/
theorem eq_of_falling {l l' : List Pass} (h : Falling l) (h' : Falling l')
    (hfilter : ∀ n, l.filter (·.priority = n) = l'.filter (·.priority = n)) : l = l' := by
  have hmem : ∀ p, p ∈ l ↔ p ∈ l' := fun p => by
    simpa using congrArg (p ∈ ·) (hfilter p.priority)
  induction l generalizing l' with
  | nil => exact (List.eq_nil_iff_forall_not_mem.mpr fun p hp => nomatch (hmem p).mpr hp).symm
  | cons p l ih =>
    cases l' with
    | nil => exact nomatch (hmem p).mp List.mem_cons_self
    | cons q l' =>
      have hlevel : p.priority = q.priority :=
        Int.le_antisymm (h'.le_head ((hmem p).mp List.mem_cons_self))
          (h.le_head ((hmem q).mpr List.mem_cons_self))
      have hhead := hfilter p.priority
      rw [List.filter_cons_of_pos (by simp), List.filter_cons_of_pos (by simp [hlevel]),
        List.cons.injEq] at hhead
      obtain ⟨rfl, -⟩ := hhead
      have htail : ∀ n, l.filter (·.priority = n) = l'.filter (·.priority = n) := by
        intro n
        have hn := hfilter n
        rw [List.filter_cons, List.filter_cons] at hn
        split at hn
        · exact List.tail_eq_of_cons_eq hn
        · exact hn
      rw [ih h.of_cons h'.of_cons htail fun s => by simpa using congrArg (s ∈ ·) (htail s.priority)]

/-- There is one such order. -/
theorem Ranked.unique {added ranked ranked' : List Pass} (h : Ranked added ranked)
    (h' : Ranked added ranked') : ranked = ranked' :=
  eq_of_falling h.falling h'.falling fun n => (h.stable n).trans (h'.stable n).symm

/-- Whatever extends a registry without passes, they end up sorted. -/
theorem Registry.passes_extend (pipes : Table Pipe) (calls : List Extension) :
    (calls.foldl Extension.apply ⟨pipes, []⟩).passes =
      (calls.filterMap Extension.pass?).mergeSort fun p q => q.priority ≤ p.priority :=
  (Ranked.nil.extend (r := ⟨pipes, []⟩) calls).unique (.mergeSort _)

-- ---------------------------------------------------------------------------
-- Queries
-- ---------------------------------------------------------------------------

namespace Query

variable {q q' : Query}

theorem Runs.prepared {rs : List Run} (h : q.Runs rs q') (hq : q.prepared = true) :
    q'.prepared = true := by
  induction h with
  | nil q => exact hq
  | cons hrun _ ih => exact ih (run_prepared hrun)

theorem Runs.program {rs : List Run} (h : q.Runs rs q') :
    q'.program = if rs.isEmpty then q.program else q.prepare.program := by
  cases h with
  | nil => rfl
  | @cons _ _ _ r rs hrun h =>
    have hprepare : q'.prepare = q' := if_pos (h.prepared (run_prepared hrun))
    rw [← hprepare]
    exact h.keeps.1.trans (run_program hrun)

/-- A query goes on as one that was built of the changed program, over the same pipes but no
passes. -/
theorem accounts_transform (g : Graph) (r : Registry) (p : Program) (bound m : Nat) :
    (new g r p).accounts bound m =
      (new g ⟨r.pipes, []⟩ (r.transform p)).accounts bound m := by
  have hsame : List.Forall₂ (Step.Interchanges g r ⟨r.pipes, []⟩) (r.transform p) (r.transform p) :=
    List.forall₂_same.mpr fun _ _ => ⟨⟨Eq, .of_eq fun _ _ _ => rfl⟩, rfl⟩
  exact accounts_interchange hsame bound m

/-- Whatever calls extend a registry, its passes are applied in the stable order of falling
priority, each once. A query applies them before its first run, and all its runs go by what comes
of it. -/
theorem runs_transform (pipes : Table Pipe) (calls : List Extension) :
    let r := calls.foldl Extension.apply ⟨pipes, []⟩
    let added := calls.filterMap Extension.pass?
    let order := added.mergeSort fun p q => q.priority ≤ p.priority
    Ranked added order ∧
      (∀ p, r.transform p = order.foldl (fun p pass => pass.change p) p) ∧
      ∀ (g : Graph) (p : Program),
        (∀ rs q, (new g r p).Runs rs q →
          q.program = if rs.isEmpty then p else order.foldl (fun p pass => pass.change p) p) ∧
        ∀ bound m, (new g r p).accounts bound m =
          (new g ⟨r.pipes, []⟩ (order.foldl (fun p pass => pass.change p) p)).accounts bound m := by
  intro r added order
  have htransform : ∀ p, r.transform p = order.foldl (fun p pass => pass.change p) p := by
    intro p
    rw [Registry.transform, Registry.passes_extend]
  refine ⟨.mergeSort added, htransform, fun g p => ⟨fun rs q hruns => ?_, fun bound m => ?_⟩⟩
  · rw [← htransform]
    exact hruns.program
  · rw [← htransform]
    exact accounts_transform g r p bound m

/-- The alias was added before the pass of its priority that doubles what it stands for; two runs go
by two such steps. -/
theorem runs_transform_doubled :
    let calls : List Extension := [.pass ⟨-1, Pass.append [⟨"unique", []⟩]⟩,
      .registration (.shorthand "hop" "out" []),
      .pass ⟨Registry.aliasPriority, Pass.doubling "out"⟩,
      .pass ⟨200, Pass.prepend [⟨"vertex", []⟩]⟩]
    let q := new .fork (calls.foldl Extension.apply .standard) [⟨"hop", []⟩]
    ∃ first second : Run, q.Runs [first, second] second.query ∧
      second.query.program =
        [⟨"vertex", []⟩, ⟨"out", []⟩, ⟨"out", []⟩, ⟨"unique", []⟩] := by
  intro calls q
  have htwice : ((q.run 40).bind fun first => first.query.run 40).isSome = true := by decide +kernel
  obtain ⟨second, htwice⟩ := Option.isSome_iff_exists.mp htwice
  obtain ⟨first, hfirst, hsecond⟩ := Option.bind_eq_some_iff.mp htwice
  have hruns : q.Runs [first, second] second.query := .cons hfirst (.cons hsecond (.nil _))
  obtain ⟨-, htransform, hqueries⟩ := runs_transform Registry.standard.pipes calls
  have hprogram : second.query.program = _ := (hqueries .fork [⟨"hop", []⟩]).1 _ _ hruns
  have hchanged : q.registry.transform [⟨"hop", []⟩] =
      [⟨"vertex", []⟩, ⟨"out", []⟩, ⟨"out", []⟩, ⟨"unique", []⟩] := by rfl
  exact ⟨first, second, hruns, hprogram.trans ((htransform _).symm.trans hchanged)⟩

end Query

end GraphWalk
