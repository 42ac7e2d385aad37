import GraphWalk.Proofs.Query

/-!
# Aliases

The passes of a registry that was only extended by pipes and aliases are the aliases in the order
in which they were added: each is applied once, to what the ones before it left. So an alias is a
shorthand as long as no earlier alias has its name or the name it stands for.
-/

namespace GraphWalk

/-- A name that a registry is extended by: for a pipe, or as another word for a name, with
arguments to fill up with. -/
inductive Registration
  | stage (name : String) (pipe : Pipe)
  | shorthand (name target : String) (defaults : List Arg)

namespace Registration

def apply (r : Registry) : Registration → Registry
  | stage name pipe => r.addPipe name pipe
  | shorthand name target defaults => r.addAlias name target defaults

/-- What the extension changes of a step. -/
def expand : Registration → Step → Step
  | stage .. => id
  | shorthand name target defaults => Registry.expandAlias name target defaults

end Registration

namespace Registry

variable {r : Registry} {name target : String} {defaults : List Arg} {step : Step}

theorem expandAlias_ne (h : step.pipe ≠ name) : expandAlias name target defaults step = step :=
  if_neg h

theorem expandAlias_self (args : List Arg) :
    expandAlias name target defaults ⟨name, args⟩ =
      ⟨target, args ++ defaults.drop args.length⟩ :=
  if_pos rfl

/-- The standard registry, extended one after the other. -/
def extended (calls : List Registration) : Registry := calls.foldl Registration.apply standard

/-- No pass has a lower priority than an alias. -/
def Level (r : Registry) : Prop := ∀ p ∈ r.passes, aliasPriority ≤ p.priority

theorem placePass_last {p : Pass} {passes : List Pass} (h : ∀ q ∈ passes, p.priority ≤ q.priority) :
    placePass p passes = passes ++ [p] := by
  induction passes with
  | nil => rfl
  | cons q rest ih =>
    obtain ⟨hq, hrest⟩ := List.forall_mem_cons.mp h
    rw [placePass, if_neg (Int.not_lt.mpr hq), ih hrest]
    rfl

theorem Level.passes_addAlias (h : r.Level) (name target : String) (defaults : List Arg) :
    (r.addAlias name target defaults).passes =
      r.passes ++ [⟨aliasPriority, List.map (expandAlias name target defaults)⟩] :=
  placePass_last h

theorem level_standard : standard.Level := by
  intro p hp
  cases hp

theorem Level.apply (h : r.Level) (call : Registration) : (call.apply r).Level := by
  cases call with
  | stage name pipe => exact h
  | shorthand name target defaults =>
    intro p hp
    rw [Registration.apply, h.passes_addAlias, List.mem_append, List.mem_singleton] at hp
    obtain hp | rfl := hp
    · exact h p hp
    · exact Int.le_refl _

theorem Level.foldl (h : r.Level) (calls : List Registration) :
    (calls.foldl Registration.apply r).Level := by
  induction calls generalizing r with
  | nil => exact h
  | cons call calls ih => exact ih (h.apply call)

theorem level_extended (calls : List Registration) : (extended calls).Level :=
  level_standard.foldl calls

theorem Level.transform_apply (h : r.Level) (call : Registration) (p : Program) :
    (call.apply r).transform p = (r.transform p).map call.expand := by
  cases call with
  | stage name pipe => exact (List.map_id _).symm
  | shorthand name target defaults =>
    rw [Registration.apply, transform, h.passes_addAlias, List.foldl_append]
    rfl

/-- What a list of extensions changes of a step, one after the other. -/
theorem Level.transform_foldl (h : r.Level) (calls : List Registration) (p : Program) :
    (calls.foldl Registration.apply r).transform p =
      (r.transform p).map fun step => calls.foldl (fun step call => call.expand step) step := by
  induction calls generalizing r with
  | nil => exact (List.map_id _).symm
  | cons call calls ih =>
    rw [List.foldl_cons, ih (h.apply call), h.transform_apply, List.map_map]
    rfl

theorem transform_extended (calls : List Registration) (p : Program) :
    (extended calls).transform p =
      p.map fun step => calls.foldl (fun step call => call.expand step) step :=
  level_standard.transform_foldl calls p

/-- A step keeps its name and arguments if it does not go by the name of an alias. -/
theorem foldl_expand {calls : List Registration}
    (h : ∀ target defaults, .shorthand step.pipe target defaults ∉ calls) :
    calls.foldl (fun step call => call.expand step) step = step := by
  induction calls with
  | nil => rfl
  | cons call calls ih =>
    have hcall : call.expand step = step := by
      cases call with
      | stage name pipe => rfl
      | shorthand name target defaults =>
        apply expandAlias_ne
        rintro rfl
        exact h target defaults List.mem_cons_self
    rw [List.foldl_cons, hcall]
    apply ih
    intro target defaults hmem
    exact h target defaults (List.mem_cons_of_mem _ hmem)

/-- To expand an alias beforehand changes nothing of what the passes make of a program. -/
theorem transform_expandAlias {calls : List Registration} (hne : name ≠ target)
    (hname : ∀ t d, .shorthand name t d ∉ calls) (htarget : ∀ t d, .shorthand target t d ∉ calls)
    (p : Program) :
    ((extended calls).addAlias name target defaults).transform
        (p.map (expandAlias name target defaults)) =
      ((extended calls).addAlias name target defaults).transform p := by
  have hstep : ∀ step : Step, expandAlias name target defaults
        (calls.foldl (fun step call => call.expand step) (expandAlias name target defaults step)) =
      expandAlias name target defaults
        (calls.foldl (fun step call => call.expand step) step) := by
    rintro ⟨pipe, args⟩
    by_cases hpipe : pipe = name
    · subst hpipe
      rw [expandAlias_self, foldl_expand htarget, foldl_expand hname, expandAlias_self,
        expandAlias_ne hne.symm]
    · have hother : (⟨pipe, args⟩ : Step).pipe ≠ name := hpipe
      rw [expandAlias_ne hother]
  have hlevel := level_extended calls
  have hpass := hlevel.transform_apply (.shorthand name target defaults)
  simp only [Registration.apply, Registration.expand] at hpass
  rw [hpass, hpass, transform_extended, transform_extended, List.map_map, List.map_map,
    List.map_map]
  apply List.map_congr_left
  intro step _
  exact hstep step

end Registry

namespace Query

open Registry (extended expandAlias)

/-- The last alias is applied to what the earlier ones leave of a program. If none of them has its
name or the name it stands for, it is a shorthand: the program runs as the one in which the steps
of that name are written out. -/
theorem batches_alias (calls : List Registration) {name target : String} (defaults : List Arg)
    (hne : name ≠ target) (g : Graph) (p : Program) :
    let r := (extended calls).addAlias name target defaults
    (new g r p).prepare.program =
        ((extended calls).transform p).map (expandAlias name target defaults) ∧
      ((∀ t d, .shorthand name t d ∉ calls) → (∀ t d, .shorthand target t d ∉ calls) →
        ∀ bound m, batches bound m (new g r p) =
          batches bound m (new g r (p.map (expandAlias name target defaults)))) := by
  intro r
  constructor
  · exact (Registry.level_extended calls).transform_apply (.shorthand name target defaults) p
  · intro hname htarget bound m
    apply batches_congr
    have hsame : r.transform (p.map (expandAlias name target defaults)) = r.transform p :=
      Registry.transform_expandAlias hne hname htarget p
    simp only [prepare, new, Bool.false_eq_true, if_false, hsame]

theorem batches_alias_hop :
    let calls : List Registration := [.stage "out" (.cross .incoming), .shorthand "on" "out" []]
    let r := (extended calls).addAlias "hop" "in" [.value (.str "to")]
    "hop" ≠ "in" ∧ (∀ t d, .shorthand "hop" t d ∉ calls) ∧ (∀ t d, .shorthand "in" t d ∉ calls) ∧
      ∀ bound m, batches bound m (new .fork r [⟨"vertex", []⟩, ⟨"on", []⟩, ⟨"hop", []⟩]) =
        batches bound m
          (new .fork r [⟨"vertex", []⟩, ⟨"on", []⟩, ⟨"in", [.value (.str "to")]⟩]) := by
  intro calls r
  have hname : ∀ t d, .shorthand "hop" t d ∉ calls := by simp [calls]
  have htarget : ∀ t d, .shorthand "in" t d ∉ calls := by simp [calls]
  obtain ⟨-, hruns⟩ := batches_alias calls [.value (.str "to")] (by decide : "hop" ≠ "in") .fork
    [⟨"vertex", []⟩, ⟨"on", []⟩, ⟨"hop", []⟩]
  exact ⟨by decide, hname, htarget, hruns hname htarget⟩

/-- An alias of an alias hands every walker on, and a second alias of one name changes nothing. -/
theorem batches_alias_again :
    let chained := (extended [.shorthand "hop" "out" []]).addAlias "step" "hop" []
    let renewed := (extended [.shorthand "hop" "out" []]).addAlias "hop" "in" []
    let walk : String → Program := fun name => [⟨"vertex", [.value (.int 1)]⟩, ⟨name, []⟩]
    ¬ (∀ bound m, batches bound m (new .fork chained (walk "step")) =
        batches bound m (new .fork chained ((walk "step").map (expandAlias "step" "hop" [])))) ∧
      ¬ ∀ bound m, batches bound m (new .fork renewed (walk "hop")) =
        batches bound m (new .fork renewed ((walk "hop").map (expandAlias "hop" "in" []))) := by
  intro chained renewed walk
  -- How many outputs the first run returns tells the programs apart.
  let size : Query → Option (List Nat) := fun q => (batches 12 1 q).map (List.map List.length)
  constructor
  · intro h
    have hstep : size (new .fork chained (walk "step")) = some [1] := by decide +kernel
    have hhop : size (new .fork chained ((walk "step").map (expandAlias "step" "hop" []))) =
      some [2] := by decide +kernel
    have hsame := congrArg (Option.map (List.map List.length)) (h 12 1)
    cases hstep.symm.trans (hsame.trans hhop)
  · intro h
    have hhop : size (new .fork renewed (walk "hop")) = some [2] := by decide +kernel
    have hin : size (new .fork renewed ((walk "hop").map (expandAlias "hop" "in" []))) =
      some [0] := by decide +kernel
    have hsame := congrArg (Option.map (List.map List.length)) (h 12 1)
    cases hhop.symm.trans (hsame.trans hin)

end Query

end GraphWalk
