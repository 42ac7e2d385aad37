import GraphWalk.Proofs.Exhaustion
import GraphWalk.Proofs.Line.Trailing

/-!
# Steps at the end of a program

The walkers with which a run ends are the ones that a step after it would be handed. `ends_iff` says
which they are, and `trailing_steps` what a `filter`, a `property` or a `unique` at the end of a
program makes of them, run after run.
-/

namespace GraphWalk

open Machine (State)

/-- The walkers that came past the last step, in order. -/
def Run.arrivals (r : Run) : List Walker :=
  r.history.filterMap (Exchange.result? (r.query.program.length - 1))

namespace Query

variable {q q' : Query} {g : Graph} {p : Program} {bound : Nat} {r : Run} {rs : List Run}
  {ws : List (List Walker)}

-- ---------------------------------------------------------------------------
-- What runs end with
-- ---------------------------------------------------------------------------

/-- What a run returns is what came past its last step. -/
theorem results_of_reaches {s : State Walker World} {w : World}
    (hreach : q.machine.Reaches (q.machine.start w) s) (hhistory : r.history = s.history.reverse)
    (hprogram : r.query.program = q.program) : s.results.reverse = r.arrivals := by
  rw [Run.arrivals, hhistory, hprogram, List.filterMap_reverse]
  exact congrArg List.reverse (Machine.Reaches.orderly hreach).results

theorem run_arrivals (h : q.run bound = some r) : r.outputs = r.arrivals.map Output.ofWalker := by
  by_cases hne : q.prepare.program = []
  · simp only [run, hne, List.isEmpty_nil, if_true, Option.some.injEq] at h
    obtain rfl := h
    rfl
  · obtain ⟨s, hreach, -, houtputs, hhistory, hquery⟩ := reaches_of_run hne h
    rw [houtputs, results_of_reaches hreach hhistory (by rw [hquery])]

theorem Standard.run_arrivals (h : q.Standard g p) (hrun : q.run bound = some r) :
    r.arrivals = (Line.drain (p.roles .shared g) q.line.stocks q.line.shared).outputs := by
  by_cases hne : p = []
  · subst hne
    have hempty : q.prepare.program = [] := by rw [h.prepare, h.program]
    simp only [run, hempty, List.isEmpty_nil, if_true, Option.some.injEq] at hrun
    obtain rfl := hrun
    rfl
  · obtain ⟨s, hreach, ht, hover, -, hhistory, hquery⟩ := h.ends hne hrun
    have harrivals : s.results.reverse = r.arrivals :=
      results_of_reaches hreach hhistory (by rw [hquery])
    have hroles : (p.roles (W := Walker) .shared g).isEmpty = false := by
      simpa [Program.roles] using hne
    obtain ⟨left, hleft⟩ := Machine.runFrom_of_reaches ht hover
    obtain ⟨right, hright⟩ := Line.run_drain h.length_line q.line.shared
    have hline : q.line.run (p.roles .shared g) left =
        some (s.results.reverse, r.query.line) := by
      rw [Line.run, hroles]
      exact congrArg (Option.map _) hleft
    have hsame := (Line.run_mono (Nat.le_max_left left right) hline).symm.trans
      (Line.run_mono (Nat.le_max_right left right) hright)
    rw [← harrivals]
    exact congrArg Prod.fst (Option.some.inj hsame)

theorem Runs.arrivals (h : q.Runs rs q') (hq : q.prepare.Standard g p) :
    rs.map Run.arrivals = Line.drains (p.roles .shared g) rs.length q.prepare.line := by
  induction h with
  | nil q => rfl
  | @cons q q' bound r rs hrun _ ih =>
    rw [← run_congr q.prepare_prepare] at hrun
    obtain ⟨hstandard, -, hline⟩ := hq.run_drain hrun
    have hrest := ih (by rwa [hstandard.prepare])
    rw [hstandard.prepare, hline] at hrest
    rw [List.map_cons, hq.run_arrivals hrun, hrest]
    rfl

/-- The first runs of a query end with these walkers, and return them. -/
def Ends (q : Query) (ws : List (List Walker)) : Prop :=
  ∃ rs q', q.Runs rs q' ∧ rs.map Run.arrivals = ws ∧
    rs.map Run.outputs = ws.map (List.map Output.ofWalker)

theorem Runs.ends (h : q.Runs rs q') : q.Ends (rs.map Run.arrivals) := by
  refine ⟨rs, q', h, rfl, ?_⟩
  induction h with
  | nil => rfl
  | cons hrun _ ih => rw [List.map_cons, List.map_cons, List.map_cons, ih, run_arrivals hrun]

theorem ends_iff (g : Graph) (p : Program) (ws : List (List Walker)) :
    (new g .standard p).Ends ws ↔
      ws = Line.drains (p.roles .shared g) ws.length (p.line g #[]) := by
  have hstandard := prepare_new g p
  constructor
  · rintro ⟨rs, q', hruns, rfl, -⟩
    rw [List.length_map, hruns.arrivals hstandard, line_prepare_new]
  · intro hws
    obtain ⟨rs, q', hlength, hruns⟩ := exists_runs hstandard ws.length
    have harrivals := hruns.arrivals hstandard
    rw [hlength, line_prepare_new, ← hws] at harrivals
    exact harrivals ▸ hruns.ends

theorem ends_exists (g : Graph) (p : Program) (m : Nat) :
    ∃ ws, ws.length = m ∧ (new g .standard p).Ends ws := by
  refine ⟨Line.drains (p.roles .shared g) m (p.line g #[]), Line.length_drains _ _ _, ?_⟩
  rw [ends_iff, Line.length_drains]

/-- A step at the end is handed what the runs of the program before it end with. -/
theorem Ends.append {step : Step} {sieve : List Nat → Walker → List Walker × List Nat}
    (h : (new g .standard p).Ends ws) (hvertex : step.kind ≠ .vertex) (htake : step.kind ≠ .take)
    (hfollow : ∀ seen w o, step.kind.follow .shared g step.args seen w o =
      ⟨(sieve seen w).1, (sieve seen w).2, o⟩) :
    (new g .standard (p ++ [step])).Ends (sifts sieve [] ws) := by
  have hroles : Program.roles (W := Walker) .shared g (p ++ [step]) = p.roles .shared g ++
      [.relay (step.kind.follow .shared g step.args) step.kind.isProperty] := by
    rw [Program.roles, List.map_append, List.map_singleton, step.role_relay .shared g hvertex htake]
    rfl
  have hline : Program.line g (p ++ [step]) #[] =
      ⟨p.map (Step.fresh g) ++ [({ seen := [] } : Stock Walker)], (#[] : Origins)⟩ := by
    rw [Program.line, List.map_append, List.map_singleton, step.fresh_of_ne g hvertex]
  have hlength : (sifts sieve [] ws).length = ws.length := length_sifts sieve [] ws
  have hsifted : Line.drains (p.roles .shared g ++
      [.relay (step.kind.follow .shared g step.args) step.kind.isProperty]) ws.length
        ⟨p.map (Step.fresh g) ++ [{ seen := [] }], #[]⟩ = _ :=
    Line.drains_sifted hfollow ws.length #[] [] (p.length_line .shared g #[])
  rw [ends_iff] at h
  rw [ends_iff, hlength, hroles, hline, hsifted]
  exact congrArg (sifts sieve []) h

-- ---------------------------------------------------------------------------
-- What steps at the end make of it
-- ---------------------------------------------------------------------------

end Query

/-- Of walkers that arrive one after the other, those at a vertex where none arrived earlier. -/
def newcomers (earlier : List Walker) : List Walker → List Walker
  | [] => []
  | w :: ws =>
    if w.vertex ∈ earlier.map Walker.vertex then newcomers (earlier ++ [w]) ws
    else w :: newcomers (earlier ++ [w]) ws

/-- The same of several runs. -/
def newcomersOf (earlier : List Walker) : List (List Walker) → List (List Walker)
  | [] => []
  | ws :: rest => newcomers earlier ws :: newcomersOf (earlier ++ ws) rest

section
variable {earlier ws : List Walker} {seen : List Nat}

theorem newcomers_append (earlier a b : List Walker) :
    newcomers earlier (a ++ b) = newcomers earlier a ++ newcomers (earlier ++ a) b := by
  induction a generalizing earlier with
  | nil => simp [newcomers]
  | cons w a ih =>
    have hrest : newcomers (earlier ++ [w]) (a ++ b) = _ := ih (earlier ++ [w])
    rw [List.append_assoc, List.singleton_append] at hrest
    simp only [List.cons_append, newcomers, hrest]
    split <;> rfl

theorem newcomersOf_flatten (earlier : List Walker) (ws : List (List Walker)) :
    (newcomersOf earlier ws).flatten = newcomers earlier ws.flatten := by
  induction ws generalizing earlier with
  | nil => rfl
  | cons batch rest ih => simp only [newcomersOf, List.flatten_cons, ih, newcomers_append]

theorem mem_newcomers (earlier ws : List Walker) (v : Nat) :
    v ∈ (newcomers earlier ws).map Walker.vertex ↔
      v ∈ ws.map Walker.vertex ∧ v ∉ earlier.map Walker.vertex := by
  induction ws generalizing earlier with
  | nil => simp [newcomers]
  | cons w ws ih =>
    have hrest := ih (earlier ++ [w])
    rw [List.map_append, List.mem_append, List.map_singleton, List.mem_singleton] at hrest
    by_cases hv : v = w.vertex
    · subst hv
      by_cases hw : w.vertex ∈ earlier.map Walker.vertex
      · simp only [newcomers, if_pos hw, hrest]
        simp [hw]
      · simp only [newcomers, if_neg hw]
        simp [hw]
    · rw [List.map_cons, List.mem_cons, or_iff_right hv]
      rw [or_iff_left hv] at hrest
      unfold newcomers
      split
      · exact hrest
      · rw [List.map_cons, List.mem_cons, or_iff_right hv, hrest]

theorem nodup_newcomers (earlier ws : List Walker) :
    ((newcomers earlier ws).map Walker.vertex).Nodup := by
  induction ws generalizing earlier with
  | nil => exact List.nodup_nil
  | cons w ws ih =>
    unfold newcomers
    split
    · exact ih _
    · rw [List.map_cons, List.nodup_cons, mem_newcomers]
      exact ⟨fun h => h.2 (by simp), ih _⟩

/-- What a `unique` does with a walker. -/
def sieveUnique (seen : List Nat) (w : Walker) : List Walker × List Nat :=
  if seen.contains w.vertex then ([], seen) else ([w], w.vertex :: seen)

/-- What a `unique` makes of walkers, if it has seen the vertices where some arrived earlier. -/
theorem sift_unique (hseen : ∀ v, v ∈ seen ↔ v ∈ earlier.map Walker.vertex) (ws : List Walker) :
    (sift sieveUnique seen ws).1 = newcomers earlier ws ∧
      ∀ v, v ∈ (sift sieveUnique seen ws).2 ↔ v ∈ (earlier ++ ws).map Walker.vertex := by
  induction ws generalizing earlier seen with
  | nil => simpa [sift, newcomers] using hseen
  | cons w ws ih =>
    have hshift : earlier ++ w :: ws = earlier ++ [w] ++ ws := by simp
    rw [hshift]
    by_cases hw : w.vertex ∈ earlier.map Walker.vertex
    · have hsieve : sieveUnique seen w = ([], seen) := if_pos (by simpa using (hseen _).mpr hw)
      have hseen' : ∀ v, v ∈ seen ↔ v ∈ (earlier ++ [w]).map Walker.vertex := by
        intro v
        rw [hseen, List.map_append, List.mem_append, List.map_singleton, List.mem_singleton,
          or_iff_left_of_imp (fun hv => hv ▸ hw)]
      simp only [sift, newcomers, if_pos hw, hsieve, List.nil_append]
      exact ih hseen'
    · have hsieve : sieveUnique seen w = ([w], w.vertex :: seen) :=
        if_neg (by simpa using mt (hseen _).mp hw)
      have hseen' : ∀ v, v ∈ w.vertex :: seen ↔ v ∈ (earlier ++ [w]).map Walker.vertex := by
        intro v
        rw [List.mem_cons, hseen, List.map_append, List.mem_append, List.map_singleton,
          List.mem_singleton, or_comm]
      obtain ⟨hkept, hlater⟩ := ih hseen'
      simp only [sift, newcomers, if_neg hw, hsieve]
      exact ⟨congrArg (w :: ·) hkept, hlater⟩

theorem sifts_unique (hseen : ∀ v, v ∈ seen ↔ v ∈ earlier.map Walker.vertex)
    (ws : List (List Walker)) : sifts sieveUnique seen ws = newcomersOf earlier ws := by
  induction ws generalizing earlier seen with
  | nil => rfl
  | cons batch rest ih =>
    obtain ⟨hkept, hseen'⟩ := sift_unique hseen batch
    simp only [sifts, newcomersOf, hkept, ih hseen']

end

namespace Query

/-- A step at the end of a program turns the walkers with which each run ends into its own: a
`filter` keeps those whose vertex fits its record, a `property` replaces their results and drops
those without one, and a `unique` keeps those at a vertex where none arrived earlier, in whatever
run. So over all runs together a `unique` lets every vertex pass once. -/
theorem trailing_steps (g : Graph) (p : Program) :
    (∀ m, ∃ ws, ws.length = m ∧ (new g .standard p).Ends ws) ∧
    ∀ ws, (new g .standard p).Ends ws →
      (∀ wanted, (new g .standard (p ++ [⟨"filter", [.value (.obj wanted)]⟩])).Ends
        (ws.map (List.filter fun w => (g.vertices[w.vertex]?.getD default).fits wanted))) ∧
      (∀ name, (new g .standard (p ++ [⟨"property", [.value (.str name)]⟩])).Ends
        (ws.map (List.filterMap fun w =>
          ((g.vertices[w.vertex]?.bind (·.get? name)).filter (!·.isNull)).map
            fun v => { w with result := some v }))) ∧
      (new g .standard (p ++ [⟨"unique", []⟩])).Ends (newcomersOf [] ws) ∧
      ((newcomersOf [] ws).flatten.map Walker.vertex).Nodup ∧
      ∀ v, v ∈ (newcomersOf [] ws).flatten.map Walker.vertex ↔
        v ∈ ws.flatten.map Walker.vertex := by
  refine ⟨ends_exists g p, fun ws hws => ⟨?_, ?_, ?_, ?_, ?_⟩⟩
  · intro wanted
    rw [← List.filterMap_eq_filter, ← sifts_filterMap _ []]
    refine hws.append nofun nofun fun seen w o => ?_
    refine (PipeKind.follow_filter g _ w o seen).trans ?_
    cases hfits : (g.vertices[w.vertex]?.getD default).fits wanted <;>
      simp [PipeKind.keeps, Origins.sight, Option.guard, hfits]
  · intro name
    rw [← sifts_filterMap _ []]
    refine hws.append nofun nofun fun seen w o => ?_
    have hvalue : PipeKind.value? g [.value (.str name)] w.vertex =
        g.vertices[w.vertex]?.bind (·.get? name) := rfl
    cases hv : g.vertices[w.vertex]?.bind (·.get? name) with
    | none => exact PipeKind.follow_valueless g _ w o seen (hvalue.trans hv)
    | some v =>
      refine (PipeKind.follow_value g _ w o seen (hvalue.trans hv)).trans ?_
      cases hnull : v.isNull <;> simp [Option.filter, hnull]
  · have hunique : sifts sieveUnique [] ws = newcomersOf [] ws := sifts_unique (by simp) ws
    rw [← hunique]
    refine hws.append nofun nofun fun seen w o => ?_
    refine (PipeKind.follow_unique g _ w o seen).trans ?_
    unfold sieveUnique
    split <;> rfl
  · rw [newcomersOf_flatten]
    exact nodup_newcomers [] _
  · intro v
    rw [newcomersOf_flatten, mem_newcomers]
    simp

/-- Two edges lead back to one vertex. -/
theorem trailing_steps_fork :
    (new .fork .standard [⟨"vertex", []⟩, ⟨"in", []⟩]).Ends [[⟨0, 0, none⟩, ⟨0, 1, none⟩], []] ∧
      (new .fork .standard [⟨"vertex", []⟩, ⟨"in", []⟩, ⟨"unique", []⟩]).Ends
        [[⟨0, 0, none⟩], []] := by
  have hends : (new .fork .standard [⟨"vertex", []⟩, ⟨"in", []⟩]).Ends
      [[⟨0, 0, none⟩, ⟨0, 1, none⟩], []] := by
    rw [ends_iff]
    rfl
  exact ⟨hends, ((trailing_steps .fork [⟨"vertex", []⟩, ⟨"in", []⟩]).2 _ hends).2.2.1⟩

end Query

end GraphWalk
