import GraphWalk.Proofs.Exhaustion
import GraphWalk.Proofs.Sources
import GraphWalk.Proofs.Unnumbered

/-!
# Selecting and filtering

A `vertex` that selects by a record starts walkers where a `filter` by the record lets those of a
`vertex` without arguments pass. `gives_selecting`: the steps behind are handed the same walkers in
the same order, whatever their pipes, and the runs return the same. The filtered program asks more
questions and gives the walkers' tables other numbers.
-/

namespace GraphWalk

open Machine (State Reaches Orderly Abreast Leads)

variable {g : Graph} {wanted : List (String × Json)} {ρ : Nat → Nat} {w w' : World}

-- ---------------------------------------------------------------------------
-- Steps behind
-- ---------------------------------------------------------------------------

/-- The second world is the first, with the tables under the numbers that `ρ` gives. -/
structure World.Renamed (ρ : Nat → Nat) (w w' : World) : Prop where
  memories : w'.memories = w.memories.map (Memory.reorigin ρ)
  origins : w.origins.Embeds ρ w'.origins
  kept : ∀ m ∈ w.memories, ∀ v ∈ m.walkers, v.origin < w.origins.size

theorem World.Renamed.congr (h : w.Renamed ρ w') {ρ' : Nat → Nat}
    (hρ : ∀ i < w.origins.size, ρ' i = ρ i) : w.Renamed ρ' w' := by
  refine ⟨?_, h.origins.congr hρ, h.kept⟩
  rw [h.memories]
  exact Array.map_congr_left fun m hm => (Memory.reorigin_congr hρ (h.kept m hm)).symm

/-- Tables that are new to both worlds leave the memories alone. -/
theorem World.Renamed.grow (h : w.Renamed ρ w') {ρ' : Nat → Nat} {o o' : Origins}
    (hρ : ∀ i < w.origins.size, ρ' i = ρ i) (hsize : w.origins.size ≤ o.size)
    (ho : o.Embeds ρ' o') (notices notices' : List Notice) :
    World.Renamed ρ' ⟨w.memories, o, notices⟩ ⟨w'.memories, o', notices'⟩ :=
  ⟨(h.congr hρ).memories, ho, fun m hm v hv => Nat.lt_of_lt_of_le (h.kept m hm v hv) hsize⟩

/-- Unnumbered pipes answer alike in both worlds. -/
theorem World.Renamed.ask {stages : Array (Pipe × List Arg)}
    (hstages : ∀ stage ∈ stages, stage.1.Unnumbered) (h : w.Renamed ρ w') (i : Nat)
    {input : Option Walker} (hinput : ∀ v ∈ input, v.origin < w.origins.size) :
    ∃ ρ', (Query.askStage g stages i (input.map (Walker.reorigin ρ)) w').1 =
        (Query.askStage g stages i input w).1.map (Walker.reorigin ρ') ∧
      (Query.askStage g stages i input w).2.Renamed ρ'
        (Query.askStage g stages i (input.map (Walker.reorigin ρ)) w').2 ∧
      ∀ v ∈ (Query.askStage g stages i input w).1.walker?,
        v.origin < (Query.askStage g stages i input w).2.origins.size := by
  unfold Query.askStage
  split
  · exact ⟨ρ, rfl, h, nofun⟩
  next pipe args hstage =>
    have hmemory : w'.memories[i]?.getD .untouched =
        (w.memories[i]?.getD .untouched).reorigin ρ := by
      rw [h.memories, Array.getElem?_map]
      cases w.memories[i]? <;> rfl
    have hkept : ∀ v ∈ (w.memories[i]?.getD .untouched).walkers, v.origin < w.origins.size := by
      cases hm : w.memories[i]? with
      | none => exact nofun
      | some m => exact h.kept m (Array.mem_of_getElem? hm)
    obtain ⟨hgrown, ρ', hold, ha⟩ := hstages _ (Array.mem_of_getElem? hstage) g args input _ ρ _ _
      h.origins hinput hkept
    rw [← hmemory] at ha
    dsimp only at ha ⊢
    refine ⟨ρ', ha.reply, ⟨?_, ha.origins, ?_⟩, ha.offered⟩
    · rw [ha.memory, (h.congr hold).memories]
      exact (Array.map_setIfInBounds).symm
    · intro m hm v hv
      rcases Array.mem_or_eq_of_mem_setIfInBounds hm with hm | rfl
      · exact Nat.lt_of_lt_of_le (h.kept m hm v hv) hgrown
      · exact ha.kept v hv

-- ---------------------------------------------------------------------------
-- The steps in front
-- ---------------------------------------------------------------------------

namespace Query

/-- A step in front leaves the memories behind it alone. -/
theorem askStage_front {before : Array (Pipe × List Arg)} (stages : Array (Pipe × List Arg))
    {front : Array Memory} (hfront : front.size = before.size) {i : Nat} (hi : i < before.size)
    (input : Option Walker) (w : World) :
    askStage g (before ++ stages) i input (w.behind front) =
      let a := askStage g before i input { w with memories := front }
      (a.1, { a.2 with memories := w.memories }.behind a.2.memories) := by
  have hstage : (before ++ stages)[i]? = before[i]? := Array.getElem?_append_left hi
  have hmemory : (w.behind front).memories[i]? = front[i]? :=
    Array.getElem?_append_left (hfront ▸ hi)
  have hset : ∀ kept, (w.behind front).memories.setIfInBounds i kept =
      front.setIfInBounds i kept ++ w.memories :=
    fun kept => Array.setIfInBounds_append_left (hfront ▸ hi)
  unfold askStage
  rw [hstage, hmemory]
  split
  · rfl
  · simp only [hset]
    rfl

end Query

namespace PipeKind

/-- The vertices at which a `vertex` is still to start walkers. -/
def waiting (g : Graph) (args : List Arg) (m : Memory) : List Nat :=
  (vertex.stock g args m).waiting

theorem waiting_cons {args : List Arg} {m : Memory} {v : Nat} {rest : List Nat}
    (h : waiting g args m = v :: rest) (input : Option Walker) (o : Origins) :
    ∃ notices, Pipe.vertex g args input m o =
      ⟨.walker (o.start v).1, .candidates rest, (o.start v).2, notices⟩ := by
  cases m with
  | candidates vertices =>
    obtain rfl : vertices = v :: rest := h
    exact ⟨_, rfl⟩
  | _ =>
    have hselected : (g.select args).1.reverse = v :: rest := h
    simp only [Pipe.vertex, hselected]
    exact ⟨_, rfl⟩

theorem waiting_nil {args : List Arg} {m : Memory} (h : waiting g args m = [])
    (input : Option Walker) (o : Origins) :
    ∃ notices, Pipe.vertex g args input m o = ⟨.done, .candidates [], o, notices⟩ := by
  cases m with
  | candidates vertices =>
    obtain rfl : vertices = [] := h
    exact ⟨_, rfl⟩
  | _ =>
    have hselected : (g.select args).1.reverse = [] := h
    simp only [Pipe.vertex, hselected]
    exact ⟨_, rfl⟩

end PipeKind

open PipeKind (waiting)

/-- Whether the vertex of a number fits the record. -/
def Graph.fitsAt (g : Graph) (wanted : List (String × Json)) (v : Nat) : Bool :=
  (g.vertices[v]?.getD default).fits wanted

theorem Pipe.filter_record (v : Walker) (m : Memory) (o : Origins) :
    Pipe.filter g [.value (.obj wanted)] (some v) m o =
      ⟨if g.fitsAt wanted v.vertex then .walker v else .pull, m, o, []⟩ := rfl

/-- Starts walkers at the vertices that fit the record. -/
def selecting (g : Graph) (wanted : List (String × Json)) (rest : Array (Pipe × List Arg)) :
    Machine Walker World :=
  ⟨rest.size, Query.askStage g (#[(Pipe.vertex, [.value (.obj wanted)])] ++ rest)⟩

/-- Starts walkers at all vertices and lets those at vertices that fit the record pass. -/
def filtering (g : Graph) (wanted : List (String × Json)) (rest : Array (Pipe × List Arg)) :
    Machine Walker World :=
  ⟨rest.size + 1, Query.askStage g
    (#[(Pipe.vertex, []), (Pipe.filter, [.value (.obj wanted)])] ++ rest)⟩

section
variable {rest : Array (Pipe × List Arg)} {a b c m : Memory} {o : Origins} {v : Nat}
  {vertices left : List Nat} {input : Option Walker} {reply : Reply Walker} {notices : List Notice}

theorem ask_selecting
    (h : Pipe.vertex g [.value (.obj wanted)] input a w.origins = ⟨reply, m, o, notices⟩) :
    (selecting g wanted rest).ask 0 input (w.behind #[a]) =
      (reply, World.behind #[m] ⟨w.memories, o, notices.reverse ++ w.notices⟩) := by
  have hask : (selecting g wanted rest).ask 0 input (w.behind #[a]) =
      let answer := Pipe.vertex g [.value (.obj wanted)] input a w.origins
      (answer.reply, World.behind #[answer.memory]
        ⟨w.memories, answer.origins, answer.notices.reverse ++ w.notices⟩) :=
    Query.askStage_front rest rfl Nat.zero_lt_one input w
  rwa [h] at hask

theorem ask_filtering_vertex
    (h : Pipe.vertex g [] input b w.origins = ⟨reply, m, o, notices⟩) :
    (filtering g wanted rest).ask 0 input (w.behind #[b, c]) =
      (reply, World.behind #[m, c] ⟨w.memories, o, notices.reverse ++ w.notices⟩) := by
  have hask : (filtering g wanted rest).ask 0 input (w.behind #[b, c]) =
      let answer := Pipe.vertex g [] input b w.origins
      (answer.reply, World.behind #[answer.memory, c]
        ⟨w.memories, answer.origins, answer.notices.reverse ++ w.notices⟩) :=
    Query.askStage_front rest rfl Nat.zero_lt_two input w
  rwa [h] at hask

theorem ask_filtering_filter
    (h : Pipe.filter g [.value (.obj wanted)] input c w.origins = ⟨reply, m, o, notices⟩) :
    (filtering g wanted rest).ask 1 input (w.behind #[b, c]) =
      (reply, World.behind #[b, m] ⟨w.memories, o, notices.reverse ++ w.notices⟩) := by
  have hask : (filtering g wanted rest).ask 1 input (w.behind #[b, c]) =
      let answer := Pipe.filter g [.value (.obj wanted)] input c w.origins
      (answer.reply, World.behind #[b, answer.memory]
        ⟨w.memories, answer.origins, answer.notices.reverse ++ w.notices⟩) :=
    Query.askStage_front rest rfl Nat.one_lt_two input w
  rwa [h] at hask

theorem ask_filtering_none :
    (filtering g wanted rest).ask 1 none (w.behind #[b, c]) = (.pull, w.behind #[b, c]) :=
  ask_filtering_filter rfl

theorem ask_filtering_pass {x : Walker} (h : g.fitsAt wanted x.vertex = true) :
    (filtering g wanted rest).ask 1 (some x) (w.behind #[b, c]) = (.walker x, w.behind #[b, c]) :=
  ask_filtering_filter (by rw [Pipe.filter_record, if_pos h])

theorem ask_filtering_drop {x : Walker} (h : g.fitsAt wanted x.vertex = false) :
    (filtering g wanted rest).ask 1 (some x) (w.behind #[b, c]) = (.pull, w.behind #[b, c]) :=
  ask_filtering_filter (by rw [Pipe.filter_record, h])

-- ---------------------------------------------------------------------------
-- From one walker that passes to the next
-- ---------------------------------------------------------------------------

/-- The filtered program at its `vertex`, which is not finished. -/
def atVertex (results : List Walker) (w : World) : State Walker World :=
  ⟨0, none, none, results, w, []⟩

/-- The filtered program at its `filter`. -/
def atFilter (finished : Option Nat) (carried : Option Walker) (results : List Walker)
    (w : World) : State Walker World :=
  ⟨1, finished, carried, results, w, []⟩

theorem leads_start (wanted : List (String × Json)) (rest : Array (Pipe × List Arg)) (c : Memory)
    (h : waiting g [] b = v :: vertices) (results : List Walker) :
    ∃ notices, (filtering g wanted rest).Leads (atVertex results (w.behind #[b, c]))
      (atFilter none (some (w.origins.start v).1) results (World.behind #[.candidates vertices, c]
        ⟨w.memories, (w.origins.start v).2, notices⟩)) := by
  obtain ⟨notices, hvertex⟩ := PipeKind.waiting_cons h none w.origins
  refine ⟨notices.reverse ++ w.notices, ?_⟩
  exact Leads.ask (s := atVertex results (w.behind #[b, c])) rfl (ask_filtering_vertex hvertex)

theorem leads_dropped (x : Walker) (h : g.fitsAt wanted x.vertex = false)
    (results : List Walker) :
    (filtering g wanted rest).Leads (atFilter none (some x) results (w.behind #[b, c]))
      (atVertex results (w.behind #[b, c])) :=
  Leads.ask (s := atFilter none (some x) results (w.behind #[b, c])) rfl (ask_filtering_drop h)

theorem leads_pull (results : List Walker) :
    (filtering g wanted rest).Leads (atFilter none none results (w.behind #[b, c]))
      (atVertex results (w.behind #[b, c])) :=
  Leads.ask (s := atFilter none none results (w.behind #[b, c])) rfl ask_filtering_none

/-- The `filter` drops the walkers from vertices that do not fit the record. -/
theorem leads_past (rest : Array (Pipe × List Arg)) (c : Memory) {dropped : List Nat}
    (hdropped : ∀ x ∈ dropped, ¬ g.fitsAt wanted x) (h : waiting g [] b = dropped ++ left)
    (ho : o.Embeds ρ w.origins) (results : List Walker) :
    ∃ b' o' notices, o.Embeds ρ o' ∧ waiting g [] b' = left ∧
      (filtering g wanted rest).Leads (atVertex results (w.behind #[b, c]))
        (atVertex results (World.behind #[b', c] ⟨w.memories, o', notices⟩)) := by
  induction dropped generalizing b w with
  | nil => exact ⟨b, w.origins, w.notices, ho, h, .refl _⟩
  | cons x dropped ih =>
    obtain ⟨hx, hdropped⟩ := List.forall_mem_cons.mp hdropped
    obtain ⟨notices, hstart⟩ := leads_start wanted rest c h results
    obtain ⟨b', o', notices', ho', hleft, hleads⟩ := ih hdropped
      (b := .candidates (dropped ++ left)) (w := ⟨w.memories, (w.origins.start x).2, notices⟩)
      rfl (ho.push ∅)
    exact ⟨b', o', notices', ho', hleft,
      hstart.trans ((leads_dropped _ (Bool.eq_false_iff.mpr hx) results).trans hleads)⟩

/-- Where a walker passes, the `filter` comes to be handed the first that does. -/
theorem leads_passing (rest : Array (Pipe × List Arg)) (c : Memory)
    (h : (waiting g [] b).filter (g.fitsAt wanted) = v :: left)
    (ho : o.Embeds ρ w.origins) (results : List Walker) :
    ∃ b' o' notices, o.Embeds ρ o' ∧ (waiting g [] b').filter (g.fitsAt wanted) = left ∧
      g.fitsAt wanted v = true ∧
      (filtering g wanted rest).Leads (atVertex results (w.behind #[b, c]))
        (atFilter none (some (o'.start v).1) results
          (World.behind #[b', c] ⟨w.memories, (o'.start v).2, notices⟩)) := by
  obtain ⟨dropped, vertices, hvertices, hdropped, hv, hleft⟩ := List.filter_eq_cons_iff.mp h
  obtain ⟨b', o', notices, ho', hb', hpast⟩ :=
    leads_past rest c hdropped hvertices ho results
  obtain ⟨notices', hstart⟩ := leads_start wanted rest c hb' results
  exact ⟨.candidates vertices, o', notices', ho', hleft, hv, hpast.trans hstart⟩

/-- Where none passes any more, the `vertex` comes to its end. -/
theorem leads_finished (rest : Array (Pipe × List Arg)) (c : Memory)
    (h : (waiting g [] b).filter (g.fitsAt wanted) = [])
    (ho : o.Embeds ρ w.origins) (results : List Walker) :
    ∃ b' o' notices, o.Embeds ρ o' ∧ waiting g [] b' = [] ∧
      (filtering g wanted rest).Leads (atVertex results (w.behind #[b, c]))
        (atFilter (some 0) none results (World.behind #[b', c] ⟨w.memories, o', notices⟩)) := by
  obtain ⟨b', o', notices, ho', hb', hpast⟩ := leads_past rest c (List.filter_eq_nil_iff.mp h)
    (List.append_nil _).symm ho results
  obtain ⟨notices', hvertex⟩ := PipeKind.waiting_nil hb' none o'
  refine ⟨.candidates [], o', notices'.reverse ++ notices, ho', rfl, hpast.trans ?_⟩
  exact Leads.ask (s := atVertex results (World.behind #[b', c] ⟨w.memories, o', notices⟩)) rfl
    (ask_filtering_vertex hvertex)

end

-- ---------------------------------------------------------------------------
-- One question
-- ---------------------------------------------------------------------------

/-- What is kept in both programs: walkers are still to be started where, of the vertices at which
the second has still to start some, the record fits. -/
def World.Selects (g : Graph) (wanted : List (String × Json)) (ρ : Nat → Nat) (w w' : World) :
    Prop :=
  ∃ (a b c : Memory) (v v' : World), w = v.behind #[a] ∧ w' = v'.behind #[b, c] ∧
    v.Renamed ρ v' ∧ waiting g [.value (.obj wanted)] a = (waiting g [] b).filter (g.fitsAt wanted)

/-- Both programs at the same step, counted from the end. -/
structure Selecting (g : Graph) (wanted : List (String × Json)) (ρ : Nat → Nat)
    (s t : State Walker World) : Prop where
  abreast : Abreast 1 (Walker.reorigin ρ) Output.ofWalker s t
  carried : ∀ x ∈ s.carried, x.origin < s.world.origins.size
  world : s.world.Selects g wanted ρ t.world

namespace Selecting

variable {rest : Array (Pipe × List Arg)} {s t : State Walker World}

theorem last (g : Graph) (wanted : List (String × Json)) (rest : Array (Pipe × List Arg)) :
    (filtering g wanted rest).last = (selecting g wanted rest).last + 1 := rfl

theorem next_behind (hrest : ∀ stage ∈ rest, stage.1.Unnumbered) (h : Selecting g wanted ρ s t)
    (hs : Orderly (selecting g wanted rest) s) (hpos : 0 < s.position) :
    ∃ ρ', Selecting g wanted ρ' ((selecting g wanted rest).next s)
      ((filtering g wanted rest).next t) := by
  obtain ⟨a, b, c, v, v', hw, hw', hrenamed, hwaiting⟩ := h.world
  obtain ⟨i, hi⟩ := Nat.exists_eq_add_one.mpr hpos
  have hinput : ∀ x ∈ s.carried, x.origin < v.origins.size := by
    have hcarried := h.carried
    rwa [hw] at hcarried
  obtain ⟨ρ', hreply, hafter, hoffered⟩ := hrenamed.ask hrest i hinput
  have hask : (selecting g wanted rest).ask s.position s.carried s.world =
      ((Query.askStage g rest i s.carried v).1,
        (Query.askStage g rest i s.carried v).2.behind #[a]) := by
    rw [hi, hw]
    exact Query.askStage_behind rfl i s.carried v
  have hask' : (filtering g wanted rest).ask t.position t.carried t.world =
      ((Query.askStage g rest i (s.carried.map (Walker.reorigin ρ)) v').1,
        (Query.askStage g rest i (s.carried.map (Walker.reorigin ρ)) v').2.behind #[b, c]) := by
    rw [h.abreast.position, hi, h.abreast.carried, hw']
    exact Query.askStage_behind rfl i _ v'
  refine ⟨ρ', ?_, ?_, ?_⟩
  · refine h.abreast.next (last g wanted rest) (fun _ => rfl) ?_ fun _ => hpos
    rw [hask, hask', hreply]
  · intro x hx
    have hoffer := Machine.offered_of_carried hs.within hx
    rw [hask] at hoffer
    rw [Machine.next_world, hask]
    exact hoffered x hoffer
  · rw [Machine.next_world, Machine.next_world, hask, hask']
    exact ⟨a, b, c, _, _, rfl, rfl, hafter, hwaiting⟩

/-- At its first step the one program carries nothing, and nor does the other at its second. -/
theorem at_first (h : Selecting g wanted ρ s t) (hs : Orderly (selecting g wanted rest) s)
    (hover : s.isOver (selecting g wanted rest) = false) (hfirst : s.position = 0) :
    s.carried = none ∧ s.finished = none ∧
      t = { atFilter none none t.results t.world with history := t.history } := by
  have hcarried := hs.carried_first hfirst
  have hfinished : s.finished = none := by
    refine Option.eq_none_iff_forall_not_mem.mpr fun d hd => ?_
    have hbehind := hs.behind hover d hd
    omega
  refine ⟨hcarried, hfinished, ?_⟩
  obtain ⟨position, finished, carried, results, world, history⟩ := t
  obtain rfl : position = s.position + 1 := h.abreast.position
  obtain rfl : finished = _ := h.abreast.finished
  obtain rfl : carried = _ := h.abreast.carried
  rw [hfirst, hcarried, hfinished]
  rfl

section
variable {v v' : World} {a b c : Memory}

/-- The one program starts a walker where the other comes to let one pass. -/
theorem next_passing {x : Nat} {left : List Nat} (h : Selecting g wanted ρ s t)
    (hs : Orderly (selecting g wanted rest) s)
    (hover : s.isOver (selecting g wanted rest) = false) (hfirst : s.position = 0)
    (hw : s.world = v.behind #[a]) (hw' : t.world = v'.behind #[b, c])
    (hrenamed : v.Renamed ρ v') (hone : waiting g [.value (.obj wanted)] a = x :: left)
    (hother : (waiting g [] b).filter (g.fitsAt wanted) = x :: left) :
    ∃ more ρ' t', Selecting g wanted ρ' ((selecting g wanted rest).next s) t' ∧
      ∀ bound, (filtering g wanted rest).runFrom (more + (bound + 1)) t =
        (filtering g wanted rest).runFrom bound t' := by
  obtain ⟨hcarried, hfinished, ht⟩ := h.at_first hs hover hfirst
  obtain ⟨notices, hvertex⟩ := PipeKind.waiting_cons hone none v.origins
  have hask : (selecting g wanted rest).ask s.position s.carried s.world =
      (.walker (v.origins.start x).1, World.behind #[.candidates left]
        ⟨v.memories, (v.origins.start x).2, notices.reverse ++ v.notices⟩) := by
    rw [hfirst, hcarried, hw]
    exact ask_selecting hvertex
  obtain ⟨b', o', notices', ho', hleft, hfits, hleads⟩ :=
    leads_passing rest c hother hrenamed.origins t.results
  obtain ⟨more, history, hrun⟩ := (leads_pull t.results).trans hleads t.history
  obtain ⟨ρ', hold, hembeds, hstart⟩ := ho'.start x
  let w : World := ⟨v'.memories, (o'.start x).2, notices'⟩
  let u : State Walker World :=
    { atFilter none (some (o'.start x).1) t.results (w.behind #[b', c]) with history }
  have hask' : (filtering g wanted rest).ask u.position u.carried u.world =
      (.walker (o'.start x).1, w.behind #[b', c]) := ask_filtering_pass hfits
  have hreply : Reply.walker (o'.start x).1 =
      (Reply.walker (v.origins.start x).1).map (Walker.reorigin ρ') :=
    congrArg Reply.walker hstart
  refine ⟨more, ρ', (filtering g wanted rest).next u, ⟨?_, ?_, ?_⟩, fun bound => ?_⟩
  · simp only [Machine.next, hask, hask', hreply]
    refine Abreast.react ⟨?_, ?_, rfl, h.abreast.results⟩ (last g wanted rest) (fun _ => rfl)
      (by rintro ⟨⟩)
    · show 1 = s.position + 1
      rw [hfirst]
    · show none = s.finished.map (· + 1)
      rw [hfinished]
      rfl
  · intro y hy
    have hoffer := Machine.offered_of_carried hs.within hy
    rw [hask] at hoffer
    rw [Machine.next_world, hask]
    obtain rfl : (v.origins.start x).1 = y := Option.some.inj hoffer
    simp [Origins.start, World.behind]
  · rw [Machine.next_world, Machine.next_world, hask, hask']
    refine ⟨.candidates left, b', c, _, w, rfl, rfl, ?_, hleft.symm⟩
    exact hrenamed.grow hold (by simp [Origins.start]) hembeds _ _
  · rw [ht, hw']
    exact (hrun (bound + 1)).trans (Machine.runFrom_succ rfl bound)

/-- The one program finishes its first step where the other comes to finish its second. -/
theorem next_finished (h : Selecting g wanted ρ s t) (hs : Orderly (selecting g wanted rest) s)
    (hover : s.isOver (selecting g wanted rest) = false) (hfirst : s.position = 0)
    (hw : s.world = v.behind #[a]) (hw' : t.world = v'.behind #[b, c])
    (hrenamed : v.Renamed ρ v') (hone : waiting g [.value (.obj wanted)] a = [])
    (hother : (waiting g [] b).filter (g.fitsAt wanted) = []) :
    ∃ more ρ' t', Selecting g wanted ρ' ((selecting g wanted rest).next s) t' ∧
      ∀ bound, (filtering g wanted rest).runFrom (more + (bound + 1)) t =
        (filtering g wanted rest).runFrom bound t' := by
  obtain ⟨hcarried, -, ht⟩ := h.at_first hs hover hfirst
  obtain ⟨notices, hvertex⟩ := PipeKind.waiting_nil hone none v.origins
  have hask : (selecting g wanted rest).ask s.position s.carried s.world =
      (.done, World.behind #[.candidates []]
        ⟨v.memories, v.origins, notices.reverse ++ v.notices⟩) := by
    rw [hfirst, hcarried, hw]
    exact ask_selecting hvertex
  obtain ⟨b', o', notices', ho', hdone, hleads⟩ :=
    leads_finished rest c hother hrenamed.origins t.results
  obtain ⟨more, history, hrun⟩ := (leads_pull t.results).trans hleads t.history
  let w : World := ⟨v'.memories, o', notices'⟩
  let u : State Walker World :=
    { atFilter (some 0) none t.results (w.behind #[b', c]) with history }
  have hask' : (filtering g wanted rest).ask u.position u.carried u.world =
      (.pull, w.behind #[b', c]) := ask_filtering_none
  have hover' : u.isOver (filtering g wanted rest) = false := by
    simp [u, State.isOver, atFilter, filtering]
  refine ⟨more, ρ, (filtering g wanted rest).next u, ⟨?_, ?_, ?_⟩, fun bound => ?_⟩
  · simp only [Machine.next, hask, hask']
    -- nothing is left to pull from, so the filter is finished as well
    refine Abreast.advance ⟨?_, ?_, rfl, h.abreast.results⟩ (last g wanted rest) (fun _ => rfl)
    · show 1 = s.position + 1
      rw [hfirst]
    · show some 1 = (some s.position).map (· + 1)
      rw [hfirst]
      rfl
  · intro y hy
    have hoffer := Machine.offered_of_carried hs.within hy
    rw [hask] at hoffer
    cases hoffer
  · rw [Machine.next_world, Machine.next_world, hask, hask']
    refine ⟨.candidates [], b', c, _, w, rfl, rfl, ?_, ?_⟩
    · exact hrenamed.grow (fun _ _ => rfl) (Nat.le_refl _) ho' _ _
    · rw [hdone]
      rfl
  · rw [ht, hw']
    exact (hrun (bound + 1)).trans (Machine.runFrom_succ hover' bound)

end

/-- At the first step one question stands for as many as it takes until a walker passes. -/
theorem next_first (h : Selecting g wanted ρ s t) (hs : Orderly (selecting g wanted rest) s)
    (hover : s.isOver (selecting g wanted rest) = false) (hfirst : s.position = 0) :
    ∃ more ρ' t', Selecting g wanted ρ' ((selecting g wanted rest).next s) t' ∧
      ∀ bound, (filtering g wanted rest).runFrom (more + (bound + 1)) t =
        (filtering g wanted rest).runFrom bound t' := by
  obtain ⟨a, b, c, v, v', hw, hw', hrenamed, hwaiting⟩ := h.world
  cases hone : waiting g [.value (.obj wanted)] a with
  | cons x left =>
    exact h.next_passing hs hover hfirst hw hw' hrenamed hone (hwaiting.symm.trans hone)
  | nil => exact h.next_finished hs hover hfirst hw hw' hrenamed hone (hwaiting.symm.trans hone)

theorem next (hrest : ∀ stage ∈ rest, stage.1.Unnumbered) (h : Selecting g wanted ρ s t)
    (hs : Orderly (selecting g wanted rest) s)
    (hover : s.isOver (selecting g wanted rest) = false) :
    ∃ more ρ' t', Selecting g wanted ρ' ((selecting g wanted rest).next s) t' ∧
      ∀ bound, (filtering g wanted rest).runFrom (more + (bound + 1)) t =
        (filtering g wanted rest).runFrom bound t' := by
  rcases Nat.eq_zero_or_pos s.position with hfirst | hpos
  · exact h.next_first hs hover hfirst
  · obtain ⟨ρ', hnext⟩ := h.next_behind hrest hs hpos
    refine ⟨0, ρ', _, hnext, fun bound => ?_⟩
    rw [Nat.zero_add]
    exact Machine.runFrom_succ ((h.abreast.isOver (last g wanted rest)).symm.trans hover) bound

-- ---------------------------------------------------------------------------
-- Whole runs
-- ---------------------------------------------------------------------------

/-- From such states both programs come to an end, or neither does. -/
theorem runs (hrest : ∀ stage ∈ rest, stage.1.Unnumbered) (h : Selecting g wanted ρ s t)
    (hs : Orderly (selecting g wanted rest) s) :
    (∀ bound s', (selecting g wanted rest).runFrom bound s = some s' →
      ∃ bound' t', (filtering g wanted rest).runFrom bound' t = some t' ∧
        ∃ ρ', Selecting g wanted ρ' s' t') ∧
    ∀ bound t', (filtering g wanted rest).runFrom bound t = some t' →
      ∃ bound' s', (selecting g wanted rest).runFrom bound' s = some s' ∧
        ∃ ρ', Selecting g wanted ρ' s' t' := by
  let R s t := Orderly (selecting g wanted rest) s ∧ ∃ ρ, Selecting g wanted ρ s t
  have hover : ∀ {s t}, R s t →
      s.isOver (selecting g wanted rest) = t.isOver (filtering g wanted rest) := by
    rintro s t ⟨-, ρ, hst⟩
    exact hst.abreast.isOver (last g wanted rest)
  have hnext : ∀ {s t}, R s t → s.isOver (selecting g wanted rest) = false → ∃ more t',
      R ((selecting g wanted rest).next s) t' ∧ ∀ bound,
        (filtering g wanted rest).runFrom (more + (bound + 1)) t =
          (filtering g wanted rest).runFrom bound t' := by
    rintro s t ⟨hs, ρ, hst⟩ hopen
    obtain ⟨more, ρ', t', hst', hleads⟩ := hst.next hrest hs hopen
    exact ⟨more, t', ⟨hs.next hopen, ρ', hst'⟩, hleads⟩
  obtain ⟨hright, hleft⟩ := Machine.runFrom_paced hover hnext ⟨hs, ρ, h⟩
  constructor
  · intro bound s' hrun
    obtain ⟨bound', t', hrun', -, hst⟩ := hright bound s' hrun
    exact ⟨bound', t', hrun', hst⟩
  · intro bound t' hrun
    obtain ⟨bound', s', hrun', -, hst⟩ := hleft bound t' hrun
    exact ⟨bound', s', hrun', hst⟩

end Selecting

theorem World.Selects.quiet (h : w.Selects g wanted ρ w') :
    World.Selects g wanted ρ ⟨w.memories, w.origins, []⟩ ⟨w'.memories, w'.origins, []⟩ := by
  obtain ⟨a, b, c, v, v', rfl, rfl, hrenamed, hwaiting⟩ := h
  refine ⟨a, b, c, { v with notices := [] }, { v' with notices := [] }, rfl, rfl, ?_, hwaiting⟩
  exact ⟨hrenamed.memories, hrenamed.origins, hrenamed.kept⟩

theorem waiting_untouched (g : Graph) (wanted : List (String × Json)) :
    waiting g [.value (.obj wanted)] .untouched =
      (waiting g [] .untouched).filter (g.fitsAt wanted) := by
  show (g.search wanted).reverse = (List.range g.vertices.size).reverse.filter (g.fitsAt wanted)
  rw [List.filter_reverse, Graph.search]
  refine congrArg List.reverse (List.filter_congr fun v hv => ?_)
  have hlt : v < g.vertices.size := List.mem_range.mp hv
  simp [Graph.fitsAt, hlt]

namespace Query

/-- The program that selects by a record, and the one that filters. -/
def byRecord (wanted : List (String × Json)) (steps : Program) : Program :=
  ⟨"vertex", [.value (.obj wanted)]⟩ :: steps

def byFilter (wanted : List (String × Json)) (steps : Program) : Program :=
  ⟨"vertex", []⟩ :: ⟨"filter", [.value (.obj wanted)]⟩ :: steps

/-- Prepared queries of the two programs that have returned the same so far. -/
structure Selects (g : Graph) (r : Registry) (wanted : List (String × Json)) (steps : Program)
    (q q' : Query) : Prop where
  left : q = ⟨g, r, byRecord wanted steps, true, q.memories, q.origins⟩
  right : q' = ⟨g, r, byFilter wanted steps, true, q'.memories, q'.origins⟩
  world : ∃ ρ, World.Selects g wanted ρ ⟨q.memories, q.origins, []⟩ ⟨q'.memories, q'.origins, []⟩

namespace Selects

variable {r : Registry} {steps : Program} {q q' : Query}

theorem machine_left (hvertex : r.pipe? "vertex" = some Pipe.vertex)
    (h : Selects g r wanted steps q q') :
    q.machine = selecting g wanted (new g r steps).stages := by
  rw [h.left]
  simp [machine, selecting, stages, new, byRecord, hvertex]

theorem machine_right (hvertex : r.pipe? "vertex" = some Pipe.vertex)
    (hfilter : r.pipe? "filter" = some Pipe.filter) (h : Selects g r wanted steps q q') :
    q'.machine = filtering g wanted (new g r steps).stages := by
  rw [h.right]
  simp [machine, filtering, stages, new, byFilter, hvertex, hfilter]

section
variable (h : Selects g r wanted steps q q')
include h

theorem prepare_left : q.prepare = q := if_pos (by rw [h.left])

theorem prepare_right : q'.prepare = q' := if_pos (by rw [h.right])

theorem ne_nil_left : q.prepare.program ≠ [] := by
  rw [h.prepare_left, h.left]
  exact List.cons_ne_nil _ _

theorem ne_nil_right : q'.prepare.program ≠ [] := by
  rw [h.prepare_right, h.right]
  exact List.cons_ne_nil _ _

theorem returned {s t : State Walker World} (hst : Selecting g wanted ρ s t) :
    (q.returned s).outputs = (q'.returned t).outputs ∧
      Selects g r wanted steps (q.returned s).query (q'.returned t).query := by
  refine ⟨?_, ?_, ?_, ρ, hst.world.quiet⟩
  · simp only [Query.returned, List.map_reverse, hst.abreast.results]
  · rw [Query.returned, h.prepare_left, h.left]
  · rw [Query.returned, h.prepare_right, h.right]

variable (hvertex : r.pipe? "vertex" = some Pipe.vertex)
  (hfilter : r.pipe? "filter" = some Pipe.filter)
  (hsteps : ∀ step ∈ steps, ∀ pipe ∈ r.pipe? step.pipe, pipe.Unnumbered)
include hvertex hfilter hsteps

/-- A run of one ends where a run of the other does, with the same outputs. -/
theorem run :
    (∀ bound x, q.run bound = some x → ∃ bound' x', q'.run bound' = some x' ∧
      x.outputs = x'.outputs ∧ Selects g r wanted steps x.query x'.query) ∧
    ∀ bound x', q'.run bound = some x' → ∃ bound' x, q.run bound' = some x ∧
      x.outputs = x'.outputs ∧ Selects g r wanted steps x.query x'.query := by
  have hrest : ∀ stage ∈ (new g r steps).stages, stage.1.Unnumbered := by
    intro stage hstage
    obtain ⟨step, hstep, rfl⟩ := List.mem_map.mp (List.mem_toArray.mp hstage)
    cases hpipe : r.pipe? step.pipe with
    | none => simpa [new, hpipe] using Pipe.unnumbered_passthrough
    | some pipe => simpa [new, hpipe] using hsteps step hstep pipe hpipe
  have hmachine : q.prepare.machine = selecting g wanted (new g r steps).stages := by
    rw [h.prepare_left, h.machine_left hvertex]
  have hmachine' : q'.prepare.machine = filtering g wanted (new g r steps).stages := by
    rw [h.prepare_right, h.machine_right hvertex hfilter]
  obtain ⟨ρ, hworld⟩ := h.world
  have hstart : Selecting g wanted ρ q.begin q'.begin := by
    rw [begin, begin, hmachine, hmachine', h.prepare_left, h.prepare_right]
    exact ⟨.start (Selecting.last _ _ _) _ _ _ _, by rintro _ ⟨⟩, hworld⟩
  have horderly : Orderly q.prepare.machine q.begin := .start _ _
  rw [hmachine] at horderly
  obtain ⟨hright, hleft⟩ := hstart.runs hrest horderly
  rw [← hmachine, ← hmachine'] at hright hleft
  constructor
  · intro bound x hrun
    rw [run_eq h.ne_nil_left] at hrun
    obtain ⟨s, hs, rfl⟩ := Option.map_eq_some_iff.mp hrun
    obtain ⟨bound', t, ht, ρ', hst⟩ := hright bound s hs
    refine ⟨bound', q'.returned t, ?_, h.returned hst⟩
    rw [run_eq h.ne_nil_right, ht]
    rfl
  · intro bound x' hrun
    rw [run_eq h.ne_nil_right] at hrun
    obtain ⟨t, ht, rfl⟩ := Option.map_eq_some_iff.mp hrun
    obtain ⟨bound', s, hs, ρ', hst⟩ := hleft bound t ht
    refine ⟨bound', q.returned s, ?_, h.returned hst⟩
    rw [run_eq h.ne_nil_left, hs]
    rfl

theorem gives (bs : List (List Output)) : q.Gives bs ↔ q'.Gives bs := by
  induction bs generalizing q q' with
  | nil => exact ⟨fun _ => ⟨0, rfl⟩, fun _ => ⟨0, rfl⟩⟩
  | cons outputs bs ih =>
    obtain ⟨hright, hleft⟩ := h.run hvertex hfilter hsteps
    rw [gives_cons, gives_cons]
    constructor
    · rintro ⟨bound, x, hrun, rfl, hgives⟩
      obtain ⟨bound', x', hrun', houtputs, hquery⟩ := hright bound x hrun
      exact ⟨bound', x', hrun', houtputs.symm, (ih hquery).mp hgives⟩
    · rintro ⟨bound, x', hrun, rfl, hgives⟩
      obtain ⟨bound', x, hrun', houtputs, hquery⟩ := hleft bound x' hrun
      exact ⟨bound', x, hrun', houtputs, (ih hquery).mpr hgives⟩

end

theorem start (hpasses : r.passes = []) (g : Graph) (wanted : List (String × Json))
    (steps : Program) : Selects g r wanted steps (new g r (byRecord wanted steps)).prepare
      (new g r (byFilter wanted steps)).prepare := by
  rw [prepare_plain hpasses, prepare_plain hpasses]
  refine ⟨rfl, rfl, id, .untouched, .untouched, .untouched, ⟨steps.untouched, #[], []⟩,
    ⟨steps.untouched, #[], []⟩, ?_, ?_, ⟨?_, ⟨?_, ?_⟩, ?_⟩, waiting_untouched g wanted⟩
  · exact congrArg (World.mk · #[] []) (Program.untouched_append [_] steps)
  · exact congrArg (World.mk · #[] []) (Program.untouched_append [_, _] steps)
  · simp [Program.untouched, Memory.reorigin]
  · simp
  · simp
  · intro m hm
    obtain rfl : m = .untouched := (Array.mem_replicate.mp hm).2
    rintro _ ⟨⟩

end Selects

theorem gives_prepare (q : Query) (bs : List (List Output)) : q.prepare.Gives bs ↔ q.Gives bs := by
  simp only [Gives, batches_congr q.prepare_prepare]

/-- Starting at the vertices that fit a record, and starting at all and filtering by it, return the
same in every run, whatever the pipes behind do with walkers, tables, arguments and what they keep.
The number under which a table stands is no part of that: a walker refers to its table, and one that
is started gets a new one. -/
theorem gives_selecting (g : Graph) (r : Registry) (hvertex : r.pipe? "vertex" = some Pipe.vertex)
    (hfilter : r.pipe? "filter" = some Pipe.filter) (hpasses : r.passes = [])
    (wanted : List (String × Json)) (steps : Program)
    (hsteps : ∀ step ∈ steps, ∀ pipe ∈ r.pipe? step.pipe, pipe.Unnumbered)
    (bs : List (List Output)) :
    (new g r (⟨"vertex", [.value (.obj wanted)]⟩ :: steps)).Gives bs ↔
      (new g r (⟨"vertex", []⟩ :: ⟨"filter", [.value (.obj wanted)]⟩ :: steps)).Gives bs := by
  rw [← gives_prepare, ← gives_prepare (new g r (⟨"vertex", []⟩ :: _))]
  exact (Selects.start hpasses g wanted steps).gives hvertex hfilter hsteps bs

theorem unnumbered_twiceRegistry (name : String) :
    ∀ pipe ∈ twiceRegistry.pipe? name, pipe.Unnumbered := by
  intro pipe hpipe
  rw [twiceRegistry, Registry.pipe?_addPipe] at hpipe
  split at hpipe
  · cases hpipe
    exact Pipe.unnumbered_twice
  · exact Registry.unnumbered_standard name pipe hpipe

theorem gives_selecting_fork : twiceRegistry.pipe? "vertex" = some Pipe.vertex ∧
    twiceRegistry.pipe? "filter" = some Pipe.filter ∧ twiceRegistry.passes = [] ∧
    (∀ step ∈ ([⟨"twice", []⟩] : Program), ∀ pipe ∈ twiceRegistry.pipe? step.pipe,
      pipe.Unnumbered) ∧
    (new .fork twiceRegistry
      [⟨"vertex", [.value (.obj [("_id", .int 2)])]⟩, ⟨"twice", []⟩]).Gives
        [[.vertex 1, .vertex 1], []] ∧
    (new .fork twiceRegistry
      [⟨"vertex", []⟩, ⟨"filter", [.value (.obj [("_id", .int 2)])]⟩, ⟨"twice", []⟩]).Gives
        [[.vertex 1, .vertex 1], []] := by
  have hvertex : twiceRegistry.pipe? "vertex" = some Pipe.vertex := by
    rw [twiceRegistry, Registry.pipe?_addPipe]
    rfl
  have hfilter : twiceRegistry.pipe? "filter" = some Pipe.filter := by
    rw [twiceRegistry, Registry.pipe?_addPipe]
    rfl
  have hsteps : ∀ step ∈ ([⟨"twice", []⟩] : Program), ∀ pipe ∈ twiceRegistry.pipe? step.pipe,
      pipe.Unnumbered := fun step _ => unnumbered_twiceRegistry step.pipe
  have hgives : (new .fork twiceRegistry
      [⟨"vertex", [.value (.obj [("_id", .int 2)])]⟩, ⟨"twice", []⟩]).Gives
        [[.vertex 1, .vertex 1], []] := ⟨9, rfl⟩
  have hsame := gives_selecting .fork twiceRegistry hvertex hfilter rfl [("_id", .int 2)]
    [⟨"twice", []⟩] hsteps
  exact ⟨hvertex, hfilter, rfl, hsteps, hgives, (hsame _).mp hgives⟩

end Query

end GraphWalk
