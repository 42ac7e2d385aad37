import GraphWalk.Proofs.Line.Chunks
import GraphWalk.Proofs.Query

/-!
# Programs with takes

A `take` stops a run and the next run goes on. `batches_flatten`: all runs together return what one
run returns without the takes, and `batches_chunks`: with one `take` at the end each run returns as
many outputs as it allows.
-/

namespace GraphWalk

variable {W σ : Type} {c : Carrier W σ} {g : Graph} {p : Program} {shared : σ}

theorem Step.isGate_role (c : Carrier W σ) (g : Graph) (step : Step) :
    (step.role c g).isGate = decide (step.pipe = "take") := by
  by_cases htake : step.pipe = "take"
  · rw [Step.role_take c g (Step.kind_eq_take.mpr htake), decide_eq_true htake]
    rfl
  · have hkind : step.kind ≠ .take := fun h => htake (Step.kind_eq_take.mp h)
    rw [decide_eq_false htake]
    by_cases hvertex : step.kind = .vertex
    · rw [Step.role_vertex c g hvertex]
      rfl
    · rw [Step.role_relay c g hvertex hkind]
      rfl

theorem Step.limit_take {step : Step} (h : step.pipe = "take") :
    step.limit? = Pipe.limit? step.args := by
  rw [Step.limit?, Step.kind_eq_take.mpr h]
  rfl

namespace Program

theorem roles_not_gate (h : ∀ step ∈ p, step.pipe ≠ "take") :
    ∀ role ∈ p.roles c g, role.isGate = false := by
  intro role hrole
  obtain ⟨step, hstep, rfl⟩ := List.mem_map.mp hrole
  rw [Step.isGate_role]
  exact decide_eq_false (h step hstep)

theorem roles_limits (h : ∀ step ∈ p, step.pipe = "take" → Pipe.limit? step.args ≠ some 0) :
    ∀ limit, .gate limit ∈ p.roles c g → limit ≠ some 0 := by
  intro limit hgate
  obtain ⟨step, hstep, hrole⟩ := List.mem_map.mp hgate
  have htake : step.pipe = "take" := by
    have hisGate := Step.isGate_role c g step
    rw [hrole] at hisGate
    exact of_decide_eq_true hisGate.symm
  rw [Step.role_take c g (Step.kind_eq_take.mpr htake), Step.limit_take htake] at hrole
  cases hrole
  exact h step hstep htake

theorem without_take {step : Step} (h : step.pipe = "take") (p : Program) :
    Pass.without "take" (step :: p) = Pass.without "take" p :=
  List.filter_cons_of_neg (by simp [h])

theorem without_of_ne {step : Step} (h : step.pipe ≠ "take") (p : Program) :
    Pass.without "take" (step :: p) = step :: Pass.without "take" p :=
  List.filter_cons_of_pos (by simp [h])

theorem roles_without (c : Carrier W σ) (g : Graph) (p : Program) :
    Program.roles c g (Pass.without "take" p) = Line.free (p.roles c g) := by
  induction p with
  | nil => rfl
  | cons step p ih =>
    have hroles : Program.roles c g (step :: p) = step.role c g :: Program.roles c g p := rfl
    have hgate := Step.isGate_role c g step
    by_cases htake : step.pipe = "take"
    · rw [without_take htake, hroles, ih, Line.free, Line.free, List.filter_cons_of_neg]
      simp [hgate, htake]
    · rw [without_of_ne htake, hroles, Line.free, List.filter_cons_of_pos (by simp [hgate, htake])]
      exact congrArg (step.role c g :: ·) ih

theorem stocks_without (c : Carrier W σ) (g : Graph) (p : Program) :
    (Pass.without "take" p).map (Step.fresh g) =
      Line.thin (p.roles c g) (p.map (Step.fresh g)) := by
  induction p with
  | nil => rfl
  | cons step p ih =>
    have hgate := Step.isGate_role c g step
    have hthin : Line.thin (Program.roles c g (step :: p))
        ((step :: p).map (Step.fresh g)) =
        if (step.role c g).isGate then Line.thin (Program.roles c g p) (p.map (Step.fresh g))
        else step.fresh g :: Line.thin (Program.roles c g p) (p.map (Step.fresh g)) := rfl
    rw [hthin, hgate, ← ih]
    by_cases htake : step.pipe = "take"
    · rw [without_take htake, if_pos (by simp [htake])]
    · rw [without_of_ne htake, if_neg (by simp [htake])]
      rfl

end Program

namespace Query

/-- Without its takes a program returns in one run what its line lets out without the gates. -/
theorem gives_rest (g : Graph) (p : Program) :
    (new g .standard (Pass.without "take" p)).Gives
      [(Line.rest (p.roles .shared g) (p.line g #[])).outputs.map Output.ofWalker] := by
  rw [gives_one, Program.roles_without, Program.stocks_without .shared]
  rfl

/-- Stopping at takes and going on loses no output, repeats none and changes no order. -/
theorem batches_flatten (g : Graph) (p : Program)
    (hp : ∀ step ∈ p, step.pipe = "take" → Pipe.limit? step.args ≠ some 0) :
    ∃ all, (new g .standard (Pass.without "take" p)).Gives [all] ∧
      ∃ N, ∀ m ≥ N, ∃ bs, bs.length = m ∧ (new g .standard p).Gives bs ∧ bs.flatten = all := by
  obtain ⟨N, hN⟩ := Line.drains_flatten (Program.roles_limits hp) (p.line g #[])
    (p.length_line .shared g #[])
  refine ⟨_, gives_rest g p, N, ?_⟩
  intro m hm
  obtain ⟨bs, hlength, hgives⟩ := gives_exists g p m
  refine ⟨bs, hlength, hgives, ?_⟩
  rw [gives_iff, hlength] at hgives
  rw [hgives, ← List.map_flatten, hN m hm]

theorem batches_flatten_fork :
    (∀ step ∈ ([⟨"vertex", []⟩, ⟨"take", [.value (.int 2)]⟩, ⟨"out", []⟩,
        ⟨"take", [.value (.int 1)]⟩] : Program),
      step.pipe = "take" → Pipe.limit? step.args ≠ some 0) ∧
    ∃ all, (new .fork .standard (Pass.without "take" [⟨"vertex", []⟩,
        ⟨"take", [.value (.int 2)]⟩, ⟨"out", []⟩, ⟨"take", [.value (.int 1)]⟩])).Gives [all] ∧
      ∃ N, ∀ m ≥ N, ∃ bs, bs.length = m ∧
        (new .fork .standard [⟨"vertex", []⟩, ⟨"take", [.value (.int 2)]⟩, ⟨"out", []⟩,
          ⟨"take", [.value (.int 1)]⟩]).Gives bs ∧ bs.flatten = all :=
  ⟨by simp [Pipe.limit?], batches_flatten .fork _ (by simp [Pipe.limit?])⟩

-- ---------------------------------------------------------------------------
-- One take at the end
-- ---------------------------------------------------------------------------

/-- The elements from `i * n` on, at most `n` of them. -/
def chunk {α : Type} (n : Nat) (all : List α) (i : Nat) : List α := (all.drop (i * n)).take n

theorem chunk_eq_nil {α : Type} {n : Nat} (hn : 1 ≤ n) (all : List α) (i : Nat) :
    chunk n all i = [] ↔ all.length ≤ i * n := by
  rw [chunk, List.take_eq_nil_iff, List.drop_eq_nil_iff]
  constructor
  · rintro (rfl | hle)
    · cases hn
    · exact hle
  · exact .inr

theorem length_chunk {α : Type} {n : Nat} {all : List α} {i : Nat}
    (h : chunk n all (i + 1) ≠ []) : (chunk n all i).length = n := by
  have hlong : (i + 1) * n < all.length := by
    refine Nat.lt_of_not_le fun hle => h ?_
    rw [chunk, List.drop_eq_nil_of_le hle, List.take_nil]
  rw [Nat.succ_mul] at hlong
  rw [chunk, List.length_take, List.length_drop]
  omega

theorem roles_append_take {n : Nat} (c : Carrier W σ) (g : Graph) (p : Program) :
    Program.roles c g (p ++ [⟨"take", [.value (.int n)]⟩]) =
      p.roles c g ++ [.gate (some n)] := by
  have hlimit : Pipe.limit? [.value (.int n)] = some n := by simp [Pipe.limit?]
  have hrole : Step.role c g ⟨"take", [.value (.int n)]⟩ = .gate _ :=
    Step.role_take c g (Step.kind_eq_take.mpr rfl)
  rw [Step.limit_take rfl, hlimit] at hrole
  rw [Program.roles, List.map_append, List.map_singleton, hrole]
  rfl

/-- With a `take` at the end every run returns the next outputs of the program before it. All but
the last run that returns any are full, and the first that returns none comes when all are used
up. -/
theorem batches_chunks (g : Graph) (p : Program) (n : Nat)
    (hp : ∀ step ∈ p, step.pipe ≠ "take") (hn : 1 ≤ n) :
    ∃ all, (new g .standard p).Gives [all] ∧
      (∀ m, (new g .standard (p ++ [⟨"take", [.value (.int n)]⟩])).Gives
        ((List.range m).map (chunk n all))) ∧
      ∀ i, (chunk n all i = [] ↔ all.length ≤ i * n) ∧
        (chunk n all (i + 1) ≠ [] → (chunk n all i).length = n) := by
  have hgates := Program.roles_not_gate (c := .shared) (g := g) hp
  have hlength : (p.map (Step.fresh g) : List (Stock Walker)).length =
      (p.roles .shared g).length := p.length_line .shared g #[]
  refine ⟨(Line.drain (p.roles .shared g) (p.map (Step.fresh g)) #[]).outputs.map
    Output.ofWalker, (gives_one g p _).mpr rfl, ?_, ?_⟩
  · intro m
    have hfew : ({} : Stock Walker).passed < n := Nat.lt_of_lt_of_le Nat.zero_lt_one hn
    have hdrains := Line.drains_chunks (s := (#[] : Origins)) hgates m hlength hfew (.inl rfl)
    have hline : (Program.line g (p ++ [⟨"take", [.value (.int n)]⟩]) #[] : Line Walker Origins) =
        ⟨p.map (Step.fresh g) ++ [({} : Stock Walker)], #[]⟩ := by
      rw [Program.line, List.map_append]
      rfl
    rw [gives_iff, List.length_map, List.length_range, roles_append_take, hline, hdrains,
      List.map_map]
    refine List.map_congr_left fun i _ => ?_
    simp [chunk, List.map_take, List.map_drop]
  · intro i
    exact ⟨chunk_eq_nil hn _ i, length_chunk⟩

theorem batches_chunks_fork :
    (∀ step ∈ ([⟨"vertex", []⟩, ⟨"out", []⟩] : Program), step.pipe ≠ "take") ∧ 1 ≤ 1 ∧
      ∃ all, (new .fork .standard [⟨"vertex", []⟩, ⟨"out", []⟩]).Gives [all] ∧
        (∀ m, (new .fork .standard
            [⟨"vertex", []⟩, ⟨"out", []⟩, ⟨"take", [.value (.int (1 : Nat))]⟩]).Gives
          ((List.range m).map (chunk 1 all))) ∧
        ∀ i, (chunk 1 all i = [] ↔ all.length ≤ i * 1) ∧
          (chunk 1 all (i + 1) ≠ [] → (chunk 1 all i).length = 1) :=
  ⟨by simp, Nat.le_refl 1, batches_chunks .fork [⟨"vertex", []⟩, ⟨"out", []⟩] 1 (by simp)
    (Nat.le_refl 1)⟩

example : (new .fork .standard [⟨"vertex", []⟩, ⟨"out", []⟩, ⟨"take", [.value (.int 1)]⟩]).Gives
    [[.vertex 2], [.vertex 1], []] := by
  rw [gives_iff]
  rfl

end Query

end GraphWalk
