import GraphWalk.Proofs.Graph.Flat
import GraphWalk.Proofs.Query

/-!
# A reloaded graph answers alike

A graph that was rebuilt from its flat form differs from the original in its counter (`Twin`).
`Call` is what can be asked of a graph or done to it; `reloaded_answers`: no sequence of calls
tells the two apart, since both counters always lead to the same next number.
-/

namespace GraphWalk

/-- Graphs that differ in their counters only, below which every number is taken. -/
structure Graph.Twin (g g' : Graph) : Prop where
  same : ∃ n, g' = { g with nextId := n }
  counted : g.Counted
  counted' : g'.Counted

/-- No pipe tells twins apart; their counters are not shown to it. -/
def Registry.Blind (r : Registry) : Prop :=
  ∀ name pipe, r.pipe? name = some pipe → ∀ g g' : Graph, g.Twin g' → pipe g' = pipe g

theorem Registry.standard_blind : Registry.standard.Blind := by
  intro name pipe hpipe g g' htwin
  obtain ⟨n, rfl⟩ := htwin.same
  have hkind : (PipeKind.ofName name).pipe = pipe := by
    rw [← PipeKind.pipe_ofName, hpipe]
    rfl
  rw [← hkind]
  cases PipeKind.ofName name <;> rfl

-- ---------------------------------------------------------------------------
-- Queries
-- ---------------------------------------------------------------------------

/-- The same query over another graph. -/
def Query.withGraph (q : Query) (g : Graph) : Query := { q with graph := g }

def Run.withGraph (r : Run) (g : Graph) : Run := { r with query := r.query.withGraph g }

namespace Query

/-- A number of runs, one after the other; `none` if one of them asks more than `bound`
questions. -/
def runs (bound : Nat) : Nat → Query → Option (List Run)
  | 0, _ => some []
  | m + 1, q => (q.run bound).bind fun r => (runs bound m r.query).map (r :: ·)

/-- What is seen of a run: the outputs, also as values, what was reported, and the questions. -/
structure Seen where
  outputs : List Output
  values : List Json
  notices : List Notice
  history : List (Exchange Walker)

def seen (g : Graph) (r : Run) : Seen :=
  ⟨r.outputs, r.outputs.map (Output.toJson g), r.notices, r.history⟩

variable {q : Query} {g' : Graph}

theorem prepare_withGraph (q : Query) (g' : Graph) :
    (q.withGraph g').prepare = q.prepare.withGraph g' := by
  cases h : q.prepared <;> simp [prepare, withGraph, h]

theorem stages_blind (hq : q.registry.Blind) {i : Nat} {pipe : Pipe} {args : List Arg}
    (hstage : q.stages[i]? = some (pipe, args)) {g : Graph} (htwin : g.Twin g') :
    pipe g' = pipe g := by
  simp only [stages, List.getElem?_toArray, List.getElem?_map, Option.map_eq_some_iff,
    Prod.mk.injEq] at hstage
  obtain ⟨step, -, hpipe, -⟩ := hstage
  cases hfound : q.registry.pipe? step.pipe with
  | none =>
    rw [hfound] at hpipe
    exact hpipe ▸ rfl
  | some named =>
    rw [hfound] at hpipe
    exact hpipe ▸ hq step.pipe named hfound g g' htwin

theorem machine_withGraph (hq : q.registry.Blind) (htwin : q.graph.Twin g') :
    (q.withGraph g').machine = q.machine := by
  have hask : askStage g' q.stages = askStage q.graph q.stages := by
    funext i input w
    unfold askStage
    split
    next => rfl
    next pipe args hstage => simp only [stages_blind hq hstage htwin]
  exact congrArg (Machine.mk (q.program.length - 1)) hask

theorem run_withGraph (hq : q.registry.Blind) (htwin : q.graph.Twin g') (bound : Nat) :
    (q.withGraph g').run bound = (q.run bound).map (·.withGraph g') := by
  have hmachine : (q.prepare.withGraph g').machine = q.prepare.machine :=
    machine_withGraph (q.prepare_registry ▸ hq) (q.prepare_graph ▸ htwin)
  simp only [run, prepare_withGraph, hmachine]
  show (if q.prepare.program.isEmpty then _ else _) = _
  split
  · rfl
  · rw [Option.map_map]
    rfl

theorem runs_withGraph (hq : q.registry.Blind) (htwin : q.graph.Twin g') (bound m : Nat) :
    runs bound m (q.withGraph g') = (runs bound m q).map (List.map (·.withGraph g')) := by
  induction m generalizing q with
  | zero => rfl
  | succ m ih =>
    simp only [runs, run_withGraph hq htwin]
    cases hrun : q.run bound with
    | none => rfl
    | some r =>
      obtain ⟨hgraph, hregistry⟩ := run_keeps hrun
      have hrest := ih (q := r.query) (hregistry ▸ hq) (hgraph ▸ htwin)
      simp only [Option.map_some, Option.bind_some, Run.withGraph, hrest]
      cases runs bound m r.query <;> rfl

end Query

-- ---------------------------------------------------------------------------
-- Questions and insertions
-- ---------------------------------------------------------------------------

/-- What a graph can be asked. Vertices and edges go by their numbers; a query is run a number of
times. -/
inductive Question
  | find (id : VertexId)
  | named (ids : List VertexId)
  | select (args : List Arg)
  | search (filter : List (String × Json))
  | vertex (n : Nat)
  | edge (n : Nat)
  | vertexFits (n : Nat) (filter : List (String × Json))
  | edgeFits (n : Nat) (filter : List (String × Json))
  | adjacent (n : Nat) (d : Direction)
  | flat
  | query (program : Program) (bound count : Nat)

inductive Question.Answer
  | number (n : Option Nat)
  | numbers (ns : List Nat) (notices : List Notice)
  | vertex (v : Option Vertex)
  | edge (e : Option Edge)
  | fits (verdict : Option Bool)
  | flat (flat : FlatGraph)
  | runs (seen : Option (List Query.Seen))

/-- An insertion or a question. -/
inductive Call
  | insert (call : Insertion)
  | ask (question : Question)

inductive Call.Answer
  | inserted (answer : Insertion.Answer)
  | asked (answer : Question.Answer)

namespace Graph

def answer (r : Registry) (g : Graph) : Question → Question.Answer
  | .find id => .number (g.find? id)
  | .named ids => .numbers (g.named ids) []
  | .select args => .numbers (g.select args).1 (g.select args).2
  | .search filter => .numbers (g.search filter) []
  | .vertex n => .vertex g.vertices[n]?
  | .edge n => .edge g.edges[n]?
  | .vertexFits n filter => .fits (g.vertices[n]?.map (·.fits filter))
  | .edgeFits n filter => .fits (g.edges[n]?.map (g.edgeFits · filter))
  | .adjacent n d => .numbers (g.adjacent n d) []
  | .flat => .flat g.toFlat
  | .query program bound count =>
    .runs (((Query.new g r program).runs bound count).map (List.map (Query.seen g)))

/-- The answer of a call and the graph afterwards. -/
def call (r : Registry) (g : Graph) : Call → Call.Answer × Graph
  | .insert call => let (answer, g') := g.insert call; (.inserted answer, g')
  | .ask question => (.asked (g.answer r question), g)

/-- The answers of calls made one after the other. -/
def answers (r : Registry) (g : Graph) : List Call → List Call.Answer
  | [] => []
  | c :: calls => let (answer, g') := g.call r c; answer :: g'.answers r calls

variable {g g' : Graph} {r : Registry}

theorem Twin.seen (htwin : g.Twin g') (run : Run) :
    Query.seen g' (run.withGraph g') = Query.seen g run := by
  obtain ⟨n, rfl⟩ := htwin.same
  refine congrArg (Query.Seen.mk run.outputs · run.notices run.history) ?_
  refine List.map_congr_left fun output _ => ?_
  cases output <;> rfl

theorem Twin.answer (htwin : g.Twin g') (hr : r.Blind) (question : Question) :
    g'.answer r question = g.answer r question := by
  cases question with
  | query program bound count =>
    have hruns : (Query.new g' r program).runs bound count =
        ((Query.new g r program).runs bound count).map (List.map (·.withGraph g')) :=
      Query.runs_withGraph (q := Query.new g r program) hr htwin bound count
    simp only [Graph.answer, hruns, Option.map_map, Function.comp_def, List.map_map, htwin.seen]
  | _ =>
    obtain ⟨n, rfl⟩ := htwin.same
    rfl

-- ---------------------------------------------------------------------------
-- Insertions into twins
-- ---------------------------------------------------------------------------

/-- The same result, with twins to go on from. -/
inductive Alike {α : Type} :
    Except GraphError (α × Graph) → Except GraphError (α × Graph) → Prop
  | ok (result : α) {g g' : Graph} (htwin : g.Twin g') : Alike (.ok (result, g)) (.ok (result, g'))
  | error (cause : GraphError) : Alike (.error cause) (.error cause)

theorem Twin.insertVertex (htwin : g.Twin g') (id : VertexId) (props : Table Json) :
    (g.insertVertex id props).Twin (g'.insertVertex id props) := by
  refine ⟨?_, htwin.counted.insertVertex, htwin.counted'.insertVertex⟩
  obtain ⟨n, rfl⟩ := htwin.same
  exact ⟨n, rfl⟩

theorem Twin.insertEdge (htwin : g.Twin g') (e : Edge) :
    (g.insertEdge e).Twin (g'.insertEdge e) := by
  refine ⟨?_, htwin.counted.insertEdge e, htwin.counted'.insertEdge e⟩
  obtain ⟨n, rfl⟩ := htwin.same
  exact ⟨n, rfl⟩

theorem Twin.addVertex (htwin : g.Twin g') (record : VertexRecord) :
    Alike (g.addVertex record) (g'.addVertex record) := by
  obtain ⟨n, hsame⟩ := htwin.same
  have hfind : ∀ id, g'.find? id = g.find? id := fun id => by rw [hsame]; rfl
  have hfresh : g'.freshNumber = g.freshNumber :=
    htwin.counted.freshNumber_eq htwin.counted' (by rw [hsame])
  cases hid : record.id with
  | some id =>
    simp only [Graph.addVertex, hid, hfind]
    split
    · exact .error _
    · exact .ok id (htwin.insertVertex id record.props)
  | none =>
    -- the counters end at the same place
    simp only [Graph.addVertex, hid, hfresh]
    rw [hsame]
    have hcounted := htwin.counted.insert_fresh record.props
    exact .ok _ ⟨⟨_, rfl⟩, hcounted, hcounted⟩

theorem Twin.addEdge (htwin : g.Twin g') (record : EdgeRecord) :
    Alike (g.addEdge record) (g'.addEdge record) := by
  obtain ⟨n, hsame⟩ := htwin.same
  have hfind : ∀ id, g'.find? id = g.find? id := fun id => by rw [hsame]; rfl
  have hsize : g'.edges.size = g.edges.size := by rw [hsame]
  simp only [Graph.addEdge, hfind, hsize]
  cases g.find? record.head with
  | none => exact .error _
  | some head =>
    cases g.find? record.tail with
    | none => exact .error _
    | some tail => exact .ok _ (htwin.insertEdge _)

/-- The same counts and reports, with twins to go on from. -/
structure Bulk.Alike (b b' : Bulk) : Prop where
  added : b'.added = b.added
  notices : b'.notices = b.notices
  twin : b.graph.Twin b'.graph

theorem Bulk.Alike.andThen {b b' later later' : Bulk} (h : b.Alike b')
    (hlater : later.Alike later') : (b.andThen later).Alike (b'.andThen later') where
  added := by simp only [Bulk.andThen, h.added, hlater.added]
  notices := by simp only [Bulk.andThen, h.notices, hlater.notices]
  twin := hlater.twin

theorem Alike.one {α : Type} {result result' : Except GraphError (α × Graph)}
    (h : Alike result result') (htwin : g.Twin g') (skipped : GraphError → Notice)
    (reported : List Notice) :
    (Bulk.one g skipped reported result).Alike (Bulk.one g' skipped reported result') := by
  cases h with
  | ok result htwin => exact ⟨rfl, rfl, htwin⟩
  | error cause => exact ⟨rfl, rfl, htwin⟩

theorem Twin.addVertices (htwin : g.Twin g') (records : List VertexRecord) :
    (g.addVertices records).Alike (g'.addVertices records) := by
  induction records generalizing g g' with
  | nil => exact ⟨rfl, rfl, htwin⟩
  | cons record records ih =>
    have hone := (htwin.addVertex record).one htwin .skippedVertex []
    rw [addVertices_cons, addVertices_cons g']
    exact hone.andThen (ih hone.twin)

theorem Twin.addEdges (htwin : g.Twin g') (records : List EdgeRecord) :
    (g.addEdges records).Alike (g'.addEdges records) := by
  induction records generalizing g g' with
  | nil => exact ⟨rfl, rfl, htwin⟩
  | cons record records ih =>
    have hone := (htwin.addEdge record).one htwin .skippedEdge record.notices
    rw [addEdges_cons, addEdges_cons g']
    exact hone.andThen (ih hone.twin)

theorem Twin.insert (htwin : g.Twin g') (call : Insertion) :
    (g'.insert call).1 = (g.insert call).1 ∧ (g.insert call).2.Twin (g'.insert call).2 := by
  cases call with
  | vertex record =>
    have halike := htwin.addVertex record
    simp only [Graph.insert]
    generalize g.addVertex record = result at *
    generalize g'.addVertex record = result' at *
    cases halike with
    | ok id htwin => exact ⟨rfl, htwin⟩
    | error cause => exact ⟨rfl, htwin⟩
  | edge record =>
    have halike := htwin.addEdge record
    simp only [Graph.insert]
    generalize g.addEdge record = result at *
    generalize g'.addEdge record = result' at *
    cases halike with
    | ok number htwin => exact ⟨rfl, htwin⟩
    | error cause => exact ⟨rfl, htwin⟩
  | vertices records =>
    have h := htwin.addVertices records
    exact ⟨by simp only [Graph.insert, h.added, h.notices], h.twin⟩
  | edges records =>
    have h := htwin.addEdges records
    exact ⟨by simp only [Graph.insert, h.added, h.notices], h.twin⟩

-- ---------------------------------------------------------------------------
-- Sequences of calls
-- ---------------------------------------------------------------------------

theorem Twin.call (htwin : g.Twin g') (hr : r.Blind) (c : Call) :
    (g'.call r c).1 = (g.call r c).1 ∧ (g.call r c).2.Twin (g'.call r c).2 := by
  cases c with
  | insert call =>
    obtain ⟨hanswer, hafter⟩ := htwin.insert call
    exact ⟨congrArg Call.Answer.inserted hanswer, hafter⟩
  | ask question => exact ⟨congrArg Call.Answer.asked (htwin.answer hr question), htwin⟩

theorem Twin.answers (htwin : g.Twin g') (hr : r.Blind) (calls : List Call) :
    g'.answers r calls = g.answers r calls := by
  induction calls generalizing g g' with
  | nil => rfl
  | cons c calls ih =>
    obtain ⟨hanswer, hafter⟩ := htwin.call hr c
    simp only [Graph.answers, hanswer, ih hafter]

theorem Sound.twin_reloaded (h : g.Sound) : g.Twin (ofFlat g.toFlat).graph := by
  rw [h.ofFlat_toFlat]
  exact ⟨⟨1, rfl⟩, h.counted, Nat.le_refl 1, fun n hn hlt => absurd hlt (Nat.not_lt.mpr hn)⟩

/-- Reloading passes over no record, and what comes of it answers every sequence of calls as the
original does, whatever the registry. -/
theorem reloaded_answers (h : g.Built) :
    (ofFlat g.toFlat).added = g.vertices.size + g.edges.size ∧ (ofFlat g.toFlat).notices = [] ∧
      ∀ r : Registry, r.Blind → ∀ calls : List Call,
        (ofFlat g.toFlat).graph.answers r calls = g.answers r calls := by
  have hsound := h.sound
  refine ⟨?_, ?_, fun r hr calls => hsound.twin_reloaded.answers hr calls⟩
  · rw [hsound.ofFlat_toFlat]
  · rw [hsound.ofFlat_toFlat]

/-- Both graphs name the next vertex by 3, one that counts from there and one that counts from 1;
then two runs of a query follow. -/
theorem reloaded_answers_looped : looped.Built ∧ Registry.standard.Blind ∧
    looped.nextId = 3 ∧ (ofFlat looped.toFlat).graph.nextId = 1 ∧
    (ofFlat looped.toFlat).graph.answers .standard
        [.insert (.vertex ⟨none, ∅⟩), .ask (.query [⟨"vertex", []⟩, ⟨"out", []⟩] 100 2)] =
      [.inserted (.vertex (.int 3)),
        ((looped.insert (.vertex ⟨none, ∅⟩)).2.call .standard
          (.ask (.query [⟨"vertex", []⟩, ⟨"out", []⟩] 100 2))).1] := by
  obtain ⟨-, -, hanswers⟩ := reloaded_answers looped_built
  refine ⟨looped_built, Registry.standard_blind, rfl, ?_, ?_⟩
  · rw [looped_built.sound.ofFlat_toFlat]
  · rw [hanswers .standard Registry.standard_blind]
    rfl

end Graph

end GraphWalk
