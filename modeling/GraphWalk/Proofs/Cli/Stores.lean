import GraphWalk.Cli.Run
import GraphWalk.Proofs.Graph.Series
import GraphWalk.Proofs.Writing

/-!
# What runs make of the stored texts

A command that fails and one that only reads leave every stored text as it is; any other changes
one entry, by what it was given and nothing else. `run_stores` says so of one run and, entry by
entry, of any number of runs.
-/

namespace GraphWalk

theorem Table.erase_eq_self {α : Type} {t : Table α} {key : String} (h : t.get? key = none) :
    t.erase key = t := by
  refine ext_get? fun k => ?_
  rw [get?_erase]
  split
  next heq => rw [← heq, h]
  next => rfl

/-- Of pairs with one name the last counts. -/
theorem Table.get?_ofList {α : Type} (pairs : List (String × α)) (name : String) :
    (ofList pairs).get? name = (pairs.reverse.find? (·.1 = name)).map (·.2) := by
  induction pairs using List.reverseRecOn with
  | nil => rfl
  | append_singleton pairs e ih =>
    rw [ofList, List.foldl_append, List.foldl_cons, List.foldl_nil, ← ofList, get?_insert, ih]
    by_cases he : e.1 = name
    · simp [he]
    · simp [he]

namespace Cli

-- ---------------------------------------------------------------------------
-- The disk
-- ---------------------------------------------------------------------------

namespace Disk

variable {d d' : Disk} {p q : Place} {path : Path} {text : String}

theorem stores_write (h : d.write path text = .ok d') : d'.stores = d.stores := by
  obtain ⟨place, -, h⟩ := bind_ok h
  split at h
  · cases h
  · cases h
    rfl

theorem stores_makeDirectory (h : d.makeDirectory path = .ok d') : d'.stores = d.stores := by
  obtain ⟨place, -, h⟩ := bind_ok h
  split at h
  · cases h
  · cases h
    rfl

theorem stores_ensureDirectory (d : Disk) (path : Path) :
    (d.ensureDirectory path).1.stores = d.stores := by
  unfold ensureDirectory
  split
  next d' hmade => exact stores_makeDirectory hmade
  next => rfl

theorem stores_ensureFirst (d : Disk) (paths : List Path) :
    (d.ensureFirst paths).1.stores = d.stores := by
  induction paths generalizing d with
  | nil => rfl
  | cons path rest ih =>
    have hpath := stores_ensureDirectory d path
    unfold ensureFirst
    split
    next d' hmissing =>
      rw [hmissing] at hpath
      have hrest := ih d'
      split
      next d'' hmade =>
        rw [hmade] at hrest
        exact (stores_ensureDirectory d'' path).trans (hrest.trans hpath)
      next => exact hrest.trans hpath
    next => exact hpath

theorem stores_openDirectory (d : Disk) (path : Path) :
    (d.openDirectory path).1.stores = d.stores := by
  unfold openDirectory
  split
  · rfl
  · have hmade := stores_ensureFirst d path.lineage
    rw [← ensureDirectories] at hmade
    split
    next hfault => rwa [hfault] at hmade
    next hdone => rwa [hdone] at hmade

theorem stores_save (d : Disk) (path : Path) (text : String) :
    (d.save path text).1.stores = d.stores := by
  have hparent : ((path.parent?.map d.ensureDirectories).getD (d, none)).1.stores = d.stores := by
    cases path.parent? with
    | none => rfl
    | some parent => exact stores_ensureFirst d parent.lineage
  unfold save
  split
  next hfault => rwa [hfault] at hparent
  next hdone =>
    rw [hdone] at hparent
    split
    next hwrite => exact (stores_write hwrite).trans hparent
    next => exact hparent

theorem storeAt_congr (h : d'.stores = d.stores) (p : Place) : d'.storeAt p = d.storeAt p := by
  rw [storeAt, h, storeAt]

theorem storeAt_putStore (d : Disk) (p q : Place) (s : Store) :
    (d.putStore p s).storeAt q = if p.toString = q.toString then s else d.storeAt q := by
  rw [storeAt, putStore, Table.get?_insert]
  split <;> rfl

end Disk

-- ---------------------------------------------------------------------------
-- Properties
-- ---------------------------------------------------------------------------

/-- The name that a word gives a property: what stands before its first equals sign, trimmed. -/
def propertyName (word : String) : String :=
  String.ofList (Text.trim (word.toList.takeWhile (· ≠ '=')))

/-- The value that a word gives a property: what stands behind its first equals sign, as JSON where
it reads as such. -/
def propertyValue (word : String) : Json :=
  let text := String.ofList ((word.toList.dropWhile (· ≠ '=')).drop 1)
  (Json.ofString? text).getD (.str text)

/-- Every property that the words give, under its trimmed name and with its last value, and no
other. -/
def Given (words : List String) (props : Table Json) : Prop :=
  ∀ name, props.get? name = (words.reverse.find? (propertyName · = name)).map propertyValue

theorem readProperty_ok {word : String} {e : String × Json} (h : readProperty word = .ok e) :
    e = (propertyName word, propertyValue word) := by
  unfold readProperty at h
  dsimp only at h
  split at h
  · cases h
  · split at h
    · cases h
    · exact (Except.ok.inj h).symm

theorem given_readProperties {words : List String} {props : Table Json}
    (h : readProperties words = .ok props) : Given words props := by
  obtain ⟨pairs, hpairs, rfl⟩ := map_ok h
  have hmap : pairs = words.map fun word => (propertyName word, propertyValue word) := by
    clear h
    induction words generalizing pairs with
    | nil =>
      cases hpairs
      rfl
    | cons word words ih =>
      rw [List.mapM_cons] at hpairs
      obtain ⟨e, he, hpairs⟩ := bind_ok hpairs
      obtain ⟨rest, hrest, hpairs⟩ := bind_ok hpairs
      cases hpairs
      rw [readProperty_ok he, ih rest hrest, List.map_cons]
  intro name
  simp only [Table.get?_ofList, hmap, ← List.map_reverse, List.find?_map, Option.map_map,
    Function.comp_def]

theorem readProperties_of_vertexProperties {words : List String} {props : Table Json}
    (h : vertexProperties words = .ok props) : readProperties words = .ok props := by
  obtain ⟨read, hread, h⟩ := bind_ok h
  split at h
  next => cases h
  next =>
    cases h
    exact hread

theorem readProperties_of_edgeProperties {words : List String} {props : Table Json}
    (h : edgeProperties words = .ok props) : readProperties words = .ok props := by
  obtain ⟨read, hread, h⟩ := bind_ok h
  split at h
  next => cases h
  next =>
    cases h
    exact hread

-- ---------------------------------------------------------------------------
-- Commands
-- ---------------------------------------------------------------------------

/-- The graph that a store holds under a name; where there is nothing, the empty one. -/
def LoadedFrom (s : Store) (name : String) (g : Graph) : Prop :=
  match s.get? (Store.key (some name)) with
  | none => g = ∅
  | some text => ∃ b, Graph.ofString text = .ok b ∧ b.graph = g

/-- The key of the entry that a command may change. -/
def Command.target? (graphName : String) : Command → Option String
  | .vertexAdd _ _ => some (Store.key (some graphName))
  | .edgeAdd _ _ _ _ => some (Store.key (some graphName))
  | .importFile _ _ => some (Store.key (some graphName))
  | .graphDelete name true => some (Store.key (some name))
  | _ => none

/-- With the flat text of a graph under a name. -/
def Store.holding (s : Store) (name : String) (flat : FlatGraph) : Store :=
  s.insert (Store.key (some name)) flat.text

/-- What a command that succeeds makes of the store. -/
def Command.Makes (c : Context) (s s' : Store) : Command → Prop
  | .vertexAdd id words => ∃ g props id', LoadedFrom s c.graphName g ∧ Given words props ∧
      g.accepted [⟨id.map VertexId.ofWord, props⟩] = [⟨some id', props⟩] ∧
      s' = Store.holding s c.graphName ⟨g.toFlat.vertices ++ [⟨some id', props⟩], g.toFlat.edges⟩
  | .edgeAdd tail head label words => ∃ g props tail' head', LoadedFrom s c.graphName g ∧
      Given words props ∧
      g.resolve? ⟨VertexId.ofWord tail, VertexId.ofWord head, label, props⟩ =
        some ⟨tail', head', label, props⟩ ∧
      s' = Store.holding s c.graphName
        ⟨g.toFlat.vertices, g.toFlat.edges ++ [⟨tail', head', label, props⟩]⟩
  | .importFile path _ => ∃ g text flat, LoadedFrom s c.graphName g ∧ c.readFile path = .ok text ∧
      FlatGraph.ofString? text = some flat ∧
      s' = Store.holding s c.graphName ⟨g.toFlat.vertices ++ g.accepted flat.vertices,
        g.toFlat.edges ++ flat.edges.filterMap (g.addVertices flat.vertices).graph.resolve?⟩
  | .graphDelete name true => s' = s.erase (Store.key (some name))
  | _ => s' = s

variable {c : Context} {s s' : Store} {g : Graph} {effect : Effect} {command : Command}

theorem loadedFrom_of_load (h : c.load s = .ok g) : LoadedFrom s c.graphName g := by
  unfold Context.load Store.fetch at h
  unfold LoadedFrom
  cases hfound : s.get? (Store.key (some c.graphName)) with
  | none =>
    rw [hfound] at h
    exact (Except.ok.inj h).symm
  | some text =>
    rw [hfound] at h
    cases hread : Graph.ofString text with
    | error cause => simp [hread, Except.map] at h
    | ok b =>
      simp only [hread, Except.map] at h
      exact ⟨b, hread, Except.ok.inj h⟩

theorem LoadedFrom.sound (h : LoadedFrom s c.graphName g) : g.Sound := by
  unfold LoadedFrom at h
  split at h
  next => exact h ▸ .empty
  next text _ =>
    obtain ⟨b, hread, rfl⟩ := h
    unfold Graph.ofString at hread
    split at hread
    next flat _ =>
      cases hread
      exact (Graph.Sound.empty.addVertices flat.vertices).addEdges flat.edges
    next => cases hread

theorem Accepted.eraseAll {reserved : List String} {props : Table Json}
    (h : Accepted reserved props) : props.eraseAll reserved = props :=
  Table.eraseAll_eq_self h.clean

/-- A command that writes leaves no file. -/
structure Writes (c : Context) (s : Store) (command : Command) (effect : Effect) : Prop where
  makes : command.Makes c s effect.store
  file : effect.file = none

theorem writes_addVertex {id : Option String} {words : List String}
    (h : addVertex c s id words = .ok effect) : Writes c s (.vertexAdd id words) effect := by
  obtain ⟨g, hload, h⟩ := bind_ok h
  obtain ⟨props, hprops, h⟩ := bind_ok h
  obtain ⟨⟨id', g'⟩, hadd, h⟩ := bind_ok h
  cases h
  have hprops := lift_ok hprops
  have hadd := lift_ok hadd
  have hloaded := loadedFrom_of_load hload
  have hflat := hloaded.sound.toFlat_addVertex hadd
  have hclean := (accepted_vertexProperties hprops).eraseAll
  refine ⟨⟨g, props, id', hloaded, given_readProperties (readProperties_of_vertexProperties hprops),
    ?_, ?_⟩, rfl⟩
  · simp only [Graph.accepted, hadd, hclean]
  · rw [hclean] at hflat
    show s.insert _ g'.toFlat.text = _
    rw [hflat]
    rfl

theorem writes_addEdge {tail head : String} {label : Option String} {words : List String}
    (h : addEdge c s tail head label words = .ok effect) :
    Writes c s (.edgeAdd tail head label words) effect := by
  obtain ⟨g, hload, h⟩ := bind_ok h
  obtain ⟨props, hprops, h⟩ := bind_ok h
  obtain ⟨⟨n, g'⟩, hadd, h⟩ := bind_ok h
  cases h
  have hprops := lift_ok hprops
  have hadd := lift_ok hadd
  have hclean := (accepted_edgeProperties hprops).eraseAll
  obtain ⟨stored, hstored, hflat, -⟩ := Graph.resolve?_of_addEdge hadd
  obtain ⟨_, _, -, -, rfl⟩ := Graph.resolve?_eq_some.mp hstored
  rw [hclean] at hstored hflat
  refine ⟨⟨g, props, _, _, loadedFrom_of_load hload,
    given_readProperties (readProperties_of_edgeProperties hprops), hstored, ?_⟩, rfl⟩
  show s.insert _ g'.toFlat.text = _
  rw [hflat]
  rfl

theorem writes_importFile {path : String} {merge : Bool}
    (h : importFile c s path merge = .ok effect) : Writes c s (.importFile path merge) effect := by
  obtain ⟨text, htext, h⟩ := bind_ok h
  dsimp only at h
  split at h
  next flat hread =>
    obtain ⟨_, hflat, h⟩ := bind_ok h
    cases hflat
    obtain ⟨g, hload, h⟩ := bind_ok h
    split at h
    next => cases h
    next =>
      cases h
      have hloaded := loadedFrom_of_load hload
      refine ⟨⟨g, text, flat, hloaded, lift_ok htext, hread, ?_⟩, rfl⟩
      show s.insert _ (Graph.toFlat _).text = _
      rw [Graph.toFlat_addEdges, hloaded.sound.toFlat_addVertices]
      rfl
  next => cases h

theorem store_deleteGraph {name : String} {force : Bool}
    (h : deleteGraph s name force = .ok effect) :
    effect.store = (if force then s.erase (Store.key (some name)) else s) ∧
      effect.file = none := by
  unfold deleteGraph at h
  split at h
  next => cases h
  next hnone =>
    cases h
    refine ⟨?_, rfl⟩
    have habsent : s.get? (Store.key (some name)) = none := by
      unfold Store.fetch at hnone
      split at hnone
      next hfound => exact hfound
      next =>
        obtain ⟨b, -, hb⟩ := map_ok hnone
        cases hb
    cases force with
    | true => exact (Table.erase_eq_self habsent).symm
    | false => rfl
  next =>
    cases force with
    | true =>
      cases h
      exact ⟨rfl, rfl⟩
    | false =>
      cases h
      exact ⟨rfl, rfl⟩

theorem store_listVertices {limit : Nat} (h : listVertices c s limit = .ok effect) :
    effect.store = s := by
  obtain ⟨g, -, h⟩ := bind_ok h
  cases h
  rfl

theorem store_getVertex {word : String} (h : getVertex c s word = .ok effect) :
    effect.store = s := by
  obtain ⟨g, -, h⟩ := bind_ok h
  split at h
  next =>
    cases h
    rfl
  next =>
    cases h
    rfl

theorem store_listEdges {vertex label : Option String} {direction : String} {limit : Nat}
    (h : listEdges c s vertex direction label limit = .ok effect) : effect.store = s := by
  obtain ⟨g, -, h⟩ := bind_ok h
  obtain ⟨directions, -, h⟩ := bind_ok h
  obtain ⟨edges, -, h⟩ := bind_ok h
  cases h
  rfl

theorem store_runQuery {script : String} {chunks : Bool} {maxBatches : Nat}
    (h : runQuery c s script chunks maxBatches = .ok effect) : effect.store = s := by
  obtain ⟨steps, -, h⟩ := bind_ok h
  obtain ⟨g, -, h⟩ := bind_ok h
  obtain ⟨lines, -, h⟩ := bind_ok h
  cases h
  rfl

theorem store_graphStats (h : graphStats c s = .ok effect) : effect.store = s := by
  obtain ⟨g, -, h⟩ := bind_ok h
  cases h
  rfl

theorem store_listPipes (h : listPipes c s = .ok effect) : effect.store = s := by
  obtain ⟨g, -, h⟩ := bind_ok h
  cases h
  rfl

theorem store_exportFile {path : Option String} {compact : Bool}
    (h : exportFile c s path compact = .ok effect) : effect.store = s := by
  obtain ⟨g, -, h⟩ := bind_ok h
  cases path with
  | none =>
    cases h
    rfl
  | some path =>
    cases h
    rfl

theorem store_listGraphs (c : Context) (s : Store) : (listGraphs c s).store = s := by
  unfold listGraphs
  split <;> rfl

/-- What a command does, one case for each. Only one that keeps the store leaves a file. -/
theorem onStore?_ok (h : command.onStore? c s = some (.ok effect)) :
    command.Makes c s effect.store ∧ (effect.file ≠ none → effect.store = s) := by
  cases command with
  | vertexAdd id words =>
    have hwrites := writes_addVertex (Option.some.inj h)
    exact ⟨hwrites.makes, fun hfile => absurd hwrites.file hfile⟩
  | edgeAdd tail head label words =>
    have hwrites := writes_addEdge (Option.some.inj h)
    exact ⟨hwrites.makes, fun hfile => absurd hwrites.file hfile⟩
  | importFile path merge =>
    have hwrites := writes_importFile (Option.some.inj h)
    exact ⟨hwrites.makes, fun hfile => absurd hwrites.file hfile⟩
  | graphDelete name force =>
    obtain ⟨hstore, hfile⟩ := store_deleteGraph (Option.some.inj h)
    cases force with
    | true => exact ⟨hstore, fun hsome => absurd hfile hsome⟩
    | false => exact ⟨hstore, fun _ => hstore⟩
  | vertexList limit =>
    have hstore := store_listVertices (Option.some.inj h)
    exact ⟨hstore, fun _ => hstore⟩
  | vertexGet word =>
    have hstore := store_getVertex (Option.some.inj h)
    exact ⟨hstore, fun _ => hstore⟩
  | edgeList vertex direction label limit =>
    have hstore := store_listEdges (Option.some.inj h)
    exact ⟨hstore, fun _ => hstore⟩
  | query script chunks maxBatches =>
    have hstore := store_runQuery (Option.some.inj h)
    exact ⟨hstore, fun _ => hstore⟩
  | graphList =>
    obtain rfl := Except.ok.inj (Option.some.inj h)
    have hstore := store_listGraphs c s
    exact ⟨hstore, fun _ => hstore⟩
  | graphStats =>
    have hstore := store_graphStats (Option.some.inj h)
    exact ⟨hstore, fun _ => hstore⟩
  | graphPipes =>
    have hstore := store_listPipes (Option.some.inj h)
    exact ⟨hstore, fun _ => hstore⟩
  | exportFile path compact =>
    have hstore := store_exportFile (Option.some.inj h)
    exact ⟨hstore, fun _ => hstore⟩
  | _ => cases h

/-- A command changes no entry but its own. -/
theorem Command.Makes.keeps (h : command.Makes c s s') {key : String}
    (hkey : command.target? c.graphName ≠ some key) : s'.get? key = s.get? key := by
  have hother : ∀ {k : String} {flat : FlatGraph}, some (Store.key (some k)) ≠ some key →
      (Store.holding s k flat).get? key = s.get? key := by
    intro k flat hne
    rw [Store.holding, Table.get?_insert, if_neg fun heq => hne (congrArg some heq)]
  cases command with
  | vertexAdd id words =>
    obtain ⟨g, props, id', -, -, -, rfl⟩ := h
    exact hother hkey
  | edgeAdd tail head label words =>
    obtain ⟨g, props, tail', head', -, -, -, rfl⟩ := h
    exact hother hkey
  | importFile path merge =>
    obtain ⟨g, text, flat, -, -, -, rfl⟩ := h
    exact hother hkey
  | graphDelete name force =>
    cases force with
    | true =>
      obtain rfl : s' = _ := h
      rw [Table.get?_erase, if_neg fun heq => hkey (congrArg some heq)]
    | false => exact congrArg (Table.get? · key) h
  | _ => exact congrArg (Table.get? · key) h

-- ---------------------------------------------------------------------------
-- Runs
-- ---------------------------------------------------------------------------

variable {bound : Nat} {env : Environment} {d : Disk} {p : Place}

/-- What a command of a run works with. -/
def Invocation.context (i : Invocation) (bound : Nat) (env : Environment) (d : Disk) : Context :=
  ⟨i.graph.getD (loadSettings env d).defaultGraph, Format.ofName i.format,
    (d.openDirectory (i.directory (loadSettings env d))).1.read ∘ .ofString, bound⟩

theorem stores_onSettings? {f : Format} {ending : Ending}
    (h : command.onSettings? env d f = some ending) (graphName : String) :
    ending.disk.stores = d.stores ∧ command.target? graphName = none := by
  have hsaved : ∀ (settings : Settings) (line : String),
      (savedWith env d settings line).disk.stores = d.stores := by
    intro settings line
    have hsave := Disk.stores_save d env.settingsFile settings.toToml
    unfold savedWith
    split
    next hdone => rwa [hdone] at hsave
    next hfault => rwa [hfault] at hsave
  cases command with
  | configSet key value =>
    obtain rfl := Option.some.inj h
    refine ⟨?_, rfl⟩
    split
    next => rfl
    next => exact hsaved _ _
  | configUnset key =>
    obtain rfl := Option.some.inj h
    exact ⟨hsaved _ _, rfl⟩
  | configInit force =>
    obtain rfl := Option.some.inj h
    refine ⟨?_, rfl⟩
    split
    next => rfl
    next => exact hsaved _ _
  | configGet _ =>
    obtain rfl := Option.some.inj h
    exact ⟨rfl, rfl⟩
  | configList =>
    obtain rfl := Option.some.inj h
    exact ⟨rfl, rfl⟩
  | configPath =>
    obtain rfl := Option.some.inj h
    exact ⟨rfl, rfl⟩
  | completions _ =>
    obtain rfl := Option.some.inj h
    exact ⟨rfl, rfl⟩
  | _ => cases h

/-- What a command leaves is filed also if its file cannot be written. -/
theorem stores_settle (e : Effect) (d : Disk) (place : Place) :
    (e.settle d place).disk.stores = (d.putStore place e.store).stores ∧
      ((e.settle d place).status = 0 ∨ e.file ≠ none) := by
  unfold Effect.settle
  dsimp only
  split
  next => exact ⟨rfl, .inl rfl⟩
  next hfile =>
    split
    next hwrite => exact ⟨Disk.stores_write hwrite, .inl rfl⟩
    next => exact ⟨rfl, .inr (by simp [hfile])⟩

/-- Either a run does nothing to the stores, or its command succeeds on one. -/
theorem perform_cases (i : Invocation) (bound : Nat) (env : Environment) (d : Disk) :
    (i.perform bound env d).disk.stores = d.stores ∧
        ((i.perform bound env d).status ≠ 0 ∨
          i.command.target? (i.context bound env d).graphName = none) ∨
      ∃ place effect, i.place? env d = some place ∧
        i.command.onStore? (i.context bound env d) (d.storeAt place) = some (.ok effect) ∧
        (i.perform bound env d).disk.stores = (d.putStore place effect.store).stores ∧
        ((i.perform bound env d).status = 0 ∨ effect.file ≠ none) := by
  have hopen := Disk.stores_openDirectory d (i.directory (loadSettings env d))
  unfold Invocation.perform
  dsimp only
  split
  next ending hsettings =>
    obtain ⟨hstores, htarget⟩ := stores_onSettings? hsettings (i.context bound env d).graphName
    exact .inl ⟨hstores, .inr htarget⟩
  next =>
    split
    next d' fault hfault =>
      rw [hfault] at hopen
      exact .inl ⟨hopen, .inl (Nat.one_ne_zero)⟩
    next d' place hplace =>
      have hcontext : i.context bound env d =
          ⟨i.graph.getD (loadSettings env d).defaultGraph, Format.ofName i.format,
            d'.read ∘ .ofString, bound⟩ := by
        rw [Invocation.context, hplace]
      rw [hplace] at hopen
      rw [← hcontext, Disk.storeAt_congr hopen]
      split
      next effect heffect =>
        obtain ⟨hstores, hend⟩ := stores_settle effect d' place
        refine .inr ⟨place, effect, ?_, heffect, ?_, hend⟩
        · rw [Invocation.place?, hplace]
          rfl
        · rw [hstores, Disk.putStore, Disk.putStore, hopen]
      next => exact .inl ⟨hopen, .inl (Nat.one_ne_zero)⟩
      next => exact .inl ⟨hopen, .inl (Nat.succ_ne_zero 1)⟩

theorem storeAt_perform (i : Invocation) (bound : Nat) (env : Environment) (d : Disk) :
    (((i.perform bound env d).status ≠ 0 ∨
        i.command.target? (i.context bound env d).graphName = none) →
      ∀ p, (i.perform bound env d).disk.storeAt p = d.storeAt p) ∧
    ((i.perform bound env d).status = 0 →
      i.command.target? (i.context bound env d).graphName ≠ none →
      ∃ place, i.place? env d = some place ∧
        i.command.Makes (i.context bound env d) (d.storeAt place)
          ((i.perform bound env d).disk.storeAt place) ∧
        ∀ p, p.toString ≠ place.toString →
          (i.perform bound env d).disk.storeAt p = d.storeAt p) := by
  rcases perform_cases i bound env d with ⟨hstores, hquiet⟩ |
    ⟨place, effect, hplace, heffect, hstores, hend⟩
  · refine ⟨fun _ => Disk.storeAt_congr hstores, fun hstatus htarget => ?_⟩
    rcases hquiet with hfailed | hnone
    · exact absurd hstatus hfailed
    · exact absurd hnone htarget
  · obtain ⟨hmakes, hfile⟩ := onStore?_ok heffect
    have hstore : ∀ p, (i.perform bound env d).disk.storeAt p =
        if place.toString = p.toString then effect.store else d.storeAt p := by
      intro p
      rw [Disk.storeAt_congr hstores, Disk.storeAt_putStore]
    refine ⟨fun hquiet p => ?_, fun _ _ => ⟨place, hplace, ?_, fun p hp => ?_⟩⟩
    · have hsame : effect.store = d.storeAt place := by
        rcases hquiet with hfailed | hnone
        · exact hfile (hend.resolve_left hfailed)
        · exact Table.ext_get? fun key => hmakes.keeps (hnone ▸ nofun)
      rw [hstore, hsame]
      split
      next heq => rw [Disk.storeAt, Disk.storeAt, heq]
      next => rfl
    · rwa [hstore, if_pos rfl]
    · rw [hstore, if_neg (Ne.symm hp)]

/-- The texts after some command lines, one run after the other. -/
def session (bound : Nat) (d : Disk) (lines : List (Environment × List String)) : Disk :=
  lines.foldl (fun d line => (run bound line.1 d line.2).disk) d

/-- The run of a command line succeeds and may change an entry of the store at a place. -/
def Changes (bound : Nat) (d : Disk) (line : Environment × List String) (p : Place)
    (key : String) : Prop :=
  (run bound line.1 d line.2).status = 0 ∧ ∃ i place, Invocation.read line.1 line.2 = .ok i ∧
    i.place? line.1 d = some place ∧ p.toString = place.toString ∧
    i.command.target? (i.context bound line.1 d).graphName = some key

theorem run_of_read {args : List String} {i : Invocation} (h : Invocation.read env args = .ok i)
    (bound : Nat) (d : Disk) : run bound env d args = i.perform bound env d := by
  rw [run, h]

/-- A run that does not change an entry keeps it. -/
theorem get?_run {line : Environment × List String} {key : String}
    (h : ¬Changes bound d line p key) :
    ((run bound line.1 d line.2).disk.storeAt p).get? key = (d.storeAt p).get? key := by
  cases hread : Invocation.read line.1 line.2 with
  | error stop =>
    rw [run, hread]
    cases stop <;> rfl
  | ok i =>
    have hrun := run_of_read hread bound d
    obtain ⟨hquiet, hwrites⟩ := storeAt_perform i bound line.1 d
    by_cases hstatus : (i.perform bound line.1 d).status = 0
    · by_cases htarget : i.command.target? (i.context bound line.1 d).graphName = none
      · rw [hrun, hquiet (.inr htarget)]
      · obtain ⟨place, hplace, hmakes, hother⟩ := hwrites hstatus htarget
        rw [hrun]
        by_cases hp : p.toString = place.toString
        · have hkey : i.command.target? (i.context bound line.1 d).graphName ≠ some key :=
            fun heq => h ⟨hrun ▸ hstatus, i, place, hread, hplace, hp, heq⟩
          rw [Disk.storeAt, Disk.storeAt, hp]
          exact hmakes.keeps hkey
        · rw [hother p hp]
    · rw [hrun, hquiet (.inl hstatus)]

theorem get?_session {lines : List (Environment × List String)} {key : String}
    (h : ∀ earlier line later, lines = earlier ++ line :: later →
      ¬Changes bound (session bound d earlier) line p key) :
    ((session bound d lines).storeAt p).get? key = (d.storeAt p).get? key := by
  induction lines generalizing d with
  | nil => rfl
  | cons line lines ih =>
    have hlater := ih (d := (run bound line.1 d line.2).disk) fun earlier line' later heq =>
      h (line :: earlier) line' later (congrArg (line :: ·) heq)
    exact hlater.trans (get?_run (h [] line lines rfl))

/-- A run that fails, or whose command only reads, keeps all stored texts. Any other leaves what its
command makes in the store of its data directory, where it changes one entry, and keeps all other
stores. So whatever command lines are run, a text stays until a command succeeds that has it as
its target. -/
theorem run_stores :
    (∀ bound env d args, (run bound env d args).status ≠ 0 →
      ∀ p, (run bound env d args).disk.storeAt p = d.storeAt p) ∧
    (∀ bound env d args i, Invocation.read env args = .ok i →
      i.command.target? (i.context bound env d).graphName = none →
      ∀ p, (run bound env d args).disk.storeAt p = d.storeAt p) ∧
    (∀ bound env d args i key, Invocation.read env args = .ok i →
      (run bound env d args).status = 0 →
      i.command.target? (i.context bound env d).graphName = some key →
      ∃ place, i.place? env d = some place ∧
        i.command.Makes (i.context bound env d) (d.storeAt place)
          ((run bound env d args).disk.storeAt place) ∧
        (∀ k ≠ key, ((run bound env d args).disk.storeAt place).get? k =
          (d.storeAt place).get? k) ∧
        ∀ p, p.toString ≠ place.toString →
          (run bound env d args).disk.storeAt p = d.storeAt p) ∧
    ∀ bound d lines p key,
      (∀ earlier line later, lines = earlier ++ line :: later →
        ¬Changes bound (session bound d earlier) line p key) →
      ((session bound d lines).storeAt p).get? key = (d.storeAt p).get? key := by
  refine ⟨?_, ?_, ?_, fun _ _ _ _ _ => get?_session⟩
  · intro bound env d args hstatus p
    cases hread : Invocation.read env args with
    | error stop =>
      rw [run, hread]
      cases stop <;> rfl
    | ok i =>
      rw [run_of_read hread] at hstatus ⊢
      exact (storeAt_perform i bound env d).1 (.inl hstatus) p
  · intro bound env d args i hread htarget p
    rw [run_of_read hread]
    exact (storeAt_perform i bound env d).1 (.inr htarget) p
  · intro bound env d args i key hread hstatus htarget
    rw [run_of_read hread] at hstatus ⊢
    obtain ⟨place, hplace, hmakes, hother⟩ :=
      (storeAt_perform i bound env d).2 hstatus (by rw [htarget]; exact Option.some_ne_none key)
    refine ⟨place, hplace, hmakes, fun k hk => hmakes.keeps ?_, hother⟩
    rw [htarget]
    exact fun heq => hk (Option.some.inj heq).symm

/-- Adds a vertex to the default graph of the data directory `d`. -/
def adding : Invocation := ⟨none, some "d", "table", .vertexAdd (some "1") [" x =1", "x=2"]⟩

def addingLine : List String :=
  ["--data-dir", "d", "vertex", "add", "--id", "1", "-p", " x =1", "-p", "x=2"]

theorem run_stores_adding : Invocation.read ∅ addingLine = .ok adding ∧
    (run 0 ∅ ∅ addingLine).status = 0 ∧
    ∃ place, adding.place? ∅ ∅ = some place ∧
      adding.command.Makes (adding.context 0 ∅ ∅) ((∅ : Disk).storeAt place)
        ((run 0 ∅ ∅ addingLine).disk.storeAt place) ∧
      ((run 0 ∅ ∅ addingLine).disk.storeAt ⟨.above 0, ["d"]⟩).get? "PIPEGRAPH::graph" =
        some "\x7b\"V\":[\x7b\"_id\":1,\"x\":2\x7d],\"E\":[]\x7d" := by
  have hread : Invocation.read ∅ addingLine = .ok adding := by rfl
  have hstatus : (run 0 ∅ ∅ addingLine).status = 0 := by rfl
  obtain ⟨place, hplace, hmakes, -⟩ := run_stores.2.2.1 0 ∅ ∅ addingLine adding _ hread hstatus rfl
  exact ⟨hread, hstatus, place, hplace, hmakes, by decide +kernel⟩

end Cli

end GraphWalk
