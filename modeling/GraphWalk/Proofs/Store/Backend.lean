import GraphWalk.Proofs.Store.Order
import GraphWalk.Proofs.Table
import Mathlib.Data.List.Basic

/-!
# What a backend answers

A backend answers by what was last written under a key (`Lawful.fits`), whatever was asked before.
Nothing else decides, so the hash table and a database that keeps its promises answer alike, also
where the file is opened again: `answers_alike`.
-/

namespace GraphWalk

-- ---------------------------------------------------------------------------
-- Keys and names
-- ---------------------------------------------------------------------------

/-- The texts, once each and in the order of their bytes, of which something holds. -/
structure Lists (texts : List String) (there : String → Prop) : Prop where
  increasing : texts.Pairwise fun s t => bytes s < bytes t
  mem_iff : ∀ t, t ∈ texts ↔ there t

theorem Lists.unique {texts texts' : List String} {there : String → Prop} (h : Lists texts there)
    (h' : Lists texts' there) : texts = texts' := by
  have hnodup : ∀ {l : List String}, l.Pairwise (fun s t => bytes s < bytes t) → l.Nodup := by
    refine fun hl => hl.imp fun hlt heq => ?_
    rw [heq] at hlt
    exact Std.lt_irrefl hlt
  refine List.Perm.eq_of_pairwise (fun s t _ _ hst hts => ?_) h.increasing h'.increasing
    ((List.perm_ext_iff_of_nodup (hnodup h.increasing) (hnodup h'.increasing)).mpr fun t =>
      (h.mem_iff t).trans (h'.mem_iff t).symm)
  exact absurd (Std.lt_trans hst hts) Std.lt_irrefl

namespace Store

variable {a b name k : String}

theorem nameOf?_eq_some : nameOf? k = some name ↔ key (some name) = k := by
  constructor
  · intro h
    obtain ⟨rest, hrest, rfl⟩ := Option.map_eq_some_iff.mp h
    rw [List.isPrefixOf?_eq_some_iff_append_eq] at hrest
    rw [← String.toList_inj, ← hrest]
    simp [key]
  · rintro rfl
    exact nameOf?_key name

theorem bytes_key_lt : bytes (key (some a)) < bytes (key (some b)) ↔ bytes a < bytes b := by
  have hstem : ∀ stem : List UInt8, stem ++ bytes a < stem ++ bytes b ↔ bytes a < bytes b := by
    intro stem
    induction stem with
    | nil => rfl
    | cons byte stem ih => simp [ih]
  simp only [key, Option.getD_some, bytes_append, hstem]

theorem key_inj {n n' : Option String} :
    key n = key n' ↔ n.getD defaultName = n'.getD defaultName := by
  have hname : ∀ n : Option String, key n = key (some (n.getD defaultName)) := fun n => rfl
  rw [hname n, hname n']
  refine ⟨fun h => ?_, fun h => by rw [h]⟩
  exact Option.some.inj ((nameOf?_key _).symm.trans ((congrArg nameOf? h).trans (nameOf?_key _)))

/-- The names behind the keys of a list. -/
theorem lists_names {keys : List String} {there : String → Prop} (h : Lists keys there) :
    Lists (keys.filterMap nameOf?) fun name => there (key (some name)) where
  increasing := by
    refine List.pairwise_filterMap.mpr (h.increasing.imp fun hlt name hname name' hname' => ?_)
    rw [← nameOf?_eq_some.mp hname, ← nameOf?_eq_some.mp hname'] at hlt
    exact bytes_key_lt.mp hlt
  mem_iff name := by
    rw [List.mem_filterMap, ← h.mem_iff]
    constructor
    · rintro ⟨k, hk, hname⟩
      exact nameOf?_eq_some.mp hname ▸ hk
    · intro hk
      exact ⟨_, hk, nameOf?_key name⟩

end Store

-- ---------------------------------------------------------------------------
-- What was last written
-- ---------------------------------------------------------------------------

/-- The key that a request changes, and what it leaves there. -/
def Request.change? : Request → Option (String × Option String)
  | save key text => some (key, some text)
  | persist g name => some (Store.key name, some g.text)
  | delete key => some (key, none)
  | remove name => some (Store.key name, none)
  | load _ => none
  | keys => none
  | depersist _ => none
  | listNames => none

/-- The text last written under a key, unless it was taken away since. -/
def lastWritten (requests : List Request) (key : String) : Option String :=
  ((requests.filterMap Request.change?).reverse.find? (·.1 = key)).bind (·.2)

theorem lastWritten_snoc (earlier : List Request) (r : Request) (key : String) :
    lastWritten (earlier ++ [r]) key =
      match r.change? with
      | some (k, left) => if k = key then left else lastWritten earlier key
      | none => lastWritten earlier key := by
  cases hchange : r.change? with
  | none => simp [lastWritten, hchange]
  | some change =>
    obtain ⟨k, left⟩ := change
    by_cases hk : k = key
    · simp [lastWritten, hchange, hk]
    · simp [lastWritten, hchange, hk]

/-- The answer to a request where `held` tells what is there under a key. -/
def Request.Fits (held : String → Option String) : Request → Response → Prop
  | save _ _, a => a = .done
  | persist _ _, a => a = .done
  | load key, a => a = .text (held key)
  | depersist name, a => a = .graph (match held (Store.key name) with
    | none => .ok none
    | some text => (Graph.ofString text).map some)
  | delete key, a => a = .existed (held key).isSome
  | remove name, a => a = .existed (held (Store.key name)).isSome
  | keys, a => ∃ ks, a = .listing ks ∧ Lists ks fun key => (held key).isSome
  | listNames, a => ∃ names, a = .listing names ∧
      Lists names fun name => (held (Store.key (some name))).isSome

theorem Request.Fits.unique {held : String → Option String} {r : Request} {a a' : Response}
    (h : r.Fits held a) (h' : r.Fits held a') : a = a' := by
  cases r with
  | keys =>
    obtain ⟨ks, rfl, hks⟩ := h
    obtain ⟨ks', rfl, hks'⟩ := h'
    rw [hks.unique hks']
  | listNames =>
    obtain ⟨names, rfl, hnames⟩ := h
    obtain ⟨names', rfl, hnames'⟩ := h'
    rw [hnames.unique hnames']
  | _ => exact Eq.trans h (Eq.symm h')

-- ---------------------------------------------------------------------------
-- Lawful backends
-- ---------------------------------------------------------------------------

namespace Backend

variable {σ τ : Type} {b : Backend σ} {c : Backend τ} {s : σ} {t : τ} {earlier : List Request}

/-- A backend that keeps a finite map. -/
structure Lawful (b : Backend σ) : Prop where
  load_save : ∀ key text s k,
    b.load k (b.save key text s) = if key = k then some text else b.load k s
  existed : ∀ key s, (b.delete key s).1 = (b.load key s).isSome
  load_delete : ∀ key s k, b.load k (b.delete key s).2 = if key = k then none else b.load k s
  lists : ∀ s, Lists (b.keys s) fun k => (b.load k s).isSome

/-- What is there is what was last written. -/
def Shows (b : Backend σ) (s : σ) (earlier : List Request) : Prop :=
  ∀ k, b.load k s = lastWritten earlier k

theorem Lawful.shows (hb : b.Lawful) (h : b.Shows s earlier) (r : Request) :
    b.Shows (b.serve s r).2 (earlier ++ [r]) := by
  intro k
  rw [lastWritten_snoc, ← h k]
  cases r with
  | save key text => exact hb.load_save key text s k
  | persist g name => exact hb.load_save (Store.key name) g.text s k
  | delete key => exact hb.load_delete key s k
  | remove name => exact hb.load_delete (Store.key name) s k
  | load _ => rfl
  | keys => rfl
  | depersist _ => rfl
  | listNames => rfl

theorem Lawful.fits (hb : b.Lawful) (h : b.Shows s earlier) (r : Request) :
    r.Fits (lastWritten earlier) (b.serve s r).1 := by
  have hheld : lastWritten earlier = fun k => b.load k s := funext fun k => (h k).symm
  rw [hheld]
  cases r with
  | save _ _ => rfl
  | persist _ _ => rfl
  | load _ => rfl
  | depersist _ => rfl
  | delete key => exact congrArg Response.existed (hb.existed key s)
  | remove name => exact congrArg Response.existed (hb.existed (Store.key name) s)
  | keys => exact ⟨_, rfl, hb.lists s⟩
  | listNames => exact ⟨_, rfl, Store.lists_names (hb.lists s)⟩

theorem Lawful.shows_after (hb : b.Lawful) (h : b.Shows s earlier) (requests : List Request) :
    b.Shows (b.after s requests) (earlier ++ requests) := by
  induction requests generalizing s earlier with
  | nil => rwa [List.append_nil]
  | cons r later ih =>
    have hafter := ih (hb.shows h r)
    rwa [List.append_assoc] at hafter

theorem answers_cons (b : Backend σ) (s : σ) (r : Request) (later : List Request) :
    b.answers s (r :: later) = (b.serve s r).1 :: b.answers (b.serve s r).2 later := rfl

theorem answers_append (b : Backend σ) (s : σ) (requests later : List Request) :
    b.answers s (requests ++ later) =
      b.answers s requests ++ b.answers (b.after s requests) later := by
  induction requests generalizing s with
  | nil => rfl
  | cons r requests ih => exact congrArg (_ :: ·) (ih _)

/-- Two backends in which the same was written answer alike. -/
theorem Lawful.answers_eq (hb : b.Lawful) (hc : c.Lawful) (hs : b.Shows s earlier)
    (ht : c.Shows t earlier) (requests : List Request) :
    b.answers s requests = c.answers t requests := by
  induction requests generalizing s t earlier with
  | nil => rfl
  | cons r later ih =>
    rw [answers_cons, answers_cons, (hb.fits hs r).unique (hc.fits ht r),
      ih (hb.shows hs r) (hc.shows ht r)]

theorem lawful_hashed : hashed.Lawful where
  load_save key text m k := by simp [hashed, Std.HashMap.getElem?_insert]
  existed _ _ := Std.HashMap.contains_eq_isSome_getElem?
  load_delete key m k := by simp [hashed, Std.HashMap.getElem?_erase]
  lists m := by
    have hperm := List.mergeSort_perm m.keys fun s t => decide (bytes s ≤ bytes t)
    refine ⟨?_, fun k => ?_⟩
    · have hnodup : (hashed.keys m).Nodup := hperm.nodup_iff.mpr Std.HashMap.nodup_keys
      have hsorted : (hashed.keys m).Pairwise fun s t => decide (bytes s ≤ bytes t) :=
        List.pairwise_mergeSort (fun _ _ _ => by simpa using Std.le_trans)
          (fun s t => by simpa using Std.le_total) m.keys
      exact (hsorted.and hnodup).imp fun ⟨hle, hne⟩ => bytes_lt_of_le (of_decide_eq_true hle) hne
    · rw [hashed, hperm.mem_iff, Std.HashMap.mem_keys]
      exact Std.HashMap.mem_iff_isSome_getElem?

end Backend

-- ---------------------------------------------------------------------------
-- Databases
-- ---------------------------------------------------------------------------

namespace Database

variable {σ : Type} {d : Database σ}

/-- A transactional table that is listed in the order of its keys and that outlasts its file being
closed. -/
structure Transactional (d : Database σ) : Prop where
  get?_created : ∀ k, d.get? k d.created = none
  get?_insert : ∀ key value s k,
    d.get? k (d.insert key value s) = if key = k then some value else d.get? k s
  removed : ∀ key s, (d.remove key s).1 = d.get? key s
  get?_remove : ∀ key s k, d.get? k (d.remove key s).2 = if key = k then none else d.get? k s
  ordered : ∀ s, (d.entries s).Pairwise fun e e' => bytes e.1 < bytes e'.1
  mem_entries : ∀ s e, e ∈ d.entries s ↔ d.get? e.1 s = some e.2
  get?_reopen : ∀ s k, d.get? k (d.reopen s) = d.get? k s

theorem Transactional.lawful (h : d.Transactional) : d.backend.Lawful where
  load_save := h.get?_insert
  existed key s := congrArg Option.isSome (h.removed key s)
  load_delete := h.get?_remove
  lists s := by
    refine ⟨List.pairwise_map.mpr (h.ordered s), fun k => ?_⟩
    show k ∈ (d.entries s).map (·.1) ↔ (d.get? k s).isSome
    rw [List.mem_map, Option.isSome_iff_exists]
    constructor
    · rintro ⟨e, he, rfl⟩
      exact ⟨e.2, (h.mem_entries s e).mp he⟩
    · rintro ⟨value, hvalue⟩
      exact ⟨(k, value), (h.mem_entries s _).mpr hvalue, rfl⟩

theorem transactional_table : table.Transactional where
  get?_created _ := rfl
  get?_insert key value s k := Table.get?_insert s key k value
  removed _ _ := rfl
  get?_remove key s k := Table.get?_erase s key k
  ordered s := s.sorted.imp bytes_lt_iff.mpr
  mem_entries _ _ := Table.mem_entries_iff
  get?_reopen _ _ := rfl

/-- Under their names the graphs of a store are kept in the same way. -/
theorem backend_table : (∀ s name g, table.backend.persist name g s = s.put name g) ∧
    (∀ s name, table.backend.depersist name s = s.fetch name) ∧
    (∀ s name, table.backend.remove name s = s.remove name) ∧
    ∀ s, table.backend.listNames s = s.graphNames :=
  ⟨fun _ _ _ => rfl, fun _ _ => rfl, fun _ _ => rfl, fun _ => rfl⟩

/-- Sessions with a file are answered as one session in memory. -/
theorem Transactional.answers_eq (h : d.Transactional) {τ : Type} {c : Backend τ} (hc : c.Lawful)
    {s : σ} {t : τ} {earlier : List Request} (hs : d.backend.Shows s earlier)
    (ht : c.Shows t earlier) (sessions : List (List Request)) :
    d.answers s sessions = c.answers t sessions.flatten := by
  induction sessions generalizing s t earlier with
  | nil => rfl
  | cons session later ih =>
    have hreopened :
        d.backend.Shows (d.reopen (d.backend.after s session)) (earlier ++ session) := by
      intro k
      exact (h.get?_reopen _ k).trans (h.lawful.shows_after hs session k)
    rw [List.flatten_cons, Backend.answers_append, answers, h.lawful.answers_eq hc hs ht,
      ih hreopened (hc.shows_after ht session)]

end Database

-- ---------------------------------------------------------------------------
-- Any requests
-- ---------------------------------------------------------------------------

/-- The name of a graph that a request is about. -/
def Request.name? : Request → Option (Option String)
  | persist _ name => some name
  | depersist name => some name
  | remove name => some name
  | save _ _ => none
  | load _ => none
  | delete _ => none
  | keys => none
  | listNames => none

/-- The request with the default name written out. -/
def Request.named : Request → Request
  | persist g name => persist g (some (name.getD Store.defaultName))
  | depersist name => depersist (some (name.getD Store.defaultName))
  | remove name => remove (some (name.getD Store.defaultName))
  | r => r

/-- The answer to a request that comes after others. -/
def Backend.answer {σ : Type} (b : Backend σ) (s : σ) (earlier : List Request) (r : Request) :
    Response :=
  (b.serve (b.after s earlier) r).1

namespace Backend

variable {σ : Type} {b : Backend σ} {s : σ} {r q : Request} {n n' : Option String}

theorem serve_named (b : Backend σ) (s : σ) (r : Request) : b.serve s r.named = b.serve s r := by
  cases r <;> rfl

theorem answer_named (b : Backend σ) (s : σ) (earlier : List Request) (r : Request) :
    b.answer s (earlier.map .named) r.named = b.answer s earlier r := by
  have hafter : b.after s (earlier.map .named) = b.after s earlier := by
    rw [after, after, List.foldl_map]
    simp only [serve_named]
  rw [answer, answer, serve_named, hafter]

theorem getElem?_answers (b : Backend σ) (s : σ) {requests : List Request} {i : Nat}
    (hr : requests[i]? = some r) :
    (b.answers s requests)[i]? = some (b.answer s (requests.take i) r) := by
  induction requests generalizing s i with
  | nil => cases hr
  | cons first later ih =>
    cases i with
    | zero =>
      obtain rfl := Option.some.inj hr
      rfl
    | succ i => exact ih (b.serve s first).2 hr

theorem Lawful.load_other (hb : b.Lawful) (hr : r.name? = some n)
    (hne : n.getD Store.defaultName ≠ n'.getD Store.defaultName) :
    b.load (Store.key n') (b.serve s r).2 = b.load (Store.key n') s := by
  have hkey : Store.key n ≠ Store.key n' := fun h => hne (Store.key_inj.mp h)
  cases r with
  | persist g name =>
    obtain rfl := Option.some.inj hr
    exact (hb.load_save _ _ s _).trans (if_neg hkey)
  | remove name =>
    obtain rfl := Option.some.inj hr
    exact (hb.load_delete _ s _).trans (if_neg hkey)
  | depersist _ => rfl
  | _ => cases hr

/-- The answer to a request about a name depends on what is there under its key. -/
theorem Lawful.answer_eq {t : σ} (hb : b.Lawful) (hq : q.name? = some n')
    (h : b.load (Store.key n') t = b.load (Store.key n') s) :
    (b.serve t q).1 = (b.serve s q).1 := by
  cases q with
  | persist _ _ => rfl
  | depersist name =>
    obtain rfl := Option.some.inj hq
    simp only [serve, depersist, h]
  | remove name =>
    obtain rfl := Option.some.inj hq
    refine congrArg Response.existed ?_
    exact (hb.existed _ t).trans ((congrArg _ h).trans (hb.existed _ s).symm)
  | _ => cases hq

end Backend

/-- Whatever is asked, in whatever order: the backend in memory answers by what was last written,
requests about one name do not change what it answers about another, no name is the default name,
and a database gives the same answers, also when it is closed and opened again in between. -/
theorem answers_alike {σ : Type} (d : Database σ) (hd : d.Transactional) :
    (∀ (requests : List Request) (i : Nat) (r : Request), requests[i]? = some r →
      ∃ a, (Backend.hashed.answers ∅ requests)[i]? = some a ∧
        r.Fits (lastWritten (requests.take i)) a) ∧
    (∀ sessions : List (List Request),
      d.answers d.created sessions = Backend.hashed.answers ∅ sessions.flatten) ∧
    (∀ earlier r n q n', Request.name? r = some n → Request.name? q = some n' →
      n.getD Store.defaultName ≠ n'.getD Store.defaultName →
      Backend.hashed.answer ∅ (earlier ++ [r]) q = Backend.hashed.answer ∅ earlier q ∧
      (n'.getD Store.defaultName ∈
          Backend.hashed.listNames (Backend.hashed.after ∅ (earlier ++ [r])) ↔
        n'.getD Store.defaultName ∈ Backend.hashed.listNames (Backend.hashed.after ∅ earlier))) ∧
    ∀ earlier r, Backend.hashed.answer ∅ (earlier.map .named) (Request.named r) =
      Backend.hashed.answer ∅ earlier r := by
  have hlawful := Backend.lawful_hashed
  have hempty : Backend.hashed.Shows ∅ [] := fun k => Std.HashMap.getElem?_empty
  have hcreated : d.backend.Shows d.created [] := hd.get?_created
  refine ⟨?_, ?_, ?_, Backend.answer_named _ _⟩
  · intro requests i r hr
    exact ⟨_, Backend.getElem?_answers _ _ hr, hlawful.fits (hlawful.shows_after hempty _) r⟩
  · exact hd.answers_eq hlawful hcreated hempty
  · intro earlier r n q n' hr hq hne
    have hafter : Backend.hashed.after ∅ (earlier ++ [r]) =
        (Backend.hashed.serve (Backend.hashed.after ∅ earlier) r).2 := by
      rw [Backend.after, List.foldl_append]
      rfl
    have hload := hlawful.load_other (s := Backend.hashed.after ∅ earlier) hr hne
    refine ⟨?_, ?_⟩
    · rw [Backend.answer, hafter]
      exact hlawful.answer_eq hq hload
    · have hnames := fun s =>
        (Store.lists_names (hlawful.lists s)).mem_iff (n'.getD Store.defaultName)
      rw [hafter, Backend.listNames, hnames, Backend.listNames, hnames]
      exact Iff.of_eq (congrArg (fun found => found.isSome = true) hload)

theorem answers_alike_table : Database.table.Transactional ∧
    Database.table.answers ∅
        [[.save (Store.key none) "{}", .save "unrelated" "{}", .save (Store.key (some "")) "[]"],
          [.listNames, .remove (some "graph"), .load (Store.key none), .listNames]] =
      Backend.hashed.answers ∅
        [.save (Store.key none) "{}", .save "unrelated" "{}", .save (Store.key (some "")) "[]",
          .listNames, .remove (some "graph"), .load (Store.key none), .listNames] ∧
    Database.table.answers ∅
        [[.save (Store.key none) "{}", .save "unrelated" "{}", .save (Store.key (some "")) "[]"],
          [.listNames, .remove (some "graph"), .load (Store.key none), .listNames]] =
      [.done, .done, .done, .listing ["", "graph"], .existed true, .text none, .listing [""]] :=
  ⟨Database.transactional_table,
    (answers_alike Database.table Database.transactional_table).2.1
      [[.save (Store.key none) "{}", .save "unrelated" "{}", .save (Store.key (some "")) "[]"],
        [.listNames, .remove (some "graph"), .load (Store.key none), .listNames]], by rfl⟩

end GraphWalk
