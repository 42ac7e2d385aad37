import GraphWalk.Store
import Std.Data.HashMap

/-!
# Backends of stores

A backend keeps texts under full keys. What is asked for by the name of a graph goes through these
keys, in the same way for every backend. One backend is a hash table, which sorts its keys when it
lists them; the other is a database on disk, which is in order by itself and can be opened again.
-/

namespace GraphWalk

structure Backend (σ : Type) where
  save (key text : String) : σ → σ
  load (key : String) : σ → Option String
  /-- Also tells whether the key was there. -/
  delete (key : String) : σ → Bool × σ
  keys : σ → List String

namespace Backend

variable {σ : Type} (b : Backend σ)

def persist (name : Option String) (g : Graph) (s : σ) : σ := b.save (Store.key name) g.text s

def depersist (name : Option String) (s : σ) : Except GraphError (Option Graph.Bulk) :=
  match b.load (Store.key name) s with
  | none => .ok none
  | some text => (Graph.ofString text).map some

def remove (name : Option String) (s : σ) : Bool × σ := b.delete (Store.key name) s

def listNames (s : σ) : List String := (b.keys s).filterMap Store.nameOf?

end Backend

/-- What can be asked of a backend. -/
inductive Request
  | save (key text : String)
  | load (key : String)
  | delete (key : String)
  | keys
  | persist (g : Graph) (name : Option String)
  | depersist (name : Option String)
  | remove (name : Option String)
  | listNames

inductive Response
  | done
  | text (found : Option String)
  | graph (found : Except GraphError (Option Graph.Bulk))
  | existed (there : Bool)
  | listing (texts : List String)

namespace Backend

variable {σ : Type} (b : Backend σ)

def serve (s : σ) : Request → Response × σ
  | .save key text => (.done, b.save key text s)
  | .load key => (.text (b.load key s), s)
  | .delete key =>
    let (there, s) := b.delete key s
    (.existed there, s)
  | .keys => (.listing (b.keys s), s)
  | .persist g name => (.done, b.persist name g s)
  | .depersist name => (.graph (b.depersist name s), s)
  | .remove name =>
    let (there, s) := b.remove name s
    (.existed there, s)
  | .listNames => (.listing (b.listNames s), s)

/-- What one request after the other leaves. -/
def after (s : σ) (requests : List Request) : σ :=
  requests.foldl (fun s r => (b.serve s r).2) s

def answers : σ → List Request → List Response
  | _, [] => []
  | s, r :: later =>
    let (a, s) := b.serve s r
    a :: answers s later

end Backend

/-- The bytes of a text, which decide its place in an order. -/
def bytes (s : String) : List UInt8 := s.toUTF8.data.toList

/-- The backend in memory. -/
def Backend.hashed : Backend (Std.HashMap String String) where
  save key text m := m.insert key text
  load key m := m[key]?
  delete key m := (m.contains key, m.erase key)
  keys m := m.keys.mergeSort fun a b => bytes a ≤ bytes b

/-- What a database offers: a table of texts in transactions, and a file to open again. -/
structure Database (σ : Type) where
  /-- A new file, with its table. -/
  created : σ
  insert (key value : String) : σ → σ
  get? (key : String) : σ → Option String
  /-- Also returns the value that was there. -/
  remove (key : String) : σ → Option String × σ
  entries : σ → List (String × String)
  reopen : σ → σ

namespace Database

variable {σ : Type} (d : Database σ)

def backend : Backend σ where
  save := d.insert
  load := d.get?
  delete key s :=
    let (removed, s) := d.remove key s
    (removed.isSome, s)
  keys s := (d.entries s).map (·.1)

/-- The answers of sessions one after the other; the file is opened again between them. -/
def answers : σ → List (List Request) → List Response
  | _, [] => []
  | s, session :: later =>
    d.backend.answers s session ++ answers (d.reopen (d.backend.after s session)) later

/-- A table as a database. -/
def table : Database Store where
  created := ∅
  insert key value s := s.insert key value
  get? key s := s.get? key
  remove key s := (s.get? key, s.erase key)
  entries s := s.entries
  reopen s := s

end Database

end GraphWalk
