import GraphWalk.Table
import GraphWalk.Toml.Quoted
import GraphWalk.Toml.Scalar

/-!
# TOML documents

A document is read as a tree of tables. Strings are kept; of every other value only its being
well formed matters. A table is implicit while it has been mentioned only as part of a path,
and dotted if dotted keys made it; these marks decide which later keys and headings would
define a table twice. Arrays and inline tables nest less than eighty deep, and no path is
longer.
-/

namespace GraphWalk.Toml

inductive Item
  | text (s : String)
  | other
  | table (implicit dotted : Bool) (entries : List (String × Item))
  /-- An array of tables, the newest first. -/
  | tables (elements : List (List (String × Item)))

abbrev Entries := List (String × Item)

def maxDepth : Nat := 80

/- Blanks, comments and line ends -/

def isBlank (c : Char) : Bool := c = ' ' || c = '\t'

def skipBlanks (cs : List Char) : List Char := cs.dropWhile isBlank

def skipComment : List Char → List Char
  | '#' :: rest => rest.dropWhile isPrintable
  | cs => cs

/-- The end of a line or of the text, behind blanks and a comment. -/
def lineEnd? (cs : List Char) : Option (List Char) :=
  match skipComment (skipBlanks cs) with
  | [] => some []
  | '\n' :: rest => some rest
  | '\r' :: '\n' :: rest => some rest
  | _ => none

/-- Passes over blanks, line ends and comments. -/
def skipLayout (inComment : Bool) : List Char → List Char
  | [] => []
  | '\r' :: '\n' :: rest => skipLayout false rest
  | c :: rest =>
    if c = '\n' then skipLayout false rest
    else if inComment then if isPrintable c then skipLayout true rest else c :: rest
    else if isBlank c then skipLayout false rest
    else if c = '#' then skipLayout true rest
    else c :: rest

/- Keys -/

def isBareKeyChar (c : Char) : Bool :=
  Json.isDigit c || ('a' ≤ c ∧ c ≤ 'z') || ('A' ≤ c ∧ c ≤ 'Z') || c = '_' || c = '-'

def simpleKey? : List Char → Option (String × List Char)
  | '"' :: rest => (basic? rest).map fun (s, rest) => (String.ofList s, rest)
  | '\'' :: rest => (literal? rest).map fun (s, rest) => (String.ofList s, rest)
  | cs =>
    match cs.takeWhile isBareKeyChar with
    | [] => none
    | key => some (String.ofList key, cs.dropWhile isBareKeyChar)

/-- Keys joined by dots, with blanks around them; `bound` is at least the number of keys. -/
def keys? : Nat → List Char → Option (List String × List Char)
  | 0, _ => none
  | bound + 1, cs => do
    let (key, rest) ← simpleKey? (skipBlanks cs)
    match skipBlanks rest with
    | '.' :: rest =>
      let (keys, rest) ← keys? bound rest
      return (key :: keys, rest)
    | rest => return ([key], rest)

def path? (cs : List Char) : Option (List String × List Char) := do
  let (path, rest) ← keys? (cs.length + 1) cs
  if path.length < maxDepth then some (path, rest) else none

/- Tables -/

def replace (key : String) (item : Item) (entries : Entries) : Entries :=
  entries.map fun e => if e.1 = key then (key, item) else e

/-- Changes the table that a path leads to and makes the tables that are missing on the way.
A path of dotted keys may pass only through tables that are still implicit. `change` is told
whether the table is a dotted one. -/
def descend (dotted : Bool) (change : Bool → Entries → Option Entries) :
    List String → Bool → Entries → Option Entries
  | [], isDotted, entries => change isDotted entries
  | key :: path, _, entries =>
    match Entries.find? key entries with
    | none => do
      let inner ← descend dotted change path dotted []
      return entries ++ [(key, .table true dotted inner)]
    | some (.table implicit isDotted inner) =>
      if dotted && !implicit then none
      else do
        let inner ← descend dotted change path isDotted inner
        return replace key (.table implicit isDotted inner) entries
    -- A path through an array of tables leads into its newest element.
    | some (.tables (newest :: older)) => do
      let newest ← descend dotted change path false newest
      return replace key (.tables (newest :: older)) entries
    | some _ => none

/-- Gives a value to the last key of a path, which must be new. A table that dotted keys made
takes values by dotted keys only, and any other table by plain ones. -/
def define (path : List String) (item : Item) (isDotted : Bool) (entries : Entries) :
    Option Entries :=
  let parents := path.dropLast
  descend true (fun isDotted entries =>
    if isDotted == parents.isEmpty then none
    else do
      let key ← path.getLast?
      if (Entries.find? key entries).isSome then none else some (entries ++ [(key, item)]))
    parents isDotted entries

/-- Opens the table of a heading. -/
def openTable (path : List String) (root : Entries) : Option Entries :=
  descend false (fun _ entries => do
    let key ← path.getLast?
    match Entries.find? key entries with
    | none => some (entries ++ [(key, .table false false [])])
    | some (.table true false inner) => some (replace key (.table false false inner) entries)
    | some _ => none) path.dropLast false root

/-- Adds a table to the array of a heading. -/
def openElement (path : List String) (root : Entries) : Option Entries :=
  descend false (fun _ entries => do
    let key ← path.getLast?
    match Entries.find? key entries with
    | none => some (entries ++ [(key, .tables [[]])])
    | some (.tables elements) => some (replace key (.tables ([] :: elements)) entries)
    | some _ => none) path.dropLast false root

/- Values -/

mutual

/-- Reads a value; `bound` is more than the characters left times two. -/
def value? : Nat → Nat → List Char → Option (Item × List Char)
  | 0, _, _ => none
  | bound + 1, depth, cs =>
    match cs with
    | '[' :: rest =>
      if depth + 1 < maxDepth then (items? bound (depth + 1) rest).map fun rest => (.other, rest)
      else none
    | '\x7b' :: rest =>
      if depth + 1 < maxDepth then
        match skipBlanks rest with
        | '\x7d' :: rest => some (.other, rest)
        | rest => (pairs? bound (depth + 1) [] rest).map fun rest => (.other, rest)
      else none
    | '"' :: _ | '\'' :: _ => (string? cs).map fun (s, rest) => (.text s, rest)
    | cs =>
      let (word, rest) := scalarWord cs
      if isScalar word then some (.other, rest) else none

/-- The items of an array up to its end; a comma may follow the last one. -/
def items? : Nat → Nat → List Char → Option (List Char)
  | 0, _, _ => none
  | bound + 1, depth, cs =>
    match skipLayout false cs with
    | ']' :: rest => some rest
    | cs => do
      let (_, rest) ← value? bound depth cs
      match skipLayout false rest with
      | ',' :: rest => items? bound depth rest
      | ']' :: rest => some rest
      | _ => none

/-- The pairs of an inline table up to its end; no comma follows the last one. -/
def pairs? : Nat → Nat → Entries → List Char → Option (List Char)
  | 0, _, _, _ => none
  | bound + 1, depth, entries, cs => do
    let (path, rest) ← path? cs
    match rest with
    | '=' :: rest =>
      let (item, rest) ← value? bound depth (skipBlanks rest)
      let entries ← define path item false entries
      match skipBlanks rest with
      | ',' :: rest => pairs? bound depth entries rest
      | '\x7d' :: rest => some rest
      | _ => none
    | _ => none

end

/- Lines -/

/-- The tables so far, and the path of the one that takes the next pairs. -/
structure State where
  root : Entries
  heading : List String

/-- Defines a pair in the table of the current heading. -/
def State.define (s : State) (path : List String) (item : Item) : Option State :=
  (descend false (Toml.define path item) s.heading false s.root).map fun root => { s with root }

/-- Reads one line: a heading, a pair, a comment or nothing. -/
def line? (s : State) (cs : List Char) : Option (State × List Char) :=
  match cs with
  | '[' :: '[' :: rest => do
    let (path, rest) ← path? rest
    match rest with
    | ']' :: ']' :: rest => return (⟨← openElement path s.root, path⟩, ← lineEnd? rest)
    | _ => none
  | '[' :: rest => do
    let (path, rest) ← path? rest
    match rest with
    | ']' :: rest => return (⟨← openTable path s.root, path⟩, ← lineEnd? rest)
    | _ => none
  | '#' :: _ | '\n' :: _ | '\r' :: _ => return (s, ← lineEnd? cs)
  | cs => do
    let (path, rest) ← path? cs
    match rest with
    | '=' :: rest =>
      let (item, rest) ← value? (2 * rest.length + 2) 0 (skipBlanks rest)
      return (← s.define path item, ← lineEnd? rest)
    | _ => none

def lines? : Nat → State → List Char → Option State
  | 0, _, _ => none
  | bound + 1, s, cs =>
    match skipBlanks cs with
    | [] => some s
    | cs => do
      let (s, rest) ← line? s cs
      lines? bound s rest

def dropByteOrderMark : List Char → List Char
  | '\ufeff' :: rest => rest
  | cs => cs

/-- The entries of a document's root table. -/
def ofString? (text : String) : Option Entries :=
  let cs := dropByteOrderMark text.toList
  (lines? (cs.length + 1) ⟨[], []⟩ cs).map State.root

end GraphWalk.Toml
