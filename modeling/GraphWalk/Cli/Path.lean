/-!
# Paths and places

A path is what is written; a place is where it leads. One place has many paths, and what a path
leads to hangs on the disk: a step out of a directory needs the directory as much as a step into
it does.
-/

namespace GraphWalk.Cli

/-- What stands between two slashes. -/
inductive PathPart
  | here
  | up
  | name (text : String)
  deriving DecidableEq

def PathPart.ofString : String → PathPart
  | "." => .here
  | ".." => .up
  | text => .name text

/-- The directories that places are told from: the root, or the one that lies some levels above
the current directory. -/
inductive Anchor
  | root
  | above (levels : Nat)
  deriving DecidableEq

/-- An anchor and the names that lead down from it, innermost first. -/
structure Place where
  anchor : Anchor
  names : List String
  deriving DecidableEq

namespace Place

def current : Place := ⟨.above 0, []⟩

/-- The root is its own parent. -/
def parent : Place → Place
  | ⟨anchor, _ :: names⟩ => ⟨anchor, names⟩
  | ⟨.above levels, []⟩ => ⟨.above (levels + 1), []⟩
  | ⟨.root, []⟩ => ⟨.root, []⟩

def child (p : Place) (name : String) : Place := { p with names := name :: p.names }

def step (p : Place) : PathPart → Place
  | .here => p
  | .up => p.parent
  | .name text => p.child text

/-- The shortest path to the place. -/
def toString : Place → String
  | ⟨.root, names⟩ => "/" ++ String.intercalate "/" names.reverse
  | ⟨.above 0, []⟩ => "."
  | ⟨.above levels, names⟩ =>
    String.intercalate "/" (List.replicate levels ".." ++ names.reverse)

end Place

/-- Two slashes in a row count as one. -/
structure Path where
  absolute : Bool
  parts : List PathPart
  endsInSlash : Bool
  deriving DecidableEq

namespace Path

/-- The texts between slashes. -/
def split (current : List Char) : List Char → List (List Char)
  | [] => [current.reverse]
  | c :: rest => if c = '/' then current.reverse :: split [] rest else split (c :: current) rest

def ofString (path : String) : Path where
  absolute := path.toList.head? = some '/'
  parts := ((split [] path.toList).filter (!·.isEmpty)).map (.ofString <| String.ofList ·)
  endsInSlash := path.toList.getLast? = some '/'

/-- Where the path begins. -/
def start (p : Path) : Place := if p.absolute then ⟨.root, []⟩ else .current

/-- The empty path leads nowhere, not even to the current directory. -/
def isEmpty (p : Path) : Bool := !p.absolute && p.parts.isEmpty

def steps (p : Path) : List PathPart := p.parts.filter (· ≠ .here)

/-- The first few steps of a path. -/
def take (p : Path) (count : Nat) : Path := ⟨p.absolute, p.steps.take count, false⟩

/-- The path without its last step; `none` if it takes no step. -/
def parent? (p : Path) : Option Path :=
  if p.steps.isEmpty then none else some (p.take (p.steps.length - 1))

/-- The path and those that lead to it by fewer steps, longest first. -/
def lineage (p : Path) : List Path :=
  if p.isEmpty then [] else p :: ((List.range' 1 (p.steps.length - 1)).reverse.map p.take)

end Path

end GraphWalk.Cli
