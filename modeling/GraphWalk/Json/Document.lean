import GraphWalk.Json.Value

/-!
# JSON documents as written

A document keeps what a value forgets: repeated names, the order of members, and scalars that
are well spelled but denote no value, such as a number beyond every float or half of a
surrogate pair. Reading a value from it bounds the nesting and refuses those scalars.
-/

namespace GraphWalk.Json

inductive Document
  | scalar (value : Option Json)
  | array (items : List Document)
  | object (members : List (Option String × Document))
  deriving Inhabited

namespace Document

mutual

/-- The value of a document that nests at most `room` arrays and objects. -/
def value? (room : Nat) : Document → Option Json
  | scalar v => v
  | array items =>
    match room with
    | 0 => none
    | room + 1 => return arr (← items? room items)
  | object members =>
    match room with
    | 0 => none
    | room + 1 => return Json.object (← members? room members)

def items? (room : Nat) : List Document → Option (List Json)
  | [] => some []
  | d :: rest => return (← value? room d) :: (← items? room rest)

def members? (room : Nat) : List (Option String × Document) → Option (List (String × Json))
  | [] => some []
  | (name, d) :: rest => return (← name, ← value? room d) :: (← members? room rest)

end

end Document

end GraphWalk.Json
