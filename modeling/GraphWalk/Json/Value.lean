import GraphWalk.Table

/-!
# JSON values

Integers and floating-point numbers are different kinds of number and never equal. The fields
of an object are listed in the order in which they are printed; a value that was read, or
built with `Json.object`, lists each name once and in increasing order.
-/

namespace GraphWalk

inductive Json
  | null
  | bool (b : Bool)
  | int (n : Int)
  | float (x : Float)
  | str (s : String)
  | arr (items : List Json)
  | obj (fields : List (String × Json))
  deriving Inhabited

namespace Json

/-- An object with its names sorted; of a repeated name the last value stays. -/
def object (fields : List (String × Json)) : Json := obj (Table.ofList fields).entries

def ofTable (t : Table Json) : Json := obj t.entries

def ofOption : Option Json → Json
  | some v => v
  | none => null

def isNull : Json → Bool
  | null => true
  | _ => false

def asString? : Json → Option String
  | str s => some s
  | _ => none

/-- The value of a field; `none` also for a value that is no object. -/
def field? (name : String) : Json → Option Json
  | obj fields => Entries.find? name fields
  | _ => none

mutual

/-- Equality of values. Numbers are equal only to numbers of their own kind, and two floats are
compared as floats, so the two zeros are equal. -/
def same : Json → Json → Bool
  | null, null => true
  | bool a, bool b => a == b
  | int a, int b => a == b
  | float a, float b => a == b
  | str a, str b => a == b
  | arr a, arr b => sameItems a b
  | obj a, obj b => sameFields a b
  | _, _ => false

def sameItems : List Json → List Json → Bool
  | [], [] => true
  | a :: as, b :: bs => same a b && sameItems as bs
  | _, _ => false

def sameFields : List (String × Json) → List (String × Json) → Bool
  | [], [] => true
  | (k, a) :: as, (l, b) :: bs => k == l && same a b && sameFields as bs
  | _, _ => false

end

instance : BEq Json := ⟨same⟩

end Json

end GraphWalk
