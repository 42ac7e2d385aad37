import GraphWalk.Json.Number
import GraphWalk.Json.Quoted

/-!
# Printing JSON

`compact` writes no blanks. `pretty` gives every item and field a line of its own, indented by
two spaces a level, and leaves empty arrays and objects on one line. Both follow the order in
which an object lists its fields.
-/

namespace GraphWalk.Json

def quoted (s : String) : List Char := '"' :: Quoted.encode s.toList ++ ['"']

def scalarChars : Json → List Char
  | null => "null".toList
  | bool b => (if b then "true" else "false").toList
  | int n => (Int.repr n).toList
  | float x => floatChars x
  | str s => quoted s
  | arr _ => []
  | obj _ => []

mutual

def compactChars : Json → List Char
  | arr items => '[' :: compactItems items ++ [']']
  | obj fields => '{' :: compactFields fields ++ ['}']
  | v => scalarChars v

def compactItems : List Json → List Char
  | [] => []
  | [v] => compactChars v
  | v :: rest => compactChars v ++ ',' :: compactItems rest

def compactFields : List (String × Json) → List Char
  | [] => []
  | [(k, v)] => quoted k ++ ':' :: compactChars v
  | (k, v) :: rest => quoted k ++ ':' :: compactChars v ++ ',' :: compactFields rest

end

def newline (level : Nat) : List Char := '\n' :: List.replicate (2 * level) ' '

mutual

def prettyChars (level : Nat) : Json → List Char
  | arr [] => ['[', ']']
  | arr (v :: rest) => '[' :: prettyItems (level + 1) (v :: rest) ++ newline level ++ [']']
  | obj [] => ['{', '}']
  | obj (e :: rest) => '{' :: prettyFields (level + 1) (e :: rest) ++ newline level ++ ['}']
  | v => scalarChars v

def prettyItems (level : Nat) : List Json → List Char
  | [] => []
  | [v] => newline level ++ prettyChars level v
  | v :: rest => newline level ++ prettyChars level v ++ ',' :: prettyItems level rest

def prettyFields (level : Nat) : List (String × Json) → List Char
  | [] => []
  | [(k, v)] => newline level ++ quoted k ++ ':' :: ' ' :: prettyChars level v
  | (k, v) :: rest =>
    newline level ++ quoted k ++ ':' :: ' ' :: prettyChars level v ++ ',' :: prettyFields level rest

end

def compact (v : Json) : String := String.ofList (compactChars v)

def pretty (v : Json) : String := String.ofList (prettyChars 0 v)

end GraphWalk.Json
