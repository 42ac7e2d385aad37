import GraphWalk.Json.Reader
import GraphWalk.Text.Blank
import GraphWalk.Text.Word
import GraphWalk.Walk.Argument

/-!
# Query scripts

A script is a chain of steps joined by dots, each a name and a list of JSON values in
parentheses: `v(1).out("knows").take(5)`. Dots inside brackets and string literals do not
separate, brackets of the three kinds are counted together, and `v` is short for `vertex`.
-/

namespace GraphWalk

/-- One step of a script. -/
structure ScriptStep where
  pipe : String
  args : List Json

inductive ScriptError
  | empty
  | unbalancedClose (bracket : Char) (offset : Nat)
  | unterminatedString
  | unbalancedOpen
  | noArguments (step : String)
  | noEnd (step : String)
  | badName (name : String)
  | badArguments (step : String)
  deriving DecidableEq

namespace ScriptError

def message : ScriptError → String
  | empty => "Empty query script"
  | unbalancedClose bracket offset => s!"Unbalanced '{bracket}' at offset {offset}"
  | unterminatedString => "Unterminated string literal"
  | unbalancedOpen => "Unbalanced brackets"
  | noArguments step => s!"Expected '(' in step '{step}'"
  | noEnd step => s!"Expected ')' at the end of step '{step}'"
  | badName name => s!"Invalid step name '{name}'"
  | badArguments step => s!"Invalid arguments in step '{step}'"

end ScriptError

namespace Script

/-- Where a split stands. -/
inductive Mode
  | plain
  | quoted
  | escaped
  deriving DecidableEq

/-- A split in progress: the number of open brackets, the offset in bytes of the next
character, and, newest first, the characters of the current segment and the segments before. -/
structure Split where
  mode : Mode
  depth : Nat
  offset : Nat
  current : List Char
  segments : List (List Char)

def Split.start : Split := ⟨.plain, 0, 0, [], []⟩

def isOpening (c : Char) : Bool := c = '(' ∨ c = '[' ∨ c = '\x7b'

def isClosing (c : Char) : Bool := c = ')' ∨ c = ']' ∨ c = '\x7d'

/-- Adds a character to the current segment. -/
def Split.keep (s : Split) (c : Char) (mode : Mode) (depth : Nat) : Split :=
  ⟨mode, depth, s.offset + c.utf8Size, c :: s.current, s.segments⟩

def Split.step (s : Split) (c : Char) : Except ScriptError Split :=
  match s.mode with
  | .escaped => .ok (s.keep c .quoted s.depth)
  | .quoted =>
    if c = '\\' then .ok (s.keep c .escaped s.depth)
    else if c = '"' then .ok (s.keep c .plain s.depth)
    else .ok (s.keep c .quoted s.depth)
  | .plain =>
    if c = '"' then .ok (s.keep c .quoted s.depth)
    else if isOpening c then .ok (s.keep c .plain (s.depth + 1))
    else if isClosing c then
      if s.depth = 0 then .error (.unbalancedClose c s.offset)
      else .ok (s.keep c .plain (s.depth - 1))
    else if c = '.' ∧ s.depth = 0 then
      .ok ⟨.plain, 0, s.offset + c.utf8Size, [], s.current.reverse :: s.segments⟩
    else .ok (s.keep c .plain s.depth)

def Split.finish (s : Split) : Except ScriptError (List (List Char)) :=
  if s.mode ≠ .plain then .error .unterminatedString
  else if s.depth ≠ 0 then .error .unbalancedOpen
  else .ok (s.current.reverse :: s.segments).reverse

/-- The segments between the dots that stand outside of brackets and string literals. -/
def segments (script : List Char) : Except ScriptError (List (List Char)) :=
  (script.foldlM Split.step Split.start).bind Split.finish

def isNameChar (c : Char) : Bool := c = '_' || Text.isWord c

/-- The values between the parentheses, read as the items of an array. -/
def arguments? (inner : List Char) : Option (List Json) :=
  match (Json.Document.ofChars? ('[' :: inner ++ [']'])).bind (·.value? Json.maxNesting) with
  | some (.arr args) => some args
  | _ => none

def longName (name : String) : String := if name = "v" then "vertex" else name

/-- Reads one segment. Nothing may follow the last parenthesis. -/
def readStep (segment : List Char) : Except ScriptError ScriptStep :=
  let step := Text.trim segment
  let shown := String.ofList step
  if '(' ∉ step then .error (.noArguments shown)
  else if step.getLast? ≠ some ')' then .error (.noEnd shown)
  else
    let name := Text.trim (step.takeWhile (· ≠ '('))
    if name.isEmpty || !name.all isNameChar then .error (.badName (String.ofList name))
    else
      match arguments? ((step.dropWhile (· ≠ '(')).drop 1).dropLast with
      | some args => .ok ⟨longName (String.ofList name), args⟩
      | none => .error (.badArguments shown)

/-- Reads a script. Brackets are checked over the whole of it before any step is read. -/
def parse (script : String) : Except ScriptError (List ScriptStep) :=
  let script := Text.trim script.toList
  if script.isEmpty then .error .empty
  else do (← segments script).mapM readStep

def program (steps : List ScriptStep) : Program :=
  steps.map fun step => ⟨step.pipe, step.args.map .value⟩

end Script

end GraphWalk
