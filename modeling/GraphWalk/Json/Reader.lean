import GraphWalk.Json.Document
import GraphWalk.Json.Number
import GraphWalk.Json.Quoted

/-!
# Reading JSON

Two passes, each a fold with a small state: characters become tokens, and tokens become a
document, the open arrays and objects being held on a stack. Blanks are the space, the tab,
the line feed and the carriage return; anything between or after the tokens of one document is
refused.
-/

namespace GraphWalk.Json

/-- `word` is a literal name or a numeral, `quoted` the content between quotation marks. -/
inductive Token
  | mark (c : Char)
  | word (cs : List Char)
  | quoted (cs : List Char)
  deriving DecidableEq

def isBlank (c : Char) : Bool := c = ' ' ∨ c = '\t' ∨ c = '\n' ∨ c = '\r'

def isMark (c : Char) : Bool :=
  c = '[' ∨ c = ']' ∨ c = '\x7b' ∨ c = '\x7d' ∨ c = ',' ∨ c = ':'

namespace Token

/-- Where a scan stands; characters of an unfinished token are held last first. -/
inductive Mode
  | gap
  | word (cs : List Char)
  | quoted (cs : List Char)
  | escaped (cs : List Char)

/-- A scan in progress; the finished tokens are held last first. -/
structure Scan where
  mode : Mode
  tokens : List Token

def Scan.start : Scan := ⟨.gap, []⟩

/-- Reads a character that belongs to no unfinished token. -/
def Scan.begin (tokens : List Token) (c : Char) : Scan :=
  if isBlank c then ⟨.gap, tokens⟩
  else if isMark c then ⟨.gap, mark c :: tokens⟩
  else if c = '"' then ⟨.quoted [], tokens⟩
  else ⟨.word [c], tokens⟩

def Scan.step : Scan → Char → Scan
  | ⟨.gap, tokens⟩, c => begin tokens c
  | ⟨.word cs, tokens⟩, c =>
    if isBlank c || isMark c || c = '"' then begin (word cs.reverse :: tokens) c
    else ⟨.word (c :: cs), tokens⟩
  | ⟨.quoted cs, tokens⟩, c =>
    if c = '"' then ⟨.gap, quoted cs.reverse :: tokens⟩
    else if c = '\\' then ⟨.escaped (c :: cs), tokens⟩
    else ⟨.quoted (c :: cs), tokens⟩
  | ⟨.escaped cs, tokens⟩, c => ⟨.quoted (c :: cs), tokens⟩

/-- The tokens of a scan that ends here; `none` inside a string. -/
def Scan.finish? : Scan → Option (List Token)
  | ⟨.gap, tokens⟩ => some tokens.reverse
  | ⟨.word cs, tokens⟩ => some (word cs.reverse :: tokens).reverse
  | ⟨.quoted _, _⟩ | ⟨.escaped _, _⟩ => none

def ofChars? (cs : List Char) : Option (List Token) := (cs.foldl Scan.step Scan.start).finish?

end Token

namespace Document

/-- What a document must go on with. -/
inductive Expected
  | value
  | firstItem
  | firstName
  | name
  | colon
  | separator
  | finish (document : Document)

/-- An open array, an open object, or an open object with the name of its next member. What is
complete is held last first. -/
inductive Frame
  | array (items : List Document)
  | object (members : List (Option String × Document))
  | member (name : Option String) (members : List (Option String × Document))

structure Builder where
  expected : Expected
  stack : List Frame

namespace Builder

def start : Builder := ⟨.value, []⟩

/-- Hands a complete document to the innermost open frame. -/
def accept (d : Document) : List Frame → Option Builder
  | [] => some ⟨.finish d, []⟩
  | .array items :: stack => some ⟨.separator, .array (d :: items) :: stack⟩
  | .member name members :: stack => some ⟨.separator, .object ((name, d) :: members) :: stack⟩
  | .object _ :: _ => none

def word? (cs : List Char) : Option Document :=
  if cs = "null".toList then some (scalar (some null))
  else if cs = "true".toList then some (scalar (some (bool true)))
  else if cs = "false".toList then some (scalar (some (bool false)))
  else (Numeral.ofChars? cs).map fun n => scalar n.value?

def value (stack : List Frame) : Token → Option Builder
  | .word cs => (word? cs).bind fun d => accept d stack
  | .quoted cs => (Quoted.decode? cs).bind fun s => accept (scalar (s.map str)) stack
  | .mark '[' => some ⟨.firstItem, .array [] :: stack⟩
  | .mark '\x7b' => some ⟨.firstName, .object [] :: stack⟩
  | .mark _ => none

def name (stack : List Frame) : Token → Option Builder
  | .quoted cs =>
    match stack with
    | .object members :: stack =>
      (Quoted.decode? cs).map fun s => ⟨.colon, .member s members :: stack⟩
    | _ => none
  | _ => none

def close : List Frame → Token → Option Builder
  | .array items :: stack, .mark ']' => accept (array items.reverse) stack
  | .object members :: stack, .mark '\x7d' => accept (object members.reverse) stack
  | _, _ => none

def step (b : Builder) (t : Token) : Option Builder :=
  match b.expected with
  | .value => value b.stack t
  | .firstItem => if t = .mark ']' then close b.stack t else value b.stack t
  | .firstName => if t = .mark '\x7d' then close b.stack t else name b.stack t
  | .name => name b.stack t
  | .colon => if t = .mark ':' then some ⟨.value, b.stack⟩ else none
  | .separator =>
    -- Behind a comma an item or a name must come, so no comma stands before a closing mark.
    if t = .mark ',' then
      match b.stack with
      | .array _ :: _ => some ⟨.value, b.stack⟩
      | .object _ :: _ => some ⟨.name, b.stack⟩
      | _ => none
    else close b.stack t
  | .finish _ => none

end Builder

/-- The one document that a list of tokens spells. -/
def ofTokens? (tokens : List Token) : Option Document :=
  match tokens.foldlM Builder.step Builder.start with
  | some ⟨.finish d, _⟩ => some d
  | _ => none

def ofChars? (cs : List Char) : Option Document := (Token.ofChars? cs).bind ofTokens?

def ofString? (text : String) : Option Document := ofChars? text.toList

end Document

/-- How many arrays and objects may be nested in a value that is read. -/
def maxNesting : Nat := 127

def ofString? (text : String) : Option Json :=
  (Document.ofString? text).bind (Document.value? maxNesting)

end GraphWalk.Json
