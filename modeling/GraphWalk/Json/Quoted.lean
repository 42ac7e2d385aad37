/-!
# Strings between quotation marks

`encode` writes the content of a JSON string and `decode?` reads one. Reading has two ways to
fail: an escape may be malformed, or every escape is well formed and yet a surrogate stands
alone, so that the string spells no text.
-/

namespace GraphWalk.Json.Quoted

def hexDigit (n : Nat) : Char :=
  if n < 10 then Char.ofNat ('0'.toNat + n) else Char.ofNat ('a'.toNat + (n - 10))

/-- Only the quotation mark, the backslash and control characters are escaped. -/
def encodeChar (c : Char) : List Char :=
  if c = '"' then ['\\', '"']
  else if c = '\\' then ['\\', '\\']
  else if c = '\x08' then ['\\', 'b']
  else if c = '\t' then ['\\', 't']
  else if c = '\n' then ['\\', 'n']
  else if c = '\x0c' then ['\\', 'f']
  else if c = '\r' then ['\\', 'r']
  else if c.toNat < 0x20 then
    ['\\', 'u', '0', '0', hexDigit (c.toNat / 16), hexDigit (c.toNat % 16)]
  else [c]

def encode (s : List Char) : List Char := s.flatMap encodeChar

def hexValue? (c : Char) : Option Nat :=
  if '0' ≤ c ∧ c ≤ '9' then some (c.toNat - '0'.toNat)
  else if 'a' ≤ c ∧ c ≤ 'f' then some (c.toNat - 'a'.toNat + 10)
  else if 'A' ≤ c ∧ c ≤ 'F' then some (c.toNat - 'A'.toNat + 10)
  else none

/-- One part of a string: a character, or a 16-bit unit given by its number. -/
inductive Part
  | char (c : Char)
  | unit (n : Nat)
  deriving DecidableEq

def simpleEscape? : Char → Option Char
  | '"' => some '"'
  | '\\' => some '\\'
  | '/' => some '/'
  | 'b' => some '\x08'
  | 'f' => some '\x0c'
  | 'n' => some '\n'
  | 'r' => some '\r'
  | 't' => some '\t'
  | _ => none

/-- The parts of a string's content; `none` if an escape is malformed or a control character
stands unescaped. -/
def parts? : List Char → Option (List Part)
  | [] => some []
  | '\\' :: 'u' :: a :: b :: c :: d :: rest => do
    let high := (← hexValue? a) * 16 + (← hexValue? b)
    let n := (high * 16 + (← hexValue? c)) * 16 + (← hexValue? d)
    return .unit n :: (← parts? rest)
  | '\\' :: e :: rest => return .char (← simpleEscape? e) :: (← parts? rest)
  | c :: rest =>
    if c = '\\' ∨ c.toNat < 0x20 then none else return .char c :: (← parts? rest)

def isHigh (n : Nat) : Bool := 0xD800 ≤ n ∧ n < 0xDC00

def isLow (n : Nat) : Bool := 0xDC00 ≤ n ∧ n < 0xE000

/-- Joins surrogate pairs; `none` if a surrogate stands alone. -/
def join? : List Part → Option (List Char)
  | [] => some []
  | .char c :: rest => return c :: (← join? rest)
  | .unit a :: .unit b :: rest =>
    if isHigh a then
      -- The first half of a pair: nothing but the second half may follow.
      if isLow b then
        return Char.ofNat (0x10000 + (a - 0xD800) * 0x400 + (b - 0xDC00)) :: (← join? rest)
      else none
    else if isLow a then none
    else return Char.ofNat a :: (← join? (.unit b :: rest))
  | .unit a :: rest =>
    if isHigh a ∨ isLow a then none else return Char.ofNat a :: (← join? rest)

/-- `none` for malformed content, `some none` for content that spells no text. -/
def decode? (content : List Char) : Option (Option String) :=
  (parts? content).map fun parts => (join? parts).map String.ofList

end GraphWalk.Json.Quoted
