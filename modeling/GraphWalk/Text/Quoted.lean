import GraphWalk.Text.Printable

/-!
# Text between quotation marks in messages

The quotation mark, the backslash and the common controls have an escape of one letter; every
other character that does not show on its own is written as its number.
-/

namespace GraphWalk.Text

def hexChars (n : Nat) : List Char := Nat.toDigits 16 n

def shownChar (c : Char) : List Char :=
  if c = '\x00' then ['\\', '0']
  else if c = '\t' then ['\\', 't']
  else if c = '\r' then ['\\', 'r']
  else if c = '\n' then ['\\', 'n']
  else if c = '\\' ∨ c = '"' then ['\\', c]
  else if standsAlone c then [c]
  else ['\\', 'u', '\x7b'] ++ hexChars c.toNat ++ ['\x7d']

def quoted (s : String) : String := String.ofList ('"' :: s.toList.flatMap shownChar ++ ['"'])

end GraphWalk.Text
