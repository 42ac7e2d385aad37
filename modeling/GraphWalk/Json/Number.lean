import GraphWalk.Decimal.Shortest
import GraphWalk.Json.Value

/-!
# JSON numbers and their text

A numeral without point and exponent is an integer when it fits 64 bits, signed or unsigned;
every other numeral is a float. A float is computed from at most 64 bits of significant digits
and one power of ten, each with its own rounding, so a long numeral may come out a neighbour of
the nearest float. Printing writes the fewest digits that read back.
-/

namespace GraphWalk.Json

/-- A numeral as written: `negative whole [. fraction] [e exponent]`. -/
structure Numeral where
  negative : Bool
  whole : List Char
  fraction : Option (List Char)
  exponent : Option (Bool × List Char)
  deriving DecidableEq

def isDigit (c : Char) : Bool := '0' ≤ c ∧ c ≤ '9'

def digitValue (c : Char) : Nat := c.toNat - '0'.toNat

namespace Numeral

/-- The digits at the front, at least one of them, and what follows. -/
def digits? (cs : List Char) : Option (List Char × List Char) :=
  match cs.takeWhile isDigit with
  | [] => none
  | ds => some (ds, cs.dropWhile isDigit)

def fraction? : List Char → Option (Option (List Char) × List Char)
  | '.' :: rest => (digits? rest).map fun (ds, rest) => (some ds, rest)
  | rest => some (none, rest)

def exponent? : List Char → Option (Option (Bool × List Char))
  | [] => some none
  | e :: rest =>
    if e ≠ 'e' ∧ e ≠ 'E' then none
    else
      let (negative, rest) := match rest with
        | '-' :: rest => (true, rest)
        | '+' :: rest => (false, rest)
        | rest => (false, rest)
      match digits? rest with
      | some (ds, []) => some (some (negative, ds))
      | _ => none

/-- Reads a whole word as a numeral; a leading zero must stand alone. -/
def ofChars? (cs : List Char) : Option Numeral := do
  let (negative, cs) := match cs with
    | '-' :: rest => (true, rest)
    | cs => (false, cs)
  let (whole, cs) ← digits? cs
  if whole.head? = some '0' ∧ whole.length ≠ 1 then none
  let (fraction, cs) ← fraction? cs
  let exponent ← exponent? cs
  return ⟨negative, whole, fraction, exponent⟩

/-- Takes digits onto a significand for as long as it fits 64 bits, and gives back the rest. -/
def gather (significand : Nat) : List Char → Nat × List Char
  | [] => (significand, [])
  | d :: ds =>
    let next := significand * 10 + digitValue d
    if next < 0x10000000000000000 then gather next ds else (significand, d :: ds)

/-- The float nearest to `10 ^ n`, for `n ≤ 308`. -/
def powerOfTen (n : Nat) : Float := Float.ofScientific 1 false n

/-- Divides by `10 ^ n` in steps that a float can hold. -/
def shrink (f : Float) (n : Nat) : Float :=
  if n ≤ 308 then f / powerOfTen n
  else if f == 0 then f
  else shrink (f / powerOfTen 308) (n - 308)
termination_by n

/-- The float of `significand * 10 ^ exponent`; `none` beyond the largest float. -/
def scale? (significand : Nat) : Int → Option Float
  | .negSucc n => some (shrink significand.toUInt64.toFloat (n + 1))
  | .ofNat n =>
    let f := significand.toUInt64.toFloat
    if n ≤ 308 then
      let f := f * powerOfTen n
      if f.isInf then none else some f
    else if f == 0 then some f else none

def value? (n : Numeral) : Option Json :=
  let (significand, dropped) := gather 0 n.whole
  let sign (f : Float) : Json := float (if n.negative then -f else f)
  if n.fraction.isNone && n.exponent.isNone && dropped.isEmpty then
    if !n.negative then some (int significand)
    else if 0 < significand ∧ significand ≤ 0x8000000000000000 then some (int (-significand))
    -- No signed integer holds the number, or it is the negative zero.
    else some (sign significand.toUInt64.toFloat)
  else
    -- A digit dropped before the point scales the number up, one taken behind it down.
    let fraction := n.fraction.getD []
    let (significand, ignored) := gather significand fraction
    let point : Int := dropped.length - (fraction.length - ignored.length : Nat)
    match n.exponent with
    | none => (scale? significand point).map sign
    | some (negative, ds) =>
      let shift := ds.foldl (fun acc d => acc * 10 + digitValue d) 0
      if negative then (scale? significand (point - shift)).map sign
      else (scale? significand (point + shift)).map sign

end Numeral

/-- Floats with a decimal exponent in this range are written without one. -/
def isPositional (magnitude : Int) : Bool := -5 ≤ magnitude ∧ magnitude ≤ 15

def zeros (n : Nat) : List Char := List.replicate n '0'

/-- The text of a float: always with a point or an exponent, so that it reads back as a float. -/
def floatChars (x : Float) : List Char :=
  let expansion := Decimal.Expansion.ofFloat x
  let digits := (Nat.repr expansion.digits).toList
  let magnitude : Int := expansion.exponent + digits.length - 1
  let sign := if x.toBits ≥ 0x8000000000000000 then ['-'] else []
  let body :=
    if isPositional magnitude then
      if 0 ≤ expansion.exponent then digits ++ zeros expansion.exponent.toNat ++ ['.', '0']
      else if 0 ≤ magnitude then
        digits.take (magnitude.toNat + 1) ++ '.' :: digits.drop (magnitude.toNat + 1)
      else '0' :: '.' :: zeros (-magnitude - 1).toNat ++ digits
    else
      let lead := digits.take 1 ++ if digits.length = 1 then [] else '.' :: digits.drop 1
      let exponentSign := if 0 ≤ magnitude then '+' else '-'
      lead ++ 'e' :: exponentSign :: (Nat.repr magnitude.natAbs).toList
  sign ++ body

end GraphWalk.Json
