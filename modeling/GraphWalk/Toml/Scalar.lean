import GraphWalk.Json.Number

/-!
# Numbers, dates and truth values in TOML

A scalar other than a string is one word without blanks, apart from a date and a time that may
stand one blank apart. Only well-formedness is decided here, down to the ranges: integers fit
64 signed bits, a float must not grow to infinity, and a date must exist.
-/

namespace GraphWalk.Toml

open Json (isDigit digitValue)

/-- One or more digits, with single underscores between them. -/
def isGrouped (digit : Char → Bool) : List Char → Bool
  | [] => false
  | [c] => digit c
  | c :: '_' :: rest => digit c && isGrouped digit rest
  | c :: rest => digit c && isGrouped digit rest

def hexDigitValue (c : Char) : Nat :=
  if isDigit c then digitValue c
  else if 'a' ≤ c ∧ c ≤ 'f' then c.toNat - 'a'.toNat + 10
  else c.toNat - 'A'.toNat + 10

def isHexDigit (c : Char) : Bool := isDigit c || ('a' ≤ c ∧ c ≤ 'f') || ('A' ≤ c ∧ c ≤ 'F')

/-- The number that grouped digits spell in a base. -/
def groupedValue (base : Nat) (cs : List Char) : Nat :=
  (cs.filter (· ≠ '_')).foldl (fun n c => n * base + hexDigitValue c) 0

def dropSign : List Char → Bool × List Char
  | '-' :: rest => (true, rest)
  | '+' :: rest => (false, rest)
  | rest => (false, rest)

/-- Decimal digits without a needless zero in front. -/
def isPlainDecimal (cs : List Char) : Bool :=
  cs = ['0'] || (isGrouped isDigit cs && cs.head? ≠ some '0')

/-- The first integer above those of 64 signed bits. -/
def int64End : Nat := 0x8000000000000000

def isInteger : List Char → Bool
  | '0' :: 'x' :: rest => isGrouped isHexDigit rest && groupedValue 16 rest < int64End
  | '0' :: 'o' :: rest =>
    isGrouped (fun c => '0' ≤ c ∧ c ≤ '7') rest && groupedValue 8 rest < int64End
  | '0' :: 'b' :: rest =>
    isGrouped (fun c => c = '0' ∨ c = '1') rest && groupedValue 2 rest < int64End
  | cs =>
    let (negative, digits) := dropSign cs
    isPlainDecimal digits
      && (if negative then groupedValue 10 digits ≤ int64End else groupedValue 10 digits < int64End)

/-- Whether `digits * 10 ^ exponent` rounds to infinity, as all from `(2 ^ 54 - 1) * 2 ^ 970` on. -/
def overflows (digits : Nat) (exponent : Int) : Bool :=
  let magnitude := (Nat.repr digits).length + exponent
  if digits = 0 ∨ magnitude < 300 then false
  else if 400 < magnitude then true
  else if 0 ≤ exponent then 0x3FFFFFFFFFFFFF <<< 970 ≤ digits * Nat.pow 10 exponent.toNat
  else (0x3FFFFFFFFFFFFF <<< 970) * Nat.pow 10 (-exponent).toNat ≤ digits

/-- A fraction or an exponent, or both, behind a plain decimal. -/
def isFloat (cs : List Char) : Bool :=
  let (negative, rest) := dropSign cs
  let inNumber (c : Char) : Bool := isDigit c || c = '_'
  if rest = "inf".toList ∨ rest = "nan".toList then true
  else
    let whole := rest.takeWhile inNumber
    let rest := rest.dropWhile inNumber
    let (hasFraction, fraction, rest) := match rest with
      | '.' :: rest => (true, rest.takeWhile inNumber, rest.dropWhile inNumber)
      | rest => (false, [], rest)
    let (hasExponent, exponentNegative, exponent, rest) := match rest with
      | 'e' :: rest | 'E' :: rest =>
        let (negative, digits) := dropSign rest
        (true, negative, digits, [])
      | rest => (false, false, [], rest)
    let digits := groupedValue 10 (whole ++ fraction)
    let shift : Int := groupedValue 10 exponent
    let shift := if exponentNegative then -shift else shift
    let point : Int := (fraction.filter (· ≠ '_')).length
    isPlainDecimal whole && rest.isEmpty && (hasFraction || hasExponent)
      && (!hasFraction || isGrouped isDigit fraction)
      && (!hasExponent || isGrouped isDigit exponent)
      && (negative || !overflows digits (shift - point))

/-- The number of two digits, if they are digits. -/
def pair? (a b : Char) : Option Nat :=
  if isDigit a && isDigit b then some (digitValue a * 10 + digitValue b) else none

def daysInMonth (year month : Nat) : Nat :=
  if month = 2 then
    if year % 4 = 0 ∧ (year % 100 ≠ 0 ∨ year % 400 = 0) then 29 else 28
  else if month = 4 ∨ month = 6 ∨ month = 9 ∨ month = 11 then 30
  else 31

/-- Reads a date and gives what follows. -/
def date? : List Char → Option (List Char)
  | a :: b :: c :: d :: '-' :: e :: f :: '-' :: g :: h :: rest => do
    let year := (← pair? a b) * 100 + (← pair? c d)
    let month ← pair? e f
    let day ← pair? g h
    if 1 ≤ month ∧ month ≤ 12 ∧ 1 ≤ day ∧ day ≤ daysInMonth year month then some rest else none
  | _ => none

/-- Reads a time of day and gives what follows; the second 60 is a leap second. -/
def time? : List Char → Option (List Char)
  | a :: b :: ':' :: c :: d :: ':' :: e :: f :: rest => do
    let hour ← pair? a b
    let minute ← pair? c d
    let second ← pair? e f
    if hour ≤ 23 ∧ minute ≤ 59 ∧ second ≤ 60 then
      match rest with
      | '.' :: rest => if rest.head?.any isDigit then some (rest.dropWhile isDigit) else none
      | rest => some rest
    else none
  | _ => none

/-- An offset from universal time, or none at all, to the end of the word. -/
def isOffset : List Char → Bool
  | [] => true
  | ['Z'] | ['z'] => true
  | [sign, a, b, ':', c, d] =>
    (sign = '+' || sign = '-') && (pair? a b).any (· ≤ 23) && (pair? c d).any (· ≤ 59)
  | _ => false

def isTimeWithOffset (cs : List Char) : Bool := (time? cs).any isOffset

def isDateOrTime (cs : List Char) : Bool :=
  match date? cs with
  | some [] => true
  | some (t :: rest) => (t = 'T' || t = 't' || t = ' ') && isTimeWithOffset rest
  | none => time? cs == some []

def isScalar (cs : List Char) : Bool :=
  cs = "true".toList || cs = "false".toList || isDateOrTime cs || isFloat cs || isInteger cs

/-- Characters of which such words consist. -/
def isScalarChar (c : Char) : Bool :=
  isDigit c || ('a' ≤ c ∧ c ≤ 'z') || ('A' ≤ c ∧ c ≤ 'Z') || c = '+' || c = '-' || c = '_'
    || c = '.' || c = ':'

/-- Splits off the word at the front, with the time behind a date and one blank. -/
def scalarWord (cs : List Char) : List Char × List Char :=
  let word := cs.takeWhile isScalarChar
  let rest := cs.dropWhile isScalarChar
  match date? word, rest with
  | some [], ' ' :: c :: more =>
    if isDigit c then
      (word ++ ' ' :: (c :: more).takeWhile isScalarChar, (c :: more).dropWhile isScalarChar)
    else (word, rest)
  | _, _ => (word, rest)

end GraphWalk.Toml
