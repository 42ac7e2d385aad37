import GraphWalk.Json.Quoted

/-!
# Strings in TOML

Four kinds of string are read: basic ones with escapes and literal ones without, each on one
line or, between threefold marks, on several. Writing chooses the first of these that holds the
text unescaped, and escapes only a text that none of them can hold.
-/

namespace GraphWalk.Toml

/-- Every character but the controls; the tab is not counted among these. -/
def isPrintable (c : Char) : Bool := c = '\t' || (0x20 ≤ c.toNat && c.toNat ≠ 0x7F)

/-- The character of a scalar value given in hexadecimal digits. -/
def scalar? (digits : List Char) : Option Char := do
  let n ← digits.foldlM (fun n c => (Json.Quoted.hexValue? c).map (n * 16 + ·)) 0
  if h : n.isValidChar then some (Char.ofNatAux n h) else none

def escape? : Char → Option Char
  | '"' => some '"'
  | '\\' => some '\\'
  | 'b' => some '\x08'
  | 'f' => some '\x0c'
  | 'n' => some '\n'
  | 'r' => some '\r'
  | 't' => some '\t'
  | _ => none

/-- Reads up to the closing mark and gives what follows. -/
def basic? : List Char → Option (List Char × List Char)
  | [] => none
  | '"' :: rest => some ([], rest)
  | '\\' :: 'u' :: a :: b :: c :: d :: rest => do
    let ch ← scalar? [a, b, c, d]
    let (s, rest) ← basic? rest
    return (ch :: s, rest)
  | '\\' :: 'U' :: a :: b :: c :: d :: e :: f :: g :: h :: rest => do
    let ch ← scalar? [a, b, c, d, e, f, g, h]
    let (s, rest) ← basic? rest
    return (ch :: s, rest)
  | '\\' :: e :: rest => do
    let ch ← escape? e
    let (s, rest) ← basic? rest
    return (ch :: s, rest)
  | c :: rest =>
    if c ≠ '\\' && isPrintable c then do
      let (s, rest) ← basic? rest
      return (c :: s, rest)
    else none

def literal? : List Char → Option (List Char × List Char)
  | [] => none
  | '\'' :: rest => some ([], rest)
  | c :: rest =>
    if isPrintable c then do
      let (s, rest) ← literal? rest
      return (c :: s, rest)
    else none

/-- Whether a line ends here, but for blanks. -/
def endsLine (cs : List Char) : Bool :=
  match cs.dropWhile fun c => c = ' ' ∨ c = '\t' with
  | '\n' :: _ => true
  | '\r' :: '\n' :: _ => true
  | _ => false

/-- Up to five closing marks: the last three close, those before belong to the text. While
`skipping`, blanks and line ends are passed over, as they are behind a backslash that ends its
line. -/
def longBasic? (skipping : Bool) : List Char → Option (List Char × List Char)
  | [] => none
  | '"' :: '"' :: '"' :: '"' :: '"' :: rest => some (['"', '"'], rest)
  | '"' :: '"' :: '"' :: '"' :: rest => some (['"'], rest)
  | '"' :: '"' :: '"' :: rest => some ([], rest)
  | '\r' :: '\n' :: rest => do
    let (s, rest) ← longBasic? skipping rest
    return (if skipping then s else '\n' :: s, rest)
  | '\\' :: 'u' :: a :: b :: c :: d :: rest => do
    let ch ← scalar? [a, b, c, d]
    let (s, rest) ← longBasic? false rest
    return (ch :: s, rest)
  | '\\' :: 'U' :: a :: b :: c :: d :: e :: f :: g :: h :: rest => do
    let ch ← scalar? [a, b, c, d, e, f, g, h]
    let (s, rest) ← longBasic? false rest
    return (ch :: s, rest)
  | '\\' :: e :: rest =>
    -- A backslash at the end of a line joins it to the next text.
    if endsLine (e :: rest) then longBasic? true rest
    else do
      let ch ← escape? e
      let (s, rest) ← longBasic? false rest
      return (ch :: s, rest)
  | c :: rest =>
    if skipping && (c = ' ' || c = '\t' || c = '\n') then longBasic? true rest
    else if c = '\n' || (c ≠ '\\' && isPrintable c) then do
      let (s, rest) ← longBasic? false rest
      return (c :: s, rest)
    else none

def longLiteral? : List Char → Option (List Char × List Char)
  | [] => none
  | '\'' :: '\'' :: '\'' :: '\'' :: '\'' :: rest => some (['\'', '\''], rest)
  | '\'' :: '\'' :: '\'' :: '\'' :: rest => some (['\''], rest)
  | '\'' :: '\'' :: '\'' :: rest => some ([], rest)
  | '\r' :: '\n' :: rest => do
    let (s, rest) ← longLiteral? rest
    return ('\n' :: s, rest)
  | c :: rest =>
    if c = '\n' || isPrintable c then do
      let (s, rest) ← longLiteral? rest
      return (c :: s, rest)
    else none

/-- A line end directly behind the opening marks does not count. -/
def dropNewline : List Char → List Char
  | '\n' :: rest => rest
  | '\r' :: '\n' :: rest => rest
  | cs => cs

/-- Reads a string of any kind. -/
def string? : List Char → Option (String × List Char)
  | '"' :: '"' :: '"' :: rest => read (longBasic? false (dropNewline rest))
  | '"' :: rest => read (basic? rest)
  | '\'' :: '\'' :: '\'' :: rest => read (longLiteral? (dropNewline rest))
  | '\'' :: rest => read (literal? rest)
  | _ => none
where
  read (r : Option (List Char × List Char)) : Option (String × List Char) :=
    r.map fun (s, rest) => (String.ofList s, rest)

/-- The length of the longest run of a character. -/
def longestRun (c : Char) (cs : List Char) : Nat :=
  (cs.foldl (fun (longest, run) d =>
    let run : Nat := if d = c then run + 1 else 0
    (max longest run, run)) ((0, 0) : Nat × Nat)).1

/-- Escapes a text between quotation marks. In a text of several lines line ends stand as they
are, and so do two quotation marks in a row but no third. -/
def escaped (long : Bool) (cs : List Char) : List Char :=
  (cs.foldl (fun (out, run) c =>
    let allowed : Nat := if long then 2 else 0
    let keep : List Char × Nat := (c :: out, if c = '"' then run + 1 else 0)
    let escape (e : List Char) : List Char × Nat := (e.reverse ++ out, 0)
    if c = '"' then if run < allowed then keep else escape ['\\', '"']
    else if c = '\\' then escape ['\\', '\\']
    else if c = '\x08' then escape ['\\', 'b']
    else if c = '\t' then escape ['\\', 't']
    else if c = '\n' then if long then keep else escape ['\\', 'n']
    else if c = '\x0c' then escape ['\\', 'f']
    else if c = '\r' then escape ['\\', 'r']
    else if isPrintable c then keep
    else escape ['\\', 'u', '0', '0', Json.Quoted.hexDigit (c.toNat / 16),
      (Json.Quoted.hexDigit (c.toNat % 16)).toUpper]) (([], 0) : List Char × Nat)).1.reverse

/-- Writes a string in the first of the four kinds that needs no escapes. -/
def writeString (s : String) : String :=
  let cs := s.toList
  let controls := cs.any fun c => c ≠ '\n' && !isPrintable c
  let backslash := '\\' ∈ cs
  let newline := '\n' ∈ cs
  let start : List Char := if newline then ['\n'] else []
  let between (mark body : List Char) : String := String.ofList (mark ++ body ++ mark)
  if !controls && !backslash && longestRun '"' cs = 0 && !newline then
    between ['"'] (escaped false cs)
  else if !controls && longestRun '\'' cs = 0 && !newline then between ['\''] cs
  else if !controls && !backslash && longestRun '"' cs ≤ 2 then
    between ['"', '"', '"'] (start ++ escaped true cs)
  else if !controls && longestRun '\'' cs ≤ 2 then between ['\'', '\'', '\''] (start ++ cs)
  else if newline then between ['"', '"', '"'] (start ++ escaped true cs)
  else between ['"'] (escaped false cs)

end GraphWalk.Toml
