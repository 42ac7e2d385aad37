/-!
# The grammar of command lines

A command is a group of commands or a leaf that takes a fixed number of words. Options may
stand before and after words; those of the root may stand at every level. A value follows its
option as the next argument, behind an equals sign or, for a one-letter option, directly; a
value that begins with a hyphen needs the equals sign. Everything behind `--` is a word.
-/

namespace GraphWalk.Cli

/-- What a value or a word must be. -/
inductive Kind
  | text
  | path
  | number
  | oneOf (names : List String)
  deriving DecidableEq

/-- How an option is used: on its own, at most once or any number of times, or with a value, at
most once or any number of times. -/
inductive Arity
  | flag
  | counter
  | single (kind : Kind)
  | repeated (kind : Kind)
  deriving DecidableEq

structure OptionSpec where
  name : String
  letter : Option Char
  arity : Arity

inductive Grammar
  | leaf (options : List OptionSpec) (words : List Kind)
  | group (commands : List (String × Grammar))

/-- Whether names lead from one command to another, about which `help` can tell. -/
def Grammar.explains : Grammar → List String → Bool
  | _, [] => true
  | .leaf _ _, _ :: _ => false
  | .group commands, name :: rest =>
    match commands.find? fun c => c.1 = name with
    | some (_, grammar) => grammar.explains rest
    | none => name = "help" && rest.isEmpty

/-- Why a command line is not carried out. -/
inductive Stop
  | badUsage
  | help
  | version
  deriving DecidableEq

/-- Decimal digits, with an optional plus sign, of a number below `2 ^ 64`. -/
def readCount? (word : String) : Option Nat :=
  let digits := match word.toList with
    | '+' :: rest => rest
    | cs => cs
  if digits.isEmpty || !digits.all Char.isDigit then none
  else
    let n := digits.foldl (fun n c => n * 10 + (c.toNat - '0'.toNat)) 0
    if n < 0x10000000000000000 then some n else none

def Kind.accepts : Kind → String → Bool
  | text, _ => true
  | path, word => !word.isEmpty
  | number, word => (readCount? word).isSome
  | oneOf names, word => names.contains word

/-- The options of the root, which every command takes. -/
def rootOptions : List OptionSpec :=
  [⟨"graph", some 'g', .single .text⟩, ⟨"data-dir", some 'd', .single .text⟩,
    ⟨"format", some 'f', .single .text⟩, ⟨"verbose", some 'v', .counter⟩,
    ⟨"quiet", some 'q', .flag⟩]

/-- A command line read so far. `level` holds the options used since the last command name,
newest first, and `outer` those before; an option without value has the empty text. -/
structure Scan where
  grammar : Grammar
  commands : List String
  level : List (String × String)
  outer : List (String × String)
  words : List String
  onlyWords : Bool

namespace Scan

def start (grammar : Grammar) : Scan := ⟨grammar, [], [], [], [], false⟩

def options (s : Scan) : List OptionSpec :=
  match s.grammar with
  | .leaf options _ => options ++ rootOptions
  | .group _ => rootOptions

/-- Notes an option; one that is not repeatable may stand once at each level. -/
def note (s : Scan) (o : OptionSpec) (value : String) : Except Stop Scan :=
  let noted : Scan := { s with level := (o.name, value) :: s.level }
  let once : Except Stop Scan :=
    if s.level.any (·.1 = o.name) then .error .badUsage else .ok noted
  match o.arity with
  | .flag => once
  | .counter => .ok noted
  | .single kind => if kind.accepts value then once else .error .badUsage
  | .repeated kind => if kind.accepts value then .ok noted else .error .badUsage

def takesValue (o : OptionSpec) : Bool :=
  match o.arity with
  | .flag | .counter => false
  | .single _ | .repeated _ => true

/-- A word: the name of a command in a group, the next word of a leaf. -/
def word (s : Scan) (w : String) : Except Stop Scan :=
  match s.grammar with
  | .group commands =>
    match commands.find? fun c => c.1 = w with
    | some (name, grammar) =>
      -- Behind `--` no word names a command.
      if s.onlyWords then .error .badUsage
      else .ok ⟨grammar, s.commands ++ [name], [], s.level ++ s.outer, [], false⟩
    | none => .error .badUsage
  | .leaf _ kinds =>
    match kinds[s.words.length]? with
    | some kind =>
      if kind.accepts w then .ok { s with words := s.words ++ [w] } else .error .badUsage
    | none => .error .badUsage

/-- An argument read: the scan after it, and an option whose value must follow. -/
abbrev Result := Except Stop (Scan × Option OptionSpec)

/-- `name` or `name=value` behind two hyphens. -/
def long (s : Scan) (body : List Char) : Result :=
  let name := String.ofList (body.takeWhile (· ≠ '='))
  let value := match body.dropWhile (· ≠ '=') with
    | _ :: value => some (String.ofList value)
    | [] => none
  if name = "help" ∧ value.isNone then .error .help
  else if name = "version" ∧ value.isNone ∧ s.commands.isEmpty then .error .version
  else
    match s.options.find? fun o => o.name = name, value with
    | none, _ => .error .badUsage
    | some o, some value =>
      if takesValue o then (s.note o value).map (·, none) else .error .badUsage
    | some o, none =>
      if takesValue o then .ok (s, some o) else (s.note o "").map (·, none)

/-- Letters behind one hyphen; the first that takes a value takes the rest for it. -/
def letters (s : Scan) : List Char → Result
  | [] => .ok (s, none)
  | c :: rest =>
    match s.options.find? fun o => o.letter = some c with
    | none =>
      if c = 'h' then .error .help
      else if c = 'V' ∧ s.commands.isEmpty then .error .version
      else .error .badUsage
    | some o =>
      if takesValue o then
        match rest with
        | [] => .ok (s, some o)
        | '=' :: value => (s.note o (String.ofList value)).map (·, none)
        | value => (s.note o (String.ofList value)).map (·, none)
      else
        match s.note o "" with
        | .ok s => letters s rest
        | .error stop => .error stop

def argument (s : Scan) (a : String) : Result :=
  if s.onlyWords then (s.word a).map (·, none)
  else
    match a.toList with
    | ['-', '-'] => .ok ({ s with onlyWords := true }, none)
    | '-' :: '-' :: body => s.long body
    | '-' :: c :: rest => s.letters (c :: rest)
    | _ => (s.word a).map (·, none)

def looksLikeOption (a : String) : Bool := a.toList.head? = some '-' && a ≠ "-"

/-- In a group the word `help` turns the words behind it into names of commands. -/
def asksHelp (s : Scan) (a : String) : Bool :=
  match s.grammar with
  | .group _ => a = "help" && !s.onlyWords
  | .leaf _ _ => false

def arguments (s : Scan) : List String → Except Stop Scan
  | [] => .ok s
  | a :: rest =>
    if s.asksHelp a then .error (if s.grammar.explains rest then .help else .badUsage)
    else match s.argument a with
    | .error stop => .error stop
    | .ok (s, none) => arguments s rest
    | .ok (s, some o) =>
      match rest with
      | [] => .error .badUsage
      | value :: rest =>
        if looksLikeOption value then .error .badUsage
        else
          match s.note o value with
          | .ok s => arguments s rest
          | .error stop => .error stop

/-- Every word of the command must be there. -/
def finish (s : Scan) : Except Stop Scan :=
  match s.grammar with
  | .leaf _ kinds => if s.words.length = kinds.length then .ok s else .error .badUsage
  | .group _ => .error .badUsage

/-- The value of an option at the innermost level that gives one. -/
def value? (s : Scan) (name : String) : Option String :=
  ((s.level ++ s.outer).find? fun e => e.1 = name).map (·.2)

def has (s : Scan) (name : String) : Bool := (s.value? name).isSome

/-- All values of a repeatable option, in order. -/
def values (s : Scan) (name : String) : List String :=
  ((s.level.filter fun e => e.1 = name).map (·.2)).reverse

end Scan

def Grammar.read (g : Grammar) (args : List String) : Except Stop Scan := do
  (← (Scan.start g).arguments args).finish

end GraphWalk.Cli
