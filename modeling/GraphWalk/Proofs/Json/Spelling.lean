import GraphWalk.Json.Printer
import GraphWalk.Json.Reader
import GraphWalk.Proofs.Json.Float
import GraphWalk.Proofs.Json.Quoted

/-!
# The tokens of a written value

`Token.ofChars?_compactChars`: scanning the compact text of a value gives the tokens that mirror
its shape. A word is only finished by what comes behind it, so scans are
compared after `settle`.
-/

namespace GraphWalk.Json

mutual

def tokens : Json → List Token
  | arr items => .mark '[' :: itemTokens items ++ [.mark ']']
  | obj fields => .mark '\x7b' :: fieldTokens fields ++ [.mark '\x7d']
  | str s => [.quoted (Quoted.encode s.toList)]
  | v => [.word (scalarChars v)]

def itemTokens : List Json → List Token
  | [] => []
  | [v] => tokens v
  | v :: rest => tokens v ++ .mark ',' :: itemTokens rest

def fieldTokens : List (String × Json) → List Token
  | [] => []
  | [(k, v)] => .quoted (Quoted.encode k.toList) :: .mark ':' :: tokens v
  | (k, v) :: rest =>
    .quoted (Quoted.encode k.toList) :: .mark ':' :: tokens v ++ .mark ',' :: fieldTokens rest

end

namespace Token.Scan

variable {ts : List Token}

/-- A scan with its word finished. -/
def settle : Scan → Scan
  | ⟨.word cs, ts⟩ => ⟨.gap, .word cs.reverse :: ts⟩
  | s => s

theorem step_mark {s : Scan} {c : Char} (hs : s.settle = ⟨.gap, ts⟩) (hc : isMark c) :
    s.step c = ⟨.gap, .mark c :: ts⟩ := by
  have hblank : isBlank c = false := by
    refine Decidable.byContradiction fun hblank => ?_
    simp only [isBlank, Bool.not_eq_false, decide_eq_true_eq] at hblank
    rcases hblank with rfl | rfl | rfl | rfl <;> exact absurd hc (by decide)
  rcases s with ⟨_ | cs | cs | cs, us⟩
  · simp_all [settle, step, begin]
  · simp_all [settle, step, begin]
  · cases hs
  · cases hs

/-- Scanned between two tokens, the characters come to the tokens. -/
def Spells (cs : List Char) (tokens : List Token) : Prop :=
  ∀ ts, (cs.foldl step ⟨.gap, ts⟩).settle = ⟨.gap, tokens.reverse ++ ts⟩

theorem spells_nil : Spells [] [] := fun _ => rfl

theorem Spells.mark {cs ds : List Char} {tokens later : List Token} (h : Spells cs tokens)
    (hlater : Spells ds later) {c : Char} (hc : isMark c) :
    Spells (cs ++ c :: ds) (tokens ++ .mark c :: later) := by
  intro ts
  rw [List.foldl_append, List.foldl_cons, step_mark (h ts) hc, hlater]
  simp

theorem Spells.ofChars? {cs : List Char} {tokens : List Token} (h : Spells cs tokens) :
    Token.ofChars? cs = some tokens := by
  have hsettled : (cs.foldl step start).settle = ⟨.gap, tokens.reverse⟩ :=
    (h []).trans (by rw [List.append_nil])
  rw [Token.ofChars?]
  generalize cs.foldl step start = s at hsettled
  rcases s with ⟨_ | cs | cs | cs, us⟩
  · simp_all [settle, finish?]
  · simp_all [settle, finish?]
  · cases hsettled
  · cases hsettled

-- ---------------------------------------------------------------------------
-- Words
-- ---------------------------------------------------------------------------

/-- Whether a character goes on with a word. -/
def goesOn (c : Char) : Bool := !(isBlank c || isMark c || c = '"')

theorem goesOn_digit {c : Char} (h : isDigit c) : goesOn c := by
  refine Decidable.byContradiction fun hstops => ?_
  simp only [goesOn, isBlank, isMark, Bool.not_eq_true, Bool.not_eq_false', Bool.or_eq_true,
    decide_eq_true_eq] at hstops
  rcases hstops with ((rfl | rfl | rfl | rfl) | (rfl | rfl | rfl | rfl | rfl | rfl)) | rfl <;>
    exact absurd h (by decide)

theorem foldl_word {cs ds : List Char} (h : ∀ c ∈ cs, goesOn c) :
    cs.foldl step ⟨.word ds, ts⟩ = ⟨.word (cs.reverse ++ ds), ts⟩ := by
  induction cs generalizing ds with
  | nil => rfl
  | cons c cs ih =>
    have hc : (isBlank c || isMark c || c = '"') = false := by
      simpa [goesOn] using h c List.mem_cons_self
    rw [List.foldl_cons, step, if_neg (by simpa using hc),
      ih fun c' hc' => h c' (List.mem_cons_of_mem c hc')]
    simp

theorem spells_word {cs : List Char} (hne : cs ≠ []) (hall : cs.all goesOn) :
    Spells cs [.word cs] := by
  intro ts
  have h : ∀ c ∈ cs, goesOn c := List.all_eq_true.mp hall
  cases cs with
  | nil => exact absurd rfl hne
  | cons c cs =>
    have hc := h c List.mem_cons_self
    simp only [goesOn, Bool.not_eq_true', Bool.or_eq_false_iff, decide_eq_false_iff_not] at hc
    obtain ⟨⟨hblank, hmark⟩, hquote⟩ := hc
    rw [List.foldl_cons, step, begin, hblank, hmark, if_neg (by decide), if_neg (by decide),
      if_neg hquote, foldl_word fun c' hc' => h c' (List.mem_cons_of_mem c hc')]
    simp [settle]

-- ---------------------------------------------------------------------------
-- Strings
-- ---------------------------------------------------------------------------

theorem foldl_encodeChar (c : Char) (cs : List Char) :
    (Quoted.encodeChar c).foldl step ⟨.quoted cs, ts⟩ =
      ⟨.quoted ((Quoted.encodeChar c).reverse ++ cs), ts⟩ := by
  rcases Quoted.encodeChar_cases c with ⟨e, -, -, henc⟩ | ⟨hlt, henc⟩ | ⟨hquote, hslash, -, henc⟩
  · rw [henc]
    rfl
  · have hhex : ∀ n < 16, Quoted.hexDigit n ≠ '"' ∧ Quoted.hexDigit n ≠ '\\' := by decide
    have hhigh := hhex (c.toNat / 16) (by omega)
    have hlow := hhex (c.toNat % 16) (by omega)
    rw [henc]
    simp [step, hhigh, hlow]
  · rw [henc]
    simp [step, hquote, hslash]

theorem foldl_encode (s cs : List Char) :
    (Quoted.encode s).foldl step ⟨.quoted cs, ts⟩ =
      ⟨.quoted ((Quoted.encode s).reverse ++ cs), ts⟩ := by
  induction s generalizing cs with
  | nil => rfl
  | cons c s ih =>
    have hcons : Quoted.encode (c :: s) = Quoted.encodeChar c ++ Quoted.encode s := rfl
    rw [hcons, List.foldl_append, foldl_encodeChar, ih]
    simp

theorem spells_quoted (s : String) :
    Spells (Json.quoted s) [.quoted (Quoted.encode s.toList)] := by
  intro ts
  have hopen : step ⟨.gap, ts⟩ '"' = ⟨.quoted [], ts⟩ := rfl
  rw [Json.quoted, List.cons_append, List.foldl_cons, hopen, List.foldl_append, foldl_encode]
  simp [step, settle]

-- ---------------------------------------------------------------------------
-- Values
-- ---------------------------------------------------------------------------

theorem spells_numeral {n : Numeral} (h : n.Proper) : Spells n.chars [.word n.chars] := by
  refine spells_word (Numeral.chars_ne_nil h) (List.all_eq_true.mpr fun c hc => ?_)
  rcases Numeral.mem_chars h hc with hdigit | hother
  · exact goesOn_digit hdigit
  · simp only [List.mem_cons, List.not_mem_nil, or_false] at hother
    rcases hother with rfl | rfl | rfl | rfl <;> rfl

theorem spells_int (n : Int) : Spells (Int.repr n).toList [.word (Int.repr n).toList] := by
  simpa only [Numeral.chars_ofInt] using spells_numeral (Numeral.proper_ofInt n)

theorem spells_float (x : Float) : Spells (floatChars x) [.word (floatChars x)] := by
  simpa only [Numeral.chars_ofFloat] using spells_numeral (Numeral.proper_ofFloat x)

theorem spells_scalar {v : Json} (hscalar : v.isScalar) : Spells v.compactChars v.tokens := by
  cases v with
  | null => exact spells_word (by decide) (by decide)
  | bool b => cases b <;> exact spells_word (by decide) (by decide)
  | int n => exact spells_int n
  | float x => exact spells_float x
  | str s => exact spells_quoted s
  | arr items => cases hscalar
  | obj fields => cases hscalar

theorem spells_items {items : List Json} (h : ∀ v ∈ items, Spells v.compactChars v.tokens) :
    Spells (compactItems items) (itemTokens items) := by
  induction items with
  | nil => exact spells_nil
  | cons v rest ih =>
    obtain ⟨hv, hrest⟩ := List.forall_mem_cons.mp h
    cases rest with
    | nil => exact hv
    | cons w rest => exact hv.mark (ih hrest) rfl

theorem spells_fields {fields : List (String × Json)}
    (h : ∀ e ∈ fields, Spells e.2.compactChars e.2.tokens) :
    Spells (compactFields fields) (fieldTokens fields) := by
  induction fields with
  | nil => exact spells_nil
  | cons e rest ih =>
    obtain ⟨hv, hrest⟩ := List.forall_mem_cons.mp h
    cases rest with
    | nil => exact (spells_quoted e.1).mark hv rfl
    | cons e' rest =>
      have hlater := hv.mark (ih hrest) (c := ',') rfl
      have hall := (spells_quoted e.1).mark hlater (c := ':') rfl
      simpa [compactFields, fieldTokens] using hall

theorem spells_value (v : Json) : Spells v.compactChars v.tokens := by
  induction v using Json.induction with
  | scalar v hscalar => exact spells_scalar hscalar
  | arr items ih =>
    have hitems := spells_items ih
    exact spells_nil.mark (hitems.mark spells_nil (c := ']') rfl) (c := '[') rfl
  | obj fields ih =>
    have hfields := spells_fields ih
    exact spells_nil.mark (hfields.mark spells_nil (c := '\x7d') rfl) (c := '\x7b') rfl

end Token.Scan

theorem Token.ofChars?_compactChars (v : Json) : Token.ofChars? v.compactChars = some v.tokens :=
  (Scan.spells_value v).ofChars?

end GraphWalk.Json
