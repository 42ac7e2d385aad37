import GraphWalk.Json.Reader
import GraphWalk.Proofs.Json.Spelling

/-!
# Brackets in a text that is read

`Token.Reads` follows a scan character by character, and `Builder.Deep.step` says what every token
does to the number of open arrays and objects when it is accepted: opening marks add to it, closing
ones take from it, nothing follows the end, and no word that is accepted has a parenthesis in it.
-/

namespace GraphWalk.Json

-- ---------------------------------------------------------------------------
-- Characters
-- ---------------------------------------------------------------------------

namespace Token

/-- From a mode on, the characters come to the tokens. -/
inductive Reads : Mode → List Char → List Token → Prop
  | nil : Reads .gap [] []
  | blank {c : Char} {cs : List Char} {ts : List Token} (hc : isBlank c) (h : Reads .gap cs ts) :
    Reads .gap (c :: cs) ts
  | mark {c : Char} {cs : List Char} {ts : List Token} (hc : isMark c) (h : Reads .gap cs ts) :
    Reads .gap (c :: cs) (.mark c :: ts)
  | quote {cs : List Char} {ts : List Token} (h : Reads (.quoted []) cs ts) :
    Reads .gap ('"' :: cs) ts
  | begin {c : Char} {cs : List Char} {ts : List Token} (hc : Scan.goesOn c)
    (h : Reads (.word [c]) cs ts) : Reads .gap (c :: cs) ts
  | go {w : List Char} {c : Char} {cs : List Char} {ts : List Token} (hc : Scan.goesOn c)
    (h : Reads (.word (c :: w)) cs ts) : Reads (.word w) (c :: cs) ts
  | stop {w : List Char} {cs : List Char} {ts : List Token} (h : Reads .gap cs ts) :
    Reads (.word w) cs (.word w.reverse :: ts)
  | unquote {q : List Char} {cs : List Char} {ts : List Token} (h : Reads .gap cs ts) :
    Reads (.quoted q) ('"' :: cs) (.quoted q.reverse :: ts)
  | escape {q : List Char} {cs : List Char} {ts : List Token}
    (h : Reads (.escaped ('\\' :: q)) cs ts) : Reads (.quoted q) ('\\' :: cs) ts
  | plain {q : List Char} {c : Char} {cs : List Char} {ts : List Token} (hquote : c ≠ '"')
    (hslash : c ≠ '\\') (h : Reads (.quoted (c :: q)) cs ts) : Reads (.quoted q) (c :: cs) ts
  | escaped {q : List Char} {c : Char} {cs : List Char} {ts : List Token}
    (h : Reads (.quoted (c :: q)) cs ts) : Reads (.escaped q) (c :: cs) ts

theorem begin_cases (us : List Token) (c : Char) :
    isBlank c ∧ Scan.begin us c = ⟨.gap, us⟩ ∨ isMark c ∧ Scan.begin us c = ⟨.gap, .mark c :: us⟩ ∨
      c = '"' ∧ Scan.begin us c = ⟨.quoted [], us⟩ ∨
      Scan.goesOn c ∧ Scan.begin us c = ⟨.word [c], us⟩ := by
  unfold Scan.begin
  split
  next hblank => exact .inl ⟨hblank, rfl⟩
  next hblank =>
    split
    next hmark => exact .inr (.inl ⟨hmark, rfl⟩)
    next hmark =>
      split
      next hquote => exact .inr (.inr (.inl ⟨hquote, rfl⟩))
      next hquote => exact .inr (.inr (.inr ⟨by simp_all [Scan.goesOn], rfl⟩))

/-- A scan that is finished some time reads what is left of it. -/
theorem reads_of_finish? {m : Mode} {us all : List Token} {cs : List Char}
    (h : (cs.foldl Scan.step ⟨m, us⟩).finish? = some all) :
    ∃ ts, all = us.reverse ++ ts ∧ Reads m cs ts := by
  induction cs generalizing m us with
  | nil =>
    cases m with
    | gap => exact ⟨[], by simpa [Scan.finish?] using h.symm, .nil⟩
    | word w => exact ⟨[.word w.reverse], by simpa [Scan.finish?] using h.symm, .stop .nil⟩
    | quoted q => cases h
    | escaped q => cases h
  | cons c cs ih =>
    have hbegin : ∀ us, (cs.foldl Scan.step (Scan.begin us c)).finish? = some all →
        ∃ ts, all = us.reverse ++ ts ∧ Reads .gap (c :: cs) ts := by
      intro us h
      rcases begin_cases us c with ⟨hc, heq⟩ | ⟨hc, heq⟩ | ⟨rfl, heq⟩ | ⟨hc, heq⟩ <;>
        rw [heq] at h <;> obtain ⟨ts, hall, hreads⟩ := ih h
      · exact ⟨ts, hall, .blank hc hreads⟩
      · exact ⟨.mark c :: ts, by simpa using hall, .mark hc hreads⟩
      · exact ⟨ts, hall, .quote hreads⟩
      · exact ⟨ts, hall, .begin hc hreads⟩
    rw [List.foldl_cons] at h
    cases m with
    | gap => exact hbegin us h
    | word w =>
      by_cases hc : Scan.goesOn c
      · have hstep : Scan.step ⟨.word w, us⟩ c = ⟨.word (c :: w), us⟩ :=
          if_neg (by rwa [Scan.goesOn, Bool.not_eq_true', ← Bool.not_eq_true] at hc)
        obtain ⟨ts, hall, hreads⟩ := ih (hstep ▸ h)
        exact ⟨ts, hall, .go hc hreads⟩
      · have hstep : Scan.step ⟨.word w, us⟩ c = Scan.begin (.word w.reverse :: us) c :=
          if_pos (by rwa [Scan.goesOn, Bool.not_eq_true', Bool.not_eq_false] at hc)
        obtain ⟨ts, hall, hreads⟩ := hbegin _ (hstep ▸ h)
        exact ⟨.word w.reverse :: ts, by simpa using hall, .stop hreads⟩
    | quoted q =>
      by_cases hquote : c = '"'
      · subst hquote
        have hclosed : (cs.foldl Scan.step ⟨.gap, .quoted q.reverse :: us⟩).finish? = some all := h
        obtain ⟨ts, hall, hreads⟩ := ih hclosed
        exact ⟨.quoted q.reverse :: ts, by simpa using hall, .unquote hreads⟩
      · by_cases hslash : c = '\\'
        · subst hslash
          obtain ⟨ts, hall, hreads⟩ := ih h
          exact ⟨ts, hall, .escape hreads⟩
        · have hstep : Scan.step ⟨.quoted q, us⟩ c = ⟨.quoted (c :: q), us⟩ := by
            simp [Scan.step, hquote, hslash]
          obtain ⟨ts, hall, hreads⟩ := ih (hstep ▸ h)
          exact ⟨ts, hall, .plain hquote hslash hreads⟩
    | escaped q =>
      obtain ⟨ts, hall, hreads⟩ := ih h
      exact ⟨ts, hall, .escaped hreads⟩

end Token

-- ---------------------------------------------------------------------------
-- Words
-- ---------------------------------------------------------------------------

namespace Numeral

variable {cs ds rest : List Char}

theorem digits?_split (h : digits? cs = some (ds, rest)) :
    cs = ds ++ rest ∧ ∀ c ∈ ds, isDigit c := by
  unfold digits? at h
  split at h
  · cases h
  · cases h
    exact ⟨(List.takeWhile_append_dropWhile).symm, fun c hc => List.mem_takeWhile_imp hc⟩

/-- What a numeral is written with. -/
def spelled (c : Char) : Bool := isDigit c || c ∈ ['-', '+', '.', 'e', 'E']

theorem spelled_digits?  (h : digits? cs = some (ds, rest)) (hrest : ∀ c ∈ rest, spelled c) :
    ∀ c ∈ cs, spelled c := by
  obtain ⟨rfl, hdigits⟩ := digits?_split h
  intro c hc
  rcases List.mem_append.mp hc with hc | hc
  · simp [spelled, hdigits c hc]
  · exact hrest c hc

theorem spelled_fraction? {fraction : Option (List Char)}
    (h : fraction? cs = some (fraction, rest)) (hrest : ∀ c ∈ rest, spelled c) :
    ∀ c ∈ cs, spelled c := by
  unfold fraction? at h
  split at h
  next cs =>
    obtain ⟨⟨ds, rest'⟩, hdigits, heq⟩ := Option.map_eq_some_iff.mp h
    cases heq
    exact List.forall_mem_cons.mpr ⟨rfl, spelled_digits? hdigits hrest⟩
  next => cases h; exact hrest

theorem spelled_exponent? {exponent : Option (Bool × List Char)}
    (h : exponent? cs = some exponent) : ∀ c ∈ cs, spelled c := by
  fun_cases exponent? cs with
  | case1 => nofun
  | case2 e rest he => simp [exponent?, he] at h
  | case3 e rest he negative unsigned hsign ds hdigits =>
    have hletter : spelled e := by
      by_cases hlower : e = 'e'
      · exact hlower ▸ rfl
      · have hupper : e = 'E' := Decidable.not_not.mp fun hupper => he ⟨hlower, hupper⟩
        exact hupper ▸ rfl
    have hunsigned : ∀ c ∈ unsigned, spelled c := spelled_digits? hdigits (by simp)
    refine List.forall_mem_cons.mpr ⟨hletter, ?_⟩
    split at hsign <;> cases hsign
    · exact List.forall_mem_cons.mpr ⟨rfl, hunsigned⟩
    · exact List.forall_mem_cons.mpr ⟨rfl, hunsigned⟩
    · exact hunsigned
  | case4 e rest he negative unsigned hsign hdigits =>
    simp only [exponent?, if_neg he, hsign] at h
    cases h

/-- A word that is read as a numeral has digits, signs, a point and the letter of an exponent. -/
theorem spelled_ofChars? {n : Numeral} (h : ofChars? cs = some n) : ∀ c ∈ cs, spelled c := by
  unfold ofChars? at h
  split at h
  next negative unsigned hsign =>
    have hunsigned : ∀ c ∈ unsigned, spelled c := by
      obtain ⟨⟨whole, afterWhole⟩, hwhole, h⟩ := Option.bind_eq_some_iff.mp h
      dsimp only at h
      split at h
      · cases h
      · obtain ⟨⟨fraction, afterFraction⟩, hfraction, h⟩ := Option.bind_eq_some_iff.mp h
        obtain ⟨exponent, hexponent, -⟩ := Option.bind_eq_some_iff.mp h
        exact spelled_digits? hwhole (spelled_fraction? hfraction (spelled_exponent? hexponent))
    split at hsign <;> cases hsign
    · exact List.forall_mem_cons.mpr ⟨rfl, hunsigned⟩
    · exact hunsigned

end Numeral

-- ---------------------------------------------------------------------------
-- Tokens
-- ---------------------------------------------------------------------------

/-- What a token that is accepted does to the number of open arrays and objects. -/
inductive Token.Moves : Token → Nat → Nat → Prop
  | opening {c : Char} {n : Nat} (hc : c ∈ ['[', '\x7b']) : Moves (.mark c) n (n + 1)
  | closing {c : Char} {n : Nat} (hc : c ∈ [']', '\x7d']) : Moves (.mark c) (n + 1) n
  | between {c : Char} {n : Nat} (hc : c ∈ [',', ':']) : Moves (.mark c) n n
  | quoted {cs : List Char} {n : Nat} : Moves (.quoted cs) n n
  | word {cs : List Char} {n : Nat} (hcs : ∀ c ∈ cs, c ≠ '(' ∧ c ≠ ')') : Moves (.word cs) n n

theorem Token.Moves.of_quoted {cs : List Char} {n n' : Nat} (h : (Token.quoted cs).Moves n n') :
    n' = n := by
  cases h
  rfl

theorem Token.Moves.of_word {cs : List Char} {n n' : Nat} (h : (Token.word cs).Moves n n') :
    n' = n ∧ ∀ c ∈ cs, c ≠ '(' ∧ c ≠ ')' := by
  cases h with
  | word hcs => exact ⟨rfl, hcs⟩

namespace Document

namespace Builder

variable {b b' : Builder} {d : Document} {stack : List Frame} {t : Token} {cs : List Char}

theorem no_parenthesis_word (h : word? cs = some d) : ∀ c ∈ cs, c ≠ '(' ∧ c ≠ ')' := by
  unfold word? at h
  split at h
  next heq => simp [heq]
  next =>
    split at h
    next heq => simp [heq]
    next =>
      split at h
      next heq => simp [heq]
      next =>
        obtain ⟨n, hn, -⟩ := Option.map_eq_some_iff.mp h
        intro c hc
        have hspelled := Numeral.spelled_ofChars? hn c hc
        constructor <;> rintro rfl <;> exact absurd hspelled (by decide)

/-- Nothing is open just when the document is complete. -/
def Settled (b : Builder) : Prop := b.stack = [] ↔ ∃ d, b.expected = .finish d

theorem settled_accept (h : accept d stack = some b) :
    b.Settled ∧ b.stack.length = stack.length := by
  cases stack with
  | nil =>
    cases h
    exact ⟨by simp [Settled], rfl⟩
  | cons f stack =>
    cases f with
    | object members => cases h
    | _ =>
      cases h
      exact ⟨by simp [Settled], rfl⟩

theorem settled_value (h : value stack t = some b) :
    b.Settled ∧ t.Moves stack.length b.stack.length := by
  unfold value at h
  split at h
  next cs =>
    obtain ⟨d, hd, haccept⟩ := Option.bind_eq_some_iff.mp h
    obtain ⟨hsettled, hlength⟩ := settled_accept haccept
    exact ⟨hsettled, hlength ▸ .word (no_parenthesis_word hd)⟩
  next cs =>
    obtain ⟨s, -, haccept⟩ := Option.bind_eq_some_iff.mp h
    obtain ⟨hsettled, hlength⟩ := settled_accept haccept
    exact ⟨hsettled, hlength ▸ .quoted⟩
  next =>
    cases h
    exact ⟨by simp [Settled], .opening (by decide)⟩
  next =>
    cases h
    exact ⟨by simp [Settled], .opening (by decide)⟩
  next => cases h

theorem settled_name (h : name stack t = some b) :
    b.Settled ∧ t.Moves stack.length b.stack.length := by
  unfold name at h
  split at h
  · split at h
    · obtain ⟨s, -, rfl⟩ := Option.map_eq_some_iff.mp h
      exact ⟨by simp [Settled], .quoted⟩
    · cases h
  · cases h

theorem settled_close (h : close stack t = some b) :
    b.Settled ∧ t.Moves stack.length b.stack.length := by
  unfold close at h
  split at h
  · obtain ⟨hsettled, hlength⟩ := settled_accept h
    exact ⟨hsettled, hlength ▸ .closing (by decide)⟩
  · obtain ⟨hsettled, hlength⟩ := settled_accept h
    exact ⟨hsettled, hlength ▸ .closing (by decide)⟩
  · cases h

/-- A token is accepted only while something is open. -/
theorem Settled.step (hb : b.Settled) (h : step b t = some b') :
    b.stack ≠ [] ∧ b'.Settled ∧ t.Moves b.stack.length b'.stack.length := by
  have hopen : b.stack ≠ [] := by
    intro hnil
    obtain ⟨d, hd⟩ := hb.mp hnil
    simp [Builder.step, hd] at h
  refine ⟨hopen, ?_⟩
  unfold Builder.step at h
  split at h
  · exact settled_value h
  · split at h
    · exact settled_close h
    · exact settled_value h
  · split at h
    · exact settled_close h
    · exact settled_name h
  · exact settled_name h
  · split at h
    next hcolon =>
      cases h
      exact ⟨by simpa [Settled] using hopen, hcolon ▸ .between (by decide)⟩
    next => cases h
  · split at h
    next hcomma =>
      split at h <;> cases h <;>
        exact ⟨by simpa [Settled] using hopen, hcomma ▸ .between (by decide)⟩
    next => exact settled_close h
  · cases h

theorem Settled.cons {ts : List Token} (hb : b.Settled)
    (h : (t :: ts).foldlM Builder.step b = some b') :
    ∃ next : Builder, b.stack ≠ [] ∧ next.Settled ∧
      t.Moves b.stack.length next.stack.length ∧ ts.foldlM Builder.step next = some b' := by
  rw [List.foldlM_cons] at h
  obtain ⟨next, hnext, hrest⟩ := Option.bind_eq_some_iff.mp h
  obtain ⟨hopen, hsettled, hmoves⟩ := hb.step hnext
  exact ⟨next, hopen, hsettled, hmoves, hrest⟩

theorem Settled.steps {ts : List Token} (hb : b.Settled)
    (h : ts.foldlM Builder.step b = some b') : b'.Settled := by
  induction ts generalizing b with
  | nil => cases h; exact hb
  | cons t ts ih =>
    obtain ⟨next, -, hsettled, -, hrest⟩ := hb.cons h
    exact ih hsettled hrest

end Builder

/-- Behind an opening bracket a document is built from one open array until nothing is open. -/
theorem reads_of_ofChars? {cs : List Char} {d : Document} (h : ofChars? ('[' :: cs) = some d) :
    ∃ (b b' : Builder) (ts : List Token), Token.Reads .gap cs ts ∧
      ts.foldlM Builder.step b = some b' ∧ b.Settled ∧ b.stack.length = 1 ∧ b'.stack = [] := by
  obtain ⟨all, hscan, hbuild⟩ := Option.bind_eq_some_iff.mp h
  have hopened : (cs.foldl Token.Scan.step ⟨.gap, [.mark '[']⟩).finish? = some all := hscan
  obtain ⟨ts, rfl, hreads⟩ := Token.reads_of_finish? hopened
  let b : Builder := ⟨.firstItem, [.array []]⟩
  have hb : b.Settled := by simp [b, Builder.Settled]
  unfold ofTokens? at hbuild
  split at hbuild
  next d stack hsteps =>
    exact ⟨b, ⟨.finish d, stack⟩, ts, hreads, hsteps, hb, rfl,
      (hb.steps hsteps).mpr ⟨d, rfl⟩⟩
  next => cases hbuild

end Document

end GraphWalk.Json
