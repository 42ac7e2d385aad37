import GraphWalk.Json.Quoted

/-!
# Written strings are read back

`decode?_encode`: what `encode` writes between quotation marks spells the text it was given. Each
character becomes one part, most of them themselves and the rarer controls a unit.
-/

namespace GraphWalk.Json.Quoted

theorem hexValue?_hexDigit {n : Nat} (h : n < 16) : hexValue? (hexDigit n) = some n := by
  have hall : ∀ n < 16, hexValue? (hexDigit n) = some n := by decide
  exact hall n h

/-- A character is written as an escape of one letter, as a control's number, or as itself. -/
theorem encodeChar_cases (c : Char) :
    (∃ e, e ≠ 'u' ∧ simpleEscape? e = some c ∧ encodeChar c = ['\\', e]) ∨
    (c.toNat < 0x20 ∧ encodeChar c =
      ['\\', 'u', '0', '0', hexDigit (c.toNat / 16), hexDigit (c.toNat % 16)]) ∨
    (c ≠ '"' ∧ c ≠ '\\' ∧ ¬ c.toNat < 0x20 ∧ encodeChar c = [c]) := by
  by_cases hquote : c = '"'
  · subst hquote
    exact .inl ⟨'"', by decide, rfl, rfl⟩
  by_cases hslash : c = '\\'
  · subst hslash
    exact .inl ⟨'\\', by decide, rfl, rfl⟩
  by_cases hback : c = '\x08'
  · subst hback
    exact .inl ⟨'b', by decide, rfl, rfl⟩
  by_cases htab : c = '\t'
  · subst htab
    exact .inl ⟨'t', by decide, rfl, rfl⟩
  by_cases hline : c = '\n'
  · subst hline
    exact .inl ⟨'n', by decide, rfl, rfl⟩
  by_cases hform : c = '\x0c'
  · subst hform
    exact .inl ⟨'f', by decide, rfl, rfl⟩
  by_cases hreturn : c = '\r'
  · subst hreturn
    exact .inl ⟨'r', by decide, rfl, rfl⟩
  by_cases hcontrol : c.toNat < 0x20
  · refine .inr (.inl ⟨hcontrol, ?_⟩)
    simp only [encodeChar, *, if_true, if_false]
  · refine .inr (.inr ⟨hquote, hslash, hcontrol, ?_⟩)
    simp only [encodeChar, *, if_false]

/-- A part that stands for a character on its own. -/
def Part.Spells (p : Part) (c : Char) : Prop :=
  p = .char c ∨ p = .unit c.toNat ∧ c.toNat < 0x20

theorem join?_cons {p : Part} {c : Char} (h : p.Spells c) (parts : List Part) :
    join? (p :: parts) = (join? parts).map (c :: ·) := by
  rcases h with rfl | ⟨rfl, hlt⟩
  · rw [join?, Option.map_eq_bind]
    rfl
  · have hhigh : isHigh c.toNat = false := by simp [isHigh]; omega
    have hlow : isLow c.toNat = false := by simp [isLow]; omega
    -- a unit looks at the part behind it
    have hunit : join? (.unit c.toNat :: parts) =
        (join? parts).bind fun cs => some (Char.ofNat c.toNat :: cs) := by
      rcases parts with _ | ⟨_ | _, rest⟩ <;> simp [join?, hhigh, hlow]
    rw [hunit, Char.ofNat_toNat, Option.map_eq_bind]
    rfl

theorem parts?_plain {c : Char} (hslash : c ≠ '\\') (h : ¬ c.toNat < 0x20) (rest : List Char) :
    parts? (c :: rest) = (parts? rest).map (.char c :: ·) := by
  rw [parts?, if_neg (by simp [hslash, h]), Option.map_eq_bind]
  · rfl
  · rintro a b c d rest rfl
    exact absurd rfl hslash
  · rintro e rest rfl
    exact absurd rfl hslash

theorem parts?_simple {e c : Char} (he : e ≠ 'u') (h : simpleEscape? e = some c)
    (rest : List Char) : parts? ('\\' :: e :: rest) = (parts? rest).map (.char c :: ·) := by
  rw [parts?, h, Option.map_eq_bind]
  · rfl
  · rintro a b c d rest rfl
    exact absurd rfl he

theorem parts?_control {c : Char} (h : c.toNat < 0x20) (rest : List Char) :
    parts? ('\\' :: 'u' :: '0' :: '0' :: hexDigit (c.toNat / 16) :: hexDigit (c.toNat % 16) ::
      rest) = (parts? rest).map (.unit c.toNat :: ·) := by
  have hzero : hexValue? '0' = some 0 := by decide
  have hhigh := hexValue?_hexDigit (n := c.toNat / 16) (by omega)
  have hlow := hexValue?_hexDigit (n := c.toNat % 16) (by omega)
  have hvalue : c.toNat / 16 * 16 + c.toNat % 16 = c.toNat := by omega
  have hunit : parts? ('\\' :: 'u' :: '0' :: '0' :: hexDigit (c.toNat / 16) ::
      hexDigit (c.toNat % 16) :: rest) =
        (parts? rest).bind fun parts => some (.unit (c.toNat / 16 * 16 + c.toNat % 16) :: parts) := by
    simp [parts?, hzero, hhigh, hlow]
  rw [hunit, hvalue, Option.map_eq_bind]
  rfl

/-- One written character is one part. -/
theorem parts?_encodeChar (c : Char) (rest : List Char) :
    ∃ p : Part, p.Spells c ∧ parts? (encodeChar c ++ rest) = (parts? rest).map (p :: ·) := by
  rcases encodeChar_cases c with ⟨e, he, hsimple, henc⟩ | ⟨hcontrol, henc⟩ | ⟨-, hslash, h, henc⟩
  · exact ⟨.char c, .inl rfl, henc ▸ parts?_simple he hsimple rest⟩
  · exact ⟨.unit c.toNat, .inr ⟨rfl, hcontrol⟩, henc ▸ parts?_control hcontrol rest⟩
  · exact ⟨.char c, .inl rfl, henc ▸ parts?_plain hslash h rest⟩

theorem parts?_encode (cs : List Char) :
    ∃ parts, parts? (encode cs) = some parts ∧ join? parts = some cs := by
  induction cs with
  | nil => exact ⟨[], rfl, rfl⟩
  | cons c cs ih =>
    obtain ⟨parts, hparts, hjoin⟩ := ih
    obtain ⟨p, hspells, hchar⟩ := parts?_encodeChar c (encode cs)
    refine ⟨p :: parts, ?_, ?_⟩
    · rw [show encode (c :: cs) = encodeChar c ++ encode cs from rfl, hchar, hparts]
      rfl
    · rw [join?_cons hspells, hjoin]
      rfl

theorem decode?_encode (s : String) : decode? (encode s.toList) = some (some s) := by
  obtain ⟨parts, hparts, hjoin⟩ := parts?_encode s.toList
  simp [decode?, hparts, hjoin]

end GraphWalk.Json.Quoted
