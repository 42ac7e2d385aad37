import GraphWalk.Cli.Report
import GraphWalk.Proofs.Text.Blank
import Mathlib.Algebra.BigOperators.Group.List.Lemmas
import Mathlib.Algebra.GroupWithZero.Nat
import Mathlib.Data.List.Forall2
import Mathlib.Data.String.Basic

/-!
# Columns of a table

Widths are found in one pass over the cells and applied in another, and what is blank at the end of
a line is left out. `table_lines`: still every column begins at one place in all lines, so a line
shows what its row has in each. Rows and lines are the same, though, only as long as no cell has a
line break with more than blanks behind it in its row.
-/

namespace GraphWalk.Cli

open Text (isBlank trimEnd)

variable {α : Type} {ws : List Nat} {texts columns : List String} {rows : List Json}

-- ---------------------------------------------------------------------------
-- Texts in columns
-- ---------------------------------------------------------------------------

/-- Where a column begins: behind the columns before it and two spaces after each. -/
def columnStart (ws : List Nat) (j : Nat) : Nat := ((ws.take j).map (· + 2)).sum

abbrev Fits (ws : List Nat) (texts : List String) : Prop :=
  List.Forall₂ (fun w t => t.length ≤ w) ws texts

/-- A line that shows texts in columns of some widths. -/
structure Aligned (ws : List Nat) (texts : List String) (line : List Char) : Prop where
  fits : Fits ws texts
  /-- No blank is at the end. -/
  trimmed : ∀ c ∈ line.getLast?, isBlank c = false
  /-- But for blanks at the end, every text stands where its column begins, and behind it are
  spaces up to the next column. -/
  columns : ∃ blanks, (∀ c ∈ blanks, isBlank c) ∧
    (line ++ blanks).length = columnStart ws ws.length ∧
    ∀ j w t, ws[j]? = some w → texts[j]? = some t →
      ((line ++ blanks).take (columnStart ws (j + 1))).drop (columnStart ws j) =
        t.toList ++ List.replicate (w + 2 - t.length) ' '

/-- A text in its column, with the two spaces behind it. -/
def block (width : Nat) (text : String) : List Char :=
  text.toList ++ List.replicate (width + 2 - text.length) ' '

theorem length_block {w : Nat} {t : String} (h : t.length ≤ w) : (block w t).length = w + 2 := by
  simp [block, String.length_toList]
  omega

theorem pad_append {w : Nat} {t : String} (h : t.length ≤ w) :
    pad w t.toList ++ [' ', ' '] = block w t := by
  have hspaces : w + 2 - t.length = (w - t.length) + 2 := by omega
  rw [pad, block, hspaces, ← List.replicate_append_replicate, List.append_assoc,
    String.length_toList]
  rfl

theorem intercalate_append {sep : List α} {parts : List (List α)} (h : parts ≠ []) :
    sep.intercalate parts ++ sep = (parts.map (· ++ sep)).flatten := by
  induction parts with
  | nil => exact absurd rfl h
  | cons part parts ih =>
    cases parts with
    | nil => simp
    | cons next parts =>
      rw [List.intercalate_cons_cons, List.append_assoc, ih (List.cons_ne_nil _ _)]
      simp

section Line

variable (h : Fits ws texts)
include h

theorem zipWith_pad :
    (List.zipWith pad ws (texts.map String.toList)).map (· ++ [' ', ' ']) =
      List.zipWith block ws texts := by
  induction h with
  | nil => rfl
  | cons hfit _ ih => exact congrArg₂ List.cons (pad_append hfit) ih

theorem map_length_blocks :
    (List.zipWith block ws texts).map List.length = ws.map (· + 2) := by
  induction h with
  | nil => rfl
  | cons hfit _ ih => exact congrArg₂ List.cons (length_block hfit) ih

/-- The two spaces that no text has behind the last one make no difference. -/
theorem line_eq : line ws texts = trimEnd (List.zipWith block ws texts).flatten := by
  have hpadded := zipWith_pad h
  cases h with
  | nil => rfl
  | cons _ _ =>
    have hspaces : ∀ c ∈ [' ', ' '], isBlank c := by simp [Text.isBlank_space]
    rw [line, ← Text.trimEnd_append hspaces, intercalate_append (by simp), hpadded]

/-- Every line that is written shows its texts in the columns. -/
theorem aligned_line : Aligned ws texts (line ws texts) := by
  have hlengths := map_length_blocks h
  obtain ⟨blanks, hblanks, hblocks⟩ :=
    Text.exists_trimEnd (List.zipWith block ws texts).flatten
  have htrimmed := Text.getLast?_trimEnd (List.zipWith block ws texts).flatten
  rw [← line_eq h] at hblocks htrimmed
  refine ⟨h, htrimmed, blanks, hblanks, ?_, fun j w t hw ht => ?_⟩
  · rw [← hblocks, List.length_flatten, hlengths, columnStart, List.take_length]
  · obtain ⟨hjw, rfl⟩ := List.getElem?_eq_some_iff.mp hw
    obtain ⟨hjt, rfl⟩ := List.getElem?_eq_some_iff.mp ht
    have hj : j < (List.zipWith block ws texts).length := by
      rw [List.length_zipWith]
      exact lt_min hjw hjt
    rw [← hblocks, columnStart, columnStart, List.map_take, List.map_take, ← hlengths,
      List.drop_take_succ_flatten_eq_getElem _ _ hj, List.getElem_zipWith, block]

end Line

-- ---------------------------------------------------------------------------
-- Texts read from a line
-- ---------------------------------------------------------------------------

/-- What stands in a column of a line, without blanks behind it. -/
def columnText (ws : List Nat) (line : List Char) (j : Nat) : List Char :=
  trimEnd ((line.take (columnStart ws (j + 1))).drop (columnStart ws j))

theorem Aligned.columnText_eq {line : List Char} (h : Aligned ws texts line) {j : Nat}
    {t : String} (ht : texts[j]? = some t) : columnText ws line j = trimEnd t.toList := by
  obtain ⟨hjt, -⟩ := List.getElem?_eq_some_iff.mp ht
  have hjw : j < ws.length := h.fits.length_eq ▸ hjt
  obtain ⟨blanks, hblanks, -, hcolumns⟩ := h.columns
  have hspaces : ∀ c ∈ List.replicate (ws[j] + 2 - t.length) ' ', isBlank c := by
    intro c hc
    rw [List.eq_of_mem_replicate hc]
    exact Text.isBlank_space
  have hslice := congrArg trimEnd (hcolumns j _ t (List.getElem?_eq_getElem hjw) ht)
  rw [Text.trimEnd_append hspaces, List.take_append, List.drop_append] at hslice
  rw [← hslice]
  refine (Text.trimEnd_append (fun c hc => hblanks c ?_) _).symm
  exact List.mem_of_mem_take (List.mem_of_mem_drop hc)

/-- A line shows its texts, up to the blanks at their ends. -/
theorem Aligned.reads {line : List Char} (h : Aligned ws texts line) :
    (List.range ws.length).map (columnText ws line) =
      texts.map fun t => trimEnd t.toList := by
  refine List.ext_getElem (by simp [h.fits.length_eq]) fun j _ hj => ?_
  have hjt : j < texts.length := by simpa using hj
  simpa using h.columnText_eq (List.getElem?_eq_getElem hjt)

-- ---------------------------------------------------------------------------
-- Widths
-- ---------------------------------------------------------------------------

/-- The bytes of the heading, or the characters of the longest cell. -/
def columnWidth (rows : List Json) (name : String) : Nat :=
  (rows.map fun row => (cell (row.field? name)).length).foldl max name.utf8ByteSize

theorem le_foldl_max (w : Nat) (lengths : List Nat) :
    w ≤ lengths.foldl max w ∧ ∀ n ∈ lengths, n ≤ lengths.foldl max w := by
  induction lengths generalizing w with
  | nil => simp
  | cons n lengths ih =>
    obtain ⟨hfirst, hlater⟩ := ih (max w n)
    refine ⟨(le_max_left w n).trans hfirst, List.forall_mem_cons.mpr ⟨?_, hlater⟩⟩
    exact (le_max_right w n).trans hfirst

theorem length_le_utf8ByteSize (s : String) : s.length ≤ s.utf8ByteSize := by
  rw [← String.utf8Len_toList, ← String.length_toList]
  induction s.toList with
  | nil => rfl
  | cons c cs ih =>
    have hpos := c.utf8Size_pos
    rw [List.length_cons, String.utf8Len_cons]
    omega

/-- Every column has a width of its own, whatever the other columns are. -/
theorem widths_cells : widths columns (rows.map (cells columns)) =
    columns.map (columnWidth rows) := by
  suffices ∀ width : String → Nat,
      (rows.map (cells columns)).foldl
          (fun ws row => List.zipWith (fun w c => max w c.length) ws row) (columns.map width) =
        columns.map fun name =>
          (rows.map fun row => (cell (row.field? name)).length).foldl max (width name) from
    this String.utf8ByteSize
  intro width
  induction rows generalizing width with
  | nil => rfl
  | cons row rows ih =>
    rw [List.map_cons, List.foldl_cons, cells, List.zipWith_map, List.zipWith_self, ih]
    rfl

/-- A row of dashes as long as a column is wide. -/
def rule (width : Nat) : String := String.ofList (List.replicate width '-')

theorem tableLines_cells : tableLines columns (rows.map (cells columns)) =
    (columns :: (columns.map (columnWidth rows)).map rule :: rows.map (cells columns)).map
      (line (columns.map (columnWidth rows))) := by
  rw [tableLines, widths_cells]
  rfl

theorem fits_headings : Fits (columns.map (columnWidth rows)) columns := by
  refine List.forall₂_map_left_iff.mpr (List.forall₂_same.mpr fun name _ => ?_)
  exact (length_le_utf8ByteSize name).trans (le_foldl_max _ _).1

theorem fits_rule : Fits ws (ws.map rule) := by
  refine List.forall₂_map_right_iff.mpr (List.forall₂_same.mpr fun w _ => ?_)
  simp [rule]

theorem fits_cells {row : Json} (hrow : row ∈ rows) :
    Fits (columns.map (columnWidth rows)) (cells columns row) := by
  refine List.forall₂_map_left_iff.mpr (List.forall₂_map_right_iff.mpr ?_)
  exact List.forall₂_same.mpr fun name _ => (le_foldl_max _ _).2 _ (List.mem_map_of_mem hrow)

-- ---------------------------------------------------------------------------
-- Line breaks
-- ---------------------------------------------------------------------------

/-- No line break has more than blanks behind it, so trimming the line takes it away. -/
def Unbroken (texts : List String) : Prop :=
  (texts.flatMap String.toList).Pairwise fun a b => a = '\n' → isBlank b

instance : Decidable (Unbroken texts) :=
  inferInstanceAs (Decidable (List.Pairwise _ _))

theorem filter_blocks (h : Fits ws texts) :
    (List.zipWith block ws texts).flatten.filter (· != ' ') =
      (texts.flatMap String.toList).filter (· != ' ') := by
  induction h with
  | nil => rfl
  | cons _ _ ih => simp [block, ih]

/-- A space is no line break, and it is blank, so spaces make no difference. -/
theorem pairwise_filter_space {cs : List Char} :
    (cs.filter (· != ' ')).Pairwise (fun a b => a = '\n' → isBlank b) ↔
      cs.Pairwise fun a b => a = '\n' → isBlank b := by
  rw [List.pairwise_filter]
  refine List.Pairwise.iff fun a b => ⟨fun hab ha => ?_, fun hab _ _ => hab⟩
  by_cases hb : b = ' '
  · exact hb ▸ Text.isBlank_space
  · exact hab (by simp [ha]) (by simpa using hb) ha

theorem not_mem_line_iff (h : Fits ws texts) : '\n' ∉ line ws texts ↔ Unbroken texts := by
  rw [line_eq h, Text.not_mem_trimEnd_iff Text.isBlank_break, Unbroken, ← pairwise_filter_space,
    filter_blocks h, pairwise_filter_space]

theorem unbroken_rule : Unbroken (ws.map rule) := by
  refine List.pairwise_of_forall_mem_list fun a ha _ _ hbreak => ?_
  have hdash : a = '-' := by
    simp only [List.mem_flatMap, List.mem_map] at ha
    obtain ⟨_, ⟨w, -, rfl⟩, ha⟩ := ha
    exact List.eq_of_mem_replicate (by simpa [rule] using ha)
  exact absurd (hdash.symm.trans hbreak) (by decide)

theorem length_splitOn (c : Char) (cs : List Char) : (cs.splitOn c).length = cs.count c + 1 := by
  induction cs with
  | nil => rfl
  | cons d cs ih =>
    rw [List.splitOn_cons_eq_if_modifyHead, List.count_cons]
    split <;> simp [ih]

theorem count_intercalate (c : Char) (l : List Char) (lines : List (List Char)) :
    ([c].intercalate (l :: lines)).count c = (l :: lines).flatten.count c + lines.length := by
  induction lines generalizing l with
  | nil => simp
  | cons next lines ih =>
    rw [List.intercalate_cons_cons, List.count_append, ih]
    simp
    omega

/-- As many lines are found as were joined exactly if none of them has a break. -/
theorem length_splitOn_intercalate_iff {lines : List (List Char)} (h : lines ≠ []) :
    ((['\n'].intercalate lines).splitOn '\n').length = lines.length ↔ ∀ l ∈ lines, '\n' ∉ l := by
  cases lines with
  | nil => exact absurd rfl h
  | cons first lines =>
    have hcount : (first :: lines).flatten.count '\n' = 0 ↔ ∀ l ∈ first :: lines, '\n' ∉ l := by
      simp only [List.count_eq_zero, List.mem_flatten, not_exists, not_and]
    rw [← hcount, length_splitOn, count_intercalate, List.length_cons]
    omega

/-- Every line of a table shows the headings, the rule or a row in columns that begin at the same
place in all lines, so their texts can be read from the line, up to blanks at their ends. It has a
line of its own for each row exactly if no line break in a heading or a cell has more than blanks
behind it. -/
theorem table_lines (rows : List Json) (columns : List String) :
    let widths := columns.map (columnWidth rows)
    let table := (report rows columns .table).toList
    ∃ lines, table = ['\n'].intercalate lines ∧
      List.Forall₂ (Aligned widths)
        (columns :: widths.map rule :: rows.map (cells columns)) lines ∧
      (∀ texts line, Aligned widths texts line →
        (List.range columns.length).map (columnText widths line) =
          texts.map fun t => trimEnd t.toList) ∧
      ((table.splitOn '\n').length = rows.length + 2 ↔
        Unbroken columns ∧ ∀ row ∈ rows, Unbroken (cells columns row)) ∧
      ((table.splitOn '\n').length = rows.length + 2 → table.splitOn '\n' = lines) := by
  intro widths table
  let texts := columns :: widths.map rule :: rows.map (cells columns)
  have hfits : ∀ row ∈ texts, Fits widths row := by
    refine List.forall_mem_cons.mpr ⟨fits_headings, List.forall_mem_cons.mpr ⟨fits_rule, ?_⟩⟩
    exact List.forall_mem_map.mpr fun row hrow => fits_cells hrow
  have htable : table = ['\n'].intercalate (texts.map (line widths)) := by
    rw [show table = _ from String.toList_ofList, tableLines_cells]
  have hbreaks : (∀ l ∈ texts.map (line widths), '\n' ∉ l) ↔
      Unbroken columns ∧ ∀ row ∈ rows, Unbroken (cells columns row) := by
    rw [List.forall_mem_map, forall₂_congr fun row hrow => not_mem_line_iff (hfits row hrow)]
    simp [texts, unbroken_rule]
  have hlength : (table.splitOn '\n').length = rows.length + 2 ↔
      ∀ l ∈ texts.map (line widths), '\n' ∉ l := by
    rw [htable, ← length_splitOn_intercalate_iff (by simp [texts])]
    simp [texts]
  refine ⟨texts.map (line widths), htable, ?_, fun texts line h => ?_, hlength.trans hbreaks,
    fun h => ?_⟩
  · exact List.forall₂_map_right_iff.mpr
      (List.forall₂_same.mpr fun row hrow => aligned_line (hfits row hrow))
  · simpa [widths] using h.reads
  · rw [htable]
    exact List.splitOn_intercalate _ (hlength.mp h) (by simp [texts])

/-- One row of two texts. -/
def pair (x y : String) : List Json := [.obj [("a", .str x), ("b", .str y)]]

/-- A line break at the end of a row is trimmed away, but with a text in the next column behind it
the row has two lines. -/
theorem table_lines_broken :
    ((report (pair "x" "y\n") ["a", "b"] .table).toList.splitOn '\n').length = 3 ∧
      ((report (pair "x\n" "y") ["a", "b"] .table).toList.splitOn '\n').length ≠ 3 := by
  obtain ⟨-, -, -, -, hend, -⟩ := table_lines (pair "x" "y\n") ["a", "b"]
  obtain ⟨-, -, -, -, hmiddle, -⟩ := table_lines (pair "x\n" "y") ["a", "b"]
  exact ⟨hend.mpr (by decide +kernel), fun h => absurd (hmiddle.mp h) (by decide +kernel)⟩

end GraphWalk.Cli
