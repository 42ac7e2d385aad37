import GraphWalk.Json.Printer
import GraphWalk.Text.Blank

/-!
# Reports of rows

Rows are shown as JSON or as a table. In a table every column is as wide as its heading counted
in bytes and its cells counted in characters, columns stand two spaces apart, and no line ends
in blanks.
-/

namespace GraphWalk.Cli

inductive Format
  | table
  | json
  deriving DecidableEq

/-- The name `json` in any case; every other name means a table. -/
def Format.ofName (name : String) : Format :=
  if name.map Char.toLower = "json" then json else table

/-- The text of a cell: strings as they are, nothing for null and for a missing field. -/
def cell : Option Json → String
  | none => ""
  | some .null => ""
  | some (.str s) => s
  | some v => v.compact

/-- The least widths that hold the headings and every row. -/
def widths (headings : List String) (rows : List (List String)) : List Nat :=
  rows.foldl (fun ws row => List.zipWith (fun w c => max w c.length) ws row)
    (headings.map String.utf8ByteSize)

def pad (width : Nat) (text : List Char) : List Char :=
  text ++ List.replicate (width - text.length) ' '

/-- One line: padded cells two spaces apart, without blanks at the end. -/
def line (widths : List Nat) (cells : List String) : List Char :=
  Text.trimEnd ([' ', ' '].intercalate (List.zipWith pad widths (cells.map String.toList)))

/-- The lines of a table: the headings, a rule and the rows. -/
def tableLines (headings : List String) (rows : List (List String)) : List (List Char) :=
  let ws := widths headings rows
  line ws headings :: line ws (ws.map fun w => String.ofList (List.replicate w '-'))
    :: rows.map (line ws)

def cells (columns : List String) (row : Json) : List String :=
  columns.map fun name => cell (row.field? name)

def report (rows : List Json) (columns : List String) : Format → String
  | .json => (Json.arr rows).pretty
  | .table => String.ofList (['\n'].intercalate (tableLines columns (rows.map (cells columns))))

end GraphWalk.Cli
