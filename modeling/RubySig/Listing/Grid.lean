import RubySig.Number.Rounding
import RubySig.Text.Wrap

/-!
# Grids

Rows of cells drawn with box characters under a heading. Each column is as wide as its widest line,
with a blank on either side. If the grid is wider than it may be, its widest columns are made
narrower, step by step. A cell of several lines makes its row as high as it needs.
-/

namespace RubySig.Listing.Grid

open RubySig.Number (roundQuotient)
open RubySig.Text

/-- The side to which the lines of a column are moved. -/
inductive Side where
  | left
  | right
  deriving DecidableEq

/-! ## Widths -/

/-- Characters that end a line where widths are taken. -/
def endsLine (c : Char) : Bool :=
  [0x0a, 0x1c, 0x1d, 0x1e, 0x85, 0x2028, 0x2029].contains c.toNat

/-- The width of a cell as it is written: that of its widest line, where tabs take no room. -/
def width (cell : List Char) : Nat :=
  ((Wrap.splitAt endsLine [] cell).map Cells.width).foldl max 0

/-- The widths of columns, given those so far. -/
def widen : List Nat → List (List Char) → List Nat
  | w :: widths, cell :: cells => max w (width cell) :: widen widths cells
  | widths, _ => widths

/-- The width of columns side by side. -/
def totalWidth (widths : List Nat) : Nat :=
  widths.foldl (fun total w => total + w) 0

/-- Take an amount away from numbers, in equal shares from those whose limit is not zero, and from
none more than its limit. The numbers stand behind their limits. -/
def reduce (amount : Nat) : List (Nat × Nat) → List Nat
  | [] => []
  | (limit, n) :: rest =>
    if limit = 0 then n :: reduce amount rest
    else
      let sharers := 1 + (rest.filter fun entry => entry.1 ≠ 0).length
      let share := min limit (roundQuotient amount sharers)
      (n - share) :: reduce (amount - share) rest

/-- Make the widest columns as narrow as the next ones, at most so many times, until the widths
sum up to a total. -/
def narrow (total : Nat) : Nat → List Nat → List Nat
  | 0, widths => widths
  | steps + 1, widths =>
    let excess := totalWidth widths - total
    let widest := widths.foldl max 0
    let next := (widths.filter (· ≠ widest)).foldl max 0
    if excess = 0 then widths
    else
      let limit := min excess (widest - next)
      narrow total steps (reduce excess (widths.map fun w => (if w = widest then limit else 0, w)))

/-! ## Drawing -/

/-- A number of the same character. -/
def run (n : Nat) (c : Char) : String :=
  String.ofList (List.replicate n c)

/-- A line of exactly a width. -/
def align (side : Side) (w : Nat) (line : List Char) : List Char :=
  match side with
  | .left => Cells.fit w (Wrap.bound .shorten w line)
  | .right =>
    let line := Wrap.bound .shorten w (trimEnd isSpacing line)
    Cells.blanks (w - Cells.width line) ++ line

/-- The lines of a cell in its column. -/
def cellLines (column : Side × Nat) (cell : List Char) : List (List Char) :=
  (Wrap.wrap .shorten column.2 cell).map (align column.1 column.2)

/-- A line between rows. -/
def rule (widths : List Nat) (bar : Char) (left middle right : String) : String :=
  left ++ middle.intercalate (widths.map fun w => run (w + 2) bar) ++ right ++ "\n"

/-- One line of cells, each with its column. A cell without so many lines is blank. -/
def drawLine (edge : String) (index : Nat) (cells : List ((Side × Nat) × List (List Char))) : String :=
  edge ++ String.join (cells.map fun (column, lines) =>
    " " ++ String.ofList (lines.getD index (Cells.blanks column.2)) ++ " " ++ edge) ++ "\n"

/-- A row of cells with their columns, as high as its highest cell. -/
def drawRow (columns : List (Side × Nat)) (edge : String) (cells : List (List Char)) : String :=
  let drawn := (columns.zip cells).map fun (column, cell) => (column, cellLines column cell)
  let height := (drawn.map fun (_, lines) => lines.length).foldl max 1
  String.join ((List.range height).map fun index => drawLine edge index drawn)

/-- A grid with its headings that takes at most so many cells. -/
def draw (limit : Nat) (sides : List Side) (headings : List String) (rows : List (List String)) :
    String :=
  let headings := headings.map String.toList
  let rows := rows.map fun row => row.map String.toList
  let room := limit - (headings.length + 1)
  let natural := (rows.foldl widen (headings.map width)).map fun w => min room (w + 2)
  let widths := (narrow room (totalWidth natural) natural).map (· - 2)
  let columns := sides.zip widths
  rule widths '━' "┏" "┳" "┓" ++ drawRow columns "┃" headings ++ rule widths '━' "┡" "╇" "┩"
    ++ String.join (rows.map (drawRow columns "│")) ++ rule widths '─' "└" "┴" "┘"

end RubySig.Listing.Grid
