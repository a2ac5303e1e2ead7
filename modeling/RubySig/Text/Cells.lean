/-!
# Cells of a terminal

How many cells of a terminal a text takes. Control characters take none, nor do marks that are
drawn over the character before them; the characters of East Asian scripts and pictures take two.
Some control characters would move the cursor and are left out of every printed text.
-/

namespace RubySig.Text.Cells

/-- Control characters that are never printed: bell, backspace, vertical tab, form feed and
carriage return. -/
def isSuppressed (c : Char) : Bool :=
  [7, 8, 11, 12, 13].contains c.toNat

/-- Leave out what is never printed. -/
def printable (cs : List Char) : List Char :=
  cs.filter fun c => !isSuppressed c

/-- Ranges of characters that take no cell. -/
def emptyRanges : List (Nat × Nat) :=
  [(0x00, 0x1f), (0x7f, 0x9f), (0x300, 0x36f), (0x483, 0x489), (0x591, 0x5bd), (0x610, 0x61a),
    (0x64b, 0x65f), (0x200b, 0x200f), (0x2028, 0x202e), (0x2060, 0x2063), (0x20d0, 0x20f0),
    (0xfe00, 0xfe0f), (0xfe20, 0xfe2f), (0xe0100, 0xe01ef)]

/-- Ranges of characters that take two cells. -/
def wideRanges : List (Nat × Nat) :=
  [(0x1100, 0x115f), (0x231a, 0x231b), (0x2e80, 0x303e), (0x3041, 0x33ff), (0x3400, 0x4dbf),
    (0x4e00, 0xa4cf), (0xa960, 0xa97c), (0xac00, 0xd7a3), (0xf900, 0xfaff), (0xfe30, 0xfe6b),
    (0xff01, 0xff60), (0xffe0, 0xffe6), (0x1f300, 0x1f320), (0x1f32d, 0x1f393), (0x1f3a0, 0x1f3ca),
    (0x1f3e0, 0x1f3f0), (0x1f400, 0x1f64f), (0x1f680, 0x1f6c5), (0x1f900, 0x1f9ff),
    (0x20000, 0x3fffd)]

/-- A character lies in one of some ranges. -/
def isWithin (ranges : List (Nat × Nat)) (c : Char) : Bool :=
  ranges.any fun range => range.1 ≤ c.toNat && c.toNat ≤ range.2

/-- How many cells a character takes. -/
def size (c : Char) : Nat :=
  if isWithin emptyRanges c then 0 else if isWithin wideRanges c then 2 else 1

/-- How many cells characters take. -/
def width (cs : List Char) : Nat :=
  cs.foldl (fun taken c => taken + size c) 0

/-- As many characters from the start as fit into a width, given the cells already taken. -/
def take (limit taken : Nat) : List Char → List Char
  | [] => []
  | c :: rest => if taken + size c ≤ limit then c :: take limit (taken + size c) rest else []

/-- Blanks. -/
def blanks (n : Nat) : List Char :=
  List.replicate n ' '

/-- The start of a text that takes exactly a width: cut, or filled with blanks. -/
def fit (limit : Nat) (cs : List Char) : List Char :=
  let start := take limit 0 cs
  start ++ blanks (limit - width start)

/-- Put blanks in the place of each tab, up to the next multiple of eight cells and at least one.
`column` is the cell where the text starts. -/
def expandTabs (column : Nat) : List Char → List Char
  | [] => []
  | c :: rest =>
    if c = '\t' then
      let next := (column / 8 + 1) * 8
      blanks (next - column) ++ expandTabs next rest
    else c :: expandTabs (column + size c) rest

end RubySig.Text.Cells
