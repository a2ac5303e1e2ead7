import RubySig.Text.Blank
import RubySig.Text.Cells

/-!
# Lines of a width

A text is broken into lines that take at most so many cells. A line ends before a word that does
not fit. A word that is wider than a whole line is cut into pieces, or begins a line and is left
to be shortened, whichever is asked for. Blanks at the end of a line that would not fit are left
out.
-/

namespace RubySig.Text.Wrap

open RubySig.Text.Cells

/-- Split a text at every character of a class. -/
def splitAt (separates : Char → Bool) (current : List Char) : List Char → List (List Char)
  | [] => [current.reverse]
  | c :: rest =>
    if separates c then current.reverse :: splitAt separates [] rest
    else splitAt separates (c :: current) rest

/-- The lines of a text. -/
def lines (cs : List Char) : List (List Char) :=
  splitAt (· = '\n') [] cs

/-- Words with the blanks after them; blanks at the start belong to the first word. `current` is
the word so far in reverse, `inWord` says that it has more than blanks, and `ending` that blanks
followed. -/
def wordsFrom (current : List Char) (inWord ending : Bool) : List Char → List (List Char)
  | [] => [current.reverse]
  | c :: rest =>
    if isSpacing c then wordsFrom (c :: current) inWord inWord rest
    else if ending then current.reverse :: wordsFrom [c] true false rest
    else wordsFrom (c :: current) true false rest

/-- The words of a line, which together make up the line. -/
def words (cs : List Char) : List (List Char) :=
  wordsFrom [] false false cs

/-- Pieces of a word that each take at most a width, given the piece so far in reverse. -/
def pieces (limit : Nat) (current : List Char) : List Char → List (List Char)
  | [] => [current.reverse]
  | c :: rest =>
    if limit < width current + size c then current.reverse :: pieces limit [c] rest
    else pieces limit (c :: current) rest

/-- What to do with a word that is wider than a line. -/
inductive Overflow where
  | cut
  | shorten
  deriving DecidableEq

/-- The lines of words, given the line so far. An empty line so far is the start of the text. -/
def fill (overflow : Overflow) (limit : Nat) (current : List Char) : List (List Char) → List (List Char)
  | [] => [current]
  | word :: rest =>
    let needed := width (trimEnd isSpacing word)
    let ended := if current.isEmpty then [] else [current]
    if width current + needed ≤ limit then fill overflow limit (current ++ word) rest
    else if needed ≤ limit || overflow = .shorten then ended ++ fill overflow limit word rest
    else
      let cut := pieces limit [] word
      ended ++ cut.dropLast ++ fill overflow limit (cut.getLastD []) rest

/-- Leave out blanks at the end of a line that has more characters than its width. -/
def cropBlanks (limit : Nat) (line : List Char) : List Char :=
  let trailing := line.length - (trimEnd isSpacing line).length
  line.take (line.length - min trailing (line.length - limit))

/-- The lines of a text in a width. -/
def wrap (overflow : Overflow) (limit : Nat) (cs : List Char) : List (List Char) :=
  (lines cs).flatMap fun line =>
    (fill overflow limit [] (words (expandTabs 0 line))).map (cropBlanks limit)

/-- A line that does not fit, cut to a width or shortened to it with dots at its end. -/
def bound (overflow : Overflow) (limit : Nat) (line : List Char) : List Char :=
  if width line ≤ limit then line
  else
    match overflow with
    | .cut => fit limit line
    | .shorten => fit (limit - 1) line ++ ['…']

end RubySig.Text.Wrap
