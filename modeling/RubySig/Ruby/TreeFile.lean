import RubySig.Ruby.SyntaxTree

/-!
# Trees in files

A tree in a text file has one line for each node, in the order in which the nodes start. Two blanks
before a line for every node around it, then the type, the first byte, the byte after the last one
and the row; after them `@name` if the node is held under a field, and `-` if it is not named.
-/

namespace RubySig.Ruby.TreeFile

/-- Cut a text at every character of a class. -/
def cutAt (p : Char → Bool) (current : List Char) : List Char → List (List Char)
  | [] => [current.reverse]
  | c :: rest => if p c then current.reverse :: cutAt p [] rest else cutAt p (c :: current) rest

/-- The words of a line. -/
def words (line : List Char) : List String :=
  ((cutAt (· = ' ') [] line).filter (!·.isEmpty)).map String.ofList

/-- What the words after the row say about a node. -/
def withMarks (t : SyntaxTree) : List String → Option SyntaxTree
  | [] => some t
  | mark :: rest =>
    if mark = "-" then withMarks { t with named := false } rest
    else
      match mark.toList with
      | '@' :: name => withMarks { t with field := some (String.ofList name) } rest
      | _ => none

/-- The node of a line, without its children. -/
def node? (line : List Char) : Option SyntaxTree :=
  match words line with
  | type :: start :: stop :: row :: marks => do
    let t := { type := type, start := ← start.toNat?, stop := ← stop.toNat?, row := ← row.toNat? }
    withMarks t marks
  | _ => none

/-- How far a line is moved to the right. -/
def indent (line : List Char) : Nat :=
  (line.takeWhile (· = ' ')).length

/-- Put a node before nodes that come after it: those that are moved further to the right are its
children, up to the first that is not. -/
def attach (depth : Nat) (t : SyntaxTree) (later : List (Nat × SyntaxTree)) : List (Nat × SyntaxTree) :=
  let children := later.takeWhile fun entry => depth < entry.1
  (depth, { t with children := children.map Prod.snd }) :: later.drop children.length

/-- The nodes of lines, each with how far it is moved to the right. -/
def forest : List (List Char) → Option (List (Nat × SyntaxTree))
  | [] => some []
  | line :: rest => do
    let later ← forest rest
    if (words line).isEmpty then return later
    let t ← node? line
    return attach (indent line) t later

/-- The tree of a text with a single root. -/
def parse (text : String) : Option SyntaxTree :=
  match forest (cutAt (· = '\n') [] text.toList) with
  | some [(_, root)] => some root
  | _ => none

end RubySig.Ruby.TreeFile
