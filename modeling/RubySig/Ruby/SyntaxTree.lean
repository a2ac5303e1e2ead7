import RubySig.Text.Utf8

/-!
# Concrete trees of Ruby source

What a parser of Ruby makes of a source text: nodes with a type, the bytes they span, the row they
start on, and children, some of which are held under a field name. Tokens without a name of their
own, such as brackets, are children too but are not named.
-/

namespace RubySig.Ruby

/-- The bytes of a source text. -/
abbrev Source := Array UInt8

/-- The bytes of a text. -/
def Source.ofString (s : String) : Source :=
  (Text.Utf8.encode s.toList).toArray

/-- A node. `start` and `stop` are byte positions, `row` counts from zero, and `field` is the name
under which the parent holds the node. -/
structure SyntaxTree where
  type : String
  start : Nat
  stop : Nat
  row : Nat := 0
  field : Option String := none
  named : Bool := true
  children : List SyntaxTree := []
  deriving Inhabited

namespace SyntaxTree

/-- The line on which a node starts, counted from one. -/
def line (t : SyntaxTree) : Int :=
  t.row + 1

/-- The text that a node spans. -/
def text (source : Source) (t : SyntaxTree) : String :=
  String.ofList (Text.Utf8.decode (source.extract t.start t.stop).toList)

/-- The children that are named. -/
def namedChildren (t : SyntaxTree) : List SyntaxTree :=
  t.children.filter (·.named)

/-- The first child under a field name. -/
def child? (t : SyntaxTree) (field : String) : Option SyntaxTree :=
  t.children.find? fun child => child.field == some field

/-- The text of the child under a field name. -/
def fieldText? (source : Source) (t : SyntaxTree) (field : String) : Option String :=
  (t.child? field).map (text source)

/-- The text of the child under a field name, empty when there is none. -/
def fieldText (source : Source) (t : SyntaxTree) (field : String) : String :=
  (fieldText? source t field).getD ""

/-- The child under a field name has that field, and no child before it has. -/
theorem child?_eq_some_iff (t : SyntaxTree) (field : String) (child : SyntaxTree) :
    t.child? field = some child ↔ child.field = some field ∧ ∃ before after,
      t.children = before ++ child :: after ∧ ∀ other ∈ before, other.field ≠ some field := by
  simp [child?, List.find?_eq_some_iff_append]

/-- There is no child under a field name exactly when no child has that field. -/
theorem child?_eq_none_iff (t : SyntaxTree) (field : String) :
    t.child? field = none ↔ ∀ child ∈ t.children, child.field ≠ some field := by
  simp [child?]

/-- The text under a field name is that of the first child with this field. If no child has it, there
is no such text, and the empty text stands for it. -/
theorem fieldText_cases (source : Source) (t : SyntaxTree) (field : String) :
    (∃ before child after, t.children = before ++ child :: after ∧ child.field = some field ∧
      (∀ other ∈ before, other.field ≠ some field) ∧
      t.fieldText? source field = some (child.text source) ∧
      t.fieldText source field = child.text source) ∨
    ((∀ child ∈ t.children, child.field ≠ some field) ∧
      t.fieldText? source field = none ∧ t.fieldText source field = "") := by
  cases h : t.child? field with
  | some child =>
    obtain ⟨hfield, before, after, hchildren, hbefore⟩ := (child?_eq_some_iff t field child).mp h
    exact .inl ⟨before, child, after, hchildren, hfield, hbefore, by simp [fieldText?, h],
      by simp [fieldText, fieldText?, h]⟩
  | none =>
    exact .inr ⟨(child?_eq_none_iff t field).mp h, by simp [fieldText?, h],
      by simp [fieldText, fieldText?, h]⟩

/-- A part of the node is computed when the program runs. -/
def isInterpolated (t : SyntaxTree) : Bool :=
  t.namedChildren.any fun child => child.type == "interpolation"

/-- The text between the quotes of a symbol. -/
def quotedContent (source : Source) (t : SyntaxTree) : String :=
  String.join ((t.namedChildren.filter fun child => child.type == "string_content").map (text source))

/-- The value of a symbol: its text after the colon, or between its quotes. It is not known for an
interpolated symbol, and nothing else has one. -/
def symbolValue? (source : Source) (t : SyntaxTree) : Option String :=
  if t.type == "simple_symbol" then some (String.ofList ((text source t).toList.drop 1))
  else if t.type == "delimited_symbol" then
    if t.isInterpolated then none else some (quotedContent source t)
  else none

/-- A method definition. -/
def isDefinition (t : SyntaxTree) : Bool :=
  t.type == "method" || t.type == "singleton_method"

/-- A comment. -/
def isComment (t : SyntaxTree) : Bool :=
  t.type == "comment"

end SyntaxTree

end RubySig.Ruby
