import RubySig.Proofs.ParameterGroups
import Mathlib.Data.List.Forall2

/-!
# Parameter lists, child by child

What is read of a parameter list is told from its named children alone, whatever their types and
their order are: each group of parameters from the children of the types that belong to it, and
which required parameters are posts from the first child of a type that ends the required ones. A
child of any other type leaves nothing behind but one debug event, and a comment not even that.
-/

namespace RubySig.Ruby

namespace ParameterItem

/-- Items that have a place among the parameters. -/
def isParameter : ParameterItem → Bool
  | comment | unknown _ => false
  | _ => true

end ParameterItem

namespace Parameters

/-- Items that are no parameters change nothing. -/
theorem add_eq_self (p : Parameters) {item : ParameterItem} (h : item.isParameter = false) :
    p.add item = p := by
  cases item with
  | comment | unknown => rfl
  | _ => contradiction

/-- The groups of a list of items are those of the parameters among them. -/
theorem ofItems_filter_isParameter (items : List ParameterItem) :
    ofItems (items.filter ParameterItem.isParameter) = ofItems items := by
  have hstep : (fun p item => if item.isParameter = true then add p item else p) = add := by
    funext p item
    cases h : item.isParameter with
    | true => rfl
    | false => exact (add_eq_self p h).symm
  rw [ofItems, List.foldl_filter, hstep, ofItems]

end Parameters

namespace SyntaxTree

/-- The types of the children that are parameters. -/
def parameterTypes : List String :=
  ["identifier", "destructured_parameter", "optional_parameter", "splat_parameter", "keyword_parameter",
    "hash_splat_parameter", "hash_splat_nil", "forward_parameter", "block_parameter"]

/-- A child that is a parameter. -/
def isParameter (t : SyntaxTree) : Bool :=
  parameterTypes.contains t.type

/-- A child that is a required parameter. -/
def isPositional (t : SyntaxTree) : Bool :=
  ["identifier", "destructured_parameter"].contains t.type

/-- The required parameter of a child: its text, as a name or as a pattern. -/
def readPositional (source : Source) (t : SyntaxTree) : Positional :=
  if t.type = "identifier" then .named (t.text source) else .destructured (t.text source)

/-- The rest parameter of a child. -/
def readRest (source : Source) (t : SyntaxTree) : Rest :=
  if t.type = "splat_parameter" then .named (t.fieldText? source "name") else .forwarding

/-- The rest of the keywords of a child. -/
def readKeywordRest (source : Source) (t : SyntaxTree) : KeywordRest :=
  if t.type = "hash_splat_parameter" then .named (t.fieldText? source "name")
  else if t.type = "hash_splat_nil" then .refused else .forwarding

/-- The keyword of a child: it has a default exactly when the child has a value. -/
inductive IsKeyword (source : Source) (t : SyntaxTree) : Keyword → Prop where
  | required (hvalue : t.child? "value" = none) :
    IsKeyword source t (.required (t.fieldText source "name"))
  | optional (value : SyntaxTree) (hvalue : t.child? "value" = some value) :
    IsKeyword source t (.optional (t.fieldText source "name") (value.text source))

/-- Parameters that are grouped from the children of a parameter list, each group told from the
children at once. -/
structure Grouped (source : Source) (nodes : List SyntaxTree) (p : Parameters) : Prop where
  positionals : p.requireds ++ p.posts = (nodes.filter isPositional).map (readPositional source)
  requireds : p.requireds =
    ((nodes.takeWhile (!·.endsRequired)).filter isPositional).map (readPositional source)
  posts : p.posts = ((nodes.dropWhile (!·.endsRequired)).filter isPositional).map (readPositional source)
  optionals : p.optionals = (nodes.filter (·.type == "optional_parameter")).map fun t =>
    ⟨t.fieldText source "name", t.fieldText source "value"⟩
  keywords : List.Forall₂ (IsKeyword source) (nodes.filter (·.type == "keyword_parameter")) p.keywords
  rest : p.rest = (lastOfType? ["splat_parameter", "forward_parameter"] nodes).map (readRest source)
  keywordRest : p.keywordRest =
    (lastOfType? ["hash_splat_parameter", "hash_splat_nil", "forward_parameter"] nodes).map
      (readKeywordRest source)
  block : p.block =
    (lastOfType? ["block_parameter"] nodes).map fun t => ⟨t.fieldText? source "name"⟩

section Children

variable (source : Source) (t : SyntaxTree) (nodes : List SyntaxTree)

/-- A node is a parameter exactly when its item is. -/
theorem isParameter_parameterItem : (t.parameterItem source).isParameter = t.isParameter := by
  unfold parameterItem
  cases t.fieldText? source "value" <;> split <;>
    simp_all [ParameterItem.isParameter, isParameter, parameterTypes]

/-- A node is reported exactly when it is neither a parameter nor a comment. -/
theorem event?_parameterItem :
    (t.parameterItem source).event? =
      if !t.isParameter && !t.isComment then some (.unknownParameter t.type) else none := by
  unfold parameterItem
  cases t.fieldText? source "value" <;> split <;>
    simp_all [ParameterItem.event?, isParameter, parameterTypes, isComment]

/-- A keyword is read with a default exactly when it has a value. -/
theorem isKeyword_read :
    IsKeyword source t ((t.fieldText? source "value").elim (.required (t.fieldText source "name"))
      (.optional (t.fieldText source "name"))) := by
  cases h : t.child? "value" with
  | none =>
    rw [fieldText?, h]
    exact .required h
  | some value =>
    rw [fieldText?, h]
    exact .optional value h

/-- The groups of the items of children are told from the children. -/
theorem grouped_ofItems :
    Grouped source nodes (Parameters.ofItems (nodes.map (parameterItem source))) := by
  have hpositionals (nodes : List SyntaxTree) :
      (nodes.map (parameterItem source)).filterMap ParameterItem.positional? =
        (nodes.filter isPositional).map (readPositional source) :=
    filterMap_parameterItem (positional?_parameterItem source) nodes
  rw [Parameters.ofItems_eq, takeWhile_parameterItem, dropWhile_parameterItem, hpositionals,
    hpositionals]
  constructor
  case positionals =>
    rw [← List.map_append, ← List.filter_append, List.takeWhile_append_dropWhile]
  case requireds => rfl
  case posts => rfl
  case optionals => exact filterMap_parameterItem (optional?_parameterItem source) nodes
  case keywords =>
    rw [filterMap_parameterItem (keyword?_parameterItem source), List.forall₂_map_right_iff,
      List.forall₂_same]
    exact fun t _ => isKeyword_read source t
  case rest =>
    rw [filterMap_parameterItem (rest?_parameterItem source), List.getLast?_map]
    rfl
  case keywordRest =>
    rw [filterMap_parameterItem (keywordRest?_parameterItem source), List.getLast?_map]
    rfl
  case block =>
    rw [filterMap_parameterItem (block?_parameterItem source), List.getLast?_map]
    rfl

/-- Children that are no parameters change nothing. -/
theorem readParameters_value_filter :
    ({ t with children := t.children.filter isParameter }.readParameters source).value =
      (t.readParameters source).value := by
  have hitems : ({ t with children := t.children.filter isParameter }).namedChildren.map
      (parameterItem source) =
        (t.namedChildren.map (parameterItem source)).filter ParameterItem.isParameter := by
    rw [List.filter_map]
    simp only [Function.comp_def, isParameter_parameterItem, namedChildren, List.filter_filter,
      Bool.and_comm]
  simp only [readParameters, hitems, Parameters.ofItems_filter_isParameter]

end Children

/-- The parameters of a parameter list are grouped from its named children. A child that is no
parameter changes none of them: it is reported by one debug event, unless it is a comment. -/
theorem readParameters_grouped (source : Source) (t : SyntaxTree) :
    Grouped source t.namedChildren (t.readParameters source).value ∧
    ({ t with children := t.children.filter isParameter }.readParameters source).value =
      (t.readParameters source).value ∧
    (t.readParameters source).log =
      (t.namedChildren.filter fun child => !child.isParameter && !child.isComment).map
        (fun child => .unknownParameter child.type) ∧
    ∀ event ∈ (t.readParameters source).log, event.level = .debug := by
  have hlog : (t.readParameters source).log =
      (t.namedChildren.filter fun child => !child.isParameter && !child.isComment).map
        (fun child => .unknownParameter child.type) :=
    filterMap_parameterItem (event?_parameterItem source) t.namedChildren
  refine ⟨grouped_ofItems source t.namedChildren, readParameters_value_filter source t, hlog, ?_⟩
  intro event hevent
  rw [hlog, List.mem_map] at hevent
  obtain ⟨child, -, rfl⟩ := hevent
  rfl

end SyntaxTree

end RubySig.Ruby
