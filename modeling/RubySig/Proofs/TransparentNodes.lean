import RubySig.Proofs.OutlineEntries

/-!
# Comments and tokens make no difference to an outline

A comment or a token without a name can stand between any two children of any node of a tree. Such
a node is a filler, and taking all fillers away leaves everything that is read of a tree as it was:
no field holds a filler, and whatever goes through the named children of a node passes over the
comments among them. So two trees that differ only by fillers have the same outline, with the same
entries and the same log events.

The nodes that stay keep their positions, so the text of a filler is there in the source from the
start. A comment that is held under a field is no filler.
-/

namespace RubySig.Ruby.SyntaxTree

/-- A node that only takes up room among its siblings: a token or a comment under no field. -/
def isFiller (t : SyntaxTree) : Bool :=
  t.field.isNone && (!t.named || t.isComment)

mutual

/-- Fillers put in among the children of any nodes of a tree. -/
inductive Padded : SyntaxTree → SyntaxTree → Prop where
  | node {type : String} {start stop row : Nat} {field : Option String} {named : Bool}
    {children padded : List SyntaxTree} (hchildren : PaddedEach children padded) :
    Padded ⟨type, start, stop, row, field, named, children⟩
      ⟨type, start, stop, row, field, named, padded⟩

/-- Fillers put in among nodes, and among the children of any nodes of theirs. -/
inductive PaddedEach : List SyntaxTree → List SyntaxTree → Prop where
  | nil : PaddedEach [] []
  | keep {t t' : SyntaxTree} {nodes padded : List SyntaxTree} (hnode : Padded t t')
    (hrest : PaddedEach nodes padded) : PaddedEach (t :: nodes) (t' :: padded)
  | put {filler : SyntaxTree} {nodes padded : List SyntaxTree} (hfiller : filler.isFiller = true)
    (hrest : PaddedEach nodes padded) : PaddedEach nodes (filler :: padded)

end

mutual

/-- Nothing need be put in. -/
theorem Padded.refl : (t : SyntaxTree) → Padded t t
  | ⟨_, _, _, _, _, _, children⟩ => .node (.refl children)

/-- Nothing need be put in among nodes. -/
theorem PaddedEach.refl : (nodes : List SyntaxTree) → PaddedEach nodes nodes
  | [] => .nil
  | t :: rest => .keep (.refl t) (.refl rest)

end

/-- Several fillers can be put in at one place. -/
theorem paddedEach_append {fillers nodes padded : List SyntaxTree}
    (hfillers : ∀ filler ∈ fillers, filler.isFiller = true) (h : PaddedEach nodes padded) :
    PaddedEach nodes (fillers ++ padded) := by
  induction fillers with
  | nil => exact h
  | cons filler rest ih =>
    have hrest := ih fun other hother => hfillers other (List.mem_cons_of_mem filler hother)
    exact .put (hfillers filler List.mem_cons_self) hrest

mutual

/-- The tree without its fillers. -/
def cleared : SyntaxTree → SyntaxTree
  | ⟨type, start, stop, row, field, named, children⟩ =>
    ⟨type, start, stop, row, field, named, clearedEach children⟩

/-- The nodes that are no fillers, without the fillers in them. -/
def clearedEach : List SyntaxTree → List SyntaxTree
  | [] => []
  | t :: rest => if t.isFiller then clearedEach rest else t.cleared :: clearedEach rest

end

mutual

/-- Putting fillers in does not change what is left without them. -/
theorem cleared_eq_of_padded {t t' : SyntaxTree} : Padded t t' → t'.cleared = t.cleared
  | .node hchildren => by rw [cleared, cleared, clearedEach_eq_of_paddedEach hchildren]

/-- Putting fillers in among nodes does not change what is left without them. -/
theorem clearedEach_eq_of_paddedEach {nodes padded : List SyntaxTree} :
    PaddedEach nodes padded → clearedEach padded = clearedEach nodes
  | .nil => rfl
  | @PaddedEach.keep t t' _ _ hnode hrest => by
    have hsame : t'.isFiller = t.isFiller := by cases hnode; rfl
    rw [clearedEach, clearedEach, hsame, cleared_eq_of_padded hnode,
      clearedEach_eq_of_paddedEach hrest]
  | .put hfiller hrest => by
    rw [clearedEach, if_pos hfiller, clearedEach_eq_of_paddedEach hrest]

end

section Cleared

variable (source : Source) (t : SyntaxTree)

/-- A node without its fillers has its type. -/
@[simp]
theorem type_cleared : t.cleared.type = t.type := by
  cases t; rfl

/-- A node without its fillers has its field. -/
@[simp]
theorem field_cleared : t.cleared.field = t.field := by
  cases t; rfl

/-- A node without its fillers is named if it was. -/
@[simp]
theorem named_cleared : t.cleared.named = t.named := by
  cases t; rfl

/-- A node without its fillers is on its line. -/
@[simp]
theorem line_cleared : t.cleared.line = t.line := by
  cases t; rfl

/-- A node without its fillers has its text. -/
@[simp]
theorem text_cleared : t.cleared.text source = t.text source := by
  cases t; rfl

/-- A definition without its fillers is a definition. -/
@[simp]
theorem isDefinition_cleared : t.cleared.isDefinition = t.isDefinition := by
  cases t; rfl

/-- A comment without its fillers is a comment. -/
@[simp]
theorem isComment_cleared : t.cleared.isComment = t.isComment := by
  cases t; rfl

/-- The name of a method without its fillers is one. -/
@[simp]
theorem isMethodName_cleared : t.cleared.isMethodName = t.isMethodName := by
  cases t; rfl

/-- The children of a node without its fillers are those that are no fillers. -/
theorem children_cleared : t.cleared.children = clearedEach t.children := by
  cases t; rfl

/-- A comment has the type of comments. -/
theorem type_of_isComment (h : t.isComment = true) : t.type = "comment" :=
  beq_iff_eq.mp h

/-- A filler is held under no field. -/
theorem field_of_isFiller (h : t.isFiller = true) : t.field = none := by
  rw [isFiller, Bool.and_eq_true, Option.isNone_iff_eq_none] at h
  exact h.1

/-- A named node that is a filler is a comment. -/
theorem isComment_of_isFiller (hnamed : t.named = true) (hfiller : t.isFiller = true) :
    t.isComment = true := by
  simp only [isFiller, hnamed, Bool.not_true, Bool.false_or, Bool.and_eq_true] at hfiller
  exact hfiller.2

/-- A test for another type need not be told about comments. -/
theorem type_beq_and_not_isComment {type : String} (h : type ≠ "comment") :
    (t.type == type && !t.isComment) = (t.type == type) := by
  by_cases htype : t.type = type
  · simp [isComment, htype, h]
  · simp [htype]

/-- No field holds a filler. -/
theorem find?_field_clearedEach (field : String) (nodes : List SyntaxTree) :
    ((clearedEach nodes).find? fun child => child.field == some field) =
      (nodes.find? fun child => child.field == some field).map cleared := by
  induction nodes with
  | nil => rfl
  | cons node rest ih =>
    rw [clearedEach]
    split
    · rename_i hfiller
      simp [field_of_isFiller node hfiller, ih]
    · cases h : node.field == some field <;> simp [List.find?, h, ih]

/-- The child under a field is the same without the fillers. -/
@[simp]
theorem child?_cleared (field : String) : t.cleared.child? field = (t.child? field).map cleared := by
  rw [child?, children_cleared, find?_field_clearedEach, child?]

/-- The text under a field is the same without the fillers, if there is one. -/
@[simp]
theorem fieldText?_cleared (field : String) :
    t.cleared.fieldText? source field = t.fieldText? source field := by
  cases h : t.child? field <;> simp [fieldText?, h]

/-- The text under a field is the same without the fillers. -/
@[simp]
theorem fieldText_cleared (field : String) :
    t.cleared.fieldText source field = t.fieldText source field := by
  rw [fieldText, fieldText?_cleared, fieldText]

/-- The named children that are no comments stay. Arguments are looked for among these, and so, as it
turns out, is everything else that is not held under a field. -/
@[simp]
theorem argumentNodes_cleared : t.cleared.argumentNodes = t.argumentNodes.map cleared := by
  simp only [argumentNodes, namedChildren, children_cleared, List.filter_filter]
  induction t.children with
  | nil => rfl
  | cons node rest ih =>
    rw [clearedEach]
    split
    · rename_i hfiller
      cases hnamed : node.named with
      | false => simp [hnamed, ih]
      | true => simp [isComment_of_isFiller node hnamed hfiller, ih]
    · cases h : !node.isComment && node.named <;> simp_all

/-- An interpolated part is not a comment. -/
theorem isInterpolated_eq_any :
    t.isInterpolated = t.argumentNodes.any fun child => child.type == "interpolation" := by
  rw [isInterpolated, argumentNodes, List.any_filter]
  congr 1
  funext child
  rw [Bool.and_comm, type_beq_and_not_isComment child (by decide)]

/-- The text between the quotes of a symbol is not that of a comment. -/
theorem quotedContent_eq_join :
    t.quotedContent source =
      String.join ((t.argumentNodes.filter fun child => child.type == "string_content").map
        (text source)) := by
  rw [quotedContent, argumentNodes, List.filter_filter]
  congr 3
  funext child
  rw [type_beq_and_not_isComment child (by decide)]

/-- A comment among parameters is read as one. -/
theorem parameterItem_of_isComment (h : t.isComment = true) : t.parameterItem source = .comment := by
  simp [parameterItem, type_of_isComment t h]

/-- Comments add nothing to parameters. -/
theorem foldl_add_filter_isComment (p : Parameters) (nodes : List SyntaxTree) :
    ((nodes.filter fun child => !child.isComment).map (parameterItem source)).foldl Parameters.add p =
      (nodes.map (parameterItem source)).foldl Parameters.add p := by
  induction nodes generalizing p with
  | nil => rfl
  | cons child rest ih =>
    cases h : child.isComment with
    | false => simp [h, ih]
    | true => simp [h, ih, parameterItem_of_isComment source child h, Parameters.add]

/-- Comments are not reported. -/
theorem filterMap_event?_filter_isComment (nodes : List SyntaxTree) :
    ((nodes.filter fun child => !child.isComment).map (parameterItem source)).filterMap
        ParameterItem.event? =
      (nodes.map (parameterItem source)).filterMap ParameterItem.event? := by
  rw [List.filterMap_map, List.filterMap_map, List.filterMap_filter]
  congr 1
  funext child
  cases h : child.isComment with
  | false => rfl
  | true => simp [parameterItem_of_isComment source child h, ParameterItem.event?]

/-- The parameters of a parameter list are read of its children that are no comments. -/
theorem readParameters_eq_argumentNodes :
    t.readParameters source =
      ⟨Parameters.ofItems (t.argumentNodes.map (parameterItem source)),
        (t.argumentNodes.map (parameterItem source)).filterMap ParameterItem.event?⟩ := by
  simp only [readParameters, argumentNodes, Parameters.ofItems, foldl_add_filter_isComment,
    filterMap_event?_filter_isComment]

/-- Fillers do not decide whether a part of a node is computed. -/
@[simp]
theorem isInterpolated_cleared : t.cleared.isInterpolated = t.isInterpolated := by
  simp [isInterpolated_eq_any, List.any_map, Function.comp_def]

/-- The text between quotes is the same without the fillers. -/
@[simp]
theorem quotedContent_cleared : t.cleared.quotedContent source = t.quotedContent source := by
  simp [quotedContent_eq_join, List.filter_map, Function.comp_def]

/-- The value of a symbol is the same without the fillers. -/
@[simp]
theorem symbolValue?_cleared : t.cleared.symbolValue? source = t.symbolValue? source := by
  simp [symbolValue?]

/-- An expression is read the same without the fillers. -/
@[simp]
theorem readExpr_cleared : t.cleared.readExpr source = t.readExpr source := by
  simp [readExpr]

/-- A parameter is read the same without the fillers in it. -/
@[simp]
theorem parameterItem_cleared : t.cleared.parameterItem source = t.parameterItem source := by
  simp [parameterItem]

/-- A parameter list is read the same without the fillers. -/
@[simp]
theorem readParameters_cleared : t.cleared.readParameters source = t.readParameters source := by
  simp [readParameters_eq_argumentNodes, Function.comp_def]

/-- The receiver of a definition is the same without the fillers. -/
@[simp]
theorem receiver?_cleared : t.cleared.receiver? source = t.receiver? source := by
  simp [receiver?, Function.comp_def]

/-- A definition is read alike without fillers. -/
@[simp]
theorem readDefinition_cleared : t.cleared.readDefinition source = t.readDefinition source := by
  cases h : t.child? "parameters" <;> simp [readDefinition, readParameters?, h]

/-- An alias is read alike without fillers. -/
@[simp]
theorem readAlias_cleared : t.cleared.readAlias source = t.readAlias source := by
  have hname (node : Option SyntaxTree) :
      aliasName source (node.map cleared) = aliasName source node := by
    cases node <;> simp [aliasName]
  simp [readAlias, hname]

/-- An argument is read the same without the fillers in it. -/
@[simp]
theorem readArgument_cleared : t.cleared.readArgument source = t.readArgument source := by
  simp [readArgument]

/-- Arguments are read the same without the fillers in them. -/
@[simp]
theorem readArguments_cleared (nodes : List SyntaxTree) :
    readArguments source (nodes.map cleared) = readArguments source nodes := by
  induction nodes with
  | nil => rfl
  | cons node rest ih => simp [readArguments, ih]

/-- A call is read alike without fillers. -/
@[simp]
theorem readCall_cleared : t.cleared.readCall source = t.readCall source := by
  cases h : t.child? "arguments" <;>
    simp [readCall, readArgumentList?, h, Function.comp_def]

end Cleared

end RubySig.Ruby.SyntaxTree

namespace RubySig.Outline

open RubySig.Rbs
open RubySig.Ruby
open RubySig.Ruby.SyntaxTree

section Cleared

variable (ctx : Context) (owner : Option String) (mode : Mode) (visibility : Visibility)
  (t : SyntaxTree)

/-- A definition in a body is read the same without the fillers. -/
@[simp]
theorem placedDefinition_cleared : placedDefinition ctx mode t.cleared = placedDefinition ctx mode t := by
  simp [placedDefinition]

/-- The definitions among the arguments are the same without the fillers. -/
theorem definitionArguments_cleared :
    definitionArguments t.cleared = (definitionArguments t).map cleared := by
  cases h : t.child? "arguments" <;>
    simp [definitionArguments_eq_filter, givenArguments, h, List.filter_map, Function.comp_def]

/-- A call to a visibility declares the same without the fillers. -/
theorem visibilityDeclaration_cleared (call : Call) :
    visibilityDeclaration ctx mode t.cleared visibility call =
      visibilityDeclaration ctx mode t visibility call := by
  unfold visibilityDeclaration
  rw [definitionArguments_cleared]
  match call.argumentList, definitionArguments t with
  | [], _ => rfl
  | [_], [] => rfl
  | [_], [node] => simp
  | [_], _ :: _ :: _ => rfl
  | _ :: _ :: _, _ => rfl

/-- A call declares the same without the fillers. -/
theorem callDeclaration_cleared : callDeclaration ctx mode t.cleared = callDeclaration ctx mode t := by
  simp [callDeclaration, visibilityDeclaration_cleared]

/-- Any other statement declares the same without the fillers. -/
theorem otherDeclaration_cleared : otherDeclaration ctx mode t.cleared = otherDeclaration ctx mode t := by
  have hglobal : isGlobalAlias t.cleared = isGlobalAlias t := by
    cases h : t.child? "name" <;> simp [isGlobalAlias, h]
  simp [otherDeclaration, hglobal]

/-- A statement declares the same without the fillers in it. -/
theorem declaration?_cleared : declaration? ctx mode t.cleared = declaration? ctx mode t := by
  simp [declaration?, callDeclaration_cleared, otherDeclaration_cleared]

/-- Fillers do not decide whether a body is that of `self`. -/
@[simp]
theorem isOfSelf_cleared : isOfSelf t.cleared = isOfSelf t := by
  cases h : t.child? "value" <;> simp [isOfSelf, h]

/-- A statement that opens no body has the same entry without the fillers. -/
theorem leaf_cleared :
    leaf ctx owner mode visibility t.cleared = leaf ctx owner mode visibility t := by
  simp [leaf, declaration?_cleared]

end Cleared

/-- A comment declares nothing, reports nothing and leaves the visibility as it is. -/
theorem statement_of_isComment (ctx : Context) (owner : Option String) (mode : Mode)
    (visibility : Visibility) (t : SyntaxTree) (h : t.isComment = true) :
    statement ctx owner mode visibility t = pure ([], visibility) := by
  have htype := type_of_isComment t h
  simp [statement_eq, opensScope, opensSingleton, leaf, declaration?, isDefinition, h, htype]

mutual

/-- A statement is gone through alike without the fillers in it. -/
theorem statement_cleared (ctx : Context) (owner : Option String) (mode : Mode)
    (visibility : Visibility) :
    (t : SyntaxTree) → statement ctx owner mode visibility t.cleared = statement ctx owner mode visibility t
  | ⟨type, start, stop, row, field, named, children⟩ => by
    have hbody (owner : Option String) (mode : Mode) :
        bodyOf ctx owner mode (clearedEach children) = bodyOf ctx owner mode children :=
      bodyOf_clearedEach ctx owner mode children
    simp only [statement_eq, opensScope, opensSingleton, isOfSelf_cleared, type_cleared, line_cleared,
      fieldText_cleared, leaf_cleared, children_cleared, hbody]

/-- The body among some nodes has the same entries without the fillers. -/
theorem bodyOf_clearedEach (ctx : Context) (owner : Option String) (mode : Mode) :
    (nodes : List SyntaxTree) → bodyOf ctx owner mode (clearedEach nodes) = bodyOf ctx owner mode nodes
  | [] => rfl
  | ⟨type, start, stop, row, field, named, children⟩ :: rest => by
    have hstatements := statements_clearedEach ctx owner mode .pub children
    have hrest := bodyOf_clearedEach ctx owner mode rest
    rw [clearedEach]
    split
    · rename_i hfiller
      have hfield : field = none := field_of_isFiller _ hfiller
      simp [bodyOf, hfield, hrest]
    · simp only [cleared, bodyOf, hstatements, hrest]

/-- The statements of a body have the same entries without the fillers. -/
theorem statements_clearedEach (ctx : Context) (owner : Option String) (mode : Mode)
    (visibility : Visibility) : (nodes : List SyntaxTree) →
    statements ctx owner mode visibility (clearedEach nodes) = statements ctx owner mode visibility nodes
  | [] => rfl
  | t :: rest => by
    have hrest (visibility : Visibility) := statements_clearedEach ctx owner mode visibility rest
    rw [clearedEach]
    split
    · rename_i hfiller
      -- A token is no statement, and a comment is one that does nothing.
      cases hnamed : t.named with
      | false => simp [statements, hnamed, hrest]
      | true =>
        have hcomment := isComment_of_isFiller t hnamed hfiller
        simp [statements, hnamed, statement_of_isComment ctx owner mode visibility t hcomment, hrest]
    · simp only [statements, named_cleared, statement_cleared ctx owner mode visibility t, hrest]

end

/-- The outline of a tree is that of the tree without its fillers. -/
theorem ofTree_cleared (ctx : Context) (root : SyntaxTree) :
    ofTree ctx root.cleared = ofTree ctx root := by
  rw [ofTree, children_cleared, statements_clearedEach, ofTree]

/-- Comments and tokens that are put into a tree, wherever they stand, change neither the entries of
its outline nor what is reported. -/
theorem ofTree_eq_of_padded (ctx : Context) {root padded : SyntaxTree} (h : Padded root padded) :
    ofTree ctx padded = ofTree ctx root := by
  rw [← ofTree_cleared ctx padded, cleared_eq_of_padded h, ofTree_cleared]

/-- The tree of `private(def f(a); end)`, with given nodes before the call, in front of its argument
and in front of the parameter. -/
def taggedMethodAmong (fillers : List SyntaxTree) : SyntaxTree :=
  { type := "program", start := 0, stop := 26, children := fillers ++ [
    { type := "call", start := 0, stop := 22, children := [
      { type := "identifier", start := 0, stop := 7, field := some "method" },
      { type := "argument_list", start := 7, stop := 22, field := some "arguments",
        children := fillers ++ [
          { type := "method", start := 8, stop := 21, children := [
            { type := "identifier", start := 12, stop := 13, field := some "name" },
            { type := "method_parameters", start := 13, stop := 16, field := some "parameters",
              children := fillers ++ [{ type := "identifier", start := 14, stop := 15 }] }] }] }] }] }

/-- Any fillers can be put in before the call, its argument and the parameter. -/
theorem padded_taggedMethodAmong {fillers : List SyntaxTree}
    (h : ∀ filler ∈ fillers, filler.isFiller = true) :
    Padded (taggedMethodAmong []) (taggedMethodAmong fillers) := by
  refine .node (paddedEach_append h (.keep (.node ?_) .nil))
  -- In the call only the argument list changes, and in the definition only the parameter list.
  refine .keep (.refl _) (.keep (.node (paddedEach_append h (.keep (.node ?_) .nil))) .nil)
  exact .keep (.refl _) (.keep (.node (paddedEach_append h (.refl _))) .nil)

/-- A bracket and a comment that are put in at three depths leave the tagged method as it was. -/
theorem ofTree_taggedMethodAmong :
    let ctx : Context := ⟨.ofString "private(def f(a); end) # x", fun _ => none⟩
    let fillers : List SyntaxTree :=
      [{ type := "(", start := 7, stop := 8, named := false }, { type := "comment", start := 23, stop := 26 }]
    (ofTree ctx (taggedMethodAmong [])).value.map Entry.visibility = [.priv] ∧
      Padded (taggedMethodAmong []) (taggedMethodAmong fillers) ∧
      ofTree ctx (taggedMethodAmong fillers) = ofTree ctx (taggedMethodAmong []) := by
  intro ctx fillers
  have hpadded : Padded (taggedMethodAmong []) (taggedMethodAmong fillers) :=
    padded_taggedMethodAmong (by decide)
  exact ⟨by decide, hpadded, ofTree_eq_of_padded ctx hpadded⟩

end RubySig.Outline
