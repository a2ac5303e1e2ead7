import RubySig.Listing
import RubySig.Proofs.OutlineExactness
import RubySig.Proofs.ParameterGroups
import RubySig.Proofs.SingletonBody

/-!
# Signatures of definitions without comments

A method without a comment has one method type, in which everything is `untyped`. Its text is told
here from the children of the parameter list alone: which of them get a place in it, in which order
and under which names. The way there goes through the groups of parameters, the slots of the
function type and the renderer, each of which has an order of its own.

Parameters that take an argument apart, posts, forwarded arguments, refused keywords and blocks have
no place in the text, and neither has a child of an unknown type.
-/

namespace RubySig

open RubySig.Rbs
open RubySig.Ruby

namespace Ruby.SyntaxTree

/-- A parameter without a type: its mark, `untyped`, and its name after a blank if it has one. -/
def untypedText (mark : String) : Option String → String
  | none => mark ++ "untyped"
  | some name => mark ++ "untyped " ++ name

/-- The names of the keywords that have a default, or of those that have none, each once and in the
order in which they first occur. -/
def keywordNames (source : Source) (hasDefault : Bool) (nodes : List SyntaxTree) : List String :=
  ((nodes.filter fun t => t.type == "keyword_parameter" && (t.child? "value").isSome == hasDefault).map
    fun t => t.fieldText source "name").eraseDups

/-- The texts of the children of a parameter list in a signature without types. -/
def untypedTexts (source : Source) (nodes : List SyntaxTree) : List String :=
  ((nodes.takeWhile (!·.endsRequired)).filter (·.type == "identifier")).map
      (fun t => untypedText "" (some (t.text source)))
    ++ (nodes.filter (·.type == "optional_parameter")).map
      (fun t => untypedText "?" (some (t.fieldText source "name")))
    ++ ((lastOfType? ["splat_parameter", "forward_parameter"] nodes).toList.filter
      (·.type == "splat_parameter")).map (fun t => untypedText "*" (t.fieldText? source "name"))
    ++ (keywordNames source false nodes).map (fun name => name ++ ": untyped")
    ++ (keywordNames source true nodes).map (fun name => "?" ++ name ++ ": untyped")
    ++ ((lastOfType? ["hash_splat_parameter", "hash_splat_nil", "forward_parameter"] nodes).toList.filter
      (·.type == "hash_splat_parameter")).map (fun t => untypedText "**" (t.fieldText? source "name"))

/-- The signature of a definition without types. -/
def untypedSignature (source : Source) (t : SyntaxTree) : String :=
  match t.child? "parameters" with
  | none => "() -> untyped"
  | some list => "(" ++ ", ".intercalate (untypedTexts source list.namedChildren) ++ ") -> untyped"

end Ruby.SyntaxTree

namespace Signature

open RubySig.Ruby.SyntaxTree

/-- The text of a parameter without a type. -/
theorem append_render_untyped (mark : String) (name : Option String) :
    mark ++ Param.render ⟨name, .untyped⟩ = untypedText mark name := by
  cases name <;> simp [Param.render, Ty.render, untypedText, String.append_assoc]

/-- The text of a keyword without a type. -/
theorem untypedText_keyword (key : String) : untypedText (key ++ ": ") none = key ++ ": untyped" := by
  rw [untypedText, String.append_assoc]
  rfl

/-- Without stated types nothing has one. -/
@[simp]
theorem typeOf_nil (name : String) : typeOf [] name = .untyped := rfl

/-- Without stated types the rest is untyped. -/
@[simp]
theorem restType_nil (container : String) (pick : List Ty → Option Ty) (name : Option String) :
    restType [] container pick name = .untyped := by
  cases name <;> rfl

/-- Without stated types there is no block. -/
@[simp]
theorem blockSlot?_nil_value (block : Option BlockParameter) : (blockSlot? [] block).value = none := by
  cases block with
  | none => rfl
  | some block => obtain ⟨_ | _⟩ := block <;> rfl

section Slots

variable (source : Source) (nodes : List SyntaxTree)

/-- Required parameters have a slot if they are names. -/
theorem requiredPositionals_untyped :
    (functionType [] none (.ofItems (nodes.map (parameterItem source)))).requiredPositionals =
      ((nodes.takeWhile (!·.endsRequired)).filter (·.type == "identifier")).map
        fun t => ⟨some (t.text source), .untyped⟩ := by
  have hslot (t : SyntaxTree) :
      (t.parameterItem source).positional?.bind (requiredSlot []) =
        if t.type == "identifier" then some ⟨some (t.text source), .untyped⟩ else none := by
    rw [positional?_parameterItem]
    by_cases h : t.type = "identifier"
    · simp [h, requiredSlot]
    · by_cases h' : t.type = "destructured_parameter" <;> simp [h, h', requiredSlot]
  rw [functionType, Parameters.ofItems_eq]
  simp only [List.filterMap_filterMap, takeWhile_parameterItem]
  exact filterMap_parameterItem hslot _

/-- Each optional parameter has an untyped slot under its name. -/
theorem optionalPositionals_untyped :
    (functionType [] none (.ofItems (nodes.map (parameterItem source)))).optionalPositionals =
      (nodes.filter (·.type == "optional_parameter")).map
        fun t => ⟨some (t.fieldText source "name"), .untyped⟩ := by
  rw [functionType, Parameters.ofItems_eq]
  simp only [filterMap_parameterItem (optional?_parameterItem source), List.map_map]
  rfl

/-- Of the rest parameters the last one counts, and it has a slot unless it forwards. -/
theorem restPositionals_untyped :
    (functionType [] none (.ofItems (nodes.map (parameterItem source)))).restPositionals.toList =
      ((lastOfType? ["splat_parameter", "forward_parameter"] nodes).toList.filter
        (·.type == "splat_parameter")).map fun t => ⟨t.fieldText? source "name", .untyped⟩ := by
  rw [functionType, Parameters.ofItems_eq]
  simp only [filterMap_parameterItem (rest?_parameterItem source), List.getLast?_map, lastOfType?]
  cases (nodes.filter fun t => ["splat_parameter", "forward_parameter"].contains t.type).getLast? with
  | none => rfl
  | some t => by_cases h : t.type = "splat_parameter" <;> simp [restSlot, h]

/-- The keywords with a default, or those without, have one slot for each name. -/
theorem ofPairs_keywords_untyped (hasDefault : Bool) {slot : Keyword → Option (String × Param)}
    (hrequired : ∀ name, slot (.required name) = if hasDefault then none else some (name, ⟨none, .untyped⟩))
    (hoptional : ∀ name default,
      slot (.optional name default) = if hasDefault then some (name, ⟨none, .untyped⟩) else none) :
    Keyed.ofPairs ((Parameters.ofItems (nodes.map (parameterItem source))).keywords.filterMap slot) =
      (keywordNames source hasDefault nodes).map fun name => (name, ⟨none, .untyped⟩) := by
  have hslot (t : SyntaxTree) :
      (t.parameterItem source).keyword?.bind slot =
        if t.type == "keyword_parameter" && (t.child? "value").isSome == hasDefault then
          some (t.fieldText source "name", ⟨none, .untyped⟩)
        else none := by
    rw [keyword?_parameterItem]
    by_cases h : t.type = "keyword_parameter"
    · cases hvalue : t.child? "value" <;> cases hasDefault <;>
        simp [h, hvalue, fieldText?, hrequired, hoptional]
    · simp [h]
  have hslots := @filterMap_parameterItem _ source (fun item => item.keyword?.bind slot) _ _ hslot nodes
  rw [Parameters.ofItems_eq, List.filterMap_filterMap, hslots, keywordNames, ← Keyed.ofPairs_map,
    List.map_map]
  rfl

/-- Of the rests of the keywords the last one counts, and it has a slot if it takes keywords by
itself. -/
theorem restKeywords_untyped :
    (functionType [] none (.ofItems (nodes.map (parameterItem source)))).restKeywords.toList =
      ((lastOfType? ["hash_splat_parameter", "hash_splat_nil", "forward_parameter"] nodes).toList.filter
        (·.type == "hash_splat_parameter")).map fun t => ⟨t.fieldText? source "name", .untyped⟩ := by
  rw [functionType, Parameters.ofItems_eq]
  simp only [filterMap_parameterItem (keywordRest?_parameterItem source), List.getLast?_map, lastOfType?]
  cases (nodes.filter fun t =>
    ["hash_splat_parameter", "hash_splat_nil", "forward_parameter"].contains t.type).getLast? with
  | none => rfl
  | some t =>
    by_cases h : t.type = "hash_splat_parameter"
    · simp [keywordRestSlot, h]
    · by_cases h' : t.type = "hash_splat_nil" <;> simp [keywordRestSlot, h, h']

/-- The texts of the parameters of a list without types. -/
theorem parameterTexts_untyped :
    (functionType [] none (.ofItems (nodes.map (parameterItem source)))).parameterTexts =
      untypedTexts source nodes := by
  have htrailing :
      (functionType [] none (.ofItems (nodes.map (parameterItem source)))).trailingPositionals = [] := rfl
  have hrequired :
      (functionType [] none (.ofItems (nodes.map (parameterItem source)))).requiredKeywords = _ :=
    ofPairs_keywords_untyped source nodes false (fun _ => rfl) fun _ _ => rfl
  have hoptional :
      (functionType [] none (.ofItems (nodes.map (parameterItem source)))).optionalKeywords = _ :=
    ofPairs_keywords_untyped source nodes true (fun _ => rfl) fun _ _ => rfl
  rw [FunctionType.parameterTexts_eq_append]
  simp only [Param.renderEach_eq_map, Param.renderRest_eq_map, Param.renderKeywords_eq_map,
    requiredPositionals_untyped, optionalPositionals_untyped, restPositionals_untyped, htrailing,
    hrequired, hoptional, restKeywords_untyped, List.map_map, Function.comp_def,
    append_render_untyped, untypedText_keyword, untypedTexts, List.map_nil, List.append_nil]
  simp only [String.empty_append]

end Slots

-- The third parameter comes after an optional one and is left out.
example :
    untypedTexts (.ofString "a, b = 1, c, k:, **o") [
      { type := "identifier", start := 0, stop := 1 },
      { type := "optional_parameter", start := 3, stop := 8, children := [
        { type := "identifier", start := 3, stop := 4, field := some "name" },
        { type := "integer", start := 7, stop := 8, field := some "value" }] },
      { type := "identifier", start := 10, stop := 11 },
      { type := "keyword_parameter", start := 13, stop := 15, children := [
        { type := "identifier", start := 13, stop := 14, field := some "name" }] },
      { type := "hash_splat_parameter", start := 17, stop := 20, children := [
        { type := "identifier", start := 19, stop := 20, field := some "name" }] }] =
      ["untyped a", "?untyped b", "k: untyped", "**untyped o"] := by
  decide

/-- The text of the method type of a definition that is read of a node, without types. -/
theorem render_methodType_untyped (source : Source) (t : SyntaxTree) :
    (methodType [] none (t.readDefinition source).value.parameters).value.render =
      untypedSignature source t := by
  have hreturn (p : Parameters) : (functionType [] none p).returnText = "untyped" := rfl
  have hread : (t.readDefinition source).value.parameters =
      (t.child? "parameters").map fun list =>
        Parameters.ofItems (list.namedChildren.map (parameterItem source)) := by
    cases h : t.child? "parameters" <;> simp [readDefinition, readParameters?, readParameters, h]
  rw [hread]
  simp only [methodType, Logged.value_bind, Logged.value_pure, blockSlot?_nil_value, MethodType.render,
    FunctionType.parameterList, parenthesized, hreturn]
  cases h : t.child? "parameters" with
  | none => simp only [untypedSignature, h]; rfl
  | some list =>
    simp only [untypedSignature, h, Option.map_some, Option.getD_some, parameterTexts_untyped,
      List.isEmpty_nil, if_true, String.empty_append, String.append_empty, String.append_assoc]
    rfl

end Signature

/-- A method without a comment has the one method type of its parameter list. -/
theorem MethodDeclaration.methodTypes_value_of_silent (d : MethodDeclaration) (h : d.comments = none) :
    d.methodTypes.value = [(Signature.methodType [] none d.definition.parameters).value] := by
  unfold MethodDeclaration.methodTypes
  rw [h]
  rfl

namespace Outline

open RubySig.Ruby.SyntaxTree

/-- The method that a statement declares is the definition that it has or tags. -/
theorem DefinitionAt.declares (ctx : Context) (mode : Mode) {t node : SyntaxTree}
    (h : DefinitionAt ctx.source t node) :
    ∃ tag, Declares ctx mode t
      (.method ⟨mode.place (node.readDefinition ctx.source).value, ctx.comments t.line, tag⟩) := by
  cases h with
  | itself htype => exact ⟨none, .method htype⟩
  | tagged visibility node htags =>
    exact ⟨some visibility, .tagged visibility node _ htags htags.arguments_readCall⟩

/-- The one signature that is shown of a method, as its only overload and in a listing. -/
structure ShowsSignature (d : Declaration) (text : String) : Prop where
  overload : ∃ method type, d = .method method ∧
    method.overloads.value = [⟨type, []⟩] ∧ type.render = text
  listing : ∀ settings, (Listing.describe settings d).value.signature = Text.Markup.escape text

/-- A method that is read of a node and has no comment shows the signature of the node without
types. -/
theorem showsSignature_untyped (source : Source) (mode : Mode) (node : SyntaxTree)
    (tag : Option Visibility) :
    ShowsSignature (.method ⟨mode.place (node.readDefinition source).value, none, tag⟩)
      (untypedSignature source node) := by
  have hparameters : (mode.place (node.readDefinition source).value).parameters =
      (node.readDefinition source).value.parameters := by
    unfold Mode.place
    split <;> rfl
  have htypes := MethodDeclaration.methodTypes_value_of_silent
    ⟨mode.place (node.readDefinition source).value, none, tag⟩ rfl
  rw [hparameters] at htypes
  have hrender := Signature.render_methodType_untyped source node
  constructor
  · refine ⟨_, _, rfl, ?_, hrender⟩
    simp [MethodDeclaration.overloads, htypes]
  · intro settings
    simp [Listing.describe, Listing.describeMethod, htypes, hrender]

/-- Without comments, every definition that an outline comes by shows one signature, which is told
from the children of its parameter list: names, optional parameters, the last rest parameter,
keywords without and with a default, and the last rest of the keywords, all `untyped`. -/
theorem ofTree_untypedSignature (source : Source) (root : SyntaxTree) :
    ∃ sites, Origins ⟨source, fun _ => none⟩ root sites ∧
      List.Forall₂ (fun site entry => ∀ node, DefinitionAt source site.statement node →
        ShowsSignature entry.declaration (untypedSignature source node))
        sites (ofTree ⟨source, fun _ => none⟩ root).value := by
  refine ⟨_, origins_declaringSites _ root, (forall₂_declaringSites _ root).imp ?_⟩
  intro site entry hentry node hnode
  obtain ⟨tag, hdeclares⟩ := hnode.declares ⟨source, fun _ => none⟩ site.body.mode
  rw [← (declares_iff_of_entryAt? hentry _).mp hdeclares]
  exact showsSignature_untyped source site.body.mode node tag

end Outline

end RubySig
