import RubySig.Proofs.BracketedText
import RubySig.Rbs.Render

/-!
# The text of a parameter list can be taken apart

Types are written with commas and brackets of their own: arguments of classes, parameter lists of
procs, clauses for `self`, parentheses around optional types. None of these shows outside of the
brackets that belong to it. So the text of a parameter list, cut at the commas outside of all
brackets, falls into the texts of the parameters, as long as no name in it has a comma or a bracket.

The induction is on the types that a type is made of, through all of its parameter lists.
-/

namespace RubySig.Rbs

open RubySig.Text.Brackets

namespace FunctionType

variable (f : FunctionType)

/-- All parameters, in the order in which a signature lists them. -/
def params : List Param :=
  f.requiredPositionals ++ f.optionalPositionals ++ f.restPositionals.toList ++ f.trailingPositionals
    ++ f.requiredKeywords.map Prod.snd ++ f.optionalKeywords.map Prod.snd ++ f.restKeywords.toList

/-- The names of the parameters and the keywords. -/
def ownNames : List String :=
  f.params.filterMap (·.name) ++ f.requiredKeywords.map Prod.fst ++ f.optionalKeywords.map Prod.fst

/-- The types of the parameters and of the result. -/
def parts : List Ty :=
  f.params.map (·.type) ++ [f.returnType]

end FunctionType

/-- The names in a type outside of the types that it is made of. -/
def Ty.ownNames : Ty → List String
  | .classInstance name _ => name.segments ++ [name.name]
  | .variable name => [name]
  | .proc function _ => function.ownNames
  | .untyped | .base _ | .optional _ | .union _ => []

/-- The types that a type is made of. -/
def Ty.parts : Ty → List Ty
  | .classInstance _ args => args
  | .optional type => [type]
  | .union types => types
  | .proc function selfType => function.parts ++ selfType.toList
  | .untyped | .base _ | .variable _ => []

/-- All names in a type have a property, at any depth. -/
inductive Ty.AllNames (P : String → Prop) : Ty → Prop where
  | intro {type : Ty} (own : ∀ name ∈ type.ownNames, P name)
    (parts : ∀ part ∈ type.parts, Ty.AllNames P part) : Ty.AllNames P type

/-- All names in a function type have a property, at any depth. -/
structure FunctionType.AllNames (P : String → Prop) (f : FunctionType) : Prop where
  own : ∀ name ∈ f.ownNames, P name
  parts : ∀ part ∈ f.parts, part.AllNames P

section Texts

/-- A word of the notation without commas and brackets is sealed. -/
theorem sealed_word (text : String) (h : IsPlain text := by decide) : Sealed text :=
  sealed_of_isPlain h

/-- Sealed texts joined by a sealed one are sealed. -/
theorem sealed_intercalate {separator : String} (hseparator : Sealed separator) {texts : List String}
    (h : ∀ text ∈ texts, Sealed text) : Sealed (separator.intercalate texts) :=
  intercalate_closed (sealed_word "") (fun _ _ hs ht => hs.append ht) hseparator h

/-- Sealed texts joined by commas leave the open brackets as they are. -/
theorem neutral_intercalate {texts : List String} (h : ∀ text ∈ texts, Sealed text) :
    Neutral (", ".intercalate texts).toList := by
  refine intercalate_closed (P := fun text => Neutral text.toList) (fun _ => rfl) ?_ ?_
    fun text htext => (h text htext).neutral
  · intro s t hs ht
    rw [String.toList_append]
    exact hs.append ht
  · intro stack
    rfl

/-- A neutral text in parentheses is sealed. -/
theorem sealed_parens {text : String} (h : Neutral text.toList) : Sealed ("(" ++ text ++ ")") :=
  sealed_of_enclosed h (by decide : ('(', ')') ∈ pairs) (by simp)

/-- A neutral text in square brackets is sealed. -/
theorem sealed_squares {text : String} (h : Neutral text.toList) : Sealed ("[" ++ text ++ "]") :=
  sealed_of_enclosed h (by decide : ('[', ']') ∈ pairs) (by simp)

/-- Sealed texts in square brackets after a name are sealed. -/
theorem sealed_bracketed {texts : List String} (h : ∀ text ∈ texts, Sealed text) :
    Sealed (bracketed texts) := by
  unfold bracketed
  split
  · exact sealed_word ""
  · exact sealed_squares (neutral_intercalate h)

/-- A qualified name with plain parts is sealed. -/
theorem sealed_qualifiedName {name : QualifiedName}
    (h : ∀ segment ∈ name.segments ++ [name.name], IsPlain segment) : Sealed name.render := by
  have hsegments : Sealed ("::".intercalate (name.segments ++ [name.name])) :=
    sealed_intercalate (sealed_word "::") fun segment hsegment =>
      sealed_of_isPlain (h segment hsegment)
  unfold QualifiedName.render
  split
  · exact (sealed_word "::").append hsegments
  · exact (sealed_word "").append hsegments

/-- A parameter with a plain name is sealed if its type is. -/
theorem sealed_param {param : Param} (hname : ∀ name ∈ param.name, IsPlain name)
    (htype : Sealed param.type.render) : Sealed param.render := by
  obtain ⟨_ | name, type⟩ := param
  · rwa [Param.render]
  · rw [Param.render]
    exact (htype.append (sealed_word " ")).append (sealed_of_isPlain (hname name rfl))

/-- The clause for the type of `self` is sealed. -/
theorem sealed_renderSelf {selfType : Option Ty} (h : ∀ type ∈ selfType, Sealed type.render) :
    Sealed (Ty.renderSelf "" selfType " ") := by
  cases selfType with
  | none =>
    rw [Ty.renderSelf]
    exact sealed_word ""
  | some type =>
    have hinner : Sealed ("self: " ++ type.render) := (sealed_word "self: ").append (h type rfl)
    have hclause : "[self: " ++ type.render ++ "]" = "[" ++ ("self: " ++ type.render) ++ "]" := by
      rw [← String.append_assoc]
      rfl
    rw [Ty.renderSelf, String.empty_append, hclause]
    exact (sealed_squares hinner.neutral).append (sealed_word " ")

end Texts

/-- The return type is shown as it is rendered. -/
theorem FunctionType.returnText_eq (f : FunctionType) : f.returnText = f.returnType.render := by
  cases f
  rw [FunctionType.returnText]

/-- The text of each parameter is sealed if its type is. -/
theorem FunctionType.sealed_parameterTexts {f : FunctionType} (hnames : ∀ name ∈ f.ownNames, IsPlain name)
    (htypes : ∀ param ∈ f.params, Sealed param.type.render) : ∀ text ∈ f.parameterTexts, Sealed text := by
  have hkeys : ∀ key ∈ f.requiredKeywords.map Prod.fst ++ f.optionalKeywords.map Prod.fst, IsPlain key := by
    intro key hkey
    exact hnames key (by rw [ownNames, List.append_assoc]; exact List.mem_append_right _ hkey)
  have hparams : ∀ param ∈ f.params, Sealed param.render := by
    intro param hparam
    refine sealed_param (fun name hname => hnames name ?_) (htypes param hparam)
    rw [ownNames, List.append_assoc]
    exact List.mem_append_left _ (List.mem_filterMap.mpr ⟨param, hparam, hname⟩)
  simp only [params, List.forall_mem_append, List.forall_mem_map] at hkeys hparams
  obtain ⟨⟨⟨⟨⟨⟨hreq, hopt⟩, hrest⟩, htrail⟩, hreqKw⟩, hoptKw⟩, hrestKw⟩ := hparams
  simp only [parameterTexts_eq_append, Param.renderEach_eq_map, Param.renderRest_eq_map,
    Param.renderKeywords_eq_map, List.forall_mem_append, List.forall_mem_map]
  have hmark (mark : String) (h : IsPlain mark) {param : Param} (hparam : Sealed param.render) :
      Sealed (mark ++ param.render) := (sealed_of_isPlain h).append hparam
  have hkey (mark : String) (h : IsPlain mark) {entry : String × Param} (hkey : IsPlain entry.1)
      (hparam : Sealed entry.2.render) : Sealed (mark ++ entry.1 ++ ": " ++ entry.2.render) :=
    (((sealed_of_isPlain h).append (sealed_of_isPlain hkey)).append (sealed_word ": ")).append hparam
  refine ⟨⟨⟨⟨⟨⟨?_, ?_⟩, ?_⟩, ?_⟩, ?_⟩, ?_⟩, ?_⟩
  · exact fun param h => hmark "" (by decide) (hreq param h)
  · exact fun param h => hmark "?" (by decide) (hopt param h)
  · exact fun param h => hmark "*" (by decide) (hrest param h)
  · exact fun param h => hmark "" (by decide) (htrail param h)
  · exact fun entry h => hkey "" (by decide) (hkeys.1 entry h) (hreqKw entry h)
  · exact fun entry h => hkey "?" (by decide) (hkeys.2 entry h) (hoptKw entry h)
  · exact fun param h => hmark "**" (by decide) (hrestKw param h)

/-- The text of a type is sealed if its names have no commas and brackets. -/
theorem Ty.AllNames.sealed_render {type : Ty} (h : type.AllNames IsPlain) : Sealed type.render := by
  induction h with
  | @intro type own parts ih =>
    cases type with
    | untyped =>
      rw [Ty.render]
      exact sealed_word "untyped"
    | base keyword =>
      rw [Ty.render]
      exact sealed_of_isPlain (by cases keyword <;> decide)
    | classInstance name args =>
      rw [Ty.render, Ty.renderEach_eq_map]
      exact (sealed_qualifiedName own).append (sealed_bracketed (List.forall_mem_map.mpr ih))
    | «variable» name =>
      rw [Ty.render]
      exact sealed_of_isPlain (own name List.mem_cons_self)
    | optional type =>
      have htype : Sealed type.render := ih type List.mem_cons_self
      have hmark : "(" ++ type.render ++ ")?" = "(" ++ type.render ++ ")" ++ "?" := by
        simp only [String.append_assoc]
        rfl
      rw [Ty.render, hmark]
      split
      · exact (sealed_parens htype.neutral).append (sealed_word "?")
      · exact htype.append (sealed_word "?")
    | union types =>
      rw [Ty.render, Ty.renderEach_eq_map]
      exact sealed_intercalate (sealed_word " | ") (List.forall_mem_map.mpr ih)
    | proc function selfType =>
      have hparts : ∀ part ∈ function.parts, Sealed part.render := fun part hpart =>
        ih part (List.mem_append_left _ hpart)
      have hself : Sealed (Ty.renderSelf "" selfType " ") := sealed_renderSelf fun type htype =>
        ih type (List.mem_append_right _ (Option.mem_toList.mpr htype))
      have hlist : Sealed (parenthesized function.parameterTexts) :=
        sealed_parens (neutral_intercalate (FunctionType.sealed_parameterTexts own fun param hparam =>
          hparts _ (List.mem_append_left _ (List.mem_map_of_mem hparam))))
      have hreturn : Sealed function.returnText := by
        rw [FunctionType.returnText_eq]
        exact hparts _ (List.mem_append_right _ List.mem_cons_self)
      rw [Ty.render]
      exact (((((sealed_word "^").append hlist).append (sealed_word " ")).append hself).append
        (sealed_word "-> ")).append hreturn

/-- The text of a parameter list between its parentheses is balanced, and cut at the commas outside of
all brackets it falls into the texts of the parameters, one for each, if no name in it has a comma or
a bracket. -/
theorem FunctionType.parameterList_cut (f : FunctionType) (hnames : f.AllNames IsPlain)
    (hparams : 0 < f.params.length) :
    ∃ inner, f.parameterList = "(" ++ inner ++ ")" ∧ IsBalanced inner ∧
      cut inner =
        f.requiredPositionals.map Param.render
          ++ f.optionalPositionals.map (fun param => "?" ++ param.render)
          ++ f.restPositionals.toList.map (fun param => "*" ++ param.render)
          ++ f.trailingPositionals.map Param.render
          ++ f.requiredKeywords.map (fun entry => entry.1 ++ ": " ++ entry.2.render)
          ++ f.optionalKeywords.map (fun entry => "?" ++ entry.1 ++ ": " ++ entry.2.render)
          ++ f.restKeywords.toList.map (fun param => "**" ++ param.render) ∧
      (cut inner).length = f.params.length := by
  have htexts : f.parameterTexts = _ := f.parameterTexts_eq_append
  simp only [Param.renderEach_eq_map, Param.renderRest_eq_map, Param.renderKeywords_eq_map,
    String.empty_append] at htexts
  have hlength : f.parameterTexts.length = f.params.length := by
    rw [htexts]
    simp [params]
  have hsealed : ∀ text ∈ f.parameterTexts, Sealed text :=
    sealed_parameterTexts hnames.own fun param hparam =>
      (hnames.parts _ (List.mem_append_left _ (List.mem_map_of_mem hparam))).sealed_render
  have hcut : cut (", ".intercalate f.parameterTexts) = f.parameterTexts :=
    cut_intercalate (List.length_pos_iff.mp (hlength ▸ hparams)) hsealed
  refine ⟨", ".intercalate f.parameterTexts, rfl, neutral_intercalate hsealed [], ?_, ?_⟩
  · rw [hcut, htexts]
  · rw [hcut, hlength]

/-- A proc type with a parameter list and a clause for `self` of its own. -/
def nestedProc : Ty :=
  .proc ⟨[⟨none, .variable "T"⟩], [⟨some "s", .untyped⟩], none, [], [], [], none, .base .void⟩
    (some (.classInstance ⟨"Row", ["Db"], false⟩ []))

/-- A parameter list with commas and brackets in its types. -/
def nestedParameters : FunctionType where
  requiredPositionals := [⟨some "table", .classInstance ⟨"Hash", [], true⟩ [.variable "T", nestedProc]⟩]
  optionalPositionals := [⟨some "x", .optional (.union [.variable "T", nestedProc])⟩]
  restPositionals := none
  trailingPositionals := []
  requiredKeywords := [("key", ⟨none, .optional (.variable "T")⟩)]
  optionalKeywords := []
  restKeywords := some ⟨some "rest", .untyped⟩
  returnType := .untyped

/-- The commas inside the types are not taken for those between the parameters. -/
theorem nestedParameters_cut :
    nestedParameters.AllNames IsPlain ∧ 0 < nestedParameters.params.length ∧
    ∃ inner, nestedParameters.parameterList = "(" ++ inner ++ ")" ∧ IsBalanced inner ∧
      cut inner = ["::Hash[T, ^(T, ?untyped s) [self: Db::Row] -> void] table",
        "?(T | ^(T, ?untyped s) [self: Db::Row] -> void)? x", "key: T?", "**untyped rest"] := by
  have hleaf {type : Ty} (hown : ∀ name ∈ type.ownNames, IsPlain name) (hparts : type.parts = []) :
      type.AllNames IsPlain := .intro hown (by simp [hparts])
  have huntyped : Ty.untyped.AllNames IsPlain := hleaf (by decide) rfl
  have hvoid : (Ty.base .void).AllNames IsPlain := hleaf (by decide) rfl
  have hvariable : (Ty.variable "T").AllNames IsPlain := hleaf (by decide) rfl
  have hrow : (Ty.classInstance ⟨"Row", ["Db"], false⟩ []).AllNames IsPlain := hleaf (by decide) rfl
  have hproc : nestedProc.AllNames IsPlain := .intro (by decide) (by
    simp [nestedProc, Ty.parts, FunctionType.parts, FunctionType.params, huntyped, hvoid, hvariable, hrow])
  have hhash : (Ty.classInstance ⟨"Hash", [], true⟩ [.variable "T", nestedProc]).AllNames IsPlain :=
    .intro (by decide) (by simp [Ty.parts, hvariable, hproc])
  have hunion : (Ty.union [.variable "T", nestedProc]).AllNames IsPlain :=
    .intro (by decide) (by simp [Ty.parts, hvariable, hproc])
  have hoptional {type : Ty} (h : type.AllNames IsPlain) : (Ty.optional type).AllNames IsPlain :=
    .intro (by simp [Ty.ownNames]) (by simp [Ty.parts, h])
  have hnames : nestedParameters.AllNames IsPlain := ⟨by decide, by
    simp [nestedParameters, FunctionType.parts, FunctionType.params, hhash, hoptional hunion,
      hoptional hvariable, huntyped]⟩
  obtain ⟨inner, htext, hbalanced, hcut, -⟩ := nestedParameters.parameterList_cut hnames (by decide)
  exact ⟨hnames, by decide, inner, htext, hbalanced, hcut.trans (by decide)⟩

end RubySig.Rbs
