import RubySig.Outline.Statement
import Mathlib.Tactic.MkIffOfInductiveProp

/-!
# What is read of a call

A call is looked at twice: its arguments are read one by one, and the nodes of its argument list are
searched for definitions. Both views come from the same nodes without comments, so the definition
that a call tags is always the one that was read as its only argument. The shapes of calls that
matter for declarations (a call without a receiver, a marker, a tagged definition) are said here by
node types and fields.
-/

namespace RubySig

open RubySig.Rbs
open RubySig.Ruby

/-- A word stands for a kind exactly when it is the word of that kind. -/
theorem find?_word_eq_some_iff {κ : Type} {all : List κ} {text : κ → String}
    (hall : ∀ kind, kind ∈ all) (htext : ∀ a ∈ all, ∀ b ∈ all, text a = text b → a = b)
    (word : String) (kind : κ) :
    (all.find? fun other => text other == word) = some kind ↔ word = text kind := by
  constructor
  · intro h
    exact (beq_iff_eq.mp (List.find?_some h :)).symm
  · rintro rfl
    cases h : all.find? fun other => text other == text kind with
    | none => exact absurd (List.find?_eq_none.mp h kind (hall kind)) (by simp)
    | some other =>
      have hsame := htext other (hall other) kind (hall kind) (beq_iff_eq.mp (List.find?_some h :))
      rw [hsame]

/-- A word is read as a visibility exactly when it is its own word. -/
@[simp]
theorem Rbs.Visibility.ofText?_eq_some_iff (word : String) (visibility : Visibility) :
    Visibility.ofText? word = some visibility ↔ word = visibility.text :=
  find?_word_eq_some_iff (by intro v; cases v <;> decide) (by decide) word visibility

/-- A word is read as a kind of mixin exactly when it is its own word. -/
@[simp]
theorem Rbs.MixinKind.ofText?_eq_some_iff (word : String) (kind : MixinKind) :
    MixinKind.ofText? word = some kind ↔ word = kind.text :=
  find?_word_eq_some_iff (by intro k; cases k <;> decide) (by decide) word kind

/-- A word is read as a kind of attribute exactly when it is its own word. -/
@[simp]
theorem Rbs.AttributeKind.ofText?_eq_some_iff (word : String) (kind : AttributeKind) :
    AttributeKind.ofText? word = some kind ↔ word = kind.text :=
  find?_word_eq_some_iff (by intro k; cases k <;> decide) (by decide) word kind

namespace Outline

/-- The arguments that a call is given: the named nodes of its argument list, without comments. -/
def givenArguments (t : SyntaxTree) : List SyntaxTree :=
  match t.child? "arguments" with
  | none => []
  | some list => list.argumentNodes

/-- A call of a name without a receiver. -/
@[mk_iff]
structure CallsBare (source : Source) (t : SyntaxTree) (name : String) : Prop where
  type : t.type = "call"
  receiver : t.child? "receiver" = none
  name : t.fieldText source "method" = name

/-- The visibility that a statement marks: that of its word if it is a word alone, or that of the
word which it calls without a receiver and without arguments. -/
def marker? (source : Source) (t : SyntaxTree) : Option Visibility :=
  if t.type == "identifier" then Visibility.ofText? (t.text source)
  else if t.type == "call" && (t.child? "receiver").isNone && (givenArguments t).isEmpty then
    Visibility.ofText? (t.fieldText source "method")
  else none

/-- A call that tags a definition, its only argument, with a visibility. -/
structure Tags (source : Source) (visibility : Visibility) (t node : SyntaxTree) : Prop where
  call : CallsBare source t visibility.text
  only : givenArguments t = [node]
  definition : node.type = "method" ∨ node.type = "singleton_method"

/-- An ordinary body takes a definition as it is. -/
theorem place_plain (definition : Definition) : Mode.plain.place definition = definition := by
  simp [Mode.place]

/-- The body of `class << self` gives a definition without a receiver the receiver `self`. -/
theorem place_singleton (definition : Definition) :
    Mode.singleton.place definition =
      { definition with receiver := some (definition.receiver.getD .self) } := by
  obtain ⟨name, receiver, parameters, line⟩ := definition
  cases receiver <;> rfl

section Reading

variable {source : Source} {t : SyntaxTree}

/-- A definition is a node of one of two types. -/
@[simp]
theorem isDefinition_iff : t.isDefinition = true ↔ t.type = "method" ∨ t.type = "singleton_method" := by
  simp [SyntaxTree.isDefinition]

/-- A marker is a bare identifier or a call without arguments. -/
theorem marker?_eq_some_iff {visibility : Visibility} : marker? source t = some visibility ↔
    (t.type = "identifier" ∧ t.text source = visibility.text) ∨
      (CallsBare source t visibility.text ∧ givenArguments t = []) := by
  by_cases hword : t.type = "identifier"
  · simp [marker?, callsBare_iff, hword]
  · simp only [marker?, callsBare_iff, beq_iff_eq, hword, if_false, false_and, false_or]
    split
    · rename_i h
      simp only [Bool.and_eq_true, beq_iff_eq, Option.isNone_iff_eq_none, List.isEmpty_iff] at h
      simp [h]
    · rename_i h
      simp only [Bool.and_eq_true, beq_iff_eq, Option.isNone_iff_eq_none, List.isEmpty_iff] at h
      constructor
      · intro hnone
        contradiction
      · rintro ⟨⟨htype, hreceiver, -⟩, hargs⟩
        exact absurd ⟨⟨htype, hreceiver⟩, hargs⟩ h

/-- Arguments are read one by one. -/
theorem readArguments_value (source : Source) (nodes : List SyntaxTree) :
    (SyntaxTree.readArguments source nodes).value =
      nodes.map fun node => (node.readArgument source).value := by
  induction nodes with
  | nil => rfl
  | cons node rest ih => simp [SyntaxTree.readArguments, ih]

/-- A bare identifier is read as a call of its text. -/
theorem readCall_of_identifier (htype : t.type = "identifier") :
    (t.readCall source).value = ⟨t.text source, none, none, t.line⟩ := by
  simp [SyntaxTree.readCall, htype]

/-- What is read of a call. -/
theorem readCall_of_call (htype : t.type = "call") :
    (t.readCall source).value = ⟨t.fieldText source "method",
      (t.child? "receiver").map (SyntaxTree.readExpr source),
      (t.child? "arguments").map fun list =>
        list.argumentNodes.map fun node => (node.readArgument source).value, t.line⟩ := by
  cases h : t.child? "arguments" <;>
    simp [SyntaxTree.readCall, SyntaxTree.readArgumentList?, htype, h, readArguments_value]

/-- The name that is read of a call without a receiver is the one that it calls. -/
theorem CallsBare.name_readCall {name : String} (h : CallsBare source t name) :
    (t.readCall source).value.name = name := by
  rw [readCall_of_call h.type, h.name]

/-- The arguments that are read of a call are those that it is given. -/
theorem argumentList_readCall (htype : t.type = "call") :
    (t.readCall source).value.argumentList =
      (givenArguments t).map fun node => (node.readArgument source).value := by
  rw [readCall_of_call htype]
  cases h : t.child? "arguments" <;> simp [Call.argumentList, givenArguments, h]

/-- The definitions among the nodes of an argument list are those among the given arguments. -/
theorem definitionArguments_eq_filter (t : SyntaxTree) :
    definitionArguments t = (givenArguments t).filter SyntaxTree.isDefinition := by
  cases h : t.child? "arguments" with
  | none => simp [definitionArguments, givenArguments, h]
  | some list =>
    simp only [definitionArguments, givenArguments, h, SyntaxTree.argumentNodes, List.filter_filter]
    congr 1
    funext node
    cases hdef : node.isDefinition with
    | false => rfl
    | true => rcases isDefinition_iff.mp hdef with htype | htype <;> simp [SyntaxTree.isComment, htype]

/-- A definition among arguments is read like a definition that stands alone. -/
theorem readArgument_of_definition {node : SyntaxTree}
    (h : node.type = "method" ∨ node.type = "singleton_method") :
    (node.readArgument source).value = .definition (node.readDefinition source).value := by
  simp [SyntaxTree.readArgument, isDefinition_iff.mpr h]

/-- A tagging call is read as a call with one definition. -/
theorem Tags.arguments_readCall {visibility : Visibility} {node : SyntaxTree}
    (h : Tags source visibility t node) :
    (t.readCall source).value.arguments = some [.definition (node.readDefinition source).value] := by
  have hgiven := h.only
  rw [readCall_of_call h.call.type]
  cases hlist : t.child? "arguments" with
  | none => simp [givenArguments, hlist] at hgiven
  | some list =>
    simp only [givenArguments, hlist] at hgiven
    simp [hgiven, readArgument_of_definition h.definition]

/-- The definition that is read of a tagging call is that of the tagged node. -/
theorem Tags.definition_eq {visibility : Visibility} {node : SyntaxTree} {definition : Definition}
    (h : Tags source visibility t node)
    (hread : (t.readCall source).value.arguments = some [.definition definition]) :
    definition = (node.readDefinition source).value := by
  simpa using hread.symm.trans h.arguments_readCall

end Reading

end Outline

end RubySig
