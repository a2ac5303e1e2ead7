import RubySig.Data.Model
import RubySig.Proofs.MemberReadBack
import RubySig.Proofs.NodeReadBack

/-!
# Everything that has a data form is read back from it

Each reader of the catalogue belongs to a class of values. It reads back what is written of a value
of its class, with every keyword in its place, exactly when the types and parameters in the value
stand inside each other at most 254 deep; and what it gives is always such a value. So reading,
writing and reading again gives what the first reading gave, from whatever data that was.

The depth is a bound of the readers and not of the values: one optional type more and the data of a
type are refused.
-/

namespace RubySig.Data

open RubySig.Rbs
open RubySig.Ruby

/-! ## Classes of values -/

/-- The class of a type. -/
def tyClass : Ty → String
  | .untyped => "AnyType"
  | .base _ => "BaseType"
  | .classInstance _ _ => "ClassInstance"
  | .variable _ => "Variable"
  | .optional _ => "OptionalType"
  | .union _ => "UnionType"
  | .proc _ _ => "ProcType"

/-- The class of the mixins of one kind. -/
def mixinClass : MixinKind → String
  | .inclusion => "Include"
  | .extension => "Extend"
  | .prepending => "Prepend"

/-- The class of the attributes of one kind. -/
def attributeClass : AttributeKind → String
  | .reader => "AttrReader"
  | .writer => "AttrWriter"
  | .accessor => "AttrAccessor"

/-- The class of an expression. -/
def exprClass : Expr → String
  | .self => "SelfNode"
  | .constant _ => "ConstantReadNode"
  | .symbol _ => "SymbolNode"
  | .other _ => "ExpressionNode"

namespace Model

/-- The classes that a value belongs to, by the names of the readers. The parameter `...` that stands
alone is a rest parameter. -/
def classes : Model → List String
  | name _ => ["TypeName"]
  | type value => ["RbsType", tyClass value]
  | param _ => ["Param"]
  | function _ => ["Function"]
  | block _ => ["Block"]
  | methodType _ => ["MethodType"]
  | asserted _ => ["AssertedType"]
  | member => ["Member"]
  | annotationText _ => ["Annotation"]
  | overload _ => ["Overload"]
  | methodDefinition _ => ["MethodDefinition"]
  | aliasMember _ => ["Alias"]
  | mixin value => ["MixinMember", mixinClass value.kind]
  | attr value => ["AttrMember", attributeClass value.kind]
  | assertion _ => ["Assertion"]
  | returnNote _ => ["ReturnType"]
  | variableNote _ => ["VarType"]
  | application _ => ["Application"]
  | passthrough _ => ["RBSAnnotation"]
  | commentBlock _ => ["ParsingResult"]
  | expr value => [exprClass value]
  | positional (.named _) => ["RequiredParameter"]
  | positional (.destructured _) => ["DestructuredParameter"]
  | optionalParameter _ => ["OptionalParameter"]
  | rest (.named _) => ["RestParameter"]
  | rest .forwarding => ["ForwardingParameter"]
  | keyword (.required _) => ["RequiredKeywordParameter"]
  | keyword (.optional _ _) => ["OptionalKeywordParameter"]
  | keywordRest (.named _) => ["KeywordRestParameter"]
  | keywordRest .refused => ["NoKeywordsParameter"]
  | keywordRest .forwarding => []
  | blockParameter _ => ["BlockParameter"]
  | parameters _ => ["ParametersNode"]
  | definition _ => ["DefNode"]
  | aliasStatement _ => ["AliasMethodNode"]
  | call _ => ["CallNode"]

/-- Types and parameters in a value stand inside each other at most so deep, and no keyword stands
twice in a parameter list. Values without types are within every bound. -/
def NestedWithin (depth : Nat) : Model → Prop
  | type value => value.NestedWithin depth
  | param value => value.NestedWithin depth
  | function value => value.NestedWithin depth
  | block value => value.NestedWithin depth
  | methodType value => value.NestedWithin depth
  | asserted value => value.NestedWithin depth
  | overload value => value.methodType.NestedWithin depth
  | methodDefinition value => ∀ overload ∈ value.overloads, overload.methodType.NestedWithin depth
  | mixin value => ∀ arg ∈ value.args, arg.NestedWithin depth
  | attr value => value.type.NestedWithin depth
  | assertion value => value.type.NestedWithin depth
  | returnNote value => value.type.NestedWithin depth
  | variableNote value => ∀ type ∈ value.type, type.NestedWithin depth
  | application value => ∀ types ∈ value.types, ∀ type ∈ types, type.NestedWithin depth
  | commentBlock value => ∀ note ∈ value.notes, note.NestedWithin depth
  | _ => True

end Model

namespace Reader

open Checked

/-- A value is read back by the reader of its only class if that reader belongs to its writer. -/
theorem readBack_into {className own : String} {read : Reader Model} {α : Type} {reader : Reader α}
    {make : α → Model} {write : α → Value} {P : α → Prop} {a : α}
    (hread : catalogue.lookup className = some read) (hclass : className ∈ [own])
    (hreader : catalogue.lookup own = some (reader.into make)) (h : Inverts reader write P)
    (hwrite : (make a).write = write a) (ha : P a) : read (make a).write = .ok (make a) := by
  obtain rfl := List.mem_singleton.mp hclass
  obtain rfl : read = reader.into make := Option.some.inj (hread.symm.trans hreader)
  simp [Reader.into, hwrite, h.readBack ha]

/-- The reader of the class of a type is the reader of its kind. -/
theorem exists_kind_of_tyClass (type : Ty) :
    ∃ reader, (type.kind, reader) ∈ tyKinds innerTy innerParam ∧
      catalogue.lookup (tyClass type) = some (reader.into .type) := by
  cases type <;> refine ⟨_, ?_, rfl⟩ <;> simp [tyKinds, Ty.kind]

/-- The reader of the class of an expression is the reader of its kind. -/
theorem exists_kind_of_exprClass (e : Expr) :
    ∃ reader, (e.nodeType, reader) ∈ exprKinds ∧
      catalogue.lookup (exprClass e) = some (reader.into .expr) := by
  cases e <;> refine ⟨_, ?_, rfl⟩ <;> simp [exprKinds, Expr.nodeType]

/-- The reader of the mixins of one kind. -/
theorem exists_mixinOf (kind : MixinKind) :
    ∃ className, catalogue.lookup (mixinClass kind) = some ((mixinOf className kind).into .mixin) := by
  cases kind <;> exact ⟨_, rfl⟩

/-- The reader of the attributes of one kind. -/
theorem exists_attributeOf (kind : AttributeKind) :
    ∃ className, catalogue.lookup (attributeClass kind) = some ((attributeOf className kind).into .attr) := by
  cases kind <;> exact ⟨_, rfl⟩

/-- What is written of a value is read back by the reader of each of its classes. -/
theorem readBack_of_mem_classes {className : String} {read : Reader Model}
    (hread : catalogue.lookup className = some read) {m : Model} (hclass : className ∈ m.classes)
    (hnested : m.NestedWithin (innerDepth + 1)) : read m.write = .ok m := by
  cases m with
  | type value =>
    rcases List.mem_cons.mp hclass with h | h
    · exact readBack_into hread (List.mem_singleton.mpr h) rfl inverts_ty rfl hnested
    · obtain ⟨reader, hkind, hreader⟩ := exists_kind_of_tyClass value
      exact readBack_into hread h hreader (inverts_innerKinds _ _ hkind) rfl ⟨rfl, hnested⟩
  | mixin value =>
    rcases List.mem_cons.mp hclass with h | h
    · exact readBack_into hread (List.mem_singleton.mpr h) rfl inverts_anyMixin rfl hnested
    · obtain ⟨name, hreader⟩ := exists_mixinOf value.kind
      exact readBack_into hread h hreader (inverts_mixinOf name value.kind) rfl ⟨rfl, hnested⟩
  | attr value =>
    rcases List.mem_cons.mp hclass with h | h
    · exact readBack_into hread (List.mem_singleton.mpr h) rfl inverts_anyAttribute rfl hnested
    · obtain ⟨name, hreader⟩ := exists_attributeOf value.kind
      exact readBack_into hread h hreader (inverts_attributeOf name value.kind) rfl ⟨rfl, hnested⟩
  | expr value =>
    obtain ⟨reader, hkind, hreader⟩ := exists_kind_of_exprClass value
    exact readBack_into hread hclass hreader (inverts_exprKinds _ _ hkind) rfl rfl
  | positional value =>
    cases value with
    | named => exact readBack_into hread hclass rfl inverts_requiredParameter rfl rfl
    | destructured => exact readBack_into hread hclass rfl inverts_destructuredParameter rfl rfl
  | rest value =>
    cases value with
    | named => exact readBack_into hread hclass rfl inverts_restParameter rfl rfl
    | forwarding => exact readBack_into hread hclass rfl inverts_forwardingRest rfl rfl
  | keyword value =>
    cases value with
    | required => exact readBack_into hread hclass rfl inverts_requiredKeyword rfl rfl
    | optional => exact readBack_into hread hclass rfl inverts_optionalKeyword rfl rfl
  | keywordRest value =>
    cases value with
    | named => exact readBack_into hread hclass rfl inverts_keywordRestParameter rfl rfl
    | refused => exact readBack_into hread hclass rfl inverts_noKeywords rfl rfl
    | forwarding => simp [Model.classes] at hclass
  | member =>
    obtain rfl := List.mem_singleton.mp hclass
    obtain rfl := Option.some.inj (hread.symm.trans rfl)
    rfl
  | name => exact readBack_into hread hclass rfl inverts_qualifiedName rfl trivial
  | param => exact readBack_into hread hclass rfl inverts_param rfl hnested
  | function => exact readBack_into hread hclass rfl inverts_function rfl hnested
  | block => exact readBack_into hread hclass rfl inverts_block rfl hnested
  | methodType => exact readBack_into hread hclass rfl inverts_methodType rfl hnested
  | asserted => exact readBack_into hread hclass rfl inverts_asserted rfl hnested
  | annotationText => exact readBack_into hread hclass rfl inverts_annotationText rfl trivial
  | overload => exact readBack_into hread hclass rfl inverts_overload rfl hnested
  | methodDefinition => exact readBack_into hread hclass rfl inverts_methodDefinition rfl hnested
  | aliasMember => exact readBack_into hread hclass rfl inverts_aliasMember rfl trivial
  | assertion => exact readBack_into hread hclass rfl inverts_assertion rfl hnested
  | returnNote => exact readBack_into hread hclass rfl inverts_returnNote rfl hnested
  | variableNote => exact readBack_into hread hclass rfl inverts_variableNote rfl hnested
  | application => exact readBack_into hread hclass rfl inverts_application rfl hnested
  | passthrough => exact readBack_into hread hclass rfl inverts_passthrough rfl trivial
  | commentBlock => exact readBack_into hread hclass rfl inverts_commentBlock rfl hnested
  | optionalParameter => exact readBack_into hread hclass rfl inverts_optionalParameter rfl trivial
  | blockParameter => exact readBack_into hread hclass rfl inverts_blockParameter rfl trivial
  | parameters => exact readBack_into hread hclass rfl inverts_parameters rfl trivial
  | definition => exact readBack_into hread hclass rfl inverts_definition rfl trivial
  | aliasStatement => exact readBack_into hread hclass rfl inverts_aliasStatement rfl trivial
  | call => exact readBack_into hread hclass rfl inverts_call rfl trivial

/-- What a reader gives belongs to a class if all values do that the reader can give. -/
theorem into_ensures {className : String} {α : Type} {read : Reader α} (make : α → Model)
    {write : α → Value} {P : α → Prop} (h : Inverts read write P)
    (hP : ∀ a, P a → className ∈ (make a).classes ∧ (make a).NestedWithin (innerDepth + 1))
    (value : Value) :
    (read.into make value).Ensures fun m => className ∈ m.classes ∧ m.NestedWithin (innerDepth + 1) :=
  (h.sound value).map hP

/-- What the reader of a kind of types gives belongs to the class of that kind. -/
theorem kind_ensures (kind : String) {className : String} {read : Reader Ty}
    (hmem : (kind, read) ∈ tyKinds innerTy innerParam)
    (hclass : ∀ type : Ty, type.kind = kind → className = tyClass type) (value : Value) :
    (read.into .type value).Ensures fun m => className ∈ m.classes ∧ m.NestedWithin (innerDepth + 1) :=
  into_ensures Model.type (inverts_innerKinds kind read hmem)
    (fun type h => ⟨.tail _ (List.mem_singleton.mpr (hclass type h.1)), h.2⟩) value

/-- What the reader of a way of mixing in gives belongs to the class of that way. -/
theorem mixin_ensures (className : String) (kind : MixinKind) (value : Value) :
    ((mixinOf className kind).into .mixin value).Ensures fun m =>
      mixinClass kind ∈ m.classes ∧ m.NestedWithin (innerDepth + 1) :=
  into_ensures Model.mixin (inverts_mixinOf className kind)
    (fun _ h => ⟨by simp [Model.classes, h.1], h.2⟩) value

/-- What the reader of a kind of attributes gives belongs to the class of that kind. -/
theorem attribute_ensures (className : String) (kind : AttributeKind) (value : Value) :
    ((attributeOf className kind).into .attr value).Ensures fun m =>
      attributeClass kind ∈ m.classes ∧ m.NestedWithin (innerDepth + 1) :=
  into_ensures Model.attr (inverts_attributeOf className kind)
    (fun _ h => ⟨by simp [Model.classes, h.1], h.2⟩) value

/-- The reader of a class gives only models of this class that are not too deep. -/
theorem catalogue_ensures :
    ∀ entry ∈ catalogue, ∀ value, (entry.2 value).Ensures fun m =>
      entry.1 ∈ m.classes ∧ m.NestedWithin (innerDepth + 1) := by
  simp only [catalogue, List.forall_mem_cons]
  refine ⟨
    into_ensures _ inverts_qualifiedName fun _ _ => ⟨.head _, trivial⟩,
    kind_ensures "any" (by simp [tyKinds]) fun t h => by cases t <;> simp_all [Ty.kind, tyClass],
    kind_ensures "base" (by simp [tyKinds]) fun t h => by cases t <;> simp_all [Ty.kind, tyClass],
    kind_ensures "class_instance" (by simp [tyKinds]) fun t h => by cases t <;> simp_all [Ty.kind, tyClass],
    kind_ensures "variable" (by simp [tyKinds]) fun t h => by cases t <;> simp_all [Ty.kind, tyClass],
    kind_ensures "optional" (by simp [tyKinds]) fun t h => by cases t <;> simp_all [Ty.kind, tyClass],
    kind_ensures "union" (by simp [tyKinds]) fun t h => by cases t <;> simp_all [Ty.kind, tyClass],
    kind_ensures "proc" (by simp [tyKinds]) fun t h => by cases t <;> simp_all [Ty.kind, tyClass],
    into_ensures _ inverts_ty fun _ h => ⟨.head _, h⟩,
    into_ensures _ inverts_param fun _ h => ⟨.head _, h⟩,
    into_ensures _ inverts_function fun _ h => ⟨.head _, h⟩,
    into_ensures _ inverts_block fun _ h => ⟨.head _, h⟩,
    into_ensures _ inverts_methodType fun _ h => ⟨.head _, h⟩,
    into_ensures _ inverts_asserted fun _ h => ⟨.head _, h⟩,
    record_ensures fun _ _ h => ?_,
    into_ensures _ inverts_annotationText fun _ _ => ⟨.head _, trivial⟩,
    into_ensures _ inverts_overload fun _ h => ⟨.head _, h⟩,
    into_ensures _ inverts_methodDefinition fun _ h => ⟨.head _, h⟩,
    into_ensures _ inverts_aliasMember fun _ _ => ⟨.head _, trivial⟩,
    into_ensures _ inverts_anyMixin fun _ h => ⟨.head _, h⟩,
    mixin_ensures "Include" .inclusion,
    mixin_ensures "Extend" .extension,
    mixin_ensures "Prepend" .prepending,
    into_ensures _ inverts_anyAttribute fun _ h => ⟨.head _, h⟩,
    attribute_ensures "AttrReader" .reader,
    attribute_ensures "AttrWriter" .writer,
    attribute_ensures "AttrAccessor" .accessor,
    into_ensures _ inverts_assertion fun _ h => ⟨.head _, h⟩,
    into_ensures _ inverts_returnNote fun _ h => ⟨.head _, h⟩,
    into_ensures _ inverts_variableNote fun _ h => ⟨.head _, h⟩,
    into_ensures _ inverts_application fun _ h => ⟨.head _, h⟩,
    into_ensures _ inverts_passthrough fun _ _ => ⟨.head _, trivial⟩,
    into_ensures _ inverts_commentBlock fun _ h => ⟨.head _, h⟩,
    into_ensures _ inverts_selfNode fun a h => by
      cases a <;> simp_all [Expr.nodeType, exprClass, Model.classes, Model.NestedWithin],
    into_ensures _ inverts_constantNode fun a h => by
      cases a <;> simp_all [Expr.nodeType, exprClass, Model.classes, Model.NestedWithin],
    into_ensures _ inverts_symbolNode fun a h => by
      cases a <;> simp_all [Expr.nodeType, exprClass, Model.classes, Model.NestedWithin],
    into_ensures _ inverts_expressionNode fun a h => by
      cases a <;> simp_all [Expr.nodeType, exprClass, Model.classes, Model.NestedWithin],
    into_ensures _ inverts_requiredParameter fun a h => by
      cases a <;> simp_all [Positional.nodeType, Model.classes, Model.NestedWithin],
    into_ensures _ inverts_destructuredParameter fun a h => by
      cases a <;> simp_all [Positional.nodeType, Model.classes, Model.NestedWithin],
    into_ensures _ inverts_optionalParameter fun _ _ => ⟨.head _, trivial⟩,
    into_ensures _ inverts_restParameter fun a h => by
      cases a <;> simp_all [Rest.nodeType, Model.classes, Model.NestedWithin],
    into_ensures _ inverts_forwardingRest fun a h => by
      cases a <;> simp_all [Rest.nodeType, Model.classes, Model.NestedWithin],
    into_ensures _ inverts_requiredKeyword fun a h => by
      cases a <;> simp_all [Keyword.nodeType, Model.classes, Model.NestedWithin],
    into_ensures _ inverts_optionalKeyword fun a h => by
      cases a <;> simp_all [Keyword.nodeType, Model.classes, Model.NestedWithin],
    into_ensures _ inverts_keywordRestParameter fun a h => by
      cases a <;> simp_all [KeywordRest.nodeType, Model.classes, Model.NestedWithin],
    into_ensures _ inverts_noKeywords fun a h => by
      cases a <;> simp_all [KeywordRest.nodeType, Model.classes, Model.NestedWithin],
    into_ensures _ inverts_blockParameter fun _ _ => ⟨.head _, trivial⟩,
    into_ensures _ inverts_parameters fun _ _ => ⟨.head _, trivial⟩,
    into_ensures _ inverts_definition fun _ _ => ⟨.head _, trivial⟩,
    into_ensures _ inverts_aliasStatement fun _ _ => ⟨.head _, trivial⟩,
    into_ensures _ inverts_call fun _ _ => ⟨.head _, trivial⟩,
    by simp⟩
  cases h
  exact ⟨.head _, trivial⟩

end Reader

/-- The reader of a class reads back what is written of a value of the class exactly when types and
parameters stand inside each other at most 254 deep, and what it gives is a value of the class that
is read back from its own data. -/
theorem catalogue_reads_back (className : String) (read : Reader Model)
    (hread : catalogue.lookup className = some read) :
    (∀ m : Model, className ∈ m.classes → (read m.write = .ok m ↔ m.NestedWithin 254)) ∧
      ∀ value m, read value = .ok m → className ∈ m.classes ∧ read m.write = .ok m := by
  have hgives := Reader.catalogue_ensures _ (Reader.mem_of_lookup hread)
  constructor
  · intro m hclass
    constructor
    · intro hback
      exact (hgives m.write m hback).2
    · exact Reader.readBack_of_mem_classes hread hclass
  · intro value m hvalue
    obtain ⟨hclass, hnested⟩ := hgives value m hvalue
    exact ⟨hclass, Reader.readBack_of_mem_classes hread hclass hnested⟩

/-- The type `^(Integer n, ?size: String?) [self: T] -> void`. -/
def sampleProc : Ty :=
  .proc ⟨[⟨some "n", .classInstance { name := "Integer" } []⟩], [], none, [], [],
      [("size", ⟨none, .optional (.classInstance { name := "String" } [])⟩)], none, .base .void⟩
    (some (.variable "T"))

/-- A proc with a keyword and a type for `self` is read back from its data. -/
theorem sampleProc_reads_back :
    catalogue.lookup "ProcType" = some ((Reader.procOf Reader.innerTy Reader.innerParam).into .type) ∧
      (Reader.procOf Reader.innerTy Reader.innerParam).into .type (Model.type sampleProc).write =
        .ok (.type sampleProc) := by
  have hnested : ∀ depth, sampleProc.NestedWithin (depth + 4) := by
    intro depth
    refine ⟨⟨?_, ?_, ?_, ?_, ?_, ?_, ?_, ?_⟩, ?_⟩ <;>
      simp [Ty.NestedWithin, Param.NestedWithin, Ty.MadeOf]
  exact ⟨rfl, ((catalogue_reads_back "ProcType" _ rfl).1 _ (.tail _ (.head _))).mpr (hnested 250)⟩

/-- An optional type in an optional type, and so on, so many times. -/
def deepOptional : Nat → Ty
  | 0 => .untyped
  | n + 1 => .optional (deepOptional n)

/-- Optional types around a type are nested one deeper each. -/
theorem deepOptional_nestedWithin_iff (n depth : Nat) : (deepOptional n).NestedWithin depth ↔ n < depth := by
  induction n generalizing depth with
  | zero => cases depth <;> simp [deepOptional, Ty.NestedWithin, Ty.MadeOf]
  | succ n ih => cases depth <;> simp [deepOptional, Ty.NestedWithin, Ty.MadeOf, ih]

/-- Optional types are read back up to the depth that the readers look at. -/
theorem deepOptional_reads_back_iff (n : Nat) {read : Reader Model}
    (hread : catalogue.lookup "RbsType" = some read) :
    read (Model.type (deepOptional n)).write = .ok (.type (deepOptional n)) ↔ n < 254 := by
  have hclass : "RbsType" ∈ (Model.type (deepOptional n)).classes := .head _
  rw [← deepOptional_nestedWithin_iff]
  constructor
  · intro hback
    exact (Reader.catalogue_ensures _ (Reader.mem_of_lookup hread) _ _ hback).2
  · exact Reader.readBack_of_mem_classes hread hclass

/-- A type that is nested 255 deep is a type like others, but is not read back from its data. -/
theorem deepOptional_not_reads_back :
    (Model.type (deepOptional 254)).NestedWithin 255 ∧
      "RbsType" ∈ (Model.type (deepOptional 254)).classes ∧
      ∀ read, catalogue.lookup "RbsType" = some read →
        read (Model.type (deepOptional 254)).write ≠ .ok (.type (deepOptional 254)) := by
  refine ⟨?_, .head _, ?_⟩
  · rw [Model.NestedWithin, deepOptional_nestedWithin_iff]
    omega
  · intro read hread hback
    exact Nat.lt_irrefl 254 ((deepOptional_reads_back_iff 254 hread).mp hback)

end RubySig.Data
