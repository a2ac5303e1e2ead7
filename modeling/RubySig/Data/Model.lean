import RubySig.Data.Comments
import RubySig.Data.Members
import RubySig.Data.RubyNodes

/-!
# Everything that has a data form

One type for the values that can be exchanged as plain data, how each is written, and a catalogue
of readers by the name of the class they read.
-/

namespace RubySig.Data

open RubySig.Rbs
open RubySig.Ruby

/-- A value that can be exchanged; `member` is a member of which nothing else is known. -/
inductive Model where
  | name (value : QualifiedName)
  | type (value : Ty)
  | param (value : Param)
  | function (value : FunctionType)
  | block (value : BlockType)
  | methodType (value : MethodType)
  | asserted (value : Asserted)
  | member
  | annotationText (value : AnnotationText)
  | overload (value : Overload)
  | methodDefinition (value : MethodDefinition)
  | aliasMember (value : Alias)
  | mixin (value : Mixin)
  | attr (value : Attribute)
  | assertion (value : Assertion)
  | returnNote (value : ReturnNote)
  | variableNote (value : VariableNote)
  | application (value : Application)
  | passthrough (value : Passthrough)
  | commentBlock (value : CommentBlock)
  | expr (value : Expr)
  | positional (value : Positional)
  | optionalParameter (value : OptionalParameter)
  | rest (value : Rest)
  | keyword (value : Keyword)
  | keywordRest (value : KeywordRest)
  | blockParameter (value : BlockParameter)
  | parameters (value : Parameters)
  | definition (value : Definition)
  | aliasStatement (value : AliasStatement)
  | call (value : Call)
  deriving BEq

namespace Model

/-- The data form of a value. -/
def write : Model → Value
  | name value => writeName value
  | type value => writeTy value
  | param value => writeParam value
  | function value => writeFunction value
  | block value => writeBlock value
  | methodType value => writeMethodType value
  | asserted value => writeAsserted value
  | member => .record []
  | annotationText value => writeAnnotationText value
  | overload value => writeOverload value
  | methodDefinition value => writeMethodDefinition value
  | aliasMember value => writeAlias value
  | mixin value => writeMixin value
  | attr value => writeAttribute value
  | assertion value => writeAssertion value
  | returnNote value => writeReturnNote value
  | variableNote value => writeVariableNote value
  | application value => writeApplication value
  | passthrough value => writePassthrough value
  | commentBlock value => writeCommentBlock value
  | expr value => writeExpr value
  | positional value => writePositional value
  | optionalParameter value => writeOptionalParameter value
  | rest value => writeRest value
  | keyword value => writeKeyword value
  | keywordRest value => writeKeywordRest value
  | blockParameter value => writeBlockParameter value
  | parameters value => writeParameters value
  | definition value => writeDefinition value
  | aliasStatement value => writeAliasStatement value
  | call value => writeCall value

/-- The RBS text of the values that have one. -/
def text? : Model → Option String
  | name value => some value.render
  | type value => some value.render
  | param value => some value.render
  | function value => some value.render
  | block value => some value.render
  | methodType value => some value.render
  | asserted value => some value.render
  | annotationText value => some value.render
  | mixin value => some value.render
  | attr value => some value.render
  | _ => none

end Model

/-- A reader of one kind of value as a reader of all that can be exchanged. -/
def Reader.into {α : Type} (make : α → Model) (read : Reader α) : Reader Model :=
  fun value => make <$> read value

/-- The readers by the names of what they read. -/
def catalogue : List (String × Reader Model) :=
  [("TypeName", Reader.qualifiedName.into .name),
    ("AnyType", Reader.untyped.into .type),
    ("BaseType", Reader.base.into .type),
    ("ClassInstance", (Reader.classInstanceOf Reader.innerTy).into .type),
    ("Variable", Reader.variableName.into .type),
    ("OptionalType", (Reader.optionalOf Reader.innerTy).into .type),
    ("UnionType", (Reader.unionOf Reader.innerTy).into .type),
    ("ProcType", (Reader.procOf Reader.innerTy Reader.innerParam).into .type),
    ("RbsType", Reader.ty.into .type),
    ("Param", Reader.param.into .param),
    ("Function", Reader.function.into .function),
    ("Block", Reader.block.into .block),
    ("MethodType", Reader.methodType.into .methodType),
    ("AssertedType", Reader.asserted.into .asserted),
    ("Member", Reader.record "Member" fun _ => .ok .member),
    ("Annotation", Reader.annotationText.into .annotationText),
    ("Overload", Reader.overload.into .overload),
    ("MethodDefinition", Reader.methodDefinition.into .methodDefinition),
    ("Alias", Reader.aliasMember.into .aliasMember),
    ("MixinMember", Reader.anyMixin.into .mixin),
    ("Include", (Reader.mixinOf "Include" .inclusion).into .mixin),
    ("Extend", (Reader.mixinOf "Extend" .extension).into .mixin),
    ("Prepend", (Reader.mixinOf "Prepend" .prepending).into .mixin),
    ("AttrMember", Reader.anyAttribute.into .attr),
    ("AttrReader", (Reader.attributeOf "AttrReader" .reader).into .attr),
    ("AttrWriter", (Reader.attributeOf "AttrWriter" .writer).into .attr),
    ("AttrAccessor", (Reader.attributeOf "AttrAccessor" .accessor).into .attr),
    ("Assertion", Reader.assertion.into .assertion),
    ("ReturnType", Reader.returnNote.into .returnNote),
    ("VarType", Reader.variableNote.into .variableNote),
    ("Application", Reader.application.into .application),
    ("RBSAnnotation", Reader.passthrough.into .passthrough),
    ("ParsingResult", Reader.commentBlock.into .commentBlock),
    ("SelfNode", Reader.selfNode.into .expr),
    ("ConstantReadNode", Reader.constantNode.into .expr),
    ("SymbolNode", Reader.symbolNode.into .expr),
    ("ExpressionNode", Reader.expressionNode.into .expr),
    ("RequiredParameter", Reader.requiredParameter.into .positional),
    ("DestructuredParameter", Reader.destructuredParameter.into .positional),
    ("OptionalParameter", Reader.optionalParameter.into .optionalParameter),
    ("RestParameter", Reader.restParameter.into .rest),
    ("ForwardingParameter", (Reader.forwardingParameter Rest.forwarding).into .rest),
    ("RequiredKeywordParameter", Reader.requiredKeyword.into .keyword),
    ("OptionalKeywordParameter", Reader.optionalKeyword.into .keyword),
    ("KeywordRestParameter", Reader.keywordRestParameter.into .keywordRest),
    ("NoKeywordsParameter", Reader.noKeywords.into .keywordRest),
    ("BlockParameter", Reader.blockParameter.into .blockParameter),
    ("ParametersNode", Reader.parameters.into .parameters),
    ("DefNode", Reader.definition.into .definition),
    ("AliasMethodNode", Reader.aliasStatement.into .aliasStatement),
    ("CallNode", Reader.call.into .call)]

end RubySig.Data
