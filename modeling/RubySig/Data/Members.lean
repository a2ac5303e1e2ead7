import RubySig.Data.Types
import RubySig.Rbs.Member

/-!
# RBS members as plain data

Mixins and attributes are written alike whatever their kind; the readers of one kind accept its
word only and may do without it, the common readers need the word.
-/

namespace RubySig.Data

open RubySig.Rbs

/-! ## Writing -/

/-- An annotation as data. -/
def writeAnnotationText (a : AnnotationText) : Value :=
  .record [("string", .text a.string)]

/-- An overload as data. -/
def writeOverload (o : Overload) : Value :=
  .record [("method_type", writeMethodType o.methodType),
    ("annotations", .list (o.annotations.map writeAnnotationText))]

/-- A method definition as data. -/
def writeMethodDefinition (m : MethodDefinition) : Value :=
  .record [("name", .text m.name), ("kind", .text m.kind.text),
    ("overloads", .list (m.overloads.map writeOverload)),
    ("annotations", .list (m.annotations.map writeAnnotationText)),
    ("comment", .ofText? m.comment),
    ("visibility", .ofText? (m.visibility.map Visibility.text))]

/-- An alias as data. -/
def writeAlias (a : Alias) : Value :=
  .record [("new_name", .text a.newName), ("old_name", .text a.oldName), ("kind", .text a.kind.text),
    ("comment", .ofText? a.comment)]

/-- A mixin as data. -/
def writeMixin (m : Mixin) : Value :=
  .record [("keyword", .text m.kind.text), ("name", writeName m.name),
    ("args", .list (writeTyEach m.args)), ("comment", .ofText? m.comment)]

/-- An attribute as data. -/
def writeAttribute (a : Attribute) : Value :=
  .record [("keyword", .text a.kind.text), ("name", .text a.name), ("type", writeTy a.type),
    ("ivar_name", .ofText? a.ivarName), ("kind", .text a.methodKind.text),
    ("annotations", .list (a.annotations.map writeAnnotationText)), ("comment", .ofText? a.comment),
    ("visibility", .ofText? (a.visibility.map Visibility.text))]

/-! ## Reading -/

namespace Reader

/-- A method kind. -/
def methodKind : Reader MethodKind :=
  word .notMember (MethodKind.all.map fun kind => (kind.text, kind))

/-- A visibility. -/
def visibility : Reader Visibility :=
  word .notMember (Visibility.all.map fun visibility => (visibility.text, visibility))

/-- An annotation. -/
def annotationText : Reader AnnotationText :=
  record "Annotation" fun fields => AnnotationText.mk <$> required fields "string" text

/-- An overload. -/
def overload : Reader Overload :=
  record "Overload" fun fields =>
    Overload.mk <$> required fields "method_type" methodType
      <*> defaulted fields "annotations" [] (list annotationText)

/-- A method definition. -/
def methodDefinition : Reader MethodDefinition :=
  record "MethodDefinition" fun fields =>
    MethodDefinition.mk <$> required fields "name" text
      <*> defaulted fields "kind" .onInstance methodKind
      <*> required fields "overloads" (list overload)
      <*> defaulted fields "annotations" [] (list annotationText)
      <*> defaulted fields "comment" none (nullable text)
      <*> defaulted fields "visibility" none (nullable visibility)

/-- An alias. -/
def aliasMember : Reader Alias :=
  record "Alias" fun fields =>
    Alias.mk <$> required fields "new_name" text <*> required fields "old_name" text
      <*> defaulted fields "kind" .onInstance methodKind
      <*> defaulted fields "comment" none (nullable text)

/-- The fields of a mixin after its word. -/
def mixinRest (fields : Fields) (kind : Checked MixinKind) : Checked Mixin :=
  Mixin.mk <$> kind <*> required fields "name" qualifiedName <*> defaulted fields "args" [] (list ty)
    <*> defaulted fields "comment" none (nullable text)

/-- A mixin of any kind. -/
def anyMixin : Reader Mixin :=
  record "MixinMember" fun fields =>
    mixinRest fields
      (required fields "keyword" (word .notLiteral (MixinKind.all.map fun kind => (kind.text, kind))))

/-- A mixin of one kind. -/
def mixinOf (className : String) (kind : MixinKind) : Reader Mixin :=
  record className fun fields =>
    mixinRest fields ((fun _ => kind) <$> tag fields "keyword" kind.text)

/-- The fields of an attribute after its word. -/
def attributeRest (fields : Fields) (kind : Checked AttributeKind) : Checked Attribute :=
  Attribute.mk <$> kind <*> required fields "name" text <*> required fields "type" ty
    <*> defaulted fields "ivar_name" none (nullable text)
    <*> defaulted fields "kind" .onInstance methodKind
    <*> defaulted fields "annotations" [] (list annotationText)
    <*> defaulted fields "comment" none (nullable text)
    <*> defaulted fields "visibility" none (nullable visibility)

/-- An attribute of any kind. -/
def anyAttribute : Reader Attribute :=
  record "AttrMember" fun fields =>
    attributeRest fields
      (required fields "keyword"
        (word .notLiteral (AttributeKind.all.map fun kind => (kind.text, kind))))

/-- An attribute of one kind. -/
def attributeOf (className : String) (kind : AttributeKind) : Reader Attribute :=
  record className fun fields =>
    attributeRest fields ((fun _ => kind) <$> tag fields "keyword" kind.text)

end Reader

end RubySig.Data
