import RubySig.Declaration
import RubySig.Settings
import RubySig.Signature

/-!
# Members of declarations

What RBS members a declaration stands for. A method has exactly one, a mixin one or none, an
attribute call one for each of its names; an alias or attribute call of the wrong shape is a fault.
-/

namespace RubySig

open RubySig.Rbs
open RubySig.Ruby

namespace MethodDeclaration

/-- A receiver other than `self` is the only thing for which a method looks at the settings. -/
def consultsSettings (d : MethodDeclaration) : Bool :=
  match d.definition.receiver with
  | none => false
  | some .self => false
  | some _ => true

/-- A method on `self` is defined on the singleton. With any other receiver it is taken for an
instance method, which is worth a warning. -/
def kind (settings : Settings) (d : MethodDeclaration) : Logged MethodKind :=
  match d.definition.receiver with
  | none => pure .onInstance
  | some .self => pure .onSingleton
  | some _ => do
    Logged.tellIf settings.warnUnsupportedReceiver
      (.foreignReceiver d.definition.line d.definition.name)
    return .onInstance

/-- The method types that the comment states, or else the one of the parameter list. -/
def methodTypes (d : MethodDeclaration) : Logged (List MethodType) :=
  match CommentBlock.methodTypes d.comments with
  | [] => do
    let type ← Signature.methodType (CommentBlock.variableTypes d.comments)
      (CommentBlock.returnType d.comments) d.definition.parameters
    return [type]
  | types => pure types

/-- One overload for each method type. -/
def overloads (d : MethodDeclaration) : Logged (List Overload) := do
  let types ← d.methodTypes
  return types.map fun type => ⟨type, []⟩

/-- A passthrough item without the three characters before and the one after its text. -/
def stripDelimiters (content : String) : String :=
  String.ofList (content.toList.drop 3).dropLast

/-- The annotations passed on with the method. -/
def annotations (d : MethodDeclaration) : List AnnotationText :=
  (CommentBlock.passthroughContents d.comments).map fun content => ⟨stripDelimiters content⟩

/-- The member of a method. -/
def member (settings : Settings) (d : MethodDeclaration) : Logged MethodDefinition := do
  let kind ← d.kind settings
  let overloads ← d.overloads
  return {
    name := d.definition.name
    kind := kind
    overloads := overloads
    annotations := d.annotations
    comment := CommentBlock.documentation d.comments
    visibility := d.visibility }

end MethodDeclaration

namespace AliasDeclaration

/-- The name that a symbol gives. -/
def symbolName (role : AliasRole) : Expr → Except Fault String
  | .symbol (some name) => .ok name
  | .symbol none => .error (.aliasNameUnknown role)
  | expr => .error (.aliasNameNotSymbol role expr.nodeType)

/-- The name that is aliased. -/
def oldName (d : AliasDeclaration) : Except Fault String :=
  symbolName .old d.statement.oldName

/-- The name that is added. -/
def newName (d : AliasDeclaration) : Except Fault String :=
  symbolName .new d.statement.newName

/-- The member of an alias; a fault of the old name comes first. -/
def member (d : AliasDeclaration) : Except Fault Alias := do
  let old ← d.oldName
  let new ← d.newName
  return { newName := new, oldName := old, comment := CommentBlock.documentation d.comments }

end AliasDeclaration

namespace MixinDeclaration

/-- The way of mixing in that the call names. -/
def kind (d : MixinDeclaration) : Option MixinKind :=
  MixinKind.ofText? d.call.name

/-- The type arguments applied to the module. -/
def typeArgs (d : MixinDeclaration) : List Ty :=
  match d.application with
  | some ⟨_, some types⟩ => types
  | _ => []

/-- The member of a mixin. Only a call with a single constant has one. -/
def member (d : MixinDeclaration) : Logged (Option Mixin) :=
  match d.kind with
  | none => pure none
  | some kind =>
    match d.call.argumentList with
    | [.expr (.constant name)] =>
      pure (some ⟨kind, { name := name }, d.typeArgs, CommentBlock.documentation d.comments⟩)
    | _ => do
      Logged.tell (.mixinArguments d.call.line kind)
      return none

end MixinDeclaration

namespace AttributeDeclaration

/-- The names among arguments: the values of the symbols, all of which have to be known. -/
def symbolNames (line : Int) : List Argument → Except Fault (List String)
  | [] => .ok []
  | .expr (.symbol none) :: _ => .error (.attributeNameUnknown line)
  | .expr (.symbol (some name)) :: rest => (name :: ·) <$> symbolNames line rest
  | _ :: rest => symbolNames line rest

/-- The names that the call declares. -/
def names (d : AttributeDeclaration) : Except Fault (List String) :=
  symbolNames d.call.line d.call.argumentList

/-- The type that all names share. -/
def type (d : AttributeDeclaration) : Except Fault Ty :=
  attributeType d.assertion

/-- The members of an attribute call, one for each name. The type is looked at only if there is a
name. -/
def members (d : AttributeDeclaration) : Except Fault (List Attribute) :=
  match AttributeKind.ofText? d.call.name with
  | none => .error (.notAttribute d.call.name)
  | some kind => do
    match ← d.names with
    | [] => return []
    | names =>
      let type ← d.type
      return names.map fun name =>
        { kind := kind, name := name, type := type, comment := CommentBlock.documentation d.comments }

end AttributeDeclaration

end RubySig
