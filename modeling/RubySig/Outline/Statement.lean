import RubySig.Declaration
import RubySig.Ruby.Reading

/-!
# Declarations of single statements

Which declaration a statement of a body makes, leaving aside statements that open a body of their
own. In the body of `class << self` only methods and visibility markers are declarations, and a
method without a receiver is a method on `self`.
-/

namespace RubySig.Outline

open RubySig.Rbs
open RubySig.Ruby

/-- The kind of a body: an ordinary one, or the body of `class << self`. -/
inductive Mode where
  | plain
  | singleton
  deriving DecidableEq

/-- The source text and the comment block next to each line. -/
structure Context where
  source : Source
  comments : Int → Option CommentBlock

/-- The definition as it counts in a body of this kind. -/
def Mode.place (mode : Mode) (d : Definition) : Definition :=
  match mode, d.receiver with
  | .singleton, none => { d with receiver := some .self }
  | _, _ => d

/-- The definition of a node in a body of this kind. -/
def placedDefinition (ctx : Context) (mode : Mode) (t : SyntaxTree) : Logged Definition := do
  let definition ← t.readDefinition ctx.source
  return mode.place definition

/-- The definitions among the arguments of a call. -/
def definitionArguments (t : SyntaxTree) : List SyntaxTree :=
  match t.child? "arguments" with
  | none => []
  | some list => list.namedChildren.filter SyntaxTree.isDefinition

/-- The declaration of a call to `public` or `private`: a marker without arguments, a tagged method
with a definition as its only argument, and else none. -/
def visibilityDeclaration (ctx : Context) (mode : Mode) (t : SyntaxTree) (visibility : Visibility)
    (call : Call) : Logged (Option Declaration) :=
  match call.argumentList, definitionArguments t with
  | [], _ => pure (some (.marker visibility call))
  | [_], [node] => do
    let definition ← placedDefinition ctx mode node
    return some (.method ⟨definition, ctx.comments t.line, some visibility⟩)
  | _, _ => do
    Logged.tell (.visibilityCallUnsupported call.name call.line)
    return none

/-- The declaration of a call by its name, in an ordinary body. -/
def namedCallDeclaration (comments : Option CommentBlock) (call : Call) : Option Declaration :=
  match MixinKind.ofText? call.name, AttributeKind.ofText? call.name with
  | some _, _ => some (.mixin ⟨call, comments, CommentBlock.firstApplication comments⟩)
  | none, some _ => some (.attr ⟨call, comments, CommentBlock.firstAssertion comments⟩)
  | none, none => none

/-- The declaration of a call or a bare identifier. A call with a receiver declares nothing. -/
def callDeclaration (ctx : Context) (mode : Mode) (t : SyntaxTree) : Logged (Option Declaration) := do
  let call ← t.readCall ctx.source
  if call.receiver.isSome then return none
  match Visibility.ofText? call.name with
  | some visibility => visibilityDeclaration ctx mode t visibility call
  | none =>
    if t.type == "identifier" then return none
    match mode with
    | .singleton =>
      Logged.tell (.singletonCallSkipped call.name call.line)
      return none
    | .plain => return namedCallDeclaration (ctx.comments t.line) call

/-- An alias of a global variable. -/
def isGlobalAlias (t : SyntaxTree) : Bool :=
  match t.child? "name" with
  | none => false
  | some name => name.type == "global_variable"

/-- The declaration of a statement other than a definition, a call or a comment. -/
def otherDeclaration (ctx : Context) (mode : Mode) (t : SyntaxTree) : Logged (Option Declaration) :=
  match mode with
  | .singleton => do
    Logged.tell (.singletonStatementSkipped t.type t.line)
    return none
  | .plain =>
    if t.type == "alias" then
      if isGlobalAlias t then do
        Logged.tell (.globalAliasSkipped t.line)
        return none
      else pure (some (.aliasing ⟨t.readAlias ctx.source, ctx.comments t.line⟩))
    else do
      Logged.tell (.statementSkipped t.type t.line)
      return none

/-- The declaration that a statement makes, if any. -/
def declaration? (ctx : Context) (mode : Mode) (t : SyntaxTree) : Logged (Option Declaration) :=
  if t.isDefinition then do
    let definition ← placedDefinition ctx mode t
    return some (.method ⟨definition, ctx.comments t.line, none⟩)
  else if t.type == "identifier" || t.type == "call" then callDeclaration ctx mode t
  else if t.isComment then pure none
  else otherDeclaration ctx mode t

end RubySig.Outline
