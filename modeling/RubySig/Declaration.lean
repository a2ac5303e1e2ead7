import RubySig.Comment
import RubySig.Ruby.Node

/-!
# Declarations

A declaration is a Ruby node together with what its comment says about it. A method also carries
the visibility it was tagged with where it is defined, as in `private def`; the visibility that an
earlier bare `private` leaves in force is no part of the declaration.
-/

namespace RubySig

open RubySig.Rbs
open RubySig.Ruby

/-- A method definition. -/
structure MethodDeclaration where
  definition : Definition
  comments : Option CommentBlock := none
  visibility : Option Visibility := none
  deriving BEq

/-- An alias of a method. -/
structure AliasDeclaration where
  statement : AliasStatement
  comments : Option CommentBlock := none
  deriving BEq

/-- A call that mixes in a module. -/
structure MixinDeclaration where
  call : Call
  comments : Option CommentBlock := none
  application : Option Application := none
  deriving BEq

/-- A call that declares attributes. -/
structure AttributeDeclaration where
  call : Call
  comments : Option CommentBlock := none
  assertion : Option Assertion := none
  deriving BEq

/-- A declaration of any kind. A marker is a bare `public` or `private`. -/
inductive Declaration where
  | method (declaration : MethodDeclaration)
  | aliasing (declaration : AliasDeclaration)
  | mixin (declaration : MixinDeclaration)
  | attr (declaration : AttributeDeclaration)
  | marker (visibility : Visibility) (call : Call)
  | other (call : Call)
  deriving BEq

namespace Declaration

/-- The line of the node that is declared. -/
def line : Declaration → Int
  | method declaration => declaration.definition.line
  | aliasing declaration => declaration.statement.line
  | mixin declaration => declaration.call.line
  | attr declaration => declaration.call.line
  | marker _ call => call.line
  | other call => call.line

/-- The comment next to the declaration. -/
def comments : Declaration → Option CommentBlock
  | method declaration => declaration.comments
  | aliasing declaration => declaration.comments
  | mixin declaration => declaration.comments
  | attr declaration => declaration.comments
  | marker _ _ => none
  | other _ => none

/-- The visibility that a method is tagged with. -/
def tag : Declaration → Option Visibility
  | method declaration => declaration.visibility
  | _ => none

end Declaration

end RubySig
