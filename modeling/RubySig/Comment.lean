import RubySig.Fault
import RubySig.Keyed

/-!
# Comment blocks

The notes found in the comment next to a declaration, and the questions that declarations ask
of them. Every question takes a comment block that may be absent and treats it as one without
notes. The questions differ in what they do with several answers: method types are all kept, the
first return type counts, the last type of a variable counts, and passthrough items are put
together.
-/

namespace RubySig

open RubySig.Rbs

/-- A type asserted of the declaration. -/
structure Assertion where
  source : String := ""
  type : Asserted
  deriving BEq

/-- The return type of a method. -/
structure ReturnNote where
  source : String := ""
  type : Ty
  deriving BEq

/-- The type of a parameter, block parameter or instance variable. -/
structure VariableNote where
  source : String := ""
  name : Option String := none
  type : Option Ty := none
  deriving BEq

/-- Type arguments applied to a mixin. -/
structure Application where
  source : String := ""
  types : Option (List Ty) := none
  deriving BEq

/-- Items that are passed on as they are, each with its delimiters. -/
structure Passthrough where
  source : String := ""
  contents : List String := []
  deriving BEq

/-- A note in a comment. -/
inductive Note where
  | assertion (note : Assertion)
  | returns (note : ReturnNote)
  | var (note : VariableNote)
  | application (note : Application)
  | passthrough (note : Passthrough)
  deriving BEq

/-- The comment next to a declaration: its notes, and its text without the comment signs. -/
structure CommentBlock where
  notes : List Note := []
  content : String := ""
  deriving BEq

namespace Note

/-- The asserted type of a note. -/
def assertion? : Note → Option Assertion
  | assertion note => some note
  | _ => none

/-- The type that a note states for the return value. -/
def returnType? : Note → Option Ty
  | returns note => some note.type
  | _ => none

/-- The application of a note. -/
def application? : Note → Option Application
  | application note => some note
  | _ => none

/-- A variable with a name and the type that a note states for it. -/
def namedType? : Note → Option (String × Option Ty)
  | var ⟨_, some name, type⟩ => if name.isEmpty then none else some (name, type)
  | _ => none

/-- The items that a note passes on. -/
def contents : Note → List String
  | passthrough note => note.contents
  | _ => []

end Note

/-- The method type of an assertion. -/
def Assertion.methodType? (a : Assertion) : Option MethodType :=
  match a.type with
  | .method type => some type
  | .plain _ => none

namespace CommentBlock

/-- The notes of a comment that may be absent. -/
def notesOf (comments : Option CommentBlock) : List Note :=
  match comments with
  | none => []
  | some block => block.notes

/-- The assertions of a full method signature, in order. -/
def methodAssertions (comments : Option CommentBlock) : List Assertion :=
  ((notesOf comments).filterMap Note.assertion?).filter fun a => a.methodType?.isSome

/-- The asserted method signatures, in order. -/
def methodTypes (comments : Option CommentBlock) : List MethodType :=
  ((notesOf comments).filterMap Note.assertion?).filterMap Assertion.methodType?

/-- The first return type. -/
def returnType (comments : Option CommentBlock) : Option Ty :=
  (notesOf comments).findSome? Note.returnType?

/-- The types of named variables: the last one stated for each name. -/
def variableTypes (comments : Option CommentBlock) : List (String × Option Ty) :=
  Keyed.ofPairs ((notesOf comments).filterMap Note.namedType?)

/-- The first assertion. -/
def firstAssertion (comments : Option CommentBlock) : Option Assertion :=
  (notesOf comments).findSome? Note.assertion?

/-- The first application. -/
def firstApplication (comments : Option CommentBlock) : Option Application :=
  (notesOf comments).findSome? Note.application?

/-- The passthrough items of all notes, in order. -/
def passthroughContents (comments : Option CommentBlock) : List String :=
  (notesOf comments).flatMap Note.contents

/-- The text of the comment, unless it is empty. -/
def documentation (comments : Option CommentBlock) : Option String :=
  match comments with
  | none => none
  | some block => if block.content.isEmpty then none else some block.content

end CommentBlock

/-- The type shared by all names of an attribute: `untyped` without an assertion. -/
def attributeType (assertion : Option Assertion) : Except Fault Ty :=
  match assertion with
  | none => .ok .untyped
  | some ⟨_, .plain type⟩ => .ok type
  | some ⟨_, .method type⟩ => .error (.assertedMethodType type)

end RubySig
