import RubySig.Outline.Statement

/-!
# Outlines

The declarations of a tree in source order, each with the class or module that owns it and the
visibility in force where it stands. Every body starts out public; a marker changes the visibility
for itself and the statements after it in the same body. The bodies of classes, modules and
`class << self` are gone through where they stand, and what happens in them does not reach the
statements around them.

The walk goes down the tree itself: a body is found among the children of the statement that opens
it, and its statements are the named ones among its children.
-/

namespace RubySig

open RubySig.Rbs
open RubySig.Ruby

/-- A declaration with its owner and the visibility in force. -/
structure Entry where
  declaration : Declaration
  owner : Option String
  defaultVisibility : Visibility
  deriving BEq

/-- The visibility of a declaration: the one it is tagged with, or else the one in force. -/
def Entry.visibility (e : Entry) : Visibility :=
  e.declaration.tag.getD e.defaultVisibility

namespace Outline

/-- A statement that opens the body of a class or module. -/
def opensScope (t : SyntaxTree) : Bool :=
  t.type == "class" || t.type == "module"

/-- A statement that opens the singleton of something. -/
def opensSingleton (t : SyntaxTree) : Bool :=
  t.type == "singleton_class"

/-- The singleton that a statement opens is that of `self`. -/
def isOfSelf (t : SyntaxTree) : Bool :=
  match t.child? "value" with
  | none => false
  | some value => value.type == "self"

/-- The owner inside a class or module. -/
def qualify (owner : Option String) (name : String) : String :=
  match owner with
  | none => name
  | some owner => if owner.isEmpty then name else owner ++ "::" ++ name

/-- The visibility in force after a declaration. -/
def visibilityAfter (visibility : Visibility) : Declaration → Visibility
  | .marker marked _ => marked
  | _ => visibility

/-- The entry of a statement that opens no body, and the visibility in force after it. -/
def leaf (ctx : Context) (owner : Option String) (mode : Mode) (visibility : Visibility)
    (t : SyntaxTree) : Logged (List Entry × Visibility) := do
  match ← declaration? ctx mode t with
  | none => return ([], visibility)
  | some declaration =>
    let after := visibilityAfter visibility declaration
    return ([⟨declaration, owner, after⟩], after)

mutual

/-- The entries of a statement, and the visibility in force after it. -/
def statement (ctx : Context) (owner : Option String) (mode : Mode) (visibility : Visibility) :
    SyntaxTree → Logged (List Entry × Visibility)
  | ⟨type, start, stop, row, field, named, children⟩ =>
    let t := ⟨type, start, stop, row, field, named, children⟩
    if opensScope t then do
      let entries ← bodyOf ctx (some (qualify owner (t.fieldText ctx.source "name"))) .plain children
      return (entries, visibility)
    else if opensSingleton t then
      if isOfSelf t then do
        let entries ← bodyOf ctx owner .singleton children
        return (entries, visibility)
      else do
        Logged.tell (.foreignSingletonSkipped t.line)
        return ([], visibility)
    else leaf ctx owner mode visibility t

/-- The entries of the body among the children of a statement: of the first child that is held as
the body. -/
def bodyOf (ctx : Context) (owner : Option String) (mode : Mode) :
    List SyntaxTree → Logged (List Entry)
  | [] => pure []
  | ⟨_, _, _, _, field, _, children⟩ :: rest =>
    if field == some "body" then statements ctx owner mode .pub children
    else bodyOf ctx owner mode rest

/-- The entries of the named nodes among those of a body, given the visibility in force. -/
def statements (ctx : Context) (owner : Option String) (mode : Mode) (visibility : Visibility) :
    List SyntaxTree → Logged (List Entry)
  | [] => pure []
  | t :: rest =>
    if t.named then do
      let (entries, after) ← statement ctx owner mode visibility t
      let later ← statements ctx owner mode after rest
      return entries ++ later
    else statements ctx owner mode visibility rest

end

/-- The entries of the body that a statement opens. -/
theorem bodyOf_children (ctx : Context) (owner : Option String) (mode : Mode) (t : SyntaxTree) :
    bodyOf ctx owner mode t.children =
      match t.child? "body" with
      | none => pure []
      | some body => statements ctx owner mode .pub body.children := by
  simp only [SyntaxTree.child?]
  induction t.children with
  | nil => rw [bodyOf]; rfl
  | cons child rest ih =>
    obtain ⟨_, _, _, _, field, _, children⟩ := child
    rw [bodyOf]
    cases h : field == some "body" <;> simp [List.find?, h, ih]

/-- The outline of a tree. -/
def ofTree (ctx : Context) (root : SyntaxTree) : Logged (List Entry) :=
  statements ctx none .plain .pub root.children

end Outline

end RubySig
