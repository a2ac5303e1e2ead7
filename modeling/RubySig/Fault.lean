import RubySig.Rbs.Member

/-!
# Structural faults

A declaration whose shape no member can be made of is a fault of that declaration alone: it is
returned in place of the member, so that the other declarations of a file are not affected.
-/

namespace RubySig

open RubySig.Rbs

/-- The words for something that went wrong. -/
structure Report where
  message : String
  details : Option String := none
  deriving DecidableEq

/-- Message and details in one line; empty details are left out. -/
def Report.render (r : Report) : String :=
  match r.details with
  | none => r.message
  | some details => if details.isEmpty then r.message else r.message ++ ": " ++ details

/-- A value or a report, whichever is given: a report takes the place of the value. -/
def Report.orValue {α : Type} (report : Option Report) (value : α) : Except Report α :=
  match report with
  | some report => .error report
  | none => .ok value

/-- Which of the two names of an alias is meant. -/
inductive AliasRole where
  | old
  | new
  deriving DecidableEq

/-- The word for a role. -/
def AliasRole.text : AliasRole → String
  | .old => "old"
  | .new => "new"

/-- Why no member can be made of a declaration. -/
inductive Fault where
  | aliasNameNotSymbol (role : AliasRole) (nodeType : String)
  | aliasNameUnknown (role : AliasRole)
  | notAttribute (name : String)
  | attributeNameUnknown (line : Int)
  | assertedMethodType (type : MethodType)

/-- The words for a fault. -/
def Fault.report : Fault → Report
  | .aliasNameNotSymbol role nodeType =>
    ⟨"Alias " ++ role.text ++ " name must be a literal symbol", some ("got " ++ nodeType ++ " node")⟩
  | .aliasNameUnknown role => ⟨"Alias " ++ role.text ++ " name has no literal value", none⟩
  | .notAttribute name => ⟨"`" ++ name ++ "` is not an attribute declaration", none⟩
  | .attributeNameUnknown line =>
    ⟨"Line " ++ toString line ++ ": attribute name has no literal value", none⟩
  | .assertedMethodType type =>
    ⟨"Attribute type assertion must be a plain type", some ("got method type `" ++ type.render ++ "`")⟩

/-- A fault in one line. -/
def Fault.render (f : Fault) : String :=
  f.report.render

end RubySig
