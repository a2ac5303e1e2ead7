import RubySig.Comment
import RubySig.Data.Types

/-!
# Comment blocks as plain data

A note is a record with a tag; the source text of a note comes first among its fields.
-/

namespace RubySig.Data

open RubySig.Rbs

/-! ## Writing -/

/-- An assertion as data. -/
def writeAssertion (a : Assertion) : Value :=
  .record [("source", .text a.source), ("tag", .text "assertion"), ("type", writeAsserted a.type)]

/-- A return type note as data. -/
def writeReturnNote (r : ReturnNote) : Value :=
  .record [("source", .text r.source), ("tag", .text "return_type"), ("type", writeTy r.type)]

/-- A variable note as data. -/
def writeVariableNote (v : VariableNote) : Value :=
  .record [("source", .text v.source), ("tag", .text "var_type"), ("name", .ofText? v.name),
    ("type", writeTyOption v.type)]

/-- An application as data. -/
def writeApplication (a : Application) : Value :=
  .record [("source", .text a.source), ("tag", .text "application"),
    ("types", .ofOption (fun types => .list (writeTyEach types)) a.types)]

/-- A passthrough note as data. -/
def writePassthrough (p : Passthrough) : Value :=
  .record [("source", .text p.source), ("tag", .text "rbs_annotation"), ("contents", .ofTexts p.contents)]

/-- A note as data. -/
def writeNote : Note → Value
  | .assertion note => writeAssertion note
  | .returns note => writeReturnNote note
  | .var note => writeVariableNote note
  | .application note => writeApplication note
  | .passthrough note => writePassthrough note

/-- A comment block as data. -/
def writeCommentBlock (c : CommentBlock) : Value :=
  .record [("annotations", .list (c.notes.map writeNote)), ("content", .text c.content)]

/-! ## Reading -/

namespace Reader

/-- An assertion. -/
def assertion : Reader Assertion :=
  record "Assertion" fun fields =>
    (fun source _ type => Assertion.mk source type) <$> defaulted fields "source" "" text
      <*> tag fields "tag" "assertion" <*> required fields "type" asserted

/-- A return type note. -/
def returnNote : Reader ReturnNote :=
  record "ReturnType" fun fields =>
    (fun source _ type => ReturnNote.mk source type) <$> defaulted fields "source" "" text
      <*> tag fields "tag" "return_type" <*> required fields "type" ty

/-- A variable note. -/
def variableNote : Reader VariableNote :=
  record "VarType" fun fields =>
    (fun source _ name type => VariableNote.mk source name type)
      <$> defaulted fields "source" "" text <*> tag fields "tag" "var_type"
      <*> defaulted fields "name" none (nullable text) <*> defaulted fields "type" none (nullable ty)

/-- An application. -/
def application : Reader Application :=
  record "Application" fun fields =>
    (fun source _ types => Application.mk source types) <$> defaulted fields "source" "" text
      <*> tag fields "tag" "application" <*> defaulted fields "types" none (nullable (list ty))

/-- A passthrough note. -/
def passthrough : Reader Passthrough :=
  record "RBSAnnotation" fun fields =>
    (fun source _ contents => Passthrough.mk source contents) <$> defaulted fields "source" "" text
      <*> tag fields "tag" "rbs_annotation" <*> defaulted fields "contents" [] (list text)

/-- A note of any kind. -/
def note : Reader Note :=
  tagged "tag" [("assertion", fun value => Note.assertion <$> assertion value),
    ("return_type", fun value => Note.returns <$> returnNote value),
    ("var_type", fun value => Note.var <$> variableNote value),
    ("application", fun value => Note.application <$> application value),
    ("rbs_annotation", fun value => Note.passthrough <$> passthrough value)]

/-- A comment block. -/
def commentBlock : Reader CommentBlock :=
  record "ParsingResult" fun fields =>
    CommentBlock.mk <$> defaulted fields "annotations" [] (list note)
      <*> defaulted fields "content" "" text

end Reader

end RubySig.Data
