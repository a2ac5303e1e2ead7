import RubySig.Declaration.Member
import RubySig.Outline
import RubySig.Text.Markup

/-!
# Listings

One row of texts for each entry of an outline. Names and signatures are escaped so that they are
shown as they are; the owner, the kind and the text of an alias are put in as they come, and the
fixed texts for faults and unsupported calls are markup on purpose.
-/

namespace RubySig.Listing

open RubySig.Rbs
open RubySig.Text (Markup.escape)

/-- Kind, name and signature of a declaration. -/
structure Description where
  kind : String
  name : String := ""
  signature : String := ""
  deriving DecidableEq

/-- What stands before a fault. -/
def faultMark : String := "[red]error:[/red] "

/-- What stands for a mixin without a member. -/
def unsupportedMark : String := "[dim](unsupported arguments)[/dim]"

/-- The signature of a fault. -/
def faultSignature (fault : Fault) : String :=
  faultMark ++ Markup.escape fault.render

/-- The description of a method: all its signatures, and `self.` before the name of a method on the
singleton. -/
def describeMethod (settings : Settings) (d : MethodDeclaration) : Logged Description := do
  let kind ← d.kind settings
  let types ← d.methodTypes
  return {
    kind := "def"
    name := (if kind = .onSingleton then "self." else "") ++ d.definition.name
    signature := Markup.escape (" | ".intercalate (types.map MethodType.render)) }

/-- The description of an alias. -/
def describeAlias (d : AliasDeclaration) : Description :=
  match d.member with
  | .error fault => ⟨"alias", "", faultSignature fault⟩
  | .ok member => ⟨"alias", member.newName, "alias " ++ member.newName ++ " " ++ member.oldName⟩

/-- The description of a mixin. -/
def describeMixin (d : MixinDeclaration) : Logged Description := do
  let kind := match d.kind with
    | some kind => kind.text
    | none => d.call.name
  match ← d.member with
  | none => return ⟨kind, "", unsupportedMark⟩
  | some member => return ⟨kind, member.name.render, Markup.escape member.render⟩

/-- The description of an attribute call. -/
def describeAttribute (d : AttributeDeclaration) : Description :=
  match d.members with
  | .error fault => ⟨d.call.name, "", faultSignature fault⟩
  | .ok members =>
    ⟨d.call.name, ", ".intercalate (members.map Attribute.name),
      Markup.escape ("; ".intercalate (members.map Attribute.render))⟩

/-- The description of a declaration. -/
def describe (settings : Settings) : Declaration → Logged Description
  | .method declaration => describeMethod settings declaration
  | .aliasing declaration => pure (describeAlias declaration)
  | .mixin declaration => describeMixin declaration
  | .attr declaration => pure (describeAttribute declaration)
  | .marker visibility _ => pure { kind := visibility.text }
  | .other _ => pure { kind := "Declaration" }

/-- Whether a declaration looks at the settings. -/
def consultsSettings : Declaration → Bool
  | .method declaration => declaration.consultsSettings
  | _ => false

/-- A row of a listing. -/
structure Row where
  line : String
  owner : String
  kind : String
  name : String
  visibility : String
  signature : String
  deriving DecidableEq

/-- The cells of a row, from left to right. -/
def Row.cells (r : Row) : List String :=
  [r.line, r.owner, r.kind, r.name, r.visibility, r.signature]

/-- The headings over the cells. -/
def headings : List String :=
  ["Line", "Owner", "Kind", "Name", "Visibility", "Signature"]

/-- The row of an entry. -/
def row (settings : Settings) (e : Entry) : Logged Row := do
  let description ← describe settings e.declaration
  return {
    line := toString e.declaration.line
    owner := e.owner.getD ""
    kind := description.kind
    name := Markup.escape description.name
    visibility := e.visibility.text
    signature := description.signature }

/-- Whether an entry is listed. -/
def isShown (showPrivate : Bool) (e : Entry) : Bool :=
  showPrivate || e.visibility != .priv

/-- The rows of entries, leaving out private ones if they are not to be shown. -/
def rows (settings : Settings) (showPrivate : Bool) : List Entry → Logged (List Row)
  | [] => pure []
  | e :: rest =>
    if isShown showPrivate e then do
      let first ← row settings e
      let later ← rows settings showPrivate rest
      return first :: later
    else rows settings showPrivate rest

end RubySig.Listing
