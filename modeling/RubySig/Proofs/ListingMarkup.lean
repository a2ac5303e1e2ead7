import RubySig.Listing
import RubySig.Proofs.LiveTags
import Mathlib.Data.List.Forall2

/-!
# Names and signatures in listings

The name in a row and the signature of a method, mixin, attribute call or faulty alias are escaped
texts, whatever the names, types and fault details they are made of. The only markup among them is
the mark before a fault and the mark for a mixin without a member.
-/

namespace RubySig.Listing

open RubySig.Rbs
open RubySig.Text.Markup

/-- The rows are those of the entries that are shown. -/
theorem rows_value (settings : Settings) (showPrivate : Bool) (es : List Entry) :
    (rows settings showPrivate es).value =
      (es.filter (isShown showPrivate)).map fun e => (row settings e).value := by
  induction es with
  | nil => rfl
  | cons e es ih =>
    rw [rows]
    cases hshown : isShown showPrivate e <;> simp [hshown, ih]

/-- The signature of a fault: the mark, and the escaped words of the fault. -/
def MarksFault (fault : Fault) (signature : String) : Prop :=
  ∃ rest, signature = faultMark ++ rest ∧ Escapes rest fault.render

/-- What a listing does to the signature of a declaration. Nothing is said about the signature of an
alias with a member. -/
def SignatureEscaped (signature : String) : Declaration → Prop
  | .method d => Escapes signature (" | ".intercalate (d.methodTypes.value.map MethodType.render))
  | .aliasing d =>
    match d.member with
    | .error fault => MarksFault fault signature
    | .ok _ => True
  | .mixin d =>
    match d.member.value with
    | none => signature = unsupportedMark
    | some member => Escapes signature member.render
  | .attr d =>
    match d.members with
    | .error fault => MarksFault fault signature
    | .ok members => Escapes signature ("; ".intercalate (members.map Attribute.render))
  | .marker _ _ => signature = ""
  | .other _ => signature = ""

/-- The signature of a fault is its escaped text behind the mark of faults. -/
theorem marksFault_faultSignature (fault : Fault) : MarksFault fault (faultSignature fault) :=
  ⟨escape fault.render, rfl, escapes_escape _⟩

/-- A listing escapes the signature of every declaration, or puts a mark in its place. -/
theorem signatureEscaped_describe (settings : Settings) (d : Declaration) :
    SignatureEscaped (describe settings d).value.signature d := by
  cases d with
  | method d => exact escapes_escape _
  | aliasing d =>
    simp only [SignatureEscaped, describe, Logged.value_pure, describeAlias]
    cases d.member with
    | error fault => exact marksFault_faultSignature fault
    | ok member => trivial
  | mixin d =>
    simp only [SignatureEscaped, describe, describeMixin, Logged.value_bind]
    cases d.member.value with
    | none => rfl
    | some member => exact escapes_escape _
  | attr d =>
    simp only [SignatureEscaped, describe, Logged.value_pure, describeAttribute]
    cases d.members with
    | error fault => exact marksFault_faultSignature fault
    | ok members => exact escapes_escape _
  | marker visibility call => rfl
  | other line => rfl

/-- In each row of a listing the name is escaped, and so is the signature next to the marks for faults
and unsupported calls. -/
theorem rows_escaped (settings : Settings) (showPrivate : Bool) (es : List Entry) :
    List.Forall₂ (fun e r => Escapes r.name (describe settings e.declaration).value.name ∧
        SignatureEscaped r.signature e.declaration)
      (es.filter (isShown showPrivate)) (rows settings showPrivate es).value := by
  rw [rows_value, List.forall₂_map_right_iff, List.forall₂_same]
  intro e _
  exact ⟨escapes_escape _, signatureEscaped_describe settings e.declaration⟩

end RubySig.Listing
