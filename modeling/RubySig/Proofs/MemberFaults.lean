import RubySig.Declaration.Member
import Mathlib.Tactic.Common

/-!
# When a declaration has no member

The faults of attribute calls and aliases, and the calls without a mixin, said by the parts of the
declaration alone. An attribute call fails for the first of three reasons that holds: it is no
attribute call, one of its symbols has no value, or it has a name and is asserted to be a method.
Arguments that are no symbols play no part.
-/

namespace RubySig

open RubySig.Rbs
open RubySig.Ruby

/-- The value of an argument that is a symbol with a value. -/
def Ruby.Argument.symbolName? : Argument → Option String
  | .expr (.symbol value) => value
  | _ => none

namespace AttributeDeclaration

/-- The names of arguments are the values of the symbols, unless one of them has none. -/
theorem symbolNames_eq (line : Int) (arguments : List Argument) :
    symbolNames line arguments =
      if .expr (.symbol none) ∈ arguments then .error (.attributeNameUnknown line)
      else .ok (arguments.filterMap Argument.symbolName?) := by
  induction arguments with
  | nil => rfl
  | cons argument rest ih =>
    match argument with
    | .expr (.symbol none) => simp [symbolNames]
    | .expr (.symbol (some name)) =>
      rw [symbolNames, ih]
      by_cases h : Argument.expr (.symbol none) ∈ rest
      · simp [h]
      · simp [h, Argument.symbolName?]
    | .expr .self | .expr (.constant _) | .expr (.other _) | .definition _ =>
      rw [symbolNames, ih, List.filterMap_cons_none rfl]
      · simp
      all_goals simp

/-- The type that names share is at fault exactly when a method type is asserted. -/
theorem type_eq_error_iff (d : AttributeDeclaration) (fault : Fault) :
    d.type = .error fault ↔
      ∃ source type, d.assertion = some ⟨source, .method type⟩ ∧ fault = .assertedMethodType type := by
  unfold type attributeType
  split
  · simp [*]
  · simp [*]
  · rename_i h
    simp [h, eq_comm]

/-- The faults of an attribute call, the first that holds before the others. -/
theorem members_eq_error_iff (d : AttributeDeclaration) (fault : Fault) :
    d.members = .error fault ↔
      if AttributeKind.ofText? d.call.name = none then fault = .notAttribute d.call.name
      else if .expr (.symbol none) ∈ d.call.argumentList then
        fault = .attributeNameUnknown d.call.line
      else d.call.argumentList.filterMap Argument.symbolName? ≠ [] ∧ d.type = .error fault := by
  cases hkind : AttributeKind.ofText? d.call.name with
  | none => simp [members, hkind, eq_comm]
  | some kind =>
    by_cases hunknown : .expr (.symbol none) ∈ d.call.argumentList
    · simp [members, hkind, names, symbolNames_eq, hunknown, bind, Except.bind, eq_comm]
    · cases hnames : d.call.argumentList.filterMap Argument.symbolName? with
      | nil =>
        simp [members, hkind, names, symbolNames_eq, hunknown, hnames, bind, Except.bind, pure,
          Except.pure]
      | cons name rest =>
        cases htype : d.type <;>
          simp [members, hkind, names, symbolNames_eq, hunknown, hnames, htype, bind, Except.bind, pure,
            Except.pure]

end AttributeDeclaration

namespace AliasDeclaration

/-- A name of an alias is at fault unless it is a symbol with a value. -/
theorem symbolName_eq_error_iff (role : AliasRole) (expr : Expr) (fault : Fault) :
    symbolName role expr = .error fault ↔ (∀ name, expr ≠ .symbol (some name)) ∧
      fault = if expr = .symbol none then .aliasNameUnknown role
        else .aliasNameNotSymbol role expr.nodeType := by
  unfold symbolName
  split <;> simp_all [eq_comm]

/-- An alias is at fault by its old name, or else by its new one. -/
theorem member_eq_error_iff (d : AliasDeclaration) (fault : Fault) :
    d.member = .error fault ↔ d.oldName = .error fault ∨
      (∃ old, d.oldName = .ok old) ∧ d.newName = .error fault := by
  unfold member
  cases d.oldName <;> cases d.newName <;> simp [bind, Except.bind, pure, Except.pure]

end AliasDeclaration

namespace MixinDeclaration

/-- A mixin call has no member unless it has a constant for its only argument. -/
theorem member_value_eq_none_iff (d : MixinDeclaration) (hkind : d.kind ≠ none) :
    d.member.value = none ↔ ¬ ∃ name, d.call.argumentList = [.expr (.constant name)] := by
  obtain ⟨kind, hkind⟩ := Option.ne_none_iff_exists'.mp hkind
  unfold member
  rw [hkind]
  dsimp only
  split
  · rename_i name h
    simp [h]
  · rename_i h
    simpa using h

end MixinDeclaration

end RubySig
