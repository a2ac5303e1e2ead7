import RubySig.Proofs.CallReading
import RubySig.Proofs.MemberFaults
import Mathlib.Data.List.ReduceOption

/-!
# An attribute call has all of its members or none

Three things can be wrong with an attribute call: it is called by another word, one of its symbols has
no known value, or a method type is asserted of its names. They are said here apart from each other,
each by what it looks at. The call is at fault for the first of them, and if none of them holds it has
one member for each symbol, in the order of the arguments, all with the same type and comment. Without
symbols the assertion does not matter, and arguments that are no symbols never do.
-/

namespace RubySig

open RubySig.Rbs
open RubySig.Ruby

/-- The value of an argument that is a symbol. -/
def Ruby.Argument.symbol? : Argument → Option (Option String)
  | .expr (.symbol value) => some value
  | _ => none

namespace AttributeDeclaration

/-- The words that declare attributes. -/
def words : List String :=
  ["attr_reader", "attr_writer", "attr_accessor"]

/-- The values of the symbols among the arguments. -/
def symbols (d : AttributeDeclaration) : List (Option String) :=
  d.call.argumentList.filterMap Argument.symbol?

/-- The method type asserted of the names. -/
def assertedMethod? (d : AttributeDeclaration) : Option MethodType :=
  d.assertion.bind Assertion.methodType?

/-- The plain type asserted of the names, or else `untyped`. -/
def plainType (d : AttributeDeclaration) : Ty :=
  match d.assertion with
  | some ⟨_, .plain type⟩ => type
  | _ => .untyped

/-- The member of a kind for a name. -/
def memberNamed (d : AttributeDeclaration) (kind : AttributeKind) (name : String) : Attribute where
  kind := kind
  name := name
  type := d.plainType
  comment := CommentBlock.documentation d.comments

/-- What is wrong with the call, each of the three things on its own. -/
def grounds (d : AttributeDeclaration) : List Fault :=
  (if d.call.name ∈ words then [] else [.notAttribute d.call.name]) ++
    (if none ∈ d.symbols then [.attributeNameUnknown d.call.line] else []) ++
    (if d.symbols = [] then [] else d.assertedMethod?.toList.map .assertedMethodType)

variable (d : AttributeDeclaration)

/-- A symbol without a value is one of the arguments. -/
theorem none_mem_symbols_iff : none ∈ d.symbols ↔ .expr (.symbol none) ∈ d.call.argumentList := by
  have hsymbol (argument : Argument) : argument.symbol? = some none ↔ argument = .expr (.symbol none) := by
    unfold Argument.symbol?
    split <;> simp_all
  simp [symbols, List.mem_filterMap, hsymbol]

/-- The names of a call are the values of its symbols that are known. -/
theorem filterMap_symbolName? :
    d.call.argumentList.filterMap Argument.symbolName? = d.symbols.reduceOption := by
  rw [symbols, List.reduceOption, List.filterMap_filterMap]
  congr 1
  funext argument
  unfold Argument.symbolName? Argument.symbol?
  split <;> simp_all

/-- If all values are known, the symbols are the names. -/
theorem map_some_reduceOption {values : List (Option String)} (h : none ∉ values) :
    values.reduceOption.map some = values := by
  induction values with
  | nil => rfl
  | cons value values ih =>
    rw [List.mem_cons, not_or] at h
    obtain ⟨name, rfl⟩ := Option.ne_none_iff_exists'.mp (Ne.symm h.1)
    rw [List.reduceOption_cons_of_some, List.map_cons, ih h.2]

/-- A word declares attributes exactly when there is a kind for it. -/
theorem mem_words_iff {word : String} : word ∈ words ↔ ∃ kind : AttributeKind, word = kind.text := by
  constructor
  · intro h
    simp only [words, List.mem_cons, List.not_mem_nil, or_false] at h
    rcases h with rfl | rfl | rfl
    · exact ⟨.reader, rfl⟩
    · exact ⟨.writer, rfl⟩
    · exact ⟨.accessor, rfl⟩
  · rintro ⟨kind, rfl⟩
    cases kind <;> decide

/-- The words of the three kinds are the only ones that call for attributes. -/
theorem ofText?_eq_none_iff (word : String) : AttributeKind.ofText? word = none ↔ word ∉ words := by
  rw [mem_words_iff, Option.eq_none_iff_forall_ne_some]
  simp

/-- An asserted method type stands in the assertion next to the call. -/
theorem assertedMethod?_eq_some_iff (type : MethodType) :
    d.assertedMethod? = some type ↔ ∃ source, d.assertion = some ⟨source, .method type⟩ := by
  unfold assertedMethod? Assertion.methodType?
  match d.assertion with
  | none => simp
  | some ⟨_, .plain _⟩ => simp
  | some ⟨_, .method _⟩ => simp

/-- The type of the names is at fault for the method type that is asserted. -/
theorem type_eq_error_iff_map (fault : Fault) :
    d.type = .error fault ↔ d.assertedMethod?.map .assertedMethodType = some fault := by
  rw [type_eq_error_iff, Option.map_eq_some_iff]
  constructor
  · rintro ⟨source, type, hassertion, rfl⟩
    exact ⟨type, (d.assertedMethod?_eq_some_iff type).mpr ⟨source, hassertion⟩, rfl⟩
  · rintro ⟨type, hmethod, rfl⟩
    obtain ⟨source, hassertion⟩ := (d.assertedMethod?_eq_some_iff type).mp hmethod
    exact ⟨source, type, hassertion, rfl⟩

/-- Without a method type the names have the plain type or `untyped`. -/
theorem type_eq_ok_plainType (h : d.assertedMethod? = none) : d.type = .ok d.plainType := by
  unfold assertedMethod? Assertion.methodType? at h
  unfold type attributeType plainType
  match hassertion : d.assertion with
  | none => rfl
  | some ⟨_, .plain _⟩ => rfl
  | some ⟨_, .method _⟩ => simp [hassertion] at h

/-- The call is at fault for the first thing that is wrong with it. -/
theorem members_eq_error_iff_head? (fault : Fault) :
    d.members = .error fault ↔ d.grounds.head? = some fault := by
  rw [members_eq_error_iff]
  simp only [ofText?_eq_none_iff, ← none_mem_symbols_iff, filterMap_symbolName?]
  by_cases hword : d.call.name ∈ words
  · by_cases hunknown : none ∈ d.symbols
    · have hhead : d.grounds.head? = some (.attributeNameUnknown d.call.line) := by
        simp [grounds, hword, hunknown]
      rw [if_neg (not_not.mpr hword), if_pos hunknown, hhead, Option.some.injEq, eq_comm]
    · have hnames : d.symbols.reduceOption = [] ↔ d.symbols = [] := by
        rw [← List.map_eq_nil_iff (f := some), map_some_reduceOption hunknown]
      have hhead : d.grounds.head? =
          if d.symbols = [] then none else d.assertedMethod?.map .assertedMethodType := by
        cases hmethod : d.assertedMethod? <;> by_cases hsymbols : d.symbols = [] <;>
          simp [grounds, hword, hunknown, hsymbols, hmethod]
      rw [if_neg (not_not.mpr hword), if_neg hunknown, hhead, Ne, hnames, type_eq_error_iff_map]
      split <;> simp [*]
  · have hhead : d.grounds.head? = some (.notAttribute d.call.name) := by simp [grounds, hword]
    rw [if_pos hword, hhead, Option.some.injEq, eq_comm]

/-- Nothing is wrong with a call by the right word whose symbols all have values and whose
assertion, if there are symbols, is no method type. -/
theorem grounds_eq_nil_iff :
    d.grounds = [] ↔
      d.call.name ∈ words ∧ none ∉ d.symbols ∧ (d.symbols = [] ∨ d.assertedMethod? = none) := by
  unfold grounds
  cases d.assertedMethod? <;> simp

/-- A call with nothing wrong has a member for each symbol. -/
theorem members_of_grounds_eq_nil (h : d.grounds = []) :
    ∃ kind names, d.call.name = AttributeKind.text kind ∧ d.symbols = List.map some names ∧
      d.members = .ok (names.map (d.memberNamed kind)) := by
  obtain ⟨hword, hknown, hplain⟩ := d.grounds_eq_nil_iff.mp h
  obtain ⟨kind, hkind⟩ := mem_words_iff.mp hword
  refine ⟨kind, d.symbols.reduceOption, hkind, (map_some_reduceOption hknown).symm, ?_⟩
  have hnames : d.names = .ok d.symbols.reduceOption := by
    rw [names, symbolNames_eq, if_neg (d.none_mem_symbols_iff.not.mp hknown), filterMap_symbolName?]
  unfold members
  rw [(AttributeKind.ofText?_eq_some_iff _ _).mpr hkind, hnames]
  cases hvalues : d.symbols.reduceOption with
  | nil => rfl
  | cons name later =>
    have hmethod : d.assertedMethod? = none := hplain.resolve_left fun hnil => by simp [hnil] at hvalues
    simp [d.type_eq_ok_plainType hmethod, bind, Except.bind, pure, Except.pure, memberNamed]

/-- An attribute call is at fault if it is called by another word, if a symbol has no known value, or
if it has symbols and a method type is asserted, and the first of these is reported. Otherwise it has
exactly one member for each symbol, in order, with the kind of its word and one type and comment. -/
theorem members_all_or_nothing :
    ((∃ fault, d.members = .error fault) ↔
      d.call.name ∉ words ∨ none ∈ d.symbols ∨ d.symbols ≠ [] ∧ ∃ type, d.assertedMethod? = some type) ∧
    (∀ fault, d.members = .error fault ↔ d.grounds.head? = some fault) ∧
    (∀ members, d.members = .ok members ↔ d.grounds = [] ∧
      ∃ kind names, d.call.name = AttributeKind.text kind ∧ d.symbols = List.map some names ∧
        members = names.map (d.memberNamed kind)) := by
  have hfault : (∃ fault, d.members = .error fault) ↔ d.grounds ≠ [] := by
    simp only [members_eq_error_iff_head?]
    cases d.grounds <;> simp
  refine ⟨?_, d.members_eq_error_iff_head?, fun members => ⟨fun hmembers => ?_, ?_⟩⟩
  · rw [hfault, Ne, grounds_eq_nil_iff, ← Option.ne_none_iff_exists']
    tauto
  · have hgrounds : d.grounds = [] := by
      by_contra hne
      obtain ⟨fault, herror⟩ := hfault.mpr hne
      simp [hmembers] at herror
    obtain ⟨kind, names, hkind, hnames, hok⟩ := d.members_of_grounds_eq_nil hgrounds
    exact ⟨hgrounds, kind, names, hkind, hnames, Except.ok.inj (hmembers.symm.trans hok)⟩
  · rintro ⟨hgrounds, kind, names, hkind, hnames, rfl⟩
    obtain ⟨other, others, hother, hothers, hok⟩ := d.members_of_grounds_eq_nil hgrounds
    obtain rfl : kind = other := by
      rw [← AttributeKind.ofText?_eq_some_iff] at hkind hother
      exact Option.some.inj (hkind.symm.trans hother)
    obtain rfl : names = others :=
      List.map_injective_iff.mpr (fun _ _ => Option.some.inj) (hnames.symm.trans hothers)
    exact hok

end AttributeDeclaration

end RubySig
