import RubySig.Signature

/-!
# The slots of a signature

The method type of a parameter list, slot by slot, for any stated types: which parameters have a
slot, in which order and under which name, and what the type of the slot is. The types are said by
rules on what is stated for a name, one rule for each way in which a type comes about.

A variable that is named without a type counts as one that is not named. A container is taken apart
only under its plain name and with the right number of arguments, and a block comes from a proc or
from an optional proc, not from a doubly optional one. Keywords have one slot for each name, in the
order in which the names first occur. What is reported on the way is not covered.
-/

namespace RubySig

open RubySig.Rbs
open RubySig.Ruby

/-- The name of a required parameter that does not take its argument apart. -/
def Ruby.Positional.name? : Positional → Option String
  | .named name => some name
  | .destructured _ => none

namespace Signature

/-- The type that is stated for a name, `untyped` if none is. -/
def typeIn (vars : VariableTypes) (name : String) : Ty :=
  match vars.lookup name with
  | some (some type) => type
  | _ => .untyped

/-- An array type with one argument, under the plain name of arrays. -/
def ArrayOf (type element : Ty) : Prop :=
  type = .classInstance ⟨"Array", [], false⟩ [element]

/-- A hash type with two arguments, under the plain name of hashes, the second for the values. -/
def HashTo (type value : Ty) : Prop :=
  ∃ key, type = .classInstance ⟨"Hash", [], false⟩ [key, value]

/-- The rules for the type of a rest parameter, given which types hold elements of which type. -/
inductive RestTyped (vars : VariableTypes) (holds : Ty → Ty → Prop) : Option String → Ty → Prop where
  | anonymous : RestTyped vars holds none .untyped
  | unstated {name : String} (hstated : ∀ type, vars.lookup name ≠ some (some type)) :
    RestTyped vars holds (some name) .untyped
  | element {name : String} {type element : Ty} (hstated : vars.lookup name = some (some type))
    (hholds : holds type element) : RestTyped vars holds (some name) element
  | itself {name : String} {type : Ty} (hstated : vars.lookup name = some (some type))
    (hholds : ∀ element, ¬ holds type element) : RestTyped vars holds (some name) type

/-- The rules for the block of a block parameter with a name. -/
inductive BlockStated (vars : VariableTypes) (name : String) : BlockType → Prop where
  | proc {function : FunctionType} {selfType : Option Ty}
    (hstated : vars.lookup name = some (some (.proc function selfType))) :
    BlockStated vars name ⟨function, true, selfType⟩
  | optional {function : FunctionType} {selfType : Option Ty}
    (hstated : vars.lookup name = some (some (.optional (.proc function selfType)))) :
    BlockStated vars name ⟨function, false, selfType⟩

/-- The name of a keyword without a default. -/
def requiredKeywordName? : Keyword → Option String
  | .required name => some name
  | .optional _ _ => none

/-- The name of a keyword with a default. -/
def optionalKeywordName? : Keyword → Option String
  | .required _ => none
  | .optional name _ => some name

/-- A method type has the slots of a parameter list. -/
structure Slots (vars : VariableTypes) (returnType : Option Ty) (p : Parameters) (m : MethodType) :
    Prop where
  typeParams : m.typeParams = []
  requiredPositionals : m.function.requiredPositionals =
    (p.requireds.filterMap Positional.name?).map fun name => ⟨some name, typeIn vars name⟩
  optionalPositionals : m.function.optionalPositionals =
    p.optionals.map fun parameter => ⟨some parameter.name, typeIn vars parameter.name⟩
  restPositionals_isSome : m.function.restPositionals.isSome = true ↔
    ∃ name, p.rest = some (.named name)
  restPositionals : ∀ param, m.function.restPositionals = some param ↔
    p.rest = some (.named param.name) ∧ RestTyped vars ArrayOf param.name param.type
  trailingPositionals : m.function.trailingPositionals = []
  requiredKeywords : m.function.requiredKeywords =
    (p.keywords.filterMap requiredKeywordName?).eraseDups.map fun name =>
      (name, ⟨none, typeIn vars name⟩)
  optionalKeywords : m.function.optionalKeywords =
    (p.keywords.filterMap optionalKeywordName?).eraseDups.map fun name =>
      (name, ⟨none, typeIn vars name⟩)
  restKeywords_isSome : m.function.restKeywords.isSome = true ↔
    ∃ name, p.keywordRest = some (.named name)
  restKeywords : ∀ param, m.function.restKeywords = some param ↔
    p.keywordRest = some (.named param.name) ∧ RestTyped vars HashTo param.name param.type
  returnType : m.function.returnType = returnType.getD .untyped
  block : ∀ b, m.block = some b ↔ ∃ name, p.block = some ⟨some name⟩ ∧ BlockStated vars name b

section Types

variable (vars : VariableTypes)

/-- A type is stated for a name exactly when the name has one. -/
theorem statedType_eq_some_iff (name : String) (type : Ty) :
    statedType vars name = some type ↔ vars.lookup name = some (some type) := by
  unfold statedType
  cases vars.lookup name <;> simp

/-- No type is stated for a name exactly when the name has none. -/
theorem statedType_eq_none_iff (name : String) :
    statedType vars name = none ↔ ∀ type, vars.lookup name ≠ some (some type) := by
  rw [Option.eq_none_iff_forall_ne_some]
  simp only [ne_eq, statedType_eq_some_iff]

/-- The type of a name is the stated one, and untyped without one. -/
theorem typeOf_eq_typeIn : typeOf vars = typeIn vars := by
  funext name
  unfold typeOf statedType typeIn
  rcases vars.lookup name with _ | _ | type <;> rfl

/-- Only a single argument is the element type of an array. -/
theorem arrayElement_eq_some_iff (args : List Ty) (element : Ty) :
    arrayElement args = some element ↔ args = [element] := by
  match args with
  | [] => simp [arrayElement]
  | [_] => simp [arrayElement]
  | _ :: _ :: _ => simp [arrayElement]

/-- Only the second of two arguments is the value type of a hash. -/
theorem hashValue_eq_some_iff (args : List Ty) (value : Ty) :
    hashValue args = some value ↔ ∃ key, args = [key, value] := by
  match args with
  | [] => simp [hashValue]
  | [_] => simp [hashValue]
  | [_, _] => simp [hashValue]
  | _ :: _ :: _ :: _ => simp [hashValue]

/-- A name is simple exactly when it has no segments and is not absolute. -/
theorem isSimple_iff (name : QualifiedName) (container : String) :
    name.isSimple container = true ↔ name = ⟨container, [], false⟩ := by
  obtain ⟨last, segments, absolute⟩ := name
  simp [QualifiedName.isSimple, and_assoc]

end Types

/-- Which elements a type holds under the plain name of a container. -/
def Holds (container : String) (pick : List Ty → Option Ty) (type element : Ty) : Prop :=
  ∃ args, type = .classInstance ⟨container, [], false⟩ args ∧ pick args = some element

/-- Rest parameters take arrays apart. -/
theorem holds_array : Holds "Array" arrayElement = ArrayOf := by
  funext type element
  simp [Holds, ArrayOf, arrayElement_eq_some_iff]

/-- Rests of keywords take hashes apart. -/
theorem holds_hash : Holds "Hash" hashValue = HashTo := by
  funext type value
  refine propext ⟨?_, ?_⟩
  · rintro ⟨args, rfl, hpick⟩
    obtain ⟨key, rfl⟩ := (hashValue_eq_some_iff args value).mp hpick
    exact ⟨key, rfl⟩
  · rintro ⟨key, rfl⟩
    exact ⟨[key, value], rfl, rfl⟩

section Rest

variable {container : String} {pick : List Ty → Option Ty} {type element : Ty}

/-- A container is taken apart. -/
theorem unwrap_of_holds (h : Holds container pick type element) : unwrap container pick type = element := by
  obtain ⟨args, rfl, hpick⟩ := h
  have hsimple := (isSimple_iff ⟨container, [], false⟩ container).mpr rfl
  simp only [unwrap, hsimple, if_true, hpick, Option.getD_some]

/-- A type that is no such container is left as it is. -/
theorem unwrap_of_not_holds (h : ∀ element, ¬ Holds container pick type element) :
    unwrap container pick type = type := by
  unfold unwrap
  split
  · rename_i name args
    split
    · rename_i hsimple
      obtain rfl := (isSimple_iff name container).mp hsimple
      cases hpick : pick args with
      | none => rfl
      | some element => exact absurd ⟨args, rfl, hpick⟩ (h element)
    · rfl
  · rfl

variable {vars : VariableTypes}

/-- A rest parameter has the type that a rule gives it. -/
theorem RestTyped.restType_eq {name : Option String} (h : RestTyped vars (Holds container pick) name type) :
    restType vars container pick name = type := by
  cases h with
  | anonymous => rfl
  | unstated hstated => simp only [restType, (statedType_eq_none_iff vars _).mpr hstated]
  | element hstated hholds =>
    simp only [restType, (statedType_eq_some_iff vars _ _).mpr hstated, unwrap_of_holds hholds]
  | itself hstated hholds =>
    simp only [restType, (statedType_eq_some_iff vars _ _).mpr hstated, unwrap_of_not_holds hholds]

/-- Some rule applies to every rest parameter. -/
theorem exists_restTyped (vars : VariableTypes) (holds : Ty → Ty → Prop) (name : Option String) :
    ∃ type, RestTyped vars holds name type := by
  cases name with
  | none => exact ⟨.untyped, .anonymous⟩
  | some name =>
    by_cases hstated : ∃ type, vars.lookup name = some (some type)
    · obtain ⟨type, hstated⟩ := hstated
      by_cases hholds : ∃ element, holds type element
      · obtain ⟨element, hholds⟩ := hholds
        exact ⟨element, .element hstated hholds⟩
      · exact ⟨type, .itself hstated (not_exists.mp hholds)⟩
    · exact ⟨.untyped, .unstated (not_exists.mp hstated)⟩

/-- The rules say exactly which type a rest parameter has. -/
theorem restType_eq_iff (name : Option String) (type : Ty) :
    restType vars container pick name = type ↔ RestTyped vars (Holds container pick) name type := by
  constructor
  · rintro rfl
    obtain ⟨type, htyped⟩ := exists_restTyped vars (Holds container pick) name
    rwa [htyped.restType_eq]
  · exact RestTyped.restType_eq

section Slot

variable {ρ : Type} {named : Option String → ρ} {slot : ρ → Option Param}
  (hslot : ∀ rest param, slot rest = some param ↔
    ∃ name, rest = named name ∧ param = ⟨name, restType vars container pick name⟩)

include hslot

/-- A slot that only named rests have, with the type of the rest, follows the rules. -/
theorem bind_slot_eq_some_iff (rest : Option ρ) (param : Param) :
    rest.bind slot = some param ↔
      rest = some (named param.name) ∧ RestTyped vars (Holds container pick) param.name param.type := by
  rw [Option.bind_eq_some_iff, ← restType_eq_iff]
  constructor
  · rintro ⟨rest, rfl, h⟩
    obtain ⟨name, rfl, rfl⟩ := (hslot rest param).mp h
    exact ⟨rfl, rfl⟩
  · obtain ⟨name, type⟩ := param
    rintro ⟨rfl, htype⟩
    exact ⟨_, rfl, (hslot _ _).mpr ⟨name, rfl, by rw [htype]⟩⟩

/-- Every named rest has its slot. -/
theorem isSome_bind_slot_iff (rest : Option ρ) :
    (rest.bind slot).isSome = true ↔ ∃ name, rest = some (named name) := by
  rw [Option.isSome_iff_exists]
  simp only [bind_slot_eq_some_iff hslot]
  constructor
  · rintro ⟨param, hrest, -⟩
    exact ⟨param.name, hrest⟩
  · rintro ⟨name, hrest⟩
    obtain ⟨type, htyped⟩ := exists_restTyped vars (Holds container pick) name
    exact ⟨⟨name, type⟩, hrest, htyped⟩

end Slot

end Rest

section Parts

variable (vars : VariableTypes)

/-- Required parameters with a name have a slot each, in order. -/
theorem filterMap_requiredSlot (requireds : List Positional) :
    requireds.filterMap (requiredSlot vars) =
      (requireds.filterMap Positional.name?).map fun name => ⟨some name, typeIn vars name⟩ := by
  rw [List.map_filterMap, ← typeOf_eq_typeIn]
  congr 1
  funext parameter
  cases parameter <;> rfl

/-- Only a rest that is no forwarding has a slot. -/
theorem restSlot_eq_some_iff (rest : Rest) (param : Param) :
    restSlot vars rest = some param ↔
      ∃ name, rest = .named name ∧ param = ⟨name, restType vars "Array" arrayElement name⟩ := by
  cases rest <;> simp [restSlot, eq_comm]

/-- Only a rest of the keywords that is neither refused nor forwarding has a slot. -/
theorem keywordRestSlot_eq_some_iff (rest : KeywordRest) (param : Param) :
    keywordRestSlot vars rest = some param ↔
      ∃ name, rest = .named name ∧ param = ⟨name, restType vars "Hash" hashValue name⟩ := by
  cases rest <;> simp [keywordRestSlot, eq_comm]

/-- Keywords of a kind have one slot for each name, in the place where the name comes first. -/
theorem ofPairs_keywords {slot : Keyword → Option (String × Param)} {name? : Keyword → Option String}
    (hslot : ∀ keyword, slot keyword = (name? keyword).map fun name => (name, ⟨none, typeOf vars name⟩))
    (keywords : List Keyword) :
    Keyed.ofPairs (keywords.filterMap slot) =
      (keywords.filterMap name?).eraseDups.map fun name => (name, ⟨none, typeIn vars name⟩) := by
  rw [← Keyed.ofPairs_map, List.map_filterMap, ← typeOf_eq_typeIn]
  congr 2
  funext keyword
  exact hslot keyword

/-- A block parameter with a name gives the block that is stated for the name. -/
theorem blockSlot_value_eq_some_iff (name : String) (b : BlockType) :
    (blockSlot vars ⟨some name⟩).value = some b ↔ BlockStated vars name b := by
  constructor
  · intro h
    cases hstated : statedType vars name with
    | none => simp [blockSlot, hstated] at h
    | some type =>
      have hlookup := (statedType_eq_some_iff vars name type).mp hstated
      cases type with
      | proc function selfType =>
        simp only [blockSlot, hstated, blockOf, Logged.value_pure, Option.some.injEq] at h
        exact h ▸ .proc hlookup
      | optional type =>
        -- Only the outermost mark is taken off, so what is optional again gives no block.
        cases type with
        | proc function selfType =>
          simp only [blockSlot, hstated, blockOf, Logged.value_pure, Option.some.injEq] at h
          exact h ▸ .optional hlookup
        | _ => simp [blockSlot, hstated, blockOf] at h
      | _ => simp [blockSlot, hstated, blockOf] at h
  · intro h
    cases h with
    | proc hlookup => simp [blockSlot, (statedType_eq_some_iff vars name _).mpr hlookup, blockOf]
    | optional hlookup => simp [blockSlot, (statedType_eq_some_iff vars name _).mpr hlookup, blockOf]

/-- A block parameter has a slot exactly when a block is stated for its name. -/
theorem blockSlot?_value_eq_some_iff (block : Option BlockParameter) (b : BlockType) :
    (blockSlot? vars block).value = some b ↔
      ∃ name, block = some ⟨some name⟩ ∧ BlockStated vars name b := by
  rcases block with _ | ⟨_ | name⟩
  · simp [blockSlot?]
  · simp [blockSlot?, blockSlot]
  · simp [blockSlot?, blockSlot_value_eq_some_iff]

end Parts

/-- The method type of a parameter list has the slots of the list. -/
theorem methodType_slots (vars : VariableTypes) (returnType : Option Ty) (p : Parameters) :
    Slots vars returnType p (methodType vars returnType (some p)).value := by
  have hrest := restSlot_eq_some_iff vars
  have hkeywordRest := keywordRestSlot_eq_some_iff vars
  constructor
  case typeParams => rfl
  case requiredPositionals => exact filterMap_requiredSlot vars p.requireds
  case optionalPositionals =>
    rw [← typeOf_eq_typeIn]
    rfl
  case restPositionals_isSome => exact isSome_bind_slot_iff hrest p.rest
  case restPositionals => exact fun param => holds_array ▸ bind_slot_eq_some_iff hrest p.rest param
  case trailingPositionals => rfl
  case requiredKeywords => exact ofPairs_keywords vars (fun keyword => by cases keyword <;> rfl) p.keywords
  case optionalKeywords => exact ofPairs_keywords vars (fun keyword => by cases keyword <;> rfl) p.keywords
  case restKeywords_isSome => exact isSome_bind_slot_iff hkeywordRest p.keywordRest
  case restKeywords => exact fun param => holds_hash ▸ bind_slot_eq_some_iff hkeywordRest p.keywordRest param
  case returnType => rfl
  case block => exact blockSlot?_value_eq_some_iff vars p.block

end Signature

end RubySig
