import RubySig.Proofs.ReadBack

/-!
# Types are read back from their data

A type is read back when no keyword stands twice in one of its parameter lists and its types and
parameters stand inside each other at most as deep as the reader looks; no reader gives a type that
is not of this form. The induction is on the depth: a reader that looks one level deeper reads back
what is made of the types and parameters that the shallower readers read back.
-/

namespace RubySig

namespace Rbs

/-- A function type made of types and parameters with some properties. A keyword has one place. -/
structure FunctionType.MadeOf (P : Ty → Prop) (Q : Param → Prop) (f : FunctionType) : Prop where
  requiredPositionals : ∀ param ∈ f.requiredPositionals, Q param
  optionalPositionals : ∀ param ∈ f.optionalPositionals, Q param
  restPositionals : ∀ param ∈ f.restPositionals, Q param
  trailingPositionals : ∀ param ∈ f.trailingPositionals, Q param
  requiredKeywords :
    (f.requiredKeywords.map Prod.fst).Nodup ∧ ∀ entry ∈ f.requiredKeywords, Q entry.2
  optionalKeywords :
    (f.optionalKeywords.map Prod.fst).Nodup ∧ ∀ entry ∈ f.optionalKeywords, Q entry.2
  restKeywords : ∀ param ∈ f.restKeywords, Q param
  returnType : P f.returnType

/-- A type made of types and parameters with some properties. -/
def Ty.MadeOf (P : Ty → Prop) (Q : Param → Prop) : Ty → Prop
  | .untyped | .base _ | .variable _ => True
  | .classInstance _ args => ∀ arg ∈ args, P arg
  | .optional type => P type
  | .union types => ∀ type ∈ types, P type
  | .proc function selfType => function.MadeOf P Q ∧ ∀ type ∈ selfType, P type

mutual

/-- Types and parameters stand inside each other at most so deep, the type itself counted, and no
keyword stands twice in a parameter list. -/
def Ty.NestedWithin : Nat → Ty → Prop
  | 0, _ => False
  | depth + 1, type => type.MadeOf (Ty.NestedWithin depth) (Param.NestedWithin depth)

/-- Types and parameters stand inside each other at most so deep, the parameter itself counted, and
no keyword stands twice in a parameter list. -/
def Param.NestedWithin : Nat → Param → Prop
  | 0, _ => False
  | depth + 1, param => Ty.NestedWithin depth param.type

end

/-- Nothing in a function type is nested deeper than a bound. -/
def FunctionType.NestedWithin (depth : Nat) (f : FunctionType) : Prop :=
  f.MadeOf (Ty.NestedWithin depth) (Param.NestedWithin depth)

/-- Nothing in a block is nested deeper than a bound. -/
def BlockType.NestedWithin (depth : Nat) (b : BlockType) : Prop :=
  b.function.NestedWithin depth ∧ ∀ type ∈ b.selfType, type.NestedWithin depth

/-- Nothing in a method type is nested deeper than a bound. -/
def MethodType.NestedWithin (depth : Nat) (m : MethodType) : Prop :=
  m.function.NestedWithin depth ∧ ∀ block ∈ m.block, block.NestedWithin depth

/-- Nothing in an asserted type is nested deeper than a bound. -/
def Asserted.NestedWithin (depth : Nat) : Asserted → Prop
  | .plain type => type.NestedWithin depth
  | .method type => type.NestedWithin depth

/-- The tag of a type. -/
def Ty.kind : Ty → String
  | .untyped => "any"
  | .base _ => "base"
  | .classInstance _ _ => "class_instance"
  | .variable _ => "variable"
  | .optional _ => "optional"
  | .union _ => "union"
  | .proc _ _ => "proc"

end Rbs

namespace Data

open RubySig.Rbs

/-- No type is written as null. -/
theorem writeTy_ne_null (type : Ty) : writeTy type ≠ .null := by
  cases type <;> simp [writeTy]

/-- No parameter is written as null. -/
theorem writeParam_ne_null (param : Param) : writeParam param ≠ .null := by
  cases param; simp [writeParam]

/-- The data of a type show its tag. -/
theorem writeTy_eq_record (type : Ty) :
    ∃ fields, writeTy type = .record fields ∧ fields.lookup "kind" = some (.text type.kind) := by
  cases type <;> exact ⟨_, by rw [writeTy], rfl⟩

namespace Reader

open Checked

/-- A list of texts is read back. -/
theorem inverts_texts : Inverts (list text) .ofTexts (fun _ => True) :=
  inverts_text.list.congr (by simp)

/-- A text that may be absent is read back. -/
theorem inverts_text? : Inverts (nullable text) .ofText? (fun _ => True) :=
  (inverts_text.nullable (by simp)).congr (by simp)

/-- A qualified name is read back. -/
theorem inverts_qualifiedName : Inverts qualifiedName writeName (fun _ => True) where
  readBack := by
    intro name _
    simp only [qualifiedName, record, writeName]
    rw [(inverts_text.required "name").readBack rfl trivial,
      (inverts_texts.defaulted "namespace" [] trivial).readBack rfl trivial,
      (inverts_bool.defaulted "absolute" false trivial).readBack rfl trivial]
    rfl
  sound _ _ _ := trivial

/-! ## What is made of types and parameters that are read back -/

section Composed

variable {ty : Reader Ty} {param : Reader Param} {P : Ty → Prop} {Q : Param → Prop}

/-- A parameter is read back if its type is. -/
theorem inverts_paramOf (hty : Inverts ty writeTy P) :
    Inverts (paramOf ty) writeParam (fun param => P param.type) where
  readBack := by
    rintro ⟨name, type⟩ htype
    simp only [paramOf, record, writeParam]
    rw [(inverts_text?.defaulted "name" none trivial).readBack rfl trivial,
      (hty.required "type").readBack rfl htype]
    rfl
  sound := by
    refine record_ensures fun fields => ?_
    refine (((inverts_text?.defaulted "name" none trivial).sound fields).map ?_).seq
      ((hty.required "type").sound fields)
    rintro name - type htype
    exact htype

/-- A function type is read back if its types and parameters are. -/
theorem inverts_functionOf (hty : Inverts ty writeTy P) (hparam : Inverts param writeParam Q) :
    Inverts (functionOf ty param) writeFunction (FunctionType.MadeOf P Q) := by
  have hparam? := hparam.nullable writeParam_ne_null
  have hrequired := hparam.list.defaulted "required_positionals" [] (by simp)
  have hoptional := hparam.list.defaulted "optional_positionals" [] (by simp)
  have hrest := hparam?.defaulted "rest_positionals" none (by simp)
  have htrailing := hparam.list.defaulted "trailing_positionals" [] (by simp)
  have hrequiredKw := hparam.keyed.defaulted "required_keywords" [] (by simp)
  have hoptionalKw := hparam.keyed.defaulted "optional_keywords" [] (by simp)
  have hrestKw := hparam?.defaulted "rest_keywords" none (by simp)
  have hreturn := hty.required "return_type"
  constructor
  · rintro ⟨required, opt, rest, trailing, requiredKw, optionalKw, restKw, ret⟩ hf
    simp only [functionOf, record, writeFunction, writeParamEach_eq_map, writeParamOption_eq_ofOption,
      writeKeywords_eq_map]
    rw [hrequired.readBack rfl hf.requiredPositionals, hoptional.readBack rfl hf.optionalPositionals,
      hrest.readBack rfl hf.restPositionals, htrailing.readBack rfl hf.trailingPositionals,
      hrequiredKw.readBack rfl hf.requiredKeywords, hoptionalKw.readBack rfl hf.optionalKeywords,
      hrestKw.readBack rfl hf.restKeywords, hreturn.readBack rfl hf.returnType]
    rfl
  · refine record_ensures fun fields => ?_
    refine ((hrequired.sound fields).map ?_).seq (hoptional.sound fields)
      |>.seq (hrest.sound fields) |>.seq (htrailing.sound fields) |>.seq (hrequiredKw.sound fields)
      |>.seq (hoptionalKw.sound fields) |>.seq (hrestKw.sound fields) |>.seq (hreturn.sound fields)
    -- Here every field has its condition, and together they are the structure.
    exact fun _ required _ opt _ rest _ trailing _ requiredKw _ optionalKw _ restKw _ ret =>
      ⟨required, opt, rest, trailing, requiredKw, optionalKw, restKw, ret⟩

/-! ### Each kind of type -/

/-- The reader of `untyped` reads it back. -/
theorem inverts_untyped : Inverts untyped writeTy (fun type => type = .untyped) where
  readBack := by
    rintro _ rfl
    simp only [untyped, record, writeTy]
    rw [tag_eq_ok rfl]
    rfl
  sound := record_ensures fun fields => tag_ensures.map fun _ _ => rfl

/-- A base type is read back from its word. -/
theorem inverts_keywordOfBase :
    Inverts (word .notLiteral (BaseType.all.map fun keyword => (keyword.text, keyword)))
      (fun keyword => .text keyword.text) (fun _ => True) :=
  inverts_word (by intro a b; cases a <;> cases b <;> simp [BaseType.text])
    (by intro a; cases a <;> simp [BaseType.all])

/-- The reader of base types reads these back. -/
theorem inverts_base : Inverts base writeTy (fun type => ∃ keyword, type = .base keyword) := by
  have hkeyword := inverts_keywordOfBase.required "name"
  constructor
  · rintro _ ⟨keyword, rfl⟩
    simp only [base, record, writeTy]
    rw [tag_eq_ok rfl, hkeyword.readBack rfl trivial]
    rfl
  · exact record_ensures fun fields =>
      (tag_ensures.map fun _ _ keyword _ => ⟨keyword, rfl⟩).seq
        (hkeyword.sound fields)

/-- The reader of class types reads these back if their arguments are read back. -/
theorem inverts_classInstanceOf (hty : Inverts ty writeTy P) :
    Inverts (classInstanceOf ty) writeTy
      (fun type => ∃ name args, type = .classInstance name args ∧ ∀ arg ∈ args, P arg) := by
  have hname := inverts_qualifiedName.required "name"
  have hargs := hty.list.defaulted "args" [] (by simp)
  constructor
  · rintro _ ⟨name, args, rfl, h⟩
    simp only [classInstanceOf, record, writeTy, writeTyEach_eq_map]
    rw [tag_eq_ok rfl, hname.readBack rfl trivial, hargs.readBack rfl h]
    rfl
  · exact record_ensures fun fields =>
      (tag_ensures.map fun _ _ name _ args h => ⟨name, args, rfl, h⟩).seq (hname.sound fields)
        |>.seq (hargs.sound fields)

/-- The reader of type variables reads these back. -/
theorem inverts_variableName : Inverts variableName writeTy (fun type => ∃ name, type = .variable name) := by
  have hname := inverts_text.required "name"
  constructor
  · rintro _ ⟨name, rfl⟩
    simp only [variableName, record, writeTy]
    rw [tag_eq_ok rfl, hname.readBack rfl trivial]
    rfl
  · exact record_ensures fun fields =>
      (tag_ensures.map fun _ _ name _ => ⟨name, rfl⟩).seq (hname.sound fields)

/-- The reader of optional types reads these back if the types in them are read back. -/
theorem inverts_optionalOf (hty : Inverts ty writeTy P) :
    Inverts (optionalOf ty) writeTy (fun type => ∃ inner, type = .optional inner ∧ P inner) := by
  have hinner := hty.required "type"
  constructor
  · rintro _ ⟨inner, rfl, h⟩
    simp only [optionalOf, record, writeTy]
    rw [tag_eq_ok rfl, hinner.readBack rfl h]
    rfl
  · exact record_ensures fun fields =>
      (tag_ensures.map fun _ _ inner h => ⟨inner, rfl, h⟩).seq (hinner.sound fields)

/-- The reader of unions reads these back if their members are read back. -/
theorem inverts_unionOf (hty : Inverts ty writeTy P) :
    Inverts (unionOf ty) writeTy (fun type => ∃ types, type = .union types ∧ ∀ type ∈ types, P type) := by
  have htypes := hty.list.required "types"
  constructor
  · rintro _ ⟨types, rfl, h⟩
    simp only [unionOf, record, writeTy, writeTyEach_eq_map]
    rw [tag_eq_ok rfl, htypes.readBack rfl h]
    rfl
  · exact record_ensures fun fields =>
      (tag_ensures.map fun _ _ types h => ⟨types, rfl, h⟩).seq (htypes.sound fields)

/-- The reader of procs reads these back if their function and self types are read back. -/
theorem inverts_procOf (hty : Inverts ty writeTy P) (hparam : Inverts param writeParam Q) :
    Inverts (procOf ty param) writeTy
      (fun type => ∃ function selfType, type = .proc function selfType ∧ function.MadeOf P Q ∧
        ∀ type ∈ selfType, P type) := by
  have hfunction := (inverts_functionOf hty hparam).required "type"
  have hself := (hty.nullable writeTy_ne_null).defaulted "self_type" none (by simp)
  constructor
  · rintro _ ⟨function, selfType, rfl, hf, hs⟩
    simp only [procOf, record, writeTy, writeTyOption_eq_ofOption]
    rw [tag_eq_ok rfl, hfunction.readBack rfl hf, hself.readBack rfl hs]
    rfl
  · exact record_ensures fun fields =>
      (tag_ensures.map fun _ _ function hf selfType hs => ⟨function, selfType, rfl, hf, hs⟩).seq
        (hfunction.sound fields) |>.seq (hself.sound fields)

/-- The reader of each kind reads back the types with its tag. -/
theorem inverts_tyKinds (hty : Inverts ty writeTy P) (hparam : Inverts param writeParam Q)
    (name : String) (read : Reader Ty) (hmem : (name, read) ∈ tyKinds ty param) :
    Inverts read writeTy fun type => type.kind = name ∧ type.MadeOf P Q := by
  simp only [tyKinds, List.mem_cons, List.not_mem_nil, or_false, Prod.mk.injEq] at hmem
  rcases hmem with ⟨rfl, rfl⟩ | ⟨rfl, rfl⟩ | ⟨rfl, rfl⟩ | ⟨rfl, rfl⟩ | ⟨rfl, rfl⟩ | ⟨rfl, rfl⟩ | ⟨rfl, rfl⟩
  · exact inverts_untyped.congr fun type => by cases type <;> simp [Ty.kind, Ty.MadeOf]
  · exact inverts_base.congr fun type => by cases type <;> simp [Ty.kind, Ty.MadeOf]
  · exact (inverts_classInstanceOf hty).congr fun type => by
      cases type <;> simp [Ty.kind, Ty.MadeOf, and_assoc]
  · exact inverts_variableName.congr fun type => by cases type <;> simp [Ty.kind, Ty.MadeOf]
  · exact (inverts_optionalOf hty).congr fun type => by cases type <;> simp [Ty.kind, Ty.MadeOf]
  · exact (inverts_unionOf hty).congr fun type => by cases type <;> simp [Ty.kind, Ty.MadeOf]
  · exact (inverts_procOf hty hparam).congr fun type => by
      cases type <;> simp [Ty.kind, Ty.MadeOf, and_assoc]

/-- Every type has one of the kinds. -/
theorem exists_tyKinds (ty : Reader Ty) (param : Reader Param) (type : Ty) :
    ∃ read, (tyKinds ty param).lookup type.kind = some read := by
  cases type <;> exact ⟨_, rfl⟩

end Composed

/-! ## Types of a bounded depth -/

/-- No kind of type can be read where no type may stand any more. -/
theorem tyKindsBeyond_ne_ok {name : String} {read : Reader Ty} (hmem : (name, read) ∈ tyKindsBeyond)
    (value : Value) (type : Ty) : read value ≠ .ok type := by
  obtain ⟨_, -, hentry⟩ := List.mem_map.mp hmem
  obtain ⟨-, rfl⟩ := Prod.mk.inj hentry
  exact fail_ne_ok

/-- A reader of types that looks one level deeper is made of the shallower readers. -/
theorem tyWithin_succ (depth : Nat) :
    tyWithin (depth + 1) = tagged "kind" (tyKinds (tyWithin depth) (paramWithin depth)) := by
  funext value
  rw [tyWithin]

/-- A reader of parameters that looks one level deeper is made of the shallower readers. -/
theorem paramWithin_succ (depth : Nat) : paramWithin (depth + 1) = paramOf (tyWithin depth) := by
  funext value
  rw [paramWithin]

/-- A reader that looks so deep reads back the types and parameters that are nested no deeper. -/
theorem inverts_within (depth : Nat) :
    Inverts (tyWithin depth) writeTy (Ty.NestedWithin depth) ∧
      Inverts (paramWithin depth) writeParam (Param.NestedWithin depth) := by
  induction depth with
  | zero =>
    constructor
    · constructor
      · intro type h
        simp [Ty.NestedWithin] at h
      · intro value type hread
        rw [tyWithin, tagged_eq_ok_iff] at hread
        obtain ⟨_, _, _, _, _, hlookup, hread⟩ := hread
        exact absurd hread (tyKindsBeyond_ne_ok (mem_of_lookup hlookup) _ _)
    · constructor
      · intro param h
        simp [Param.NestedWithin] at h
      · intro value param hread
        rw [paramWithin] at hread
        exact absurd hread fail_ne_ok
  | succ depth ih =>
    obtain ⟨hty, hparam⟩ := ih
    constructor
    · rw [tyWithin_succ]
      refine (inverts_tagged Ty.kind writeTy_eq_record (exists_tyKinds _ _)
        (inverts_tyKinds hty hparam)).congr ?_
      intro type
      rw [Ty.NestedWithin]
    · rw [paramWithin_succ]
      refine (inverts_paramOf hty).congr ?_
      intro param
      rw [Param.NestedWithin]

/-- A type is read back if it is not nested too deep. -/
theorem inverts_ty : Inverts ty writeTy (Ty.NestedWithin (innerDepth + 1)) :=
  (inverts_within _).1

/-- A parameter is read back if it is not nested too deep. -/
theorem inverts_param : Inverts param writeParam (Param.NestedWithin (innerDepth + 1)) :=
  (inverts_within _).2

/-- The readers of the single kinds look as deep as the reader of all types. -/
theorem inverts_innerKinds (name : String) (read : Reader Ty)
    (hmem : (name, read) ∈ tyKinds innerTy innerParam) :
    Inverts read writeTy fun type => type.kind = name ∧ type.NestedWithin (innerDepth + 1) := by
  refine (inverts_tyKinds (inverts_within innerDepth).1 (inverts_within innerDepth).2 name read hmem).congr ?_
  intro type
  rw [Ty.NestedWithin]

/-! ## Functions, blocks and method types -/

/-- A function type is read back if nothing in it is nested too deep. -/
theorem inverts_function : Inverts function writeFunction (FunctionType.NestedWithin (innerDepth + 1)) :=
  inverts_functionOf inverts_ty inverts_param

/-- A block is read back if nothing in it is nested too deep. -/
theorem inverts_block : Inverts block writeBlock (BlockType.NestedWithin (innerDepth + 1)) := by
  have hfunction := inverts_function.required "type"
  have hrequired := inverts_bool.required "required"
  have hself := (inverts_ty.nullable writeTy_ne_null).defaulted "self_type" none (by simp)
  constructor
  · rintro b ⟨hf, hs⟩
    simp only [block, record, writeBlock, writeTyOption_eq_ofOption]
    rw [hfunction.readBack rfl hf, hrequired.readBack rfl trivial, hself.readBack rfl hs]
    rfl
  · refine record_ensures fun fields => ?_
    refine ((hfunction.sound fields).map ?_).seq (hrequired.sound fields) |>.seq (hself.sound fields)
    rintro function hf required - selfType hs
    exact ⟨hf, hs⟩

/-- No block is written as null. -/
theorem writeBlock_ne_null (b : BlockType) : writeBlock b ≠ .null := by
  simp [writeBlock]

/-- A method type is read back if nothing in it is nested too deep. -/
theorem inverts_methodType :
    Inverts methodType writeMethodType (MethodType.NestedWithin (innerDepth + 1)) := by
  have htypeParams := inverts_texts.defaulted "type_params" [] trivial
  have hfunction := inverts_function.required "type"
  have hblock := (inverts_block.nullable writeBlock_ne_null).defaulted "block" none (by simp)
  constructor
  · rintro m ⟨hf, hb⟩
    simp only [methodType, record, writeMethodType]
    rw [tag_eq_ok rfl, htypeParams.readBack rfl trivial, hfunction.readBack rfl hf,
      hblock.readBack rfl hb]
    rfl
  · refine record_ensures fun fields => ?_
    refine (tag_ensures.map ?_).seq (htypeParams.sound fields)
      |>.seq (hfunction.sound fields) |>.seq (hblock.sound fields)
    rintro _ - typeParams - function hf block hb
    exact ⟨hf, hb⟩

/-- The tag of an asserted type. -/
def assertedKind : Asserted → String
  | .plain type => type.kind
  | .method _ => "method_type"

/-- The data of an asserted type show its tag. -/
theorem writeAsserted_eq_record (type : Asserted) :
    ∃ fields, writeAsserted type = .record fields ∧
      fields.lookup "kind" = some (.text (assertedKind type)) := by
  cases type with
  | plain type => exact writeTy_eq_record type
  | method type => exact ⟨_, rfl, rfl⟩

/-- An asserted type is read back if nothing in it is nested too deep. -/
theorem inverts_asserted : Inverts asserted writeAsserted (Asserted.NestedWithin (innerDepth + 1)) := by
  refine inverts_tagged assertedKind writeAsserted_eq_record ?_ ?_
  · intro type
    cases type with
    | plain type => cases type <;> exact ⟨_, rfl⟩
    | method type => exact ⟨_, rfl⟩
  · intro name read hmem
    rcases List.mem_append.mp hmem with hplain | hmethod
    · obtain ⟨⟨kind, readKind⟩, hkind, hentry⟩ := List.mem_map.mp hplain
      obtain ⟨rfl, rfl⟩ := Prod.mk.inj hentry
      have hother : "method_type" ≠ kind := by
        rintro rfl
        simp [tyKinds] at hkind
      refine ((inverts_innerKinds kind readKind hkind).map Asserted.plain fun _ => rfl).congr ?_
      intro type
      cases type with
      | plain type => simp [assertedKind, Asserted.NestedWithin]
      | method type => simp [assertedKind, hother]
    · obtain ⟨rfl, rfl⟩ := Prod.mk.inj (List.mem_singleton.mp hmethod)
      refine (inverts_methodType.map Asserted.method fun _ => rfl).congr ?_
      intro type
      cases type with
      | plain type => cases type <;> simp [assertedKind, Ty.kind]
      | method type => simp [assertedKind, Asserted.NestedWithin]

end Reader

end Data

end RubySig
