import RubySig.Data.Checked
import RubySig.Rbs.Ty

/-!
# RBS types as plain data

Every type is written as a record with all its fields, its kind among them; keyword parameters
are written as a list of pairs. Reading accepts more: fields may be left out where they have a
default, and fields that no type has are passed over.

Types and parameters may stand inside each other up to a fixed depth. The reader counts that depth
down, so what lies deeper is a problem of its own and is not looked at.
-/

namespace RubySig.Data

open RubySig.Rbs

namespace Value

/-- A value that may be absent. -/
def ofOption {α : Type} (write : α → Value) : Option α → Value
  | none => null
  | some a => write a

/-- A text that may be absent. -/
def ofText? : Option String → Value :=
  ofOption text

/-- A list of texts. -/
def ofTexts (texts : List String) : Value :=
  list (texts.map text)

end Value

/-! ## Writing -/

/-- A type name as data. -/
def writeName (n : QualifiedName) : Value :=
  .record [("name", .text n.name), ("namespace", .ofTexts n.segments), ("absolute", .bool n.absolute)]

mutual

/-- A type as data. -/
def writeTy : Ty → Value
  | .untyped => .record [("kind", .text "any")]
  | .base keyword => .record [("kind", .text "base"), ("name", .text keyword.text)]
  | .classInstance name args =>
    .record [("kind", .text "class_instance"), ("name", writeName name),
      ("args", .list (writeTyEach args))]
  | .variable name => .record [("kind", .text "variable"), ("name", .text name)]
  | .optional type => .record [("kind", .text "optional"), ("type", writeTy type)]
  | .union types => .record [("kind", .text "union"), ("types", .list (writeTyEach types))]
  | .proc function selfType =>
    .record [("kind", .text "proc"), ("type", writeFunction function),
      ("self_type", writeTyOption selfType)]

/-- The types of a list as data. -/
def writeTyEach : List Ty → List Value
  | [] => []
  | type :: rest => writeTy type :: writeTyEach rest

/-- A type that may be absent as data. -/
def writeTyOption : Option Ty → Value
  | none => .null
  | some type => writeTy type

/-- A parameter as data. -/
def writeParam : Param → Value
  | ⟨name, type⟩ => .record [("name", .ofText? name), ("type", writeTy type)]

/-- The parameters of a list as data. -/
def writeParamEach : List Param → List Value
  | [] => []
  | param :: rest => writeParam param :: writeParamEach rest

/-- A parameter that may be absent as data. -/
def writeParamOption : Option Param → Value
  | none => .null
  | some param => writeParam param

/-- Keyword parameters as pairs. -/
def writeKeywords : List (String × Param) → List Value
  | [] => []
  | (key, param) :: rest => .list [.text key, writeParam param] :: writeKeywords rest

/-- A function type as data. -/
def writeFunction : FunctionType → Value
  | ⟨required, opt, rest, trailing, requiredKw, optionalKw, restKw, ret⟩ =>
    .record [("required_positionals", .list (writeParamEach required)),
      ("optional_positionals", .list (writeParamEach opt)),
      ("rest_positionals", writeParamOption rest),
      ("trailing_positionals", .list (writeParamEach trailing)),
      ("required_keywords", .list (writeKeywords requiredKw)),
      ("optional_keywords", .list (writeKeywords optionalKw)),
      ("rest_keywords", writeParamOption restKw),
      ("return_type", writeTy ret)]

end

/-- A block as data. -/
def writeBlock (b : BlockType) : Value :=
  .record [("type", writeFunction b.function), ("required", .bool b.required),
    ("self_type", writeTyOption b.selfType)]

/-- A method type as data. -/
def writeMethodType (m : MethodType) : Value :=
  .record [("kind", .text "method_type"), ("type_params", .ofTexts m.typeParams),
    ("type", writeFunction m.function), ("block", .ofOption writeBlock m.block)]

/-- An asserted type as data. -/
def writeAsserted : Asserted → Value
  | .plain type => writeTy type
  | .method type => writeMethodType type

/-- The types of a list are written one by one. -/
@[simp]
theorem writeTyEach_eq_map (types : List Ty) : writeTyEach types = types.map writeTy := by
  induction types with
  | nil => simp [writeTyEach]
  | cons type rest ih => simp [writeTyEach, ih]

/-- An absent type is written as null, any other as itself. -/
@[simp]
theorem writeTyOption_eq_ofOption (type : Option Ty) : writeTyOption type = .ofOption writeTy type := by
  cases type <;> simp [writeTyOption, Value.ofOption]

/-- The parameters of a list are written one by one. -/
@[simp]
theorem writeParamEach_eq_map (params : List Param) : writeParamEach params = params.map writeParam := by
  induction params with
  | nil => simp [writeParamEach]
  | cons param rest ih => simp [writeParamEach, ih]

/-- An absent parameter is written as null, any other as itself. -/
@[simp]
theorem writeParamOption_eq_ofOption (param : Option Param) :
    writeParamOption param = .ofOption writeParam param := by
  cases param <;> simp [writeParamOption, Value.ofOption]

/-- Keywords are written as pairs of a name and a parameter. -/
@[simp]
theorem writeKeywords_eq_map (entries : List (String × Param)) :
    writeKeywords entries = entries.map fun entry => .list [.text entry.1, writeParam entry.2] := by
  induction entries with
  | nil => simp [writeKeywords]
  | cons entry rest ih => simp [writeKeywords, ih]

/-! ## Reading -/

namespace Reader

/-- A type name. -/
def qualifiedName : Reader QualifiedName :=
  record "TypeName" fun fields =>
    QualifiedName.mk <$> required fields "name" text <*> defaulted fields "namespace" [] (list text)
      <*> defaulted fields "absolute" false bool

/-- A parameter, given the reader of types. -/
def paramOf (ty : Reader Ty) : Reader Param :=
  record "Param" fun fields =>
    Param.mk <$> defaulted fields "name" none (nullable text) <*> required fields "type" ty

/-- A function type, given the readers of types and parameters. -/
def functionOf (ty : Reader Ty) (param : Reader Param) : Reader FunctionType :=
  record "Function" fun fields =>
    FunctionType.mk <$> defaulted fields "required_positionals" [] (list param)
      <*> defaulted fields "optional_positionals" [] (list param)
      <*> defaulted fields "rest_positionals" none (nullable param)
      <*> defaulted fields "trailing_positionals" [] (list param)
      <*> defaulted fields "required_keywords" [] (keyed param)
      <*> defaulted fields "optional_keywords" [] (keyed param)
      <*> defaulted fields "rest_keywords" none (nullable param)
      <*> required fields "return_type" ty

/-- The unknown type. -/
def untyped : Reader Ty :=
  record "AnyType" fun fields => (fun _ => Ty.untyped) <$> tag fields "kind" "any"

/-- A type written as a keyword. -/
def base : Reader Ty :=
  record "BaseType" fun fields =>
    (fun _ keyword => Ty.base keyword) <$> tag fields "kind" "base"
      <*> required fields "name" (word .notLiteral (BaseType.all.map fun b => (b.text, b)))

/-- An instance of a class, given the reader of types. -/
def classInstanceOf (ty : Reader Ty) : Reader Ty :=
  record "ClassInstance" fun fields =>
    (fun _ name args => Ty.classInstance name args) <$> tag fields "kind" "class_instance"
      <*> required fields "name" qualifiedName <*> defaulted fields "args" [] (list ty)

/-- A type variable. -/
def variableName : Reader Ty :=
  record "Variable" fun fields =>
    (fun _ name => Ty.variable name) <$> tag fields "kind" "variable" <*> required fields "name" text

/-- An optional type, given the reader of types. -/
def optionalOf (ty : Reader Ty) : Reader Ty :=
  record "OptionalType" fun fields =>
    (fun _ type => Ty.optional type) <$> tag fields "kind" "optional" <*> required fields "type" ty

/-- A union, given the reader of types. -/
def unionOf (ty : Reader Ty) : Reader Ty :=
  record "UnionType" fun fields =>
    (fun _ types => Ty.union types) <$> tag fields "kind" "union" <*> required fields "types" (list ty)

/-- A proc, given the readers of types and parameters. -/
def procOf (ty : Reader Ty) (param : Reader Param) : Reader Ty :=
  record "ProcType" fun fields =>
    (fun _ function selfType => Ty.proc function selfType) <$> tag fields "kind" "proc"
      <*> required fields "type" (functionOf ty param)
      <*> defaulted fields "self_type" none (nullable ty)

/-- The kinds of types, given the readers of the types and parameters inside them. -/
def tyKinds (ty : Reader Ty) (param : Reader Param) : List (String × Reader Ty) :=
  [("any", untyped), ("base", base), ("class_instance", classInstanceOf ty),
    ("variable", variableName), ("optional", optionalOf ty), ("union", unionOf ty),
    ("proc", procOf ty param)]

/-- The kinds of types where no type may stand any more. -/
def tyKindsBeyond : List (String × Reader Ty) :=
  ["any", "base", "class_instance", "variable", "optional", "union", "proc"].map
    fun kind => (kind, fun _ => .fail .tooDeep)

mutual

/-- A type in which types and parameters stand inside each other at most so deep, itself counted. -/
def tyWithin : Nat → Reader Ty
  | 0, value => tagged "kind" tyKindsBeyond value
  | depth + 1, value => tagged "kind" (tyKinds (tyWithin depth) (paramWithin depth)) value

/-- A parameter in which types and parameters stand inside each other at most so deep, itself
counted. -/
def paramWithin : Nat → Reader Param
  | 0, _ => .fail .tooDeep
  | depth + 1, value => paramOf (tyWithin depth) value

end

/-- How deep types and parameters may stand inside an outermost one. -/
def innerDepth : Nat := 253

/-- A type inside an outermost type or parameter. -/
def innerTy : Reader Ty := tyWithin innerDepth

/-- A parameter inside an outermost type. -/
def innerParam : Reader Param := paramWithin innerDepth

/-- A type. -/
def ty : Reader Ty := tyWithin (innerDepth + 1)

/-- A parameter. -/
def param : Reader Param := paramWithin (innerDepth + 1)

/-- A function type. -/
def function : Reader FunctionType := functionOf ty param

/-- A block. -/
def block : Reader BlockType :=
  record "Block" fun fields =>
    BlockType.mk <$> required fields "type" function <*> required fields "required" bool
      <*> defaulted fields "self_type" none (nullable ty)

/-- A method type. -/
def methodType : Reader MethodType :=
  record "MethodType" fun fields =>
    (fun _ typeParams function block => MethodType.mk typeParams function block)
      <$> tag fields "kind" "method_type" <*> defaulted fields "type_params" [] (list text)
      <*> required fields "type" function <*> defaulted fields "block" none (nullable block)

/-- A plain type or a method type. -/
def asserted : Reader Asserted :=
  tagged "kind" ((tyKinds innerTy innerParam).map
      (fun kind => (kind.1, fun value => Asserted.plain <$> kind.2 value))
    ++ [("method_type", fun value => Asserted.method <$> methodType value)])

end Reader

end RubySig.Data
