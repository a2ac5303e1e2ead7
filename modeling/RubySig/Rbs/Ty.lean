/-!
# RBS types

The type language of RBS signatures: plain types, function types with their seven groups of
parameters, blocks, and method types. Keyword parameters are kept as a list of pairs because
the order of the keywords shows in the text of a signature; two keyword lists are equal when
they hold the same pairs in any order.

Whether the names that occur in a type are well formed is not checked here: a name is any text.
-/

namespace RubySig.Rbs

/-- Name of a class, module or interface. `segments` lead to `name`, and an absolute name starts at
the top level. -/
structure QualifiedName where
  name : String
  segments : List String := []
  absolute : Bool := false
  deriving DecidableEq

/-- An unqualified name that is not absolute. -/
def QualifiedName.isSimple (n : QualifiedName) (name : String) : Bool :=
  n.name == name && n.segments.isEmpty && !n.absolute

/-- Types written as a keyword. -/
inductive BaseType where
  | void
  | bool
  | nil
  | self
  | top
  | bot
  | instanceOf
  | classOf
  | boolish
  deriving DecidableEq

/-- The keyword of a base type. -/
def BaseType.text : BaseType → String
  | .void => "void"
  | .bool => "bool"
  | .nil => "nil"
  | .self => "self"
  | .top => "top"
  | .bot => "bot"
  | .instanceOf => "instance"
  | .classOf => "class"
  | .boolish => "boolish"

/-- Every base type, in the order in which problems list the keywords. -/
def BaseType.all : List BaseType :=
  [.void, .bool, .nil, .self, .top, .bot, .instanceOf, .classOf, .boolish]

mutual

/-- A type. -/
inductive Ty where
  | untyped
  | base (keyword : BaseType)
  | classInstance (name : QualifiedName) (args : List Ty)
  | variable (name : String)
  | optional (type : Ty)
  | union (types : List Ty)
  | proc (function : FunctionType) (selfType : Option Ty)

/-- A parameter of a function. A keyword parameter has no name of its own: its keyword is the key
under which the function holds it. -/
structure Param where
  name : Option String
  type : Ty

/-- Parameters and return type of something that can be called. -/
structure FunctionType where
  requiredPositionals : List Param
  optionalPositionals : List Param
  restPositionals : Option Param
  trailingPositionals : List Param
  requiredKeywords : List (String × Param)
  optionalKeywords : List (String × Param)
  restKeywords : Option Param
  returnType : Ty

end

/-- A block that a method accepts. -/
structure BlockType where
  function : FunctionType
  required : Bool
  selfType : Option Ty

/-- A full method signature. -/
structure MethodType where
  typeParams : List String
  function : FunctionType
  block : Option BlockType

/-- What a type assertion states: a plain type or a full method signature. -/
inductive Asserted where
  | plain (type : Ty)
  | method (type : MethodType)

mutual

/-- Equality of types. -/
def Ty.beq : Ty → Ty → Bool
  | .untyped, .untyped => true
  | .base a, .base b => a == b
  | .classInstance n as, .classInstance m bs => n == m && Ty.beqList as bs
  | .variable a, .variable b => a == b
  | .optional a, .optional b => Ty.beq a b
  | .union as, .union bs => Ty.beqList as bs
  | .proc f s, .proc g t => FunctionType.beq f g && Ty.beqOption s t
  | _, _ => false

/-- Equality of lists of types, place by place. -/
def Ty.beqList : List Ty → List Ty → Bool
  | [], [] => true
  | a :: as, b :: bs => Ty.beq a b && Ty.beqList as bs
  | _, _ => false

/-- Equality of types that may be absent. -/
def Ty.beqOption : Option Ty → Option Ty → Bool
  | none, none => true
  | some a, some b => Ty.beq a b
  | _, _ => false

/-- Equality of parameters. -/
def Param.beq : Param → Param → Bool
  | ⟨n, a⟩, ⟨m, b⟩ => n == m && Ty.beq a b

/-- Equality of parameter lists, place by place. -/
def Param.beqList : List Param → List Param → Bool
  | [], [] => true
  | p :: ps, q :: qs => Param.beq p q && Param.beqList ps qs
  | _, _ => false

/-- Equality of parameters that may be absent. -/
def Param.beqOption : Option Param → Option Param → Bool
  | none, none => true
  | some p, some q => Param.beq p q
  | _, _ => false

/-- Every keyword of the first list has an equal parameter in the second. -/
def Param.within : List (String × Param) → List (String × Param) → Bool
  | [], _ => true
  | (key, p) :: rest, others =>
    (match others.lookup key with
      | some q => Param.beq p q
      | none => false) && Param.within rest others

/-- Equality of function types; the order of the keywords does not count. -/
def FunctionType.beq : FunctionType → FunctionType → Bool
  | ⟨req, opt, rest, trail, reqKw, optKw, restKw, ret⟩, g =>
    Param.beqList req g.requiredPositionals && Param.beqList opt g.optionalPositionals
      && Param.beqOption rest g.restPositionals && Param.beqList trail g.trailingPositionals
      && (reqKw.length == g.requiredKeywords.length && Param.within reqKw g.requiredKeywords)
      && (optKw.length == g.optionalKeywords.length && Param.within optKw g.optionalKeywords)
      && Param.beqOption restKw g.restKeywords && Ty.beq ret g.returnType

end

instance : BEq Ty := ⟨Ty.beq⟩
instance : BEq Param := ⟨Param.beq⟩
instance : BEq FunctionType := ⟨FunctionType.beq⟩
deriving instance BEq for BlockType
deriving instance BEq for MethodType
deriving instance BEq for Asserted

end RubySig.Rbs
