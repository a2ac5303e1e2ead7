import RubySig.Rbs.Ty

/-!
# Text of RBS types

Signatures are written for diagnostics and listings. Only an optional type puts parentheses
around its operand, and only around a union or a proc, so the text of a type does not always
determine the type.
-/

namespace RubySig.Rbs

/-- Segments and name joined by `::`, after `::` if the name is absolute. -/
def QualifiedName.render (n : QualifiedName) : String :=
  (if n.absolute then "::" else "") ++ "::".intercalate (n.segments ++ [n.name])

/-- Types that stand in parentheses before the mark of an optional type. -/
def Ty.isCompound : Ty → Bool
  | .union _ => true
  | .proc _ _ => true
  | _ => false

/-- Texts in square brackets after a name, nothing when there are none. -/
def bracketed (texts : List String) : String :=
  if texts.isEmpty then "" else "[" ++ ", ".intercalate texts ++ "]"

/-- Texts of a parameter list in parentheses. -/
def parenthesized (texts : List String) : String :=
  "(" ++ ", ".intercalate texts ++ ")"

mutual

/-- The text of a type. -/
def Ty.render : Ty → String
  | .untyped => "untyped"
  | .base keyword => keyword.text
  | .classInstance name args => name.render ++ bracketed (Ty.renderEach args)
  | .variable name => name
  | .optional type => if type.isCompound then "(" ++ type.render ++ ")?" else type.render ++ "?"
  | .union types => " | ".intercalate (Ty.renderEach types)
  | .proc function selfType =>
    "^" ++ parenthesized function.parameterTexts ++ " " ++ Ty.renderSelf "" selfType " "
      ++ "-> " ++ function.returnText

/-- The texts of the types of a list. -/
def Ty.renderEach : List Ty → List String
  | [] => []
  | type :: rest => type.render :: Ty.renderEach rest

/-- The clause for the type of `self` between two texts, nothing when it is not stated. -/
def Ty.renderSelf (before : String) : Option Ty → (after : String) → String
  | none, _ => ""
  | some type, after => before ++ "[self: " ++ type.render ++ "]" ++ after

/-- The type of a parameter, followed by its name if it has one. -/
def Param.render : Param → String
  | ⟨none, type⟩ => type.render
  | ⟨some name, type⟩ => type.render ++ " " ++ name

/-- The texts of positional parameters, each after a mark. -/
def Param.renderEach (mark : String) : List Param → List String
  | [] => []
  | param :: rest => (mark ++ param.render) :: Param.renderEach mark rest

/-- The text of a rest parameter after its mark. -/
def Param.renderRest (mark : String) : Option Param → List String
  | none => []
  | some param => [mark ++ param.render]

/-- The texts of keyword parameters, each after a mark and its keyword. -/
def Param.renderKeywords (mark : String) : List (String × Param) → List String
  | [] => []
  | (key, param) :: rest => (mark ++ key ++ ": " ++ param.render) :: Param.renderKeywords mark rest

/-- The texts of all parameters, in the order in which a signature lists them. -/
def FunctionType.parameterTexts : FunctionType → List String
  | ⟨required, opt, rest, trailing, requiredKw, optionalKw, restKw, _⟩ =>
    Param.renderEach "" required ++ Param.renderEach "?" opt ++ Param.renderRest "*" rest
      ++ Param.renderEach "" trailing ++ Param.renderKeywords "" requiredKw
      ++ Param.renderKeywords "?" optionalKw ++ Param.renderRest "**" restKw

/-- The text of the return type. -/
def FunctionType.returnText : FunctionType → String
  | ⟨_, _, _, _, _, _, _, ret⟩ => ret.render

end

/-- The parameter list in parentheses. -/
def FunctionType.parameterList (f : FunctionType) : String :=
  parenthesized f.parameterTexts

/-- Parameter list and return type. -/
def FunctionType.render (f : FunctionType) : String :=
  f.parameterList ++ " -> " ++ f.returnText

/-- A block in braces, after `?` if the method can be called without it. -/
def BlockType.render (b : BlockType) : String :=
  (if b.required then "" else "?") ++ "\x7b " ++ b.function.parameterList
    ++ Ty.renderSelf " " b.selfType "" ++ " -> " ++ b.function.returnText ++ " \x7d"

/-- Type parameters, parameter list, block and return type. -/
def MethodType.render (m : MethodType) : String :=
  (if m.typeParams.isEmpty then "" else "[" ++ ", ".intercalate m.typeParams ++ "] ")
    ++ m.function.parameterList
    ++ (match m.block with
      | none => ""
      | some block => " " ++ block.render)
    ++ " -> " ++ m.function.returnText

/-- The text of an asserted type. -/
def Asserted.render : Asserted → String
  | .plain type => type.render
  | .method type => type.render

/-- The types of a list are rendered one by one. -/
@[simp]
theorem Ty.renderEach_eq_map (types : List Ty) : Ty.renderEach types = types.map Ty.render := by
  induction types with
  | nil => simp [Ty.renderEach]
  | cons type rest ih => simp [Ty.renderEach, ih]

/-- Positional parameters are rendered one by one behind their mark. -/
@[simp]
theorem Param.renderEach_eq_map (mark : String) (params : List Param) :
    Param.renderEach mark params = params.map fun param => mark ++ param.render := by
  induction params with
  | nil => simp [Param.renderEach]
  | cons param rest ih => simp [Param.renderEach, ih]

/-- The rest is rendered behind its mark, if there is one. -/
@[simp]
theorem Param.renderRest_eq_map (mark : String) (param : Option Param) :
    Param.renderRest mark param = param.toList.map fun param => mark ++ param.render := by
  cases param <;> simp [Param.renderRest]

/-- Keywords are rendered one by one with their names behind the mark. -/
@[simp]
theorem Param.renderKeywords_eq_map (mark : String) (params : List (String × Param)) :
    Param.renderKeywords mark params
      = params.map fun entry => mark ++ entry.1 ++ ": " ++ entry.2.render := by
  induction params with
  | nil => simp [Param.renderKeywords]
  | cons entry rest ih => simp [Param.renderKeywords, ih]

/-- The texts of the parameters of a function type, group by group. -/
theorem FunctionType.parameterTexts_eq_append (f : FunctionType) :
    f.parameterTexts =
      Param.renderEach "" f.requiredPositionals ++ Param.renderEach "?" f.optionalPositionals
        ++ Param.renderRest "*" f.restPositionals ++ Param.renderEach "" f.trailingPositionals
        ++ Param.renderKeywords "" f.requiredKeywords ++ Param.renderKeywords "?" f.optionalKeywords
        ++ Param.renderRest "**" f.restKeywords := by
  cases f
  rw [FunctionType.parameterTexts]

end RubySig.Rbs
