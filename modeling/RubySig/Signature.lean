import RubySig.Keyed
import RubySig.Logged
import RubySig.Ruby.Node

/-!
# Signatures of parameter lists

The method type that a definition has when its comment states none: one slot per parameter, typed
by the variable types of the comment and `untyped` where they are silent.

A rest parameter is stated with the type of the container it arrives in, so `Array[T]` stands for
elements of type `T` and `Hash[K, V]` for values of type `V`; any other type is taken for the type
of the elements. A block parameter gives a block only when it is stated to be a proc, and the block
is optional when the proc is. Required parameters that take their argument apart and those after
the rest parameter have no slot.
-/

namespace RubySig.Signature

open RubySig.Rbs
open RubySig.Ruby

/-- Stated types of variables. A variable may be named without a type. -/
abbrev VariableTypes := List (String × Option Ty)

/-- The type stated for a variable. -/
def statedType (vars : VariableTypes) (name : String) : Option Ty :=
  match vars.lookup name with
  | some type => type
  | none => none

/-- The type stated for a variable, else `untyped`. -/
def typeOf (vars : VariableTypes) (name : String) : Ty :=
  (statedType vars name).getD .untyped

/-- The only argument of an array type. -/
def arrayElement : List Ty → Option Ty
  | [element] => some element
  | _ => none

/-- The second of the two arguments of a hash type. -/
def hashValue : List Ty → Option Ty
  | [_, value] => some value
  | _ => none

/-- The type of what a container holds, or the type itself if it is no such container. -/
def unwrap (container : String) (pick : List Ty → Option Ty) (type : Ty) : Ty :=
  match type with
  | .classInstance name args => if name.isSimple container then (pick args).getD type else type
  | _ => type

/-- The type of a rest parameter: `untyped` if it has no name or no stated type. -/
def restType (vars : VariableTypes) (container : String) (pick : List Ty → Option Ty)
    (name : Option String) : Ty :=
  match name with
  | none => .untyped
  | some name =>
    match statedType vars name with
    | none => .untyped
    | some type => unwrap container pick type

/-- The slot of a named required parameter. -/
def requiredSlot (vars : VariableTypes) : Positional → Option Param
  | .named name => some ⟨some name, typeOf vars name⟩
  | .destructured _ => none

/-- The slot of an optional parameter. -/
def optionalSlot (vars : VariableTypes) (p : OptionalParameter) : Param :=
  ⟨some p.name, typeOf vars p.name⟩

/-- The slot of a rest parameter. -/
def restSlot (vars : VariableTypes) : Rest → Option Param
  | .named name => some ⟨name, restType vars "Array" arrayElement name⟩
  | .forwarding => none

/-- The slot of a keyword without a default. -/
def requiredKeywordSlot (vars : VariableTypes) : Keyword → Option (String × Param)
  | .required name => some (name, ⟨none, typeOf vars name⟩)
  | .optional _ _ => none

/-- The slot of a keyword with a default. -/
def optionalKeywordSlot (vars : VariableTypes) : Keyword → Option (String × Param)
  | .required _ => none
  | .optional name _ => some (name, ⟨none, typeOf vars name⟩)

/-- The slot of the rest of the keywords. -/
def keywordRestSlot (vars : VariableTypes) : KeywordRest → Option Param
  | .named name => some ⟨name, restType vars "Hash" hashValue name⟩
  | .refused => none
  | .forwarding => none

/-- The block that a parameter with a stated type gives. -/
def blockOf (name : String) (required : Bool) : Ty → Logged (Option BlockType)
  | .proc function selfType => pure (some ⟨function, required, selfType⟩)
  | _ => do
    Logged.tell (.blockNotProc name)
    return none

/-- The block of a block parameter. -/
def blockSlot (vars : VariableTypes) (b : BlockParameter) : Logged (Option BlockType) :=
  match b.name with
  | none => pure none
  | some name =>
    match statedType vars name with
    | none => pure none
    | some (.optional type) => blockOf name false type
    | some type => blockOf name true type

/-- The block of a block parameter that may be absent. -/
def blockSlot? (vars : VariableTypes) : Option BlockParameter → Logged (Option BlockType)
  | none => pure none
  | some b => blockSlot vars b

/-- The report about a required parameter without a slot. -/
def skipped? : Positional → Option Event
  | .named _ => none
  | .destructured source => some (.destructuredSkipped source)

/-- The reports about positional parameters without a slot. -/
def reportSkipped (p : Parameters) : Logged Unit :=
  ⟨(), p.requireds.filterMap skipped?
    ++ if p.posts.isEmpty then [] else [.postsIgnored p.posts.length]⟩

/-- The parameters and the return type of a parameter list. -/
def functionType (vars : VariableTypes) (returnType : Option Ty) (p : Parameters) : FunctionType where
  requiredPositionals := p.requireds.filterMap (requiredSlot vars)
  optionalPositionals := p.optionals.map (optionalSlot vars)
  restPositionals := p.rest.bind (restSlot vars)
  trailingPositionals := []
  requiredKeywords := Keyed.ofPairs (p.keywords.filterMap (requiredKeywordSlot vars))
  optionalKeywords := Keyed.ofPairs (p.keywords.filterMap (optionalKeywordSlot vars))
  restKeywords := p.keywordRest.bind (keywordRestSlot vars)
  returnType := returnType.getD .untyped

/-- The method type of a parameter list; a definition without one takes no parameters. -/
def methodType (vars : VariableTypes) (returnType : Option Ty) (parameters : Option Parameters) :
    Logged MethodType := do
  let p := parameters.getD {}
  reportSkipped p
  let block ← blockSlot? vars p.block
  return ⟨[], functionType vars returnType p, block⟩

end RubySig.Signature
