import RubySig.Logged
import RubySig.Ruby.Node
import RubySig.Ruby.SyntaxTree

/-!
# Reading nodes from trees

The Ruby node that a concrete tree stands for. Parameters are grouped as they come: a required
parameter goes behind the rest parameter as soon as an optional or a rest parameter has been seen,
and of rest parameters, rests of keywords and block parameters the last one counts. Comments are
passed over, and a parameter of an unknown kind is reported and left out.
-/

namespace RubySig.Ruby

/-- What a child of a parameter list is. -/
inductive ParameterItem where
  | positional (parameter : Positional)
  | optional (parameter : OptionalParameter)
  | rest (name : Option String)
  | keyword (parameter : Keyword)
  | keywordRest (parameter : KeywordRest)
  | forwarding
  | block (parameter : BlockParameter)
  | comment
  | unknown (type : String)
  deriving DecidableEq

/-- Put one more item into grouped parameters. -/
def Parameters.add (p : Parameters) : ParameterItem → Parameters
  | .positional parameter =>
    if p.rest.isNone && p.optionals.isEmpty then { p with requireds := p.requireds ++ [parameter] }
    else { p with posts := p.posts ++ [parameter] }
  | .optional parameter => { p with optionals := p.optionals ++ [parameter] }
  | .rest name => { p with rest := some (.named name) }
  | .keyword parameter => { p with keywords := p.keywords ++ [parameter] }
  | .keywordRest parameter => { p with keywordRest := some parameter }
  | .forwarding => { p with rest := some .forwarding, keywordRest := some .forwarding }
  | .block parameter => { p with block := some parameter }
  | .comment => p
  | .unknown _ => p

/-- Group items as they come. -/
def Parameters.ofItems (items : List ParameterItem) : Parameters :=
  items.foldl Parameters.add {}

/-- The report about an item that is left out. -/
def ParameterItem.event? : ParameterItem → Option Event
  | .unknown type => some (.unknownParameter type)
  | _ => none

namespace SyntaxTree

/-- What a child of a parameter list is. -/
def parameterItem (source : Source) (t : SyntaxTree) : ParameterItem :=
  match t.type with
  | "identifier" => .positional (.named (t.text source))
  | "destructured_parameter" => .positional (.destructured (t.text source))
  | "optional_parameter" => .optional ⟨t.fieldText source "name", t.fieldText source "value"⟩
  | "splat_parameter" => .rest (t.fieldText? source "name")
  | "keyword_parameter" =>
    match t.fieldText? source "value" with
    | none => .keyword (.required (t.fieldText source "name"))
    | some default => .keyword (.optional (t.fieldText source "name") default)
  | "hash_splat_parameter" => .keywordRest (.named (t.fieldText? source "name"))
  | "hash_splat_nil" => .keywordRest .refused
  | "forward_parameter" => .forwarding
  | "block_parameter" => .block ⟨t.fieldText? source "name"⟩
  | "comment" => .comment
  | type => .unknown type

/-- The parameters of a parameter list. -/
def readParameters (source : Source) (t : SyntaxTree) : Logged Parameters :=
  let items := t.namedChildren.map (parameterItem source)
  ⟨Parameters.ofItems items, items.filterMap ParameterItem.event?⟩

/-- The expression that a node stands for. -/
def readExpr (source : Source) (t : SyntaxTree) : Expr :=
  if t.type == "self" then .self
  else if t.type == "constant" then .constant (t.text source)
  else if (t.type == "simple_symbol" || t.type == "delimited_symbol") && !t.isInterpolated then
    .symbol (t.symbolValue? source)
  else .other (t.text source)

/-- The parameters of a definition, if it has a parameter list. -/
def readParameters? (source : Source) : Option SyntaxTree → Logged (Option Parameters)
  | none => pure none
  | some list => do return some (← list.readParameters source)

/-- The receiver of a definition, which only a singleton method has. -/
def receiver? (source : Source) (t : SyntaxTree) : Option Expr :=
  if t.type == "singleton_method" then (t.child? "object").map (readExpr source) else none

/-- The definition that a node stands for. -/
def readDefinition (source : Source) (t : SyntaxTree) : Logged Definition := do
  let parameters ← readParameters? source (t.child? "parameters")
  return ⟨t.fieldText source "name", t.receiver? source, parameters, t.line⟩

/-- Nodes that stand for a method name where a symbol is expected. -/
def isMethodName (t : SyntaxTree) : Bool :=
  t.type == "identifier" || t.type == "constant" || t.type == "setter" || t.type == "operator"

/-- The name in an alias statement. -/
def aliasName (source : Source) : Option SyntaxTree → Expr
  | none => .other ""
  | some t => if t.isMethodName then .symbol (some (t.text source)) else t.readExpr source

/-- The alias statement that a node stands for. The new name comes first. -/
def readAlias (source : Source) (t : SyntaxTree) : AliasStatement :=
  ⟨aliasName source (t.child? "name"), aliasName source (t.child? "alias"), t.line⟩

/-- The argument that a node stands for. -/
def readArgument (source : Source) (t : SyntaxTree) : Logged Argument :=
  if t.isDefinition then do return .definition (← t.readDefinition source)
  else pure (.expr (t.readExpr source))

/-- The arguments that nodes stand for. -/
def readArguments (source : Source) : List SyntaxTree → Logged (List Argument)
  | [] => pure []
  | t :: rest => do
    let argument ← t.readArgument source
    let arguments ← readArguments source rest
    return argument :: arguments

/-- The nodes of an argument list, without comments. -/
def argumentNodes (list : SyntaxTree) : List SyntaxTree :=
  list.namedChildren.filter fun child => !child.isComment

/-- The arguments of a call, if it has an argument list. -/
def readArgumentList? (source : Source) : Option SyntaxTree → Logged (Option (List Argument))
  | none => pure none
  | some list => do return some (← readArguments source list.argumentNodes)

/-- The call that a node stands for. A bare identifier is a call without arguments. -/
def readCall (source : Source) (t : SyntaxTree) : Logged Call :=
  if t.type == "identifier" then pure ⟨t.text source, none, none, t.line⟩
  else do
    let arguments ← readArgumentList? source (t.child? "arguments")
    return ⟨t.fieldText source "method", (t.child? "receiver").map (readExpr source), arguments, t.line⟩

end SyntaxTree

end RubySig.Ruby
