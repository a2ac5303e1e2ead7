/-!
# Ruby nodes

The part of Ruby that declarations look at: expressions that can stand as a receiver, an argument
or an alias name, parameter lists grouped by kind, definitions, aliases and calls. Everything else
is an expression that keeps its source text.
-/

namespace RubySig.Ruby

/-- An expression. A symbol has no value when its text is not known before the program runs. -/
inductive Expr where
  | self
  | constant (name : String)
  | symbol (value : Option String)
  | other (source : String)
  deriving DecidableEq

/-- The name of the kind of an expression. -/
def Expr.nodeType : Expr → String
  | .self => "self"
  | .constant _ => "constant_read"
  | .symbol _ => "symbol"
  | .other _ => "expression"

/-- A required parameter: a name, or a pattern that takes an argument apart. -/
inductive Positional where
  | named (name : String)
  | destructured (source : String)
  deriving DecidableEq

/-- An optional parameter with the source of its default. -/
structure OptionalParameter where
  name : String
  default : String := ""
  deriving DecidableEq

/-- The rest parameter `*name`, or the part of `...` that takes positional arguments. -/
inductive Rest where
  | named (name : Option String)
  | forwarding
  deriving DecidableEq

/-- A keyword parameter, with the source of its default if it has one. -/
inductive Keyword where
  | required (name : String)
  | optional (name : String) (default : String)
  deriving DecidableEq

/-- The rest of the keywords: `**name`, `**nil`, or the part of `...` that takes keywords. -/
inductive KeywordRest where
  | named (name : Option String)
  | refused
  | forwarding
  deriving DecidableEq

/-- A block parameter; it has no name when it is only passed on. -/
structure BlockParameter where
  name : Option String := none
  deriving DecidableEq

/-- A parameter list, grouped by kind. `posts` are required parameters after an optional or rest
parameter. -/
structure Parameters where
  requireds : List Positional := []
  optionals : List OptionalParameter := []
  rest : Option Rest := none
  posts : List Positional := []
  keywords : List Keyword := []
  keywordRest : Option KeywordRest := none
  block : Option BlockParameter := none
  deriving DecidableEq

/-- A method definition. -/
structure Definition where
  name : String
  receiver : Option Expr := none
  parameters : Option Parameters := none
  line : Int := 0
  deriving DecidableEq

/-- A statement that gives a method a second name. -/
structure AliasStatement where
  newName : Expr
  oldName : Expr
  line : Int := 0
  deriving DecidableEq

/-- An argument of a call. -/
inductive Argument where
  | expr (expr : Expr)
  | definition (definition : Definition)
  deriving DecidableEq

/-- A call. Without an argument list, `arguments` is absent. -/
structure Call where
  name : String
  receiver : Option Expr := none
  arguments : Option (List Argument) := none
  line : Int := 0
  deriving DecidableEq

/-- The arguments of a call, none when it has no argument list. -/
def Call.argumentList (c : Call) : List Argument :=
  c.arguments.getD []

end RubySig.Ruby
