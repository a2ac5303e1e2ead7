import RubySig.Data.Types
import RubySig.Ruby.Node

/-!
# Ruby nodes as plain data

Every node is a record whose `node_type` says what it is. Where a node can be of several kinds
the type is needed; where it can be of one kind only it may be left out.
-/

namespace RubySig.Data

open RubySig.Ruby

/-- The field that every node starts with. -/
def nodeType (name : String) : String × Value :=
  ("node_type", .text name)

/-! ## Writing -/

/-- An expression as data. -/
def writeExpr : Expr → Value
  | .self => .record [nodeType "self"]
  | .constant name => .record [nodeType "constant_read", ("name", .text name)]
  | .symbol value => .record [nodeType "symbol", ("value", .ofText? value)]
  | .other source => .record [nodeType "expression", ("source", .text source)]

/-- A required parameter as data. -/
def writePositional : Positional → Value
  | .named name => .record [nodeType "required_parameter", ("name", .text name)]
  | .destructured source => .record [nodeType "destructured_parameter", ("source", .text source)]

/-- An optional parameter as data. -/
def writeOptionalParameter (p : OptionalParameter) : Value :=
  .record [nodeType "optional_parameter", ("name", .text p.name), ("default", .text p.default)]

/-- A rest parameter as data. -/
def writeRest : Rest → Value
  | .named name => .record [nodeType "rest_parameter", ("name", .ofText? name)]
  | .forwarding => .record [nodeType "forwarding_parameter"]

/-- A keyword parameter as data. -/
def writeKeyword : Keyword → Value
  | .required name => .record [nodeType "required_keyword_parameter", ("name", .text name)]
  | .optional name default =>
    .record [nodeType "optional_keyword_parameter", ("name", .text name), ("default", .text default)]

/-- A rest of keywords as data. -/
def writeKeywordRest : KeywordRest → Value
  | .named name => .record [nodeType "keyword_rest_parameter", ("name", .ofText? name)]
  | .refused => .record [nodeType "no_keywords_parameter"]
  | .forwarding => .record [nodeType "forwarding_parameter"]

/-- A block parameter as data. -/
def writeBlockParameter (b : BlockParameter) : Value :=
  .record [nodeType "block_parameter", ("name", .ofText? b.name)]

/-- A parameter list as data. -/
def writeParameters (p : Parameters) : Value :=
  .record [nodeType "parameters", ("requireds", .list (p.requireds.map writePositional)),
    ("optionals", .list (p.optionals.map writeOptionalParameter)), ("rest", .ofOption writeRest p.rest),
    ("posts", .list (p.posts.map writePositional)), ("keywords", .list (p.keywords.map writeKeyword)),
    ("keyword_rest", .ofOption writeKeywordRest p.keywordRest),
    ("block", .ofOption writeBlockParameter p.block)]

/-- A definition as data. -/
def writeDefinition (d : Definition) : Value :=
  .record [nodeType "def", ("name", .text d.name), ("receiver", .ofOption writeExpr d.receiver),
    ("parameters", .ofOption writeParameters d.parameters), ("line", .int d.line)]

/-- An alias statement as data. -/
def writeAliasStatement (a : AliasStatement) : Value :=
  .record [nodeType "alias", ("new_name", writeExpr a.newName), ("old_name", writeExpr a.oldName),
    ("line", .int a.line)]

/-- An argument as data. -/
def writeArgument : Argument → Value
  | .expr expr => writeExpr expr
  | .definition definition => writeDefinition definition

/-- A call as data. -/
def writeCall (c : Call) : Value :=
  .record [nodeType "call", ("name", .text c.name), ("receiver", .ofOption writeExpr c.receiver),
    ("arguments", .ofOption (fun arguments => .list (arguments.map writeArgument)) c.arguments),
    ("line", .int c.line)]

/-! ## Reading -/

namespace Reader

/-- A node of one kind. -/
def node {α : Type} (className nodeType : String) (read : Fields → Checked α) : Reader α :=
  record className fun fields => (fun _ node => node) <$> tag fields "node_type" nodeType <*> read fields

/-- The expression `self`. -/
def selfNode : Reader Expr :=
  node "SelfNode" "self" fun _ => .ok .self

/-- A constant. -/
def constantNode : Reader Expr :=
  node "ConstantReadNode" "constant_read" fun fields => Expr.constant <$> required fields "name" text

/-- A symbol. -/
def symbolNode : Reader Expr :=
  node "SymbolNode" "symbol" fun fields =>
    Expr.symbol <$> defaulted fields "value" none (nullable text)

/-- Any other expression. -/
def expressionNode : Reader Expr :=
  node "ExpressionNode" "expression" fun fields => Expr.other <$> defaulted fields "source" "" text

/-- A required parameter with a name. -/
def requiredParameter : Reader Positional :=
  node "RequiredParameter" "required_parameter" fun fields =>
    Positional.named <$> required fields "name" text

/-- A required parameter that takes its argument apart. -/
def destructuredParameter : Reader Positional :=
  node "DestructuredParameter" "destructured_parameter" fun fields =>
    Positional.destructured <$> defaulted fields "source" "" text

/-- An optional parameter. -/
def optionalParameter : Reader OptionalParameter :=
  node "OptionalParameter" "optional_parameter" fun fields =>
    OptionalParameter.mk <$> required fields "name" text <*> defaulted fields "default" "" text

/-- A rest parameter with a star. -/
def restParameter : Reader Rest :=
  node "RestParameter" "rest_parameter" fun fields =>
    Rest.named <$> defaulted fields "name" none (nullable text)

/-- The parameter `...`, whatever it stands for. -/
def forwardingParameter {α : Type} (meaning : α) : Reader α :=
  node "ForwardingParameter" "forwarding_parameter" fun _ => .ok meaning

/-- A keyword parameter without a default. -/
def requiredKeyword : Reader Keyword :=
  node "RequiredKeywordParameter" "required_keyword_parameter" fun fields =>
    Keyword.required <$> required fields "name" text

/-- A keyword parameter with a default. -/
def optionalKeyword : Reader Keyword :=
  node "OptionalKeywordParameter" "optional_keyword_parameter" fun fields =>
    Keyword.optional <$> required fields "name" text <*> defaulted fields "default" "" text

/-- A rest of keywords with two stars. -/
def keywordRestParameter : Reader KeywordRest :=
  node "KeywordRestParameter" "keyword_rest_parameter" fun fields =>
    KeywordRest.named <$> defaulted fields "name" none (nullable text)

/-- The parameter `**nil`. -/
def noKeywords : Reader KeywordRest :=
  node "NoKeywordsParameter" "no_keywords_parameter" fun _ => .ok .refused

/-- A block parameter. -/
def blockParameter : Reader BlockParameter :=
  node "BlockParameter" "block_parameter" fun fields =>
    BlockParameter.mk <$> defaulted fields "name" none (nullable text)

/-- A required parameter of either kind. -/
def positional : Reader Positional :=
  tagged "node_type" [("required_parameter", requiredParameter),
    ("destructured_parameter", destructuredParameter)]

/-- A rest parameter of either kind. -/
def rest : Reader Rest :=
  tagged "node_type" [("rest_parameter", restParameter),
    ("forwarding_parameter", forwardingParameter .forwarding)]

/-- A keyword parameter of either kind. -/
def keyword : Reader Keyword :=
  tagged "node_type" [("required_keyword_parameter", requiredKeyword),
    ("optional_keyword_parameter", optionalKeyword)]

/-- A rest of keywords of any kind. -/
def keywordRest : Reader KeywordRest :=
  tagged "node_type" [("keyword_rest_parameter", keywordRestParameter),
    ("no_keywords_parameter", noKeywords), ("forwarding_parameter", forwardingParameter .forwarding)]

/-- A parameter list. -/
def parameters : Reader Parameters :=
  node "ParametersNode" "parameters" fun fields =>
    Parameters.mk <$> defaulted fields "requireds" [] (list positional)
      <*> defaulted fields "optionals" [] (list optionalParameter)
      <*> defaulted fields "rest" none (nullable rest)
      <*> defaulted fields "posts" [] (list positional)
      <*> defaulted fields "keywords" [] (list keyword)
      <*> defaulted fields "keyword_rest" none (nullable keywordRest)
      <*> defaulted fields "block" none (nullable blockParameter)

/-- The kinds of expressions. -/
def exprKinds : List (String × Reader Expr) :=
  [("self", selfNode), ("constant_read", constantNode), ("symbol", symbolNode),
    ("expression", expressionNode)]

/-- An expression of any kind. -/
def expr : Reader Expr :=
  tagged "node_type" exprKinds

/-- A definition. -/
def definition : Reader Definition :=
  node "DefNode" "def" fun fields =>
    Definition.mk <$> required fields "name" text
      <*> defaulted fields "receiver" none (nullable expr)
      <*> defaulted fields "parameters" none (nullable parameters)
      <*> defaulted fields "line" 0 int

/-- An alias statement. -/
def aliasStatement : Reader AliasStatement :=
  node "AliasMethodNode" "alias" fun fields =>
    AliasStatement.mk <$> required fields "new_name" expr <*> required fields "old_name" expr
      <*> defaulted fields "line" 0 int

/-- An argument of any kind. -/
def argument : Reader Argument :=
  tagged "node_type"
    (exprKinds.map (fun kind => (kind.1, fun value => Argument.expr <$> kind.2 value))
      ++ [("def", fun value => Argument.definition <$> definition value)])

/-- A call. -/
def call : Reader Call :=
  node "CallNode" "call" fun fields =>
    Call.mk <$> required fields "name" text
      <*> defaulted fields "receiver" none (nullable expr)
      <*> defaulted fields "arguments" none (nullable (list argument))
      <*> defaulted fields "line" 0 int

end Reader

end RubySig.Data
