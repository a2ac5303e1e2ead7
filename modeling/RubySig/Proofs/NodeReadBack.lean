import RubySig.Data.RubyNodes
import RubySig.Proofs.TypeReadBack

/-!
# Ruby nodes are read back from their data

Every node is read back, whatever texts and lines it holds: no types stand in nodes, so there is no
bound on anything. The reader of one class of nodes gives nodes of that class only, and where a node
can be of several classes its data name the one it is of.
-/

namespace RubySig

namespace Ruby

/-- The name of the kind of a required parameter. -/
def Positional.nodeType : Positional → String
  | .named _ => "required_parameter"
  | .destructured _ => "destructured_parameter"

/-- The name of the kind of a rest parameter. -/
def Rest.nodeType : Rest → String
  | .named _ => "rest_parameter"
  | .forwarding => "forwarding_parameter"

/-- The name of the kind of a keyword parameter. -/
def Keyword.nodeType : Keyword → String
  | .required _ => "required_keyword_parameter"
  | .optional _ _ => "optional_keyword_parameter"

/-- The name of the kind of a rest of keywords. -/
def KeywordRest.nodeType : KeywordRest → String
  | .named _ => "keyword_rest_parameter"
  | .refused => "no_keywords_parameter"
  | .forwarding => "forwarding_parameter"

/-- The name of the kind of an argument. -/
def Argument.nodeType : Argument → String
  | .expr e => e.nodeType
  | .definition _ => "def"

end Ruby

namespace Data.Reader

open RubySig.Ruby
open Checked

/-- A node whose data name its kind is read back if its fields are. -/
theorem node_eq_ok {α : Type} {className nodeType : String} {read : Fields → Checked α} {fields : Fields}
    {a : α} (htag : fields.lookup "node_type" = some (.text nodeType)) (hread : read fields = .ok a) :
    node className nodeType read (.record fields) = .ok a := by
  simp [node, record, tag_eq_ok htag, hread]

/-- What the fields of a node give has a property if it has it for all fields. -/
theorem node_ensures {α : Type} {className nodeType : String} {read : Fields → Checked α} {P : α → Prop}
    (h : ∀ fields, (read fields).Ensures P) (value : Value) :
    (node className nodeType read value).Ensures P :=
  record_ensures (fun fields => (tag_ensures.map fun _ _ _ ha => ha).seq (h fields)) value

/-- A node without fields of its own. -/
theorem inverts_fieldless {α : Type} {className kind : String} (meaning : α) {write : α → Value}
    (hwrite : write meaning = .record [nodeType kind]) :
    Inverts (node className kind fun _ => .ok meaning) write (fun a => a = meaning) where
  readBack := by
    rintro _ rfl
    rw [hwrite]
    exact node_eq_ok rfl rfl
  sound := node_ensures fun _ a ha => by
    cases ha
    rfl

/-- A node with one field of its own, which may hold any value. -/
theorem inverts_singleField {α β : Type} {className kind name : String} (make : β → α)
    {field : Fields → Checked β} {writeField : β → Value} {write : α → Value}
    (hfield : InvertsField field name writeField fun _ => True) (hname : name ≠ "node_type")
    (hwrite : ∀ b, write (make b) = .record [nodeType kind, (name, writeField b)]) :
    Inverts (node className kind fun fields => make <$> field fields) write (fun a => ∃ b, a = make b) where
  readBack := by
    rintro _ ⟨b, rfl⟩
    have hlookup : [nodeType kind, (name, writeField b)].lookup name = some (writeField b) := by
      have hother : (name == "node_type") = false := by simpa using hname
      simp [nodeType, List.lookup_cons, hother]
    rw [hwrite]
    exact node_eq_ok rfl (by rw [hfield.readBack hlookup trivial, map_ok])
  sound := node_ensures fun fields => (hfield.sound fields).map fun b _ => ⟨b, rfl⟩

/-! ## Expressions -/

/-- The reader of `self` reads it back. -/
theorem inverts_selfNode : Inverts selfNode writeExpr (fun e => e.nodeType = "self") :=
  (inverts_fieldless Expr.self rfl).congr fun e => by cases e <;> simp [Expr.nodeType]

/-- The reader of constants reads back the constants. -/
theorem inverts_constantNode : Inverts constantNode writeExpr (fun e => e.nodeType = "constant_read") :=
  (inverts_singleField Expr.constant (inverts_text.required "name") (by decide) fun _ => rfl).congr
    fun e => by cases e <;> simp [Expr.nodeType]

/-- The reader of symbols reads back the symbols, with and without a value. -/
theorem inverts_symbolNode : Inverts symbolNode writeExpr (fun e => e.nodeType = "symbol") :=
  (inverts_singleField Expr.symbol (inverts_text?.defaulted "value" none trivial) (by decide)
    fun _ => rfl).congr fun e => by cases e <;> simp [Expr.nodeType]

/-- The reader of other expressions reads these back. -/
theorem inverts_expressionNode : Inverts expressionNode writeExpr (fun e => e.nodeType = "expression") :=
  (inverts_singleField Expr.other (inverts_text.defaulted "source" "" trivial) (by decide)
    fun _ => rfl).congr fun e => by cases e <;> simp [Expr.nodeType]

/-- The reader of each kind of expression reads back the expressions of its kind. -/
theorem inverts_exprKinds (name : String) (read : Reader Expr) (hmem : (name, read) ∈ exprKinds) :
    Inverts read writeExpr fun e => e.nodeType = name := by
  simp only [exprKinds, List.mem_cons, List.not_mem_nil, or_false, Prod.mk.injEq] at hmem
  rcases hmem with ⟨rfl, rfl⟩ | ⟨rfl, rfl⟩ | ⟨rfl, rfl⟩ | ⟨rfl, rfl⟩
  · exact inverts_selfNode
  · exact inverts_constantNode
  · exact inverts_symbolNode
  · exact inverts_expressionNode

/-- The data of an expression show its kind. -/
theorem writeExpr_eq_record (e : Expr) :
    ∃ fields, writeExpr e = .record fields ∧ fields.lookup "node_type" = some (.text e.nodeType) := by
  cases e <;> exact ⟨_, rfl, rfl⟩

/-- An expression is read back. -/
theorem inverts_expr : Inverts expr writeExpr (fun _ => True) :=
  inverts_tagged Expr.nodeType writeExpr_eq_record (fun e => by cases e <;> exact ⟨_, rfl⟩)
    fun name read hmem => (inverts_exprKinds name read hmem).congr (by simp)

/-- An expression that may be absent is read back. -/
theorem inverts_expr? : Inverts (nullable expr) (.ofOption writeExpr) (fun _ => True) :=
  (inverts_expr.nullable fun e => by cases e <;> simp [writeExpr]).congr (by simp)

/-! ## Parameters -/

/-- The reader of required parameters reads back those with a name. -/
theorem inverts_requiredParameter :
    Inverts requiredParameter writePositional (fun p => p.nodeType = "required_parameter") :=
  (inverts_singleField Positional.named (inverts_text.required "name") (by decide) fun _ => rfl).congr
    fun p => by cases p <;> simp [Positional.nodeType]

/-- The reader of destructured parameters reads these back. -/
theorem inverts_destructuredParameter :
    Inverts destructuredParameter writePositional (fun p => p.nodeType = "destructured_parameter") :=
  (inverts_singleField Positional.destructured (inverts_text.defaulted "source" "" trivial) (by decide)
    fun _ => rfl).congr fun p => by cases p <;> simp [Positional.nodeType]

/-- A required parameter of either kind is read back. -/
theorem inverts_positional : Inverts positional writePositional (fun _ => True) := by
  refine inverts_tagged Positional.nodeType ?_ ?_ ?_
  · intro p
    cases p <;> exact ⟨_, rfl, rfl⟩
  · intro p
    cases p <;> exact ⟨_, rfl⟩
  · intro name read hmem
    simp only [List.mem_cons, List.not_mem_nil, or_false, Prod.mk.injEq] at hmem
    rcases hmem with ⟨rfl, rfl⟩ | ⟨rfl, rfl⟩
    · exact inverts_requiredParameter.congr (by simp)
    · exact inverts_destructuredParameter.congr (by simp)

/-- An optional parameter is read back. -/
theorem inverts_optionalParameter :
    Inverts optionalParameter writeOptionalParameter (fun _ => True) where
  readBack := by
    intro p _
    refine node_eq_ok rfl ?_
    rw [(inverts_text.required "name").readBack rfl trivial,
      (inverts_text.defaulted "default" "" trivial).readBack rfl trivial]
    rfl
  sound _ _ _ := trivial

/-- The reader of rest parameters reads these back. -/
theorem inverts_restParameter : Inverts restParameter writeRest (fun r => r.nodeType = "rest_parameter") :=
  (inverts_singleField Rest.named (inverts_text?.defaulted "name" none trivial) (by decide)
    fun _ => rfl).congr fun r => by cases r <;> simp [Rest.nodeType]

/-- The reader of forwarding parameters reads back the one in the place of the rest. -/
theorem inverts_forwardingRest :
    Inverts (forwardingParameter Rest.forwarding) writeRest
      (fun r => r.nodeType = "forwarding_parameter") :=
  (inverts_fieldless Rest.forwarding rfl).congr fun r => by cases r <;> simp [Rest.nodeType]

/-- A rest parameter of either kind is read back. -/
theorem inverts_rest : Inverts rest writeRest (fun _ => True) := by
  refine inverts_tagged Rest.nodeType ?_ ?_ ?_
  · intro r
    cases r <;> exact ⟨_, rfl, rfl⟩
  · intro r
    cases r <;> exact ⟨_, rfl⟩
  · intro name read hmem
    simp only [List.mem_cons, List.not_mem_nil, or_false, Prod.mk.injEq] at hmem
    rcases hmem with ⟨rfl, rfl⟩ | ⟨rfl, rfl⟩
    · exact inverts_restParameter.congr (by simp)
    · exact inverts_forwardingRest.congr (by simp)

/-- The reader of required keywords reads these back. -/
theorem inverts_requiredKeyword :
    Inverts requiredKeyword writeKeyword (fun k => k.nodeType = "required_keyword_parameter") :=
  (inverts_singleField Keyword.required (inverts_text.required "name") (by decide) fun _ => rfl).congr
    fun k => by cases k <;> simp [Keyword.nodeType]

/-- The reader of optional keywords reads these back. -/
theorem inverts_optionalKeyword :
    Inverts optionalKeyword writeKeyword (fun k => k.nodeType = "optional_keyword_parameter") := by
  have hname := inverts_text.required "name"
  have hdefault := inverts_text.defaulted "default" "" trivial
  constructor
  · intro k hk
    cases k <;> simp [Keyword.nodeType] at hk
    exact node_eq_ok rfl (by rw [hname.readBack rfl trivial, hdefault.readBack rfl trivial]; rfl)
  · refine node_ensures fun fields => ?_
    refine ((hname.sound fields).map ?_).seq (hdefault.sound fields)
    rintro name - value -
    rfl

/-- A keyword of either kind is read back. -/
theorem inverts_keyword : Inverts keyword writeKeyword (fun _ => True) := by
  refine inverts_tagged Keyword.nodeType ?_ ?_ ?_
  · intro k
    cases k <;> exact ⟨_, rfl, rfl⟩
  · intro k
    cases k <;> exact ⟨_, rfl⟩
  · intro name read hmem
    simp only [List.mem_cons, List.not_mem_nil, or_false, Prod.mk.injEq] at hmem
    rcases hmem with ⟨rfl, rfl⟩ | ⟨rfl, rfl⟩
    · exact inverts_requiredKeyword.congr (by simp)
    · exact inverts_optionalKeyword.congr (by simp)

/-- The reader of rests of keywords reads these back. -/
theorem inverts_keywordRestParameter :
    Inverts keywordRestParameter writeKeywordRest (fun r => r.nodeType = "keyword_rest_parameter") :=
  (inverts_singleField KeywordRest.named (inverts_text?.defaulted "name" none trivial) (by decide)
    fun _ => rfl).congr fun r => by cases r <;> simp [KeywordRest.nodeType]

/-- The reader of the refusal of keywords reads it back. -/
theorem inverts_noKeywords :
    Inverts noKeywords writeKeywordRest (fun r => r.nodeType = "no_keywords_parameter") :=
  (inverts_fieldless KeywordRest.refused rfl).congr fun r => by cases r <;> simp [KeywordRest.nodeType]

/-- A rest of the keywords of any kind is read back. -/
theorem inverts_keywordRest : Inverts keywordRest writeKeywordRest (fun _ => True) := by
  refine inverts_tagged KeywordRest.nodeType ?_ ?_ ?_
  · intro r
    cases r <;> exact ⟨_, rfl, rfl⟩
  · intro r
    cases r <;> exact ⟨_, rfl⟩
  · intro name read hmem
    simp only [List.mem_cons, List.not_mem_nil, or_false, Prod.mk.injEq] at hmem
    rcases hmem with ⟨rfl, rfl⟩ | ⟨rfl, rfl⟩ | ⟨rfl, rfl⟩
    · exact inverts_keywordRestParameter.congr (by simp)
    · exact inverts_noKeywords.congr (by simp)
    · exact (inverts_fieldless KeywordRest.forwarding rfl).congr fun r => by
        cases r <;> simp [KeywordRest.nodeType]

/-- A block parameter is read back. -/
theorem inverts_blockParameter : Inverts blockParameter writeBlockParameter (fun _ => True) :=
  (inverts_singleField BlockParameter.mk (inverts_text?.defaulted "name" none trivial) (by decide)
    fun _ => rfl).congr fun b => by simpa using ⟨b.name, rfl⟩

/-- A parameter list is read back. -/
theorem inverts_parameters : Inverts parameters writeParameters (fun _ => True) where
  readBack := by
    intro p _
    have hrest := inverts_rest.nullable fun r => by cases r <;> simp [writeRest]
    have hkeywordRest := inverts_keywordRest.nullable fun r => by cases r <;> simp [writeKeywordRest]
    have hblock := inverts_blockParameter.nullable fun b => by simp [writeBlockParameter]
    refine node_eq_ok rfl ?_
    rw [(inverts_positional.list.defaulted "requireds" [] (by simp)).readBack rfl (by simp),
      (inverts_optionalParameter.list.defaulted "optionals" [] (by simp)).readBack rfl (by simp),
      (hrest.defaulted "rest" none (by simp)).readBack rfl (by simp),
      (inverts_positional.list.defaulted "posts" [] (by simp)).readBack rfl (by simp),
      (inverts_keyword.list.defaulted "keywords" [] (by simp)).readBack rfl (by simp),
      (hkeywordRest.defaulted "keyword_rest" none (by simp)).readBack rfl (by simp),
      (hblock.defaulted "block" none (by simp)).readBack rfl (by simp)]
    rfl
  sound _ _ _ := trivial

/-! ## Statements -/

/-- The line of a node is read back. -/
theorem inverts_line :
    InvertsField (fun fields => defaulted fields "line" 0 int) "line" .int (fun _ => True) :=
  inverts_int.defaulted "line" 0 trivial

/-- A definition is read back. -/
theorem inverts_definition : Inverts definition writeDefinition (fun _ => True) where
  readBack := by
    intro d _
    have hparameters := inverts_parameters.nullable fun p => by simp [writeParameters]
    refine node_eq_ok rfl ?_
    rw [(inverts_text.required "name").readBack rfl trivial,
      (inverts_expr?.defaulted "receiver" none trivial).readBack rfl trivial,
      (hparameters.defaulted "parameters" none (by simp)).readBack rfl (by simp),
      inverts_line.readBack rfl trivial]
    rfl
  sound _ _ _ := trivial

/-- An alias statement is read back. -/
theorem inverts_aliasStatement : Inverts aliasStatement writeAliasStatement (fun _ => True) where
  readBack := by
    intro a _
    refine node_eq_ok rfl ?_
    rw [(inverts_expr.required "new_name").readBack rfl trivial,
      (inverts_expr.required "old_name").readBack rfl trivial, inverts_line.readBack rfl trivial]
    rfl
  sound _ _ _ := trivial

/-- An argument is read back. -/
theorem inverts_argument : Inverts argument writeArgument (fun _ => True) := by
  refine inverts_tagged Argument.nodeType ?_ ?_ ?_
  · intro a
    cases a with
    | expr e => exact writeExpr_eq_record e
    | definition d => exact ⟨_, rfl, rfl⟩
  · intro a
    cases a with
    | expr e => cases e <;> exact ⟨_, rfl⟩
    | definition d => exact ⟨_, rfl⟩
  · intro name read hmem
    rcases List.mem_append.mp hmem with hexpr | hdefinition
    · obtain ⟨⟨kind, readKind⟩, hkind, hentry⟩ := List.mem_map.mp hexpr
      obtain ⟨rfl, rfl⟩ := Prod.mk.inj hentry
      have hother : "def" ≠ kind := by
        rintro rfl
        simp [exprKinds] at hkind
      refine ((inverts_exprKinds kind readKind hkind).map Argument.expr fun _ => rfl).congr ?_
      intro a
      cases a <;> simp [Argument.nodeType, hother]
    · obtain ⟨rfl, rfl⟩ := Prod.mk.inj (List.mem_singleton.mp hdefinition)
      refine (inverts_definition.map Argument.definition fun _ => rfl).congr ?_
      intro a
      cases a with
      | expr e => cases e <;> simp [Argument.nodeType, Expr.nodeType]
      | definition d => simp [Argument.nodeType]

/-- A call is read back. -/
theorem inverts_call : Inverts call writeCall (fun _ => True) where
  readBack := by
    intro c _
    have harguments := inverts_argument.list.nullable (by simp)
    refine node_eq_ok rfl ?_
    rw [(inverts_text.required "name").readBack rfl trivial,
      (inverts_expr?.defaulted "receiver" none trivial).readBack rfl trivial,
      (harguments.defaulted "arguments" none (by simp)).readBack rfl (by simp),
      inverts_line.readBack rfl trivial]
    rfl
  sound _ _ _ := trivial

end Data.Reader

end RubySig
