import RubySig.Proofs.MemberFaults
import RubySig.Proofs.OutlineExactness

/-!
# Faults of the declarations of a tree

A symbol that is read from a tree always has a value: interpolated symbols are read as other
expressions. So a declaration of an outline can be at fault only by the types of a few nodes and by
the comment next to its statement, and the faults that need a symbol without a value or a call that
is no attribute call do not occur. Calls and aliases that were not read from a tree are not covered.
-/

namespace RubySig

open RubySig.Rbs
open RubySig.Ruby

/-- The values of the symbols in an expression. -/
def Ruby.Expr.symbolValues : Expr → List (Option String)
  | .symbol value => [value]
  | _ => []

/-- The values of the symbols in a definition, which can only be in its receiver. -/
def Ruby.Definition.symbolValues (d : Definition) : List (Option String) :=
  d.receiver.elim [] Expr.symbolValues

/-- The values of the symbols in an argument. -/
def Ruby.Argument.symbolValues : Argument → List (Option String)
  | .expr e => e.symbolValues
  | .definition d => d.symbolValues

/-- The values of the symbols in a call. -/
def Ruby.Call.symbolValues (c : Call) : List (Option String) :=
  c.receiver.elim [] Expr.symbolValues ++ c.argumentList.flatMap Argument.symbolValues

/-- The values of the symbols in the node of a declaration. -/
def Declaration.symbolValues : Declaration → List (Option String)
  | .method declaration => declaration.definition.symbolValues
  | .aliasing declaration =>
    declaration.statement.newName.symbolValues ++ declaration.statement.oldName.symbolValues
  | .mixin declaration => declaration.call.symbolValues
  | .attr declaration => declaration.call.symbolValues
  | .marker _ call => call.symbolValues
  | .other call => call.symbolValues

namespace Outline

/-- A symbol whose value is known before the program runs. -/
def IsLiteralSymbol (t : SyntaxTree) : Prop :=
  (t.type = "simple_symbol" ∨ t.type = "delimited_symbol") ∧ t.isInterpolated = false

/-- A node that names a method in an alias: a bare name or a symbol with a known value. -/
def NamesMethod (t : SyntaxTree) : Prop :=
  t.type = "identifier" ∨ t.type = "constant" ∨ t.type = "setter" ∨ t.type = "operator" ∨
    IsLiteralSymbol t

/-- A node is read as a symbol exactly when its value is known, and then with a value. -/
theorem readExpr_cases (source : Source) (t : SyntaxTree) :
    (IsLiteralSymbol t ∧ ∃ name, t.readExpr source = .symbol (some name)) ∨
      (¬ IsLiteralSymbol t ∧ ∀ value, t.readExpr source ≠ .symbol value) := by
  by_cases hsymbol : IsLiteralSymbol t
  · refine .inl ⟨hsymbol, ?_⟩
    obtain ⟨htype | htype, hknown⟩ := hsymbol <;>
      simp [SyntaxTree.readExpr, SyntaxTree.symbolValue?, htype, hknown]
  · refine .inr ⟨hsymbol, fun value => ?_⟩
    unfold SyntaxTree.readExpr
    split
    · simp
    · split
      · simp
      · split
        · rename_i h
          exact absurd (by simpa [IsLiteralSymbol] using h) hsymbol
        · simp

/-- A node is read as a constant exactly when it is one. -/
theorem readExpr_eq_constant_iff (source : Source) (t : SyntaxTree) (name : String) :
    t.readExpr source = .constant name ↔ t.type = "constant" ∧ t.text source = name := by
  unfold SyntaxTree.readExpr
  split
  · simp_all
  · split
    · simp_all
    · split <;> simp_all

/-- An expression that is a symbol with a value or no symbol has no symbol without a value. -/
theorem known_of_symbol_or_not {e : Expr} {value : Option String}
    (h : (∃ name, e = .symbol (some name)) ∨ ∀ value, e ≠ .symbol value)
    (hvalue : value ∈ e.symbolValues) : value.isSome = true := by
  cases e with
  | symbol held =>
    obtain rfl := List.mem_singleton.mp hvalue
    rcases h with ⟨name, hname⟩ | hnot
    · rw [Expr.symbol.inj hname, Option.isSome_some]
    · exact absurd rfl (hnot value)
  | self | constant name | other text => simp [Expr.symbolValues] at hvalue

/-- Every symbol that is read as an expression has a value. -/
theorem known_of_readExpr {source : Source} {t : SyntaxTree} {value : Option String}
    (h : value ∈ (t.readExpr source).symbolValues) : value.isSome = true :=
  known_of_symbol_or_not ((readExpr_cases source t).imp And.right And.right) h

/-- Every symbol in a definition that is read has a value, in a body of any kind. -/
theorem known_of_readDefinition {source : Source} {mode : Mode} {t : SyntaxTree} {value : Option String}
    (h : value ∈ (mode.place (t.readDefinition source).value).symbolValues) : value.isSome = true := by
  have hreceiver : (t.readDefinition source).value.receiver = t.receiver? source := rfl
  have hplace : (mode.place (t.readDefinition source).value).receiver = t.receiver? source ∨
      (mode.place (t.readDefinition source).value).receiver = some .self := by
    unfold Mode.place
    split <;> simp [hreceiver]
  rcases hplace with hplace | hplace
  · rw [Definition.symbolValues, hplace, SyntaxTree.receiver?] at h
    split at h
    · cases hobject : t.child? "object" with
      | none => simp [hobject] at h
      | some object => exact known_of_readExpr (by simpa [hobject] using h)
    · simp at h
  · simp [Definition.symbolValues, hplace, Expr.symbolValues] at h

/-- Every symbol in an argument that is read has a value. -/
theorem known_of_readArgument {source : Source} {t : SyntaxTree} {value : Option String}
    (h : value ∈ (t.readArgument source).value.symbolValues) : value.isSome = true := by
  unfold SyntaxTree.readArgument at h
  split at h
  · have hplain : value ∈ (Mode.plain.place (t.readDefinition source).value).symbolValues := by
      rw [place_plain]
      exact h
    exact known_of_readDefinition hplain
  · exact known_of_readExpr h

/-- Every symbol in a call that is read has a value. -/
theorem known_of_readCall {source : Source} {t : SyntaxTree} {value : Option String}
    (htype : t.type = "identifier" ∨ t.type = "call")
    (h : value ∈ (t.readCall source).value.symbolValues) : value.isSome = true := by
  rcases htype with htype | htype
  · simp [readCall_of_identifier htype, Call.symbolValues, Call.argumentList] at h
  · rw [Call.symbolValues, argumentList_readCall htype, readCall_of_call htype, List.mem_append] at h
    rcases h with h | h
    · cases hreceiver : t.child? "receiver" with
      | none => simp [hreceiver] at h
      | some receiver => exact known_of_readExpr (by simpa [hreceiver] using h)
    · obtain ⟨argument, hargument, h⟩ := List.mem_flatMap.mp h
      obtain ⟨node, -, rfl⟩ := List.mem_map.mp hargument
      exact known_of_readArgument h

/-- The name in an alias is a symbol with a value, or no symbol. -/
theorem aliasName_cases (source : Source) (child : Option SyntaxTree) :
    ((∃ node, child = some node ∧ NamesMethod node) ∧
        ∃ name, SyntaxTree.aliasName source child = .symbol (some name)) ∨
      ((¬ ∃ node, child = some node ∧ NamesMethod node) ∧
        ∀ value, SyntaxTree.aliasName source child ≠ .symbol value) := by
  cases child with
  | none => exact .inr ⟨by simp, by simp [SyntaxTree.aliasName]⟩
  | some t =>
    cases hname : t.isMethodName with
    | true =>
      have hnames : NamesMethod t := by
        simp only [SyntaxTree.isMethodName, Bool.or_eq_true, beq_iff_eq] at hname
        unfold NamesMethod
        tauto
      exact .inl ⟨⟨t, rfl, hnames⟩, by simp [SyntaxTree.aliasName, hname]⟩
    | false =>
      have hnames : NamesMethod t ↔ IsLiteralSymbol t := by
        simp only [SyntaxTree.isMethodName, Bool.or_eq_false_iff, beq_eq_false_iff_ne] at hname
        unfold NamesMethod
        tauto
      simpa [SyntaxTree.aliasName, hname, hnames] using readExpr_cases source t

/-- Every symbol in a declaration that a statement makes has a value. -/
theorem known_of_declares {ctx : Context} {mode : Mode} {t : SyntaxTree} {d : Declaration}
    {value : Option String} (h : Declares ctx mode t d) (hvalue : value ∈ d.symbolValues) :
    value.isSome = true := by
  cases h with
  | method => exact known_of_readDefinition hvalue
  | marker visibility hmarker =>
    refine known_of_readCall ?_ hvalue
    exact (marker?_eq_some_iff.mp hmarker).imp And.left fun hcall => hcall.1.type
  | tagged visibility node definition htags hread =>
    rw [htags.definition_eq hread] at hvalue
    exact known_of_readDefinition hvalue
  | mixin _ _ hcall _ | attr _ _ hcall _ => exact known_of_readCall (.inr hcall.type) hvalue
  | aliasing =>
    have hname (child : Option SyntaxTree)
        (h : value ∈ (SyntaxTree.aliasName ctx.source child).symbolValues) : value.isSome = true :=
      known_of_symbol_or_not ((aliasName_cases ctx.source child).imp And.right And.right) h
    exact (List.mem_append.mp hvalue).elim (hname _) (hname _)

/-- An argument is read as a constant exactly when its node is one. -/
theorem readArgument_constant_iff (source : Source) (node : SyntaxTree) :
    (∃ name, (node.readArgument source).value = .expr (.constant name)) ↔ node.type = "constant" := by
  unfold SyntaxTree.readArgument
  split
  · rename_i hdef
    rcases isDefinition_iff.mp hdef with htype | htype <;> simp [htype]
  · simp [readExpr_eq_constant_iff]

/-- An argument is read as a symbol exactly when the value of its node is known. -/
theorem symbolName?_readArgument_isSome_iff (source : Source) (node : SyntaxTree) :
    (node.readArgument source).value.symbolName?.isSome = true ↔ IsLiteralSymbol node := by
  unfold SyntaxTree.readArgument
  split
  · rename_i hdef
    rcases isDefinition_iff.mp hdef with htype | htype <;>
      simp [Argument.symbolName?, IsLiteralSymbol, htype]
  · rcases readExpr_cases source node with ⟨hsymbol, name, hread⟩ | ⟨hsymbol, hnot⟩
    · simp [Argument.symbolName?, hread, hsymbol]
    · cases hread : node.readExpr source with
      | symbol value => exact absurd hread (hnot value)
      | self | constant name | other text => simp [Argument.symbolName?, hsymbol]

/-- A mixin call of a tree has a member exactly when its only argument is a constant. -/
theorem mixin_of_declares {ctx : Context} {mode : Mode} {t : SyntaxTree} {d : MixinDeclaration}
    (h : Declares ctx mode t (.mixin d)) :
    d.kind ≠ none ∧ (d.member.value = none ↔
      ¬ ∃ node, givenArguments t = [node] ∧ node.type = "constant") := by
  have hkind : d.kind ≠ none := by
    cases h with
    | mixin hmode kind hcall hfirst =>
      rw [MixinDeclaration.kind, hcall.name_readCall, (MixinKind.ofText?_eq_some_iff _ kind).mpr rfl]
      exact Option.some_ne_none kind
  refine ⟨hkind, ?_⟩
  rw [MixinDeclaration.member_value_eq_none_iff d hkind]
  cases h with
  | mixin hmode kind hcall hfirst =>
    rw [argumentList_readCall hcall.type]
    match givenArguments t with
    | [] => simp
    | [node] => simpa using not_congr (readArgument_constant_iff ctx.source node)
    | _ :: _ :: _ => simp

/-- An attribute call of a tree is at fault exactly when it has a name and is asserted to be a
method, and it has no other faults. -/
theorem attr_of_declares {ctx : Context} {mode : Mode} {t : SyntaxTree} {d : AttributeDeclaration}
    (h : Declares ctx mode t (.attr d)) (fault : Fault) :
    d.members = .error fault ↔ (∃ node ∈ givenArguments t, IsLiteralSymbol node) ∧
      ∃ assertion type,
        CommentBlock.FirstNote (ctx.comments t.line) Note.assertion (some assertion) ∧
          assertion.type = .method type ∧ fault = .assertedMethodType type := by
  rw [AttributeDeclaration.members_eq_error_iff, AttributeDeclaration.type_eq_error_iff]
  cases h with
  | attr hmode kind hcall hfirst =>
    have hkind : AttributeKind.ofText? (t.readCall ctx.source).value.name ≠ none := by
      rw [hcall.name_readCall, (AttributeKind.ofText?_eq_some_iff _ kind).mpr rfl]
      exact Option.some_ne_none kind
    have hknown : .expr (.symbol none) ∉ (t.readCall ctx.source).value.argumentList := by
      rw [argumentList_readCall hcall.type]
      intro hmem
      obtain ⟨node, -, hread⟩ := List.mem_map.mp hmem
      have hnone : none ∈ (node.readArgument ctx.source).value.symbolValues := by
        rw [hread]
        exact List.mem_singleton_self none
      exact absurd (known_of_readArgument hnone) (by simp)
    have hnames : (t.readCall ctx.source).value.argumentList.filterMap Argument.symbolName? ≠ [] ↔
        ∃ node ∈ givenArguments t, IsLiteralSymbol node := by
      rw [argumentList_readCall hcall.type, ne_eq, List.filterMap_eq_nil_iff]
      simp [← symbolName?_readArgument_isSome_iff ctx.source, Option.isSome_iff_ne_none]
    rw [if_neg hkind, if_neg hknown, hnames]
    simp only [← CommentBlock.firstAssertion_eq_iff] at hfirst ⊢
    subst hfirst
    refine and_congr_right fun _ => ⟨?_, ?_⟩
    · rintro ⟨source, type, hassertion, rfl⟩
      exact ⟨⟨source, .method type⟩, type, hassertion, rfl, rfl⟩
    · rintro ⟨⟨source, asserted⟩, type, hassertion, rfl, rfl⟩
      exact ⟨source, type, hassertion, rfl⟩

/-- The name in an alias is at fault exactly when its node is missing or names no method, and then
because it is no symbol. -/
theorem symbolName_aliasName_eq_error_iff (source : Source) (role : AliasRole)
    (child : Option SyntaxTree) (fault : Fault) :
    AliasDeclaration.symbolName role (SyntaxTree.aliasName source child) = .error fault ↔
      (¬ ∃ node, child = some node ∧ NamesMethod node) ∧
        fault = .aliasNameNotSymbol role (SyntaxTree.aliasName source child).nodeType := by
  rw [AliasDeclaration.symbolName_eq_error_iff]
  rcases aliasName_cases source child with ⟨hnames, name, hread⟩ | ⟨hnames, hnot⟩
  · simp only [hnames, not_true_eq_false, false_and, iff_false]
    exact fun h => h.1 name hread
  · rw [if_neg (hnot none)]
    simp only [hnames, not_false_eq_true, true_and, and_iff_right_iff_imp]
    exact fun _ name => hnot (some name)

/-- An alias of a tree is at fault exactly when one of its names is missing or names no method, and
then because that name is no symbol. -/
theorem aliasing_of_declares {ctx : Context} {mode : Mode} {t : SyntaxTree} {d : AliasDeclaration}
    (h : Declares ctx mode t (.aliasing d)) :
    ((∃ fault, d.member = .error fault) ↔
      (¬ ∃ node, t.child? "name" = some node ∧ NamesMethod node) ∨
        ¬ ∃ node, t.child? "alias" = some node ∧ NamesMethod node) ∧
    ∀ fault, d.member = .error fault → ∃ role nodeType, fault = .aliasNameNotSymbol role nodeType := by
  cases h with
  | aliasing hmode htype hname =>
    have hold := symbolName_aliasName_eq_error_iff ctx.source .old (t.child? "alias")
    have hnew := symbolName_aliasName_eq_error_iff ctx.source .new (t.child? "name")
    have hmember := AliasDeclaration.member_eq_error_iff ⟨t.readAlias ctx.source, ctx.comments t.line⟩
    constructor
    · constructor
      · rintro ⟨fault, hfault⟩
        rcases (hmember fault).mp hfault with h | ⟨-, h⟩
        · exact .inr ((hold fault).mp h).1
        · exact .inl ((hnew fault).mp h).1
      · intro hmissing
        -- The old name is looked at first, so a fault of the new name shows only behind a good one.
        by_cases halias : ∃ node, t.child? "alias" = some node ∧ NamesMethod node
        · have hname := hmissing.resolve_right (not_not_intro halias)
          cases h : AliasDeclaration.oldName ⟨t.readAlias ctx.source, ctx.comments t.line⟩ with
          | error fault => exact ⟨fault, (hmember fault).mpr (.inl h)⟩
          | ok old => exact ⟨_, (hmember _).mpr (.inr ⟨⟨old, h⟩, (hnew _).mpr ⟨hname, rfl⟩⟩)⟩
        · exact ⟨_, (hmember _).mpr (.inl ((hold _).mpr ⟨halias, rfl⟩))⟩
    · intro fault hfault
      rcases (hmember fault).mp hfault with h | ⟨-, h⟩
      · exact ⟨.old, _, ((hold fault).mp h).2⟩
      · exact ⟨.new, _, ((hnew fault).mp h).2⟩

/-- The faults of the declarations in the outline of a tree, told from the nodes of the statements
behind them and the comments next to these. -/
theorem ofTree_faults (ctx : Context) (root : SyntaxTree) :
    ∃ sites, Origins ctx root sites ∧
      List.Forall₂ (fun site entry =>
        (∀ value ∈ entry.declaration.symbolValues, value.isSome = true) ∧
        (∀ mixin, entry.declaration = .mixin mixin →
          mixin.kind ≠ none ∧ (mixin.member.value = none ↔
            ¬ ∃ node, givenArguments site.statement = [node] ∧ node.type = "constant")) ∧
        (∀ attr, entry.declaration = .attr attr →
          ((∃ fault, attr.members = .error fault) ↔
            (∃ node ∈ givenArguments site.statement, IsLiteralSymbol node) ∧
              ∃ assertion type,
                CommentBlock.FirstNote (ctx.comments site.statement.line) Note.assertion
                  (some assertion) ∧ assertion.type = .method type) ∧
          ∀ fault, attr.members = .error fault → ∃ type, fault = .assertedMethodType type) ∧
        (∀ aliasing, entry.declaration = .aliasing aliasing →
          ((∃ fault, aliasing.member = .error fault) ↔
            (¬ ∃ node, site.statement.child? "name" = some node ∧ NamesMethod node) ∨
              ¬ ∃ node, site.statement.child? "alias" = some node ∧ NamesMethod node) ∧
          ∀ fault, aliasing.member = .error fault →
            ∃ role nodeType, fault = .aliasNameNotSymbol role nodeType))
        sites (ofTree ctx root).value := by
  refine ⟨declaringSites ctx root, origins_declaringSites ctx root,
    (forall₂_declaringSites ctx root).imp fun site entry h => ?_⟩
  have hdeclares := (declares_iff_of_entryAt? h entry.declaration).mpr rfl
  refine ⟨fun value hvalue => known_of_declares hdeclares hvalue, ?_, ?_, ?_⟩
  · intro mixin hmixin
    exact mixin_of_declares (hmixin ▸ hdeclares)
  · intro attr hattr
    have hfaults := attr_of_declares (hattr ▸ hdeclares)
    simp only [hfaults]
    refine ⟨⟨?_, ?_⟩, ?_⟩
    · rintro ⟨fault, hnames, assertion, type, hassertion, htype, -⟩
      exact ⟨hnames, assertion, type, hassertion, htype⟩
    · rintro ⟨hnames, assertion, type, hassertion, htype⟩
      exact ⟨_, hnames, assertion, type, hassertion, htype, rfl⟩
    · rintro fault ⟨-, -, type, -, -, hfault⟩
      exact ⟨type, hfault⟩
  · intro aliasing haliasing
    exact aliasing_of_declares (haliasing ▸ hdeclares)

/-- The node of the call `attr_reader :size`. -/
def readerNode : SyntaxTree :=
  { type := "call", start := 0, stop := 17, children := [
    { type := "identifier", start := 0, stop := 11, field := some "method" },
    { type := "argument_list", start := 12, stop := 17, field := some "arguments", children := [
      { type := "simple_symbol", start := 12, stop := 17 }] }] }

/-- The tree of `attr_reader :size`. -/
def readerTree : SyntaxTree :=
  { type := "program", start := 0, stop := 17, children := [readerNode] }

/-- The source of `attr_reader :size`, next to a comment that gives a return type and then asserts
some types. -/
def readerContext (types : List Asserted) : Context where
  source := .ofString "attr_reader :size"
  comments _ := some {
    notes := .returns { type := .base .top } :: types.map fun type => .assertion { type := type } }

/-- What `attr_reader :size` declares, with its first assertion. -/
def readerAttribute (types : List Asserted) (first : Asserted) : AttributeDeclaration where
  call := { name := "attr_reader", arguments := some [.expr (.symbol (some "size"))], line := 1 }
  comments := (readerContext types).comments 1
  assertion := some { type := first }

/-- The method type `() -> void`. -/
def toVoid : MethodType :=
  ⟨[], ⟨[], [], none, [], [], [], none, .base .void⟩, none⟩

/-- The only statement of the tree is the call. -/
theorem statement_of_isSite_readerTree {site : Site} (h : IsSite readerTree site) :
    site.statement = readerNode := by
  rw [← mem_sites_rootBody_iff] at h
  obtain rfl := List.mem_singleton.mp h
  rfl

/-- A method type, asserted before a plain type. -/
def methodBeforePlain : List Asserted :=
  [.method toVoid, .plain (.base .bool)]

/-- A method type, asserted after a plain type. -/
def plainBeforeMethod : List Asserted :=
  [.plain (.base .bool), .method toVoid]

/-- A method type next to the call is a fault if it is asserted before a plain type, and none if it is
asserted after one. -/
theorem readerTree_faults :
    ((ofTree (readerContext methodBeforePlain) readerTree).value =
        [⟨.attr (readerAttribute methodBeforePlain (.method toVoid)), none, .pub⟩] ∧
      ∃ fault, (readerAttribute methodBeforePlain (.method toVoid)).members = .error fault) ∧
    (ofTree (readerContext plainBeforeMethod) readerTree).value =
        [⟨.attr (readerAttribute plainBeforeMethod (.plain (.base .bool))), none, .pub⟩] ∧
      ¬ ∃ fault, (readerAttribute plainBeforeMethod (.plain (.base .bool))).members = .error fault := by
  have hfault {types : List Asserted} {attr : AttributeDeclaration}
      (houtline : (ofTree (readerContext types) readerTree).value = [⟨.attr attr, none, .pub⟩]) :
      (∃ fault, attr.members = .error fault) ↔ ∃ assertion type,
        CommentBlock.FirstNote ((readerContext types).comments 1) Note.assertion (some assertion) ∧
          assertion.type = .method type := by
    obtain ⟨sites, horigins, h⟩ := ofTree_faults (readerContext types) readerTree
    rw [houtline] at h
    cases h with
    | @cons site _ _ _ h hrest =>
      cases hrest
      have hsite := ((horigins.complete site).mp (List.mem_singleton_self site)).1
      rw [(h.2.2.1 attr rfl).1, statement_of_isSite_readerTree hsite]
      refine and_iff_right ⟨{ type := "simple_symbol", start := 12, stop := 17 }, ?_, .inl rfl, rfl⟩
      exact List.mem_singleton_self _
  have hearly : (ofTree (readerContext methodBeforePlain) readerTree).value =
      [⟨.attr (readerAttribute methodBeforePlain (.method toVoid)), none, .pub⟩] := rfl
  have hlate : (ofTree (readerContext plainBeforeMethod) readerTree).value =
      [⟨.attr (readerAttribute plainBeforeMethod (.plain (.base .bool))), none, .pub⟩] := rfl
  refine ⟨⟨hearly, (hfault hearly).mpr ?_⟩, hlate, (hfault hlate).not.mpr ?_⟩
  · exact ⟨{ type := .method toVoid }, toVoid,
      .found [.returns { type := .base .top }] _ [.assertion { type := .plain (.base .bool) }] (by simp), rfl⟩
  · rintro ⟨assertion, type, hfirst, htype⟩
    rw [← CommentBlock.firstAssertion_eq_iff] at hfirst
    obtain rfl : { type := .plain (.base .bool) } = assertion := Option.some.inj hfirst
    contradiction

end Outline

end RubySig
