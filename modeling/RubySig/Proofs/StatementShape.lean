import RubySig.Proofs.CallReading
import RubySig.Proofs.CommentNotes

/-!
# Which statements declare something

The declaration of a statement, told from the shape of its node alone: its type, the names and
arguments that it has under its fields, and the kind of the body that it stands in. Every statement
of one of the shapes makes the declaration of that shape, and no other statement makes any. The
comment next to a statement gives a mixin its first application and attributes their first assertion.

Log events are not covered here, only the declaration itself.
-/

namespace RubySig.Outline

open RubySig.Rbs
open RubySig.Ruby

/-- The declarations that a statement makes in a body of a kind, by the shape of the statement. -/
inductive Declares (ctx : Context) (mode : Mode) (t : SyntaxTree) : Declaration → Prop where
  | method (htype : t.type = "method" ∨ t.type = "singleton_method") :
    Declares ctx mode t
      (.method ⟨mode.place (t.readDefinition ctx.source).value, ctx.comments t.line, none⟩)
  | marker (visibility : Visibility) (hmarker : marker? ctx.source t = some visibility) :
    Declares ctx mode t (.marker visibility (t.readCall ctx.source).value)
  | tagged (visibility : Visibility) (node : SyntaxTree) (definition : Definition)
    (htags : Tags ctx.source visibility t node)
    (hread : (t.readCall ctx.source).value.arguments = some [.definition definition]) :
    Declares ctx mode t (.method ⟨mode.place definition, ctx.comments t.line, some visibility⟩)
  | aliasing (hmode : mode = .plain) (htype : t.type = "alias")
    (hname : ∀ name, t.child? "name" = some name → name.type ≠ "global_variable") :
    Declares ctx mode t (.aliasing ⟨t.readAlias ctx.source, ctx.comments t.line⟩)
  | mixin (hmode : mode = .plain) (kind : MixinKind) (hcall : CallsBare ctx.source t kind.text)
    {application : Option Application}
    (hfirst : CommentBlock.FirstNote (ctx.comments t.line) Note.application application) :
    Declares ctx mode t (.mixin ⟨(t.readCall ctx.source).value, ctx.comments t.line, application⟩)
  | attr (hmode : mode = .plain) (kind : AttributeKind) (hcall : CallsBare ctx.source t kind.text)
    {assertion : Option Assertion}
    (hfirst : CommentBlock.FirstNote (ctx.comments t.line) Note.assertion assertion) :
    Declares ctx mode t (.attr ⟨(t.readCall ctx.source).value, ctx.comments t.line, assertion⟩)

/-- A call to a visibility marks it, tags a definition with it, or declares nothing. -/
theorem visibilityDeclaration_value (ctx : Context) (mode : Mode) (t : SyntaxTree)
    (visibility : Visibility) (htype : t.type = "call") :
    (visibilityDeclaration ctx mode t visibility (t.readCall ctx.source).value).value =
      match givenArguments t with
      | [] => some (.marker visibility (t.readCall ctx.source).value)
      | [node] =>
        if node.isDefinition then
          some (.method ⟨mode.place (node.readDefinition ctx.source).value, ctx.comments t.line,
            some visibility⟩)
        else none
      | _ => none := by
  unfold visibilityDeclaration
  rw [argumentList_readCall htype, definitionArguments_eq_filter]
  match givenArguments t with
  | [] => rfl
  | [node] => cases h : node.isDefinition <;> simp [h, placedDefinition]
  | _ :: _ :: _ => simp

/-- A bare identifier declares something only as the word of a visibility. -/
theorem callDeclaration_value_of_identifier (ctx : Context) (mode : Mode) (t : SyntaxTree)
    (htype : t.type = "identifier") :
    (callDeclaration ctx mode t).value =
      (Visibility.ofText? (t.text ctx.source)).map fun visibility =>
        .marker visibility (t.readCall ctx.source).value := by
  have hread : (t.readCall ctx.source).value = _ := readCall_of_identifier htype
  cases h : Visibility.ofText? (t.text ctx.source) <;>
    simp [callDeclaration, hread, h, htype, visibilityDeclaration, Call.argumentList]

/-- A call declares something only without a receiver, and then by the name that it calls. -/
theorem callDeclaration_value_of_call (ctx : Context) (mode : Mode) (t : SyntaxTree)
    (htype : t.type = "call") :
    (callDeclaration ctx mode t).value =
      if (t.child? "receiver").isSome then none
      else
        match Visibility.ofText? (t.fieldText ctx.source "method"), mode with
        | some visibility, mode =>
          (visibilityDeclaration ctx mode t visibility (t.readCall ctx.source).value).value
        | none, .singleton => none
        | none, .plain => namedCallDeclaration (ctx.comments t.line) (t.readCall ctx.source).value := by
  have hread : (t.readCall ctx.source).value = _ := readCall_of_call htype
  have hname : (t.readCall ctx.source).value.name = t.fieldText ctx.source "method" := by rw [hread]
  have hreceiver : (t.readCall ctx.source).value.receiver.isSome = (t.child? "receiver").isSome := by
    rw [hread, Option.isSome_map]
  simp only [callDeclaration, Logged.value_bind, hname, hreceiver]
  cases (t.child? "receiver").isSome with
  | true => rfl
  | false => cases Visibility.ofText? (t.fieldText ctx.source "method") <;> cases mode <;> simp [htype]

/-- A call to a visibility without a receiver declares a marker or a tagged method. -/
theorem visibilityDeclaration_sound {ctx : Context} {mode : Mode} {t : SyntaxTree}
    {visibility : Visibility} {d : Declaration} (hcall : CallsBare ctx.source t visibility.text)
    (h : (visibilityDeclaration ctx mode t visibility (t.readCall ctx.source).value).value = some d) :
    Declares ctx mode t d := by
  rw [visibilityDeclaration_value ctx mode t visibility hcall.type] at h
  match hargs : givenArguments t with
  | [] =>
    simp only [hargs, Option.some.injEq] at h
    exact h ▸ .marker visibility (marker?_eq_some_iff.mpr (.inr ⟨hcall, hargs⟩))
  | [node] =>
    cases hdef : node.isDefinition with
    | false => simp [hargs, hdef] at h
    | true =>
      simp only [hargs, hdef, if_true, Option.some.injEq] at h
      have htags : Tags ctx.source visibility t node := ⟨hcall, hargs, isDefinition_iff.mp hdef⟩
      exact h ▸ .tagged visibility node _ htags htags.arguments_readCall
  | _ :: _ :: _ => simp [hargs] at h

/-- A call without a receiver in an ordinary body declares a mixin or attributes by its name. -/
theorem namedCallDeclaration_sound {ctx : Context} {t : SyntaxTree} {d : Declaration}
    (htype : t.type = "call") (hreceiver : t.child? "receiver" = none)
    (h : namedCallDeclaration (ctx.comments t.line) (t.readCall ctx.source).value = some d) :
    Declares ctx .plain t d := by
  have hname : (t.readCall ctx.source).value.name = t.fieldText ctx.source "method" := by
    rw [readCall_of_call htype]
  simp only [namedCallDeclaration, hname] at h
  cases hmixin : MixinKind.ofText? (t.fieldText ctx.source "method") with
  | some kind =>
    simp only [hmixin, Option.some.injEq] at h
    exact h ▸ .mixin rfl kind ⟨htype, hreceiver, (MixinKind.ofText?_eq_some_iff _ _).mp hmixin⟩
      ((CommentBlock.firstApplication_eq_iff _ _).mp rfl)
  | none =>
    cases hattr : AttributeKind.ofText? (t.fieldText ctx.source "method") with
    | some kind =>
      simp only [hmixin, hattr, Option.some.injEq] at h
      exact h ▸ .attr rfl kind ⟨htype, hreceiver, (AttributeKind.ofText?_eq_some_iff _ _).mp hattr⟩
        ((CommentBlock.firstAssertion_eq_iff _ _).mp rfl)
    | none => simp [hmixin, hattr] at h

/-- Whatever a call or a bare identifier declares has one of the shapes of a declaration. -/
theorem callDeclaration_sound {ctx : Context} {mode : Mode} {t : SyntaxTree} {d : Declaration}
    (htype : t.type = "identifier" ∨ t.type = "call")
    (h : (callDeclaration ctx mode t).value = some d) : Declares ctx mode t d := by
  rcases htype with htype | htype
  · rw [callDeclaration_value_of_identifier ctx mode t htype, Option.map_eq_some_iff] at h
    obtain ⟨visibility, hword, rfl⟩ := h
    have hword := (Visibility.ofText?_eq_some_iff _ _).mp hword
    exact .marker visibility (marker?_eq_some_iff.mpr (.inl ⟨htype, hword⟩))
  · rw [callDeclaration_value_of_call ctx mode t htype] at h
    cases hreceiver : t.child? "receiver" with
    | some receiver => simp [hreceiver] at h
    | none =>
      cases hword : Visibility.ofText? (t.fieldText ctx.source "method") with
      | some visibility =>
        simp only [hreceiver, hword, Option.isSome_none, Bool.false_eq_true, if_false] at h
        exact visibilityDeclaration_sound
          ⟨htype, hreceiver, (Visibility.ofText?_eq_some_iff _ _).mp hword⟩ h
      | none =>
        cases mode with
        | singleton => simp [hreceiver, hword] at h
        | plain =>
          simp only [hreceiver, hword, Option.isSome_none, Bool.false_eq_true, if_false] at h
          exact namedCallDeclaration_sound htype hreceiver h

/-- An alias is global exactly when it has a global variable for its name. -/
theorem isGlobalAlias_eq_false_iff (t : SyntaxTree) :
    isGlobalAlias t = false ↔ ∀ name, t.child? "name" = some name → name.type ≠ "global_variable" := by
  cases h : t.child? "name" <;> simp [isGlobalAlias, h]

/-- A statement of any other type declares something only as an alias in an ordinary body. -/
theorem otherDeclaration_sound {ctx : Context} {mode : Mode} {t : SyntaxTree} {d : Declaration}
    (h : (otherDeclaration ctx mode t).value = some d) : Declares ctx mode t d := by
  cases mode with
  | singleton => simp [otherDeclaration] at h
  | plain =>
    by_cases htype : t.type = "alias"
    · cases hglobal : isGlobalAlias t with
      | true => simp [otherDeclaration, htype, hglobal] at h
      | false =>
        simp only [otherDeclaration, htype, hglobal, beq_self_eq_true, if_true, Bool.false_eq_true,
          if_false, Logged.value_pure, Option.some.injEq] at h
        exact h ▸ .aliasing rfl htype ((isGlobalAlias_eq_false_iff t).mp hglobal)
    · simp [otherDeclaration, htype] at h

/-- Whatever a statement declares has one of the shapes of a declaration. -/
theorem declaration?_sound {ctx : Context} {mode : Mode} {t : SyntaxTree} {d : Declaration}
    (h : (declaration? ctx mode t).value = some d) : Declares ctx mode t d := by
  unfold declaration? at h
  split at h
  · rename_i hdef
    simp only [placedDefinition, Logged.value_bind, Logged.value_pure, Option.some.injEq] at h
    exact h ▸ .method (isDefinition_iff.mp hdef)
  · split at h
    · rename_i htype
      exact callDeclaration_sound (by simpa using htype) h
    · split at h
      · simp at h
      · exact otherDeclaration_sound h

/-- A call without a receiver is left to the rules for calls. -/
theorem declaration?_value_of_call {ctx : Context} {mode : Mode} {t : SyntaxTree} {name : String}
    (hcall : CallsBare ctx.source t name) :
    (declaration? ctx mode t).value =
      match Visibility.ofText? name, mode with
      | some visibility, mode =>
        (visibilityDeclaration ctx mode t visibility (t.readCall ctx.source).value).value
      | none, .singleton => none
      | none, .plain => namedCallDeclaration (ctx.comments t.line) (t.readCall ctx.source).value := by
  have hnot : t.isDefinition = false := by simp [SyntaxTree.isDefinition, hcall.type]
  simp only [declaration?, hnot, hcall.type, Bool.false_eq_true, if_false, beq_self_eq_true,
    Bool.or_true, if_true]
  rw [callDeclaration_value_of_call ctx mode t hcall.type, hcall.name]
  simp [hcall.receiver]

/-- A statement of one of the shapes makes its declaration. -/
theorem Declares.run {ctx : Context} {mode : Mode} {t : SyntaxTree} {d : Declaration}
    (h : Declares ctx mode t d) : (declaration? ctx mode t).value = some d := by
  cases h with
  | method htype => simp [declaration?, isDefinition_iff.mpr htype, placedDefinition]
  | marker visibility hmarker =>
    have hword := (Visibility.ofText?_eq_some_iff _ visibility).mpr rfl
    rcases marker?_eq_some_iff.mp hmarker with ⟨htype, htext⟩ | ⟨hcall, hargs⟩
    · have hnot : t.isDefinition = false := by simp [SyntaxTree.isDefinition, htype]
      simp only [declaration?, hnot, htype, Bool.false_eq_true, if_false, beq_self_eq_true,
        Bool.true_or, if_true]
      rw [callDeclaration_value_of_identifier ctx mode t htype, htext, hword, Option.map_some]
    · rw [declaration?_value_of_call hcall, hword]
      simp only [visibilityDeclaration_value ctx mode t visibility hcall.type, hargs]
  | tagged visibility node definition htags hread =>
    have hword := (Visibility.ofText?_eq_some_iff _ visibility).mpr rfl
    rw [declaration?_value_of_call htags.call, hword]
    simp only [visibilityDeclaration_value ctx mode t visibility htags.call.type, htags.only,
      isDefinition_iff.mpr htags.definition, if_true, htags.definition_eq hread]
  | aliasing hmode htype hname =>
    subst hmode
    have hglobal := (isGlobalAlias_eq_false_iff t).mpr hname
    simp [declaration?, otherDeclaration, SyntaxTree.isDefinition, SyntaxTree.isComment, htype, hglobal]
  | mixin hmode kind hcall hfirst =>
    subst hmode
    have hnot : Visibility.ofText? kind.text = none := by cases kind <;> decide
    rw [declaration?_value_of_call hcall, hnot]
    simp only [namedCallDeclaration, hcall.name_readCall, (MixinKind.ofText?_eq_some_iff _ kind).mpr rfl,
      (CommentBlock.firstApplication_eq_iff _ _).mpr hfirst]
  | attr hmode kind hcall hfirst =>
    subst hmode
    have hnot : Visibility.ofText? kind.text = none := by cases kind <;> decide
    have hmixin : MixinKind.ofText? kind.text = none := by cases kind <;> decide
    rw [declaration?_value_of_call hcall, hnot]
    simp only [namedCallDeclaration, hcall.name_readCall, hmixin,
      (AttributeKind.ofText?_eq_some_iff _ kind).mpr rfl,
      (CommentBlock.firstAssertion_eq_iff _ _).mpr hfirst]

/-- The shapes say exactly which declaration a statement makes. -/
theorem declaration?_value_eq_some_iff (ctx : Context) (mode : Mode) (t : SyntaxTree) (d : Declaration) :
    (declaration? ctx mode t).value = some d ↔ Declares ctx mode t d :=
  ⟨declaration?_sound, Declares.run⟩

end RubySig.Outline
