import RubySig.Data.Comments
import RubySig.Data.Members
import RubySig.Proofs.TypeReadBack

/-!
# Members and comment blocks are read back from their data

Members and notes add no depth of their own: they are read back when the types in them are nested no
deeper than types may be. A reader of mixins or attributes of one kind reads back those of its kind.
-/

namespace RubySig

open RubySig.Rbs

/-- Nothing in a note is nested deeper than a bound. -/
def Note.NestedWithin (depth : Nat) : Note → Prop
  | .assertion note => note.type.NestedWithin depth
  | .returns note => note.type.NestedWithin depth
  | .var note => ∀ type ∈ note.type, type.NestedWithin depth
  | .application note => ∀ types ∈ note.types, ∀ type ∈ types, type.NestedWithin depth
  | .passthrough _ => True

namespace Data.Reader

open Checked

/-! ## Members -/

/-- The kind of a method is read back from its word. -/
theorem inverts_methodKind : Inverts methodKind (fun kind => .text kind.text) (fun _ => True) :=
  inverts_word (by intro a b; cases a <;> cases b <;> simp [MethodKind.text])
    (by intro a; cases a <;> simp [MethodKind.all])

/-- A visibility is read back from its word. -/
theorem inverts_visibility : Inverts visibility (fun visibility => .text visibility.text) (fun _ => True) :=
  inverts_word (by intro a b; cases a <;> cases b <;> simp [Visibility.text])
    (by intro a; cases a <;> simp [Visibility.all])

/-- A visibility that may be absent is read back. -/
theorem inverts_visibility? :
    Inverts (nullable visibility) (fun visibility => .ofText? (visibility.map Visibility.text))
      (fun _ => True) :=
  ((inverts_visibility.nullable (by simp)).congr (by simp)).of_write_eq fun visibility => by
    cases visibility <;> rfl

/-- An annotation is read back. -/
theorem inverts_annotationText : Inverts annotationText writeAnnotationText (fun _ => True) where
  readBack := by
    intro a _
    simp only [annotationText, record, writeAnnotationText]
    rw [(inverts_text.required "string").readBack rfl trivial]
    rfl
  sound _ _ _ := trivial

/-- A list of annotations is read back. -/
theorem inverts_annotationTexts :
    Inverts (list annotationText) (fun texts => .list (texts.map writeAnnotationText)) (fun _ => True) :=
  inverts_annotationText.list.congr (by simp)

/-- An overload is read back if its method type is. -/
theorem inverts_overload :
    Inverts overload writeOverload (fun o => o.methodType.NestedWithin (innerDepth + 1)) := by
  have htype := inverts_methodType.required "method_type"
  have hannotations := inverts_annotationTexts.defaulted "annotations" [] trivial
  constructor
  · intro o ho
    simp only [overload, record, writeOverload]
    rw [htype.readBack rfl ho, hannotations.readBack rfl trivial]
    rfl
  · refine record_ensures fun fields => ?_
    refine ((htype.sound fields).map ?_).seq (hannotations.sound fields)
    rintro methodType hbound annotations -
    exact hbound

/-- A method is read back if the method types of its overloads are. -/
theorem inverts_methodDefinition :
    Inverts methodDefinition writeMethodDefinition
      (fun m => ∀ o ∈ m.overloads, o.methodType.NestedWithin (innerDepth + 1)) := by
  have hname := inverts_text.required "name"
  have hkind := inverts_methodKind.defaulted "kind" .onInstance trivial
  have hoverloads := inverts_overload.list.required "overloads"
  have hannotations := inverts_annotationTexts.defaulted "annotations" [] trivial
  have hcomment := inverts_text?.defaulted "comment" none trivial
  have hvisibility := inverts_visibility?.defaulted "visibility" none trivial
  constructor
  · intro m hm
    simp only [methodDefinition, record, writeMethodDefinition]
    rw [hname.readBack rfl trivial, hkind.readBack rfl trivial, hoverloads.readBack rfl hm,
      hannotations.readBack rfl trivial, hcomment.readBack rfl trivial, hvisibility.readBack rfl trivial]
    rfl
  · refine record_ensures fun fields => ?_
    refine ((hname.sound fields).map ?_).seq (hkind.sound fields)
      |>.seq (hoverloads.sound fields) |>.seq (hannotations.sound fields)
      |>.seq (hcomment.sound fields) |>.seq (hvisibility.sound fields)
    rintro name - kind - overloads hbound annotations - comment - visibility -
    exact hbound

/-- An alias is read back. -/
theorem inverts_aliasMember : Inverts aliasMember writeAlias (fun _ => True) where
  readBack := by
    intro a _
    simp only [aliasMember, record, writeAlias]
    rw [(inverts_text.required "new_name").readBack rfl trivial,
      (inverts_text.required "old_name").readBack rfl trivial,
      (inverts_methodKind.defaulted "kind" .onInstance trivial).readBack rfl trivial,
      (inverts_text?.defaulted "comment" none trivial).readBack rfl trivial]
    rfl
  sound _ _ _ := trivial

/-! ## Mixins and attributes

The readers of all kinds and those of one kind differ in the word alone, so what follows the word is
stated once for any way to read it. -/

/-- A mixin is read back if its word is and its arguments are. -/
theorem inverts_mixinRest {kind : Fields → Checked MixinKind} {P : MixinKind → Prop} (className : String)
    (hkind : InvertsField kind "keyword" (fun kind => .text kind.text) P) :
    Inverts (record className fun fields => mixinRest fields (kind fields)) writeMixin
      (fun m => P m.kind ∧ ∀ arg ∈ m.args, arg.NestedWithin (innerDepth + 1)) := by
  have hname := inverts_qualifiedName.required "name"
  have hargs := inverts_ty.list.defaulted "args" [] (by simp)
  have hcomment := inverts_text?.defaulted "comment" none trivial
  constructor
  · rintro m ⟨hm, hmargs⟩
    simp only [mixinRest, record, writeMixin, writeTyEach_eq_map]
    rw [hkind.readBack rfl hm, hname.readBack rfl trivial, hargs.readBack rfl hmargs,
      hcomment.readBack rfl trivial]
    rfl
  · refine record_ensures fun fields => ?_
    refine ((hkind.sound fields).map ?_).seq (hname.sound fields)
      |>.seq (hargs.sound fields) |>.seq (hcomment.sound fields)
    rintro kind hword name - args hbound comment -
    exact ⟨hword, hbound⟩

/-- An attribute is read back if its word is and its type is. -/
theorem inverts_attributeRest {kind : Fields → Checked AttributeKind} {P : AttributeKind → Prop}
    (className : String) (hkind : InvertsField kind "keyword" (fun kind => .text kind.text) P) :
    Inverts (record className fun fields => attributeRest fields (kind fields)) writeAttribute
      (fun a => P a.kind ∧ a.type.NestedWithin (innerDepth + 1)) := by
  have hname := inverts_text.required "name"
  have htype := inverts_ty.required "type"
  have hivar := inverts_text?.defaulted "ivar_name" none trivial
  have hmethodKind := inverts_methodKind.defaulted "kind" .onInstance trivial
  have hannotations := inverts_annotationTexts.defaulted "annotations" [] trivial
  have hcomment := inverts_text?.defaulted "comment" none trivial
  have hvisibility := inverts_visibility?.defaulted "visibility" none trivial
  constructor
  · rintro a ⟨ha, hatype⟩
    simp only [attributeRest, record, writeAttribute]
    rw [hkind.readBack rfl ha, hname.readBack rfl trivial, htype.readBack rfl hatype,
      hivar.readBack rfl trivial, hmethodKind.readBack rfl trivial, hannotations.readBack rfl trivial,
      hcomment.readBack rfl trivial, hvisibility.readBack rfl trivial]
    rfl
  · refine record_ensures fun fields => ?_
    refine ((hkind.sound fields).map ?_).seq (hname.sound fields)
      |>.seq (htype.sound fields) |>.seq (hivar.sound fields)
      |>.seq (hmethodKind.sound fields) |>.seq (hannotations.sound fields)
      |>.seq (hcomment.sound fields) |>.seq (hvisibility.sound fields)
    rintro kind hword name - type hbound ivarName - methodKind - annotations - comment - visibility -
    exact ⟨hword, hbound⟩

/-- The field that names the kind of a record, where it can be one kind only. -/
theorem invertsField_onlyTag {α : Type} (word : α → String) (kind : α) (key : String) :
    InvertsField (fun fields => (fun _ => kind) <$> tag fields key (word kind)) key
      (fun kind => .text (word kind)) (fun other => other = kind) where
  readBack := by
    rintro fields _ hfield rfl
    simp [tag_eq_ok hfield]
  sound fields := tag_ensures.map fun _ _ => rfl

/-- The reader of all mixins reads back those whose arguments are not too deep. -/
theorem inverts_anyMixin :
    Inverts anyMixin writeMixin (fun m => ∀ arg ∈ m.args, arg.NestedWithin (innerDepth + 1)) :=
  (inverts_mixinRest "MixinMember"
    ((inverts_word (by intro a b; cases a <;> cases b <;> simp [MixinKind.text])
      (by intro a; cases a <;> simp [MixinKind.all])).required "keyword")).congr (by simp)

/-- The reader of one kind of mixin reads back those of this kind. -/
theorem inverts_mixinOf (className : String) (kind : MixinKind) :
    Inverts (mixinOf className kind) writeMixin
      (fun m => m.kind = kind ∧ ∀ arg ∈ m.args, arg.NestedWithin (innerDepth + 1)) :=
  inverts_mixinRest className (invertsField_onlyTag MixinKind.text kind "keyword")

/-- The reader of all attributes reads back those whose type is not too deep. -/
theorem inverts_anyAttribute :
    Inverts anyAttribute writeAttribute (fun a => a.type.NestedWithin (innerDepth + 1)) :=
  (inverts_attributeRest "AttrMember"
    ((inverts_word (by intro a b; cases a <;> cases b <;> simp [AttributeKind.text])
      (by intro a; cases a <;> simp [AttributeKind.all])).required "keyword")).congr (by simp)

/-- The reader of one kind of attribute reads back those of this kind. -/
theorem inverts_attributeOf (className : String) (kind : AttributeKind) :
    Inverts (attributeOf className kind) writeAttribute
      (fun a => a.kind = kind ∧ a.type.NestedWithin (innerDepth + 1)) :=
  inverts_attributeRest className (invertsField_onlyTag AttributeKind.text kind "keyword")

/-! ## Comment blocks -/

/-- The source text of a note is read back. -/
theorem inverts_source :
    InvertsField (fun fields => defaulted fields "source" "" text) "source" .text (fun _ => True) :=
  inverts_text.defaulted "source" "" trivial

/-- An assertion is read back if its type is. -/
theorem inverts_assertion :
    Inverts assertion writeAssertion (fun a => a.type.NestedWithin (innerDepth + 1)) := by
  have htype := inverts_asserted.required "type"
  constructor
  · intro a ha
    simp only [assertion, record, writeAssertion]
    rw [inverts_source.readBack rfl trivial, tag_eq_ok rfl, htype.readBack rfl ha]
    rfl
  · refine record_ensures fun fields => ?_
    refine ((inverts_source.sound fields).map ?_).seq tag_ensures |>.seq (htype.sound fields)
    rintro source - _ - type hbound
    exact hbound

/-- A note on the return value is read back if its type is. -/
theorem inverts_returnNote :
    Inverts returnNote writeReturnNote (fun r => r.type.NestedWithin (innerDepth + 1)) := by
  have htype := inverts_ty.required "type"
  constructor
  · intro r hr
    simp only [returnNote, record, writeReturnNote]
    rw [inverts_source.readBack rfl trivial, tag_eq_ok rfl, htype.readBack rfl hr]
    rfl
  · refine record_ensures fun fields => ?_
    refine ((inverts_source.sound fields).map ?_).seq tag_ensures |>.seq (htype.sound fields)
    rintro source - _ - type hbound
    exact hbound

/-- A note on a variable is read back if its type is, where it has one. -/
theorem inverts_variableNote :
    Inverts variableNote writeVariableNote
      (fun v => ∀ type ∈ v.type, type.NestedWithin (innerDepth + 1)) := by
  have hname := inverts_text?.defaulted "name" none trivial
  have htype := (inverts_ty.nullable writeTy_ne_null).defaulted "type" none (by simp)
  constructor
  · intro v hv
    simp only [variableNote, record, writeVariableNote, writeTyOption_eq_ofOption]
    rw [inverts_source.readBack rfl trivial, tag_eq_ok rfl, hname.readBack rfl trivial,
      htype.readBack rfl hv]
    rfl
  · refine record_ensures fun fields => ?_
    refine ((inverts_source.sound fields).map ?_).seq tag_ensures
      |>.seq (hname.sound fields) |>.seq (htype.sound fields)
    rintro source - _ - name - type hbound
    exact hbound

/-- An application is read back if the types that it applies are. -/
theorem inverts_application :
    Inverts application writeApplication
      (fun a => ∀ types ∈ a.types, ∀ type ∈ types, type.NestedWithin (innerDepth + 1)) := by
  have htypes := (inverts_ty.list.nullable (by simp)).defaulted "types" none (by simp)
  constructor
  · intro a ha
    simp only [application, record, writeApplication, writeTyEach_eq_map]
    rw [inverts_source.readBack rfl trivial, tag_eq_ok rfl, htypes.readBack rfl ha]
    rfl
  · refine record_ensures fun fields => ?_
    refine ((inverts_source.sound fields).map ?_).seq tag_ensures |>.seq (htypes.sound fields)
    rintro source - _ - types hbound
    exact hbound

/-- A passthrough is read back. -/
theorem inverts_passthrough : Inverts passthrough writePassthrough (fun _ => True) where
  readBack := by
    intro p _
    simp only [passthrough, record, writePassthrough]
    rw [inverts_source.readBack rfl trivial, tag_eq_ok rfl,
      (inverts_texts.defaulted "contents" [] trivial).readBack rfl trivial]
    rfl
  sound _ _ _ := trivial

/-- The tag of a note. -/
def noteTag : Note → String
  | .assertion _ => "assertion"
  | .returns _ => "return_type"
  | .var _ => "var_type"
  | .application _ => "application"
  | .passthrough _ => "rbs_annotation"

/-- A note is read back if its types are. -/
theorem inverts_note : Inverts note writeNote (Note.NestedWithin (innerDepth + 1)) := by
  refine inverts_tagged noteTag ?_ ?_ ?_
  · intro n
    cases n <;> exact ⟨_, rfl, rfl⟩
  · intro n
    cases n <;> exact ⟨_, rfl⟩
  · intro name read hmem
    simp only [List.mem_cons, List.not_mem_nil, or_false, Prod.mk.injEq] at hmem
    rcases hmem with ⟨rfl, rfl⟩ | ⟨rfl, rfl⟩ | ⟨rfl, rfl⟩ | ⟨rfl, rfl⟩ | ⟨rfl, rfl⟩
    · exact (inverts_assertion.map Note.assertion fun _ => rfl).congr fun n => by
        cases n <;> simp [noteTag, Note.NestedWithin]
    · exact (inverts_returnNote.map Note.returns fun _ => rfl).congr fun n => by
        cases n <;> simp [noteTag, Note.NestedWithin]
    · exact (inverts_variableNote.map Note.var fun _ => rfl).congr fun n => by
        cases n <;> simp [noteTag, Note.NestedWithin]
    · exact (inverts_application.map Note.application fun _ => rfl).congr fun n => by
        cases n <;> simp [noteTag, Note.NestedWithin]
    · exact (inverts_passthrough.map Note.passthrough fun _ => rfl).congr fun n => by
        cases n <;> simp [noteTag, Note.NestedWithin]

/-- A comment is read back if its notes are. -/
theorem inverts_commentBlock :
    Inverts commentBlock writeCommentBlock (fun c => ∀ n ∈ c.notes, n.NestedWithin (innerDepth + 1)) := by
  have hnotes := inverts_note.list.defaulted "annotations" [] (by simp)
  have hcontent := inverts_text.defaulted "content" "" trivial
  constructor
  · intro c hc
    simp only [commentBlock, record, writeCommentBlock]
    rw [hnotes.readBack rfl hc, hcontent.readBack rfl trivial]
    rfl
  · refine record_ensures fun fields => ?_
    refine ((hnotes.sound fields).map ?_).seq (hcontent.sound fields)
    rintro notes hbound content -
    exact hbound

end Data.Reader

end RubySig
