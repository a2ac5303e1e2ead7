import RubySig.Proofs.TypeText
import Mathlib.Data.List.Nodup

/-!
# The text of a type without procs determines the type

Only optional types put parentheses around a part, so it is not clear from the notation alone that no
two types share a text. Without procs it holds, if every union has at least two members and none of
them is a union, and if the names of classes are words with a capital letter. What a text shows outside
of its brackets tells how the type is made: a union shows a blank, an optional type shows its mark and
no blank, and a name shows neither. The parts of the text then determine the parts of the type.

A union of one member has the text of the member, and a union inside a union the text of a union with
more members. Neither is covered.
-/

namespace RubySig.Rbs

open RubySig.Text.Brackets

/-- How a type is written. -/
inductive Form where
  | keyword
  | name
  | optional
  | compound

/-- The form of a type. -/
def Ty.form : Ty → Form
  | .untyped | .base _ => .keyword
  | .classInstance _ _ | .variable _ => .name
  | .optional _ => .optional
  | .union _ | .proc _ _ => .compound

/-- A text begins like the name of a class, with a capital letter or a colon. -/
def startsLikeName (text : List Char) : Bool :=
  text.head?.any fun c => c.isUpper || c == ':'

/-- What a text looks like from outside of its brackets is that of a form. -/
def Form.Fits (text : List Char) : Form → Prop
  | .compound => Shows ' ' text
  | .optional => ¬ Shows ' ' text ∧ Shows '?' text
  | .keyword => ¬ Shows ' ' text ∧ ¬ Shows '?' text ∧ startsLikeName text = false
  | .name => ¬ Shows ' ' text ∧ ¬ Shows '?' text ∧ startsLikeName text = true

/-- The types without procs and variables: keywords, instances of classes whose names are words with a
capital letter, optional types, and unions of at least two members that are not unions themselves. -/
inductive Ty.ProcFree : Ty → Prop where
  | untyped : ProcFree .untyped
  | base (keyword : BaseType) : ProcFree (.base keyword)
  | classInstance {name : QualifiedName} {args : List Ty}
    (hname : ∀ segment ∈ name.segments ++ [name.name], IsConstant segment)
    (hargs : ∀ arg ∈ args, ProcFree arg) : ProcFree (.classInstance name args)
  | optional {type : Ty} (htype : ProcFree type) : ProcFree (.optional type)
  | union {types : List Ty} (hmany : 2 ≤ types.length) (htypes : ∀ type ∈ types, ProcFree type)
    (hflat : ∀ type ∈ types, ∀ members, type ≠ .union members) : ProcFree (.union types)

/-- A text looks like one form only. -/
theorem Form.Fits.unique {text : List Char} {form other : Form} (h : form.Fits text)
    (h' : other.Fits text) : form = other := by
  cases form <;> cases other <;> simp_all [Form.Fits]

/-- Each base type has a keyword of its own. -/
theorem BaseType.text_injective : Function.Injective BaseType.text := by
  intro a b h
  have hnodup : (BaseType.all.map BaseType.text).Nodup := by decide
  exact List.inj_on_of_nodup_map hnodup (by cases a <;> decide) (by cases b <;> decide) h

section Names

/-- Constants joined by colons begin with a capital letter. -/
theorem exists_upper_cons {names : List String} (hne : names ≠ []) (h : ∀ name ∈ names, IsConstant name) :
    ∃ c rest, ("::".intercalate names).toList = c :: rest ∧ c.isUpper = true := by
  obtain ⟨first, others, rfl⟩ := List.exists_cons_of_ne_nil hne
  obtain ⟨c, rest, hfirst, hupper, -⟩ := isWord_iff.mp (h first List.mem_cons_self)
  simp only [String.toList_intercalate, List.map_cons, intercalate_cons, hfirst]
  exact ⟨c, _, rfl, hupper⟩

/-- A qualified name begins with a capital letter, or with a colon if it is absolute. -/
theorem QualifiedName.exists_cons {name : QualifiedName}
    (h : ∀ segment ∈ name.segments ++ [name.name], IsConstant segment) :
    ∃ c rest, name.render.toList = c :: rest ∧ (c.isUpper = true ∨ c = ':') ∧
      (c = ':' ↔ name.absolute = true) := by
  obtain ⟨c, rest, hsegments, hupper⟩ := exists_upper_cons (by simp) h
  unfold QualifiedName.render
  cases name.absolute with
  | true => exact ⟨':', ':' :: c :: rest, by simp [hsegments], .inr rfl, by simp⟩
  | false =>
    refine ⟨c, rest, by simp [hsegments], .inl hupper, ?_⟩
    simp only [Bool.false_eq_true, iff_false]
    rintro rfl
    exact absurd hupper (by decide)

/-- The text of a qualified name determines it if its segments are constants. -/
theorem QualifiedName.render_inj {name other : QualifiedName}
    (hname : ∀ segment ∈ name.segments ++ [name.name], IsConstant segment)
    (hother : ∀ segment ∈ other.segments ++ [other.name], IsConstant segment)
    (h : name.render = other.render) : name = other := by
  have hconceals {n : QualifiedName} (hn : ∀ segment ∈ n.segments ++ [n.name], IsConstant segment) :
      ∀ segment ∈ n.segments ++ [n.name], Conceals ':' segment.toList := by
    intro segment hsegment
    have hword := (hn segment hsegment).isIdentifier
    refine conceals_of_not_mem hword.isNameText.isPlain fun hmem => ?_
    exact absurd (hword.isWordChar ':' hmem) (by decide)
  have habsolute : name.absolute = other.absolute := by
    obtain ⟨c, rest, htext, -, hc⟩ := exists_cons hname
    obtain ⟨d, later, htext', -, hd⟩ := exists_cons hother
    obtain ⟨rfl, -⟩ := List.cons.inj (htext.symm.trans ((congrArg String.toList h).trans htext'))
    exact Bool.eq_iff_iff.mpr (hc.symm.trans hd)
  have hsegments : name.segments ++ [name.name] = other.segments ++ [other.name] := by
    rw [QualifiedName.render, QualifiedName.render, habsolute, String.append_right_inj] at h
    exact intercalate_inj (by decide) (by simp) (by simp) (hconceals hname) (hconceals hother) h
  obtain ⟨hsegments, hlast⟩ := List.append_inj' hsegments rfl
  cases name
  cases other
  simp_all

end Names

section Arguments

/-- Arguments begin with a bracket, if there are any. -/
theorem head?_bracketed (texts : List String) : ∀ c ∈ (bracketed texts).toList.head?, c = '[' := by
  unfold bracketed
  split <;> simp

/-- The text of arguments determines their texts. -/
theorem bracketed_inj {texts others : List String} (htexts : ∀ text ∈ texts, Sealed text)
    (hothers : ∀ other ∈ others, Sealed other) (h : bracketed texts = bracketed others) : texts = others := by
  have hopen (inner : String) : "[" ++ inner ++ "]" ≠ "" := by simp [← String.toList_inj]
  cases texts with
  | nil =>
    cases others with
    | nil => rfl
    | cons other others => exact absurd h.symm (hopen _)
  | cons text texts =>
    cases others with
    | nil => exact absurd h (hopen _)
    | cons other others =>
      have hjoined : ", ".intercalate (text :: texts) = ", ".intercalate (other :: others) := by
        simpa [bracketed, ← String.toList_inj] using h
      rw [← cut_intercalate (List.cons_ne_nil _ _) htexts, hjoined,
        cut_intercalate (List.cons_ne_nil _ _) hothers]

end Arguments

namespace Ty.ProcFree

variable {t u : Ty}

/-- The names in a type without procs are identifiers. -/
theorem allNames (h : t.ProcFree) : t.AllNames IsIdentifier := by
  induction h with
  | untyped | base => exact .intro (by simp [ownNames]) (by simp [parts])
  | classInstance hname hargs ih =>
    exact .intro (fun segment hsegment => (hname segment hsegment).isIdentifier) ih
  | optional htype ih => exact .intro (by simp [ownNames]) (by simpa [parts] using ih)
  | union hmany htypes hflat ih => exact .intro (by simp [ownNames]) ih

/-- The text of a type without procs is neutral. -/
theorem neutral (h : t.ProcFree) : Neutral t.render.toList :=
  h.allNames.sealed_of_identifiers.neutral

/-- Types other than unions show no blank. -/
theorem conceals_blank (h : t.ProcFree) (hnot : ∀ members, t ≠ .union members) :
    Conceals ' ' t.render.toList := by
  have hsimple : t.isCompound = false := by
    cases h with
    | union => exact absurd rfl (hnot _)
    | untyped | base | classInstance | optional => rfl
  exact conceals_of_not_isCompound h.allNames hsimple (by decide) (by decide) (by decide)

/-- The text of a type looks like its form. -/
theorem fits (h : t.ProcFree) : t.form.Fits t.render.toList := by
  have hnames := h.allNames
  have hconceals (hnamed : t.isNamed = true) : ¬ Shows ' ' t.render.toList ∧ ¬ Shows '?' t.render.toList :=
    ⟨(conceals_named hnames hnamed (by decide) (by decide)).hidden,
      (conceals_named hnames hnamed (by decide) (by decide)).hidden⟩
  cases h with
  | untyped =>
    obtain ⟨hblank, hmark⟩ := hconceals rfl
    refine ⟨hblank, hmark, ?_⟩
    rw [Ty.render]
    decide
  | base keyword =>
    obtain ⟨hblank, hmark⟩ := hconceals rfl
    refine ⟨hblank, hmark, ?_⟩
    rw [Ty.render]
    cases keyword <;> decide
  | classInstance hname hargs =>
    obtain ⟨hblank, hmark⟩ := hconceals rfl
    refine ⟨hblank, hmark, ?_⟩
    obtain ⟨c, rest, htext, hstart, -⟩ := QualifiedName.exists_cons hname
    rw [Ty.render, String.toList_append, htext]
    simpa [startsLikeName] using hstart
  | optional htype =>
    refine ⟨((optional htype).conceals_blank (by simp)).hidden, ?_⟩
    rw [render_optional, String.toList_append]
    exact (neutral_operandText htype.allNames).shows '?' []
  | union hmany htypes hflat =>
    obtain ⟨first, second, later, rfl⟩ := exists_cons_cons hmany
    have hshows := (htypes first List.mem_cons_self).neutral.shows ' '
    simpa [form, Form.Fits, Ty.render, String.intercalate_cons_cons] using hshows _

/-- Types without procs that have the same text have the same form. -/
theorem form_eq (ht : t.ProcFree) (hu : u.ProcFree) (h : t.render = u.render) : t.form = u.form :=
  ht.fits.unique (h ▸ hu.fits)

/-- A union in parentheses is not taken for a type without them. -/
theorem operandText_ne (ht : t.ProcFree) (hcompound : t.isCompound = true) (hu : u.ProcFree)
    (hsimple : u.isCompound = false) : t.operandText ≠ u.render := by
  intro h
  have hmark : ¬ Shows '?' u.render.toList :=
    h ▸ (conceals_operandText ht.allNames hcompound (by decide)).hidden
  have hparen : Shows '(' u.render.toList := by
    rw [← h, operandText, if_pos hcompound, String.append_assoc, String.toList_append]
    exact ⟨[], _, rfl, rfl⟩
  have hnames := hu.allNames
  cases hu with
  | untyped | base | classInstance =>
    exact (conceals_named hnames rfl (by decide) (by decide)).hidden hparen
  | optional htype => exact hmark (optional htype).fits.2
  | union => contradiction

/-- The text in front of the mark of an optional type determines that of the type. -/
theorem render_eq_of_operandText_eq (ht : t.ProcFree) (hu : u.ProcFree)
    (h : t.operandText = u.operandText) : t.render = u.render := by
  cases htc : t.isCompound with
  | true =>
    cases huc : u.isCompound with
    | true => simpa [operandText, htc, huc, ← String.toList_inj] using h
    | false => exact absurd (by simpa [operandText, huc] using h) (operandText_ne ht htc hu huc)
  | false =>
    cases huc : u.isCompound with
    | true => exact absurd (by simpa [operandText, htc] using h.symm) (operandText_ne hu huc ht htc)
    | false => simpa [operandText, htc, huc] using h

/-- Lists of types with the same texts are equal if this holds of their members. -/
theorem eq_of_map_render_eq {types others : List Ty}
    (hinj : ∀ t ∈ types, ∀ {u : Ty}, u.ProcFree → t.render = u.render → t = u)
    (hothers : ∀ u ∈ others, u.ProcFree) (h : types.map Ty.render = others.map Ty.render) :
    types = others := by
  induction types generalizing others with
  | nil => simpa using h.symm
  | cons t types ih =>
    cases others with
    | nil => simp at h
    | cons u others =>
      rw [List.forall_mem_cons] at hothers
      obtain ⟨hfirst, hrest⟩ := List.cons.inj h
      rw [hinj t List.mem_cons_self hothers.1 hfirst,
        ih (fun t ht => hinj t (List.mem_cons_of_mem _ ht)) hothers.2 hrest]

/-- The text of an instance of a class determines the name and the texts of the arguments. -/
theorem classInstance_texts {name other : QualifiedName} {args others : List Ty}
    (hname : ∀ segment ∈ name.segments ++ [name.name], IsConstant segment)
    (hother : ∀ segment ∈ other.segments ++ [other.name], IsConstant segment)
    (hargs : ∀ arg ∈ args, arg.ProcFree) (hothers : ∀ other ∈ others, other.ProcFree)
    (h : (Ty.classInstance name args).render = (Ty.classInstance other others).render) :
    name = other ∧ args.map Ty.render = others.map Ty.render := by
  have hconceals {n : QualifiedName} (hn : ∀ segment ∈ n.segments ++ [n.name], IsConstant segment) :
      Conceals '[' n.render.toList :=
    (isNameText_qualifiedName fun segment hs => (hn segment hs).isIdentifier).conceals (by decide)
  have hsealed {types : List Ty} (htypes : ∀ type ∈ types, type.ProcFree) :
      ∀ text ∈ types.map Ty.render, Sealed text :=
    List.forall_mem_map.mpr fun type htype => (htypes type htype).allNames.sealed_of_identifiers
  have hlists := congrArg String.toList h
  simp only [Ty.render, Ty.renderEach_eq_map, String.toList_append] at hlists
  obtain ⟨hnames, hbracketed⟩ := (hconceals hname).append_inj (hconceals hother)
    (head?_bracketed _) (head?_bracketed _) hlists
  exact ⟨QualifiedName.render_inj hname hother (String.toList_inj.mp hnames),
    bracketed_inj (hsealed hargs) (hsealed hothers) (String.toList_inj.mp hbracketed)⟩

/-- The text of a union determines the texts of its members. -/
theorem union_texts {types others : List Ty} (ht : (Ty.union types).ProcFree)
    (hu : (Ty.union others).ProcFree) (h : (Ty.union types).render = (Ty.union others).render) :
    types.map Ty.render = others.map Ty.render := by
  have hmembers {types : List Ty} (h : (Ty.union types).ProcFree) :
      types.map Ty.render ≠ [] ∧ ∀ text ∈ types.map Ty.render, Conceals ' ' text.toList := by
    cases h with
    | union hmany htypes hflat =>
      refine ⟨fun hnil => ?_, List.forall_mem_map.mpr fun type htype =>
        (htypes type htype).conceals_blank (hflat type htype)⟩
      simp [List.map_eq_nil_iff.mp hnil] at hmany
  simp only [Ty.render, Ty.renderEach_eq_map] at h
  exact intercalate_inj (by decide) (hmembers ht).1 (hmembers hu).1 (hmembers ht).2 (hmembers hu).2 h

/-- Types without procs have the same text only if they are equal. -/
theorem render_eq_iff (ht : t.ProcFree) (hu : u.ProcFree) : t.render = u.render ↔ t = u := by
  refine ⟨fun h => ?_, fun h => h ▸ rfl⟩
  -- The form leaves one constructor for the second type, except that there are two for keywords.
  induction ht generalizing u with
  | untyped =>
    have hform := form_eq untyped hu h
    cases hu with
    | untyped => rfl
    | base keyword => cases keyword <;> simp [Ty.render, BaseType.text] at h
    | classInstance | optional | union => contradiction
  | base keyword =>
    have hform := form_eq (base keyword) hu h
    cases hu with
    | untyped => cases keyword <;> simp [Ty.render, BaseType.text] at h
    | base other =>
      rw [Ty.render, Ty.render] at h
      rw [BaseType.text_injective h]
    | classInstance | optional | union => contradiction
  | classInstance hname hargs ih =>
    have hform := form_eq (classInstance hname hargs) hu h
    cases hu with
    | classInstance hother hothers =>
      obtain ⟨rfl, htexts⟩ := classInstance_texts hname hother hargs hothers h
      rw [eq_of_map_render_eq ih hothers htexts]
    | untyped | base | optional | union => contradiction
  | optional htype ih =>
    have hform := form_eq (optional htype) hu h
    cases hu with
    | optional hother =>
      rw [render_optional, render_optional, String.append_left_inj] at h
      rw [ih hother (render_eq_of_operandText_eq htype hother h)]
    | untyped | base | classInstance | union => contradiction
  | union hmany htypes hflat ih =>
    have hform := form_eq (union hmany htypes hflat) hu h
    cases hu with
    | union hmany' hothers hflat' =>
      have htexts := union_texts (union hmany htypes hflat) (union hmany' hothers hflat') h
      rw [eq_of_map_render_eq ih hothers htexts]
    | untyped | base | classInstance | optional => contradiction

/-- An optional union as an argument. -/
def optionalUnion : Ty :=
  .classInstance ⟨"Set", [], true⟩ [.optional (.union [.classInstance ⟨"Row", ["Db"], false⟩ [], .base .nil])]

/-- A union with an optional member as an argument. -/
def unionWithOptional : Ty :=
  .classInstance ⟨"Set", [], true⟩ [.union [.classInstance ⟨"Row", ["Db"], false⟩ [], .optional (.base .nil)]]

/-- The mark behind a union is told from the mark behind its last member. -/
theorem optionalUnion_text_ne :
    optionalUnion.ProcFree ∧ optionalUnion.render = "::Set[(Db::Row | nil)?]" ∧
    unionWithOptional.ProcFree ∧ unionWithOptional.render = "::Set[Db::Row | nil?]" ∧
    optionalUnion.render ≠ unionWithOptional.render := by
  have hrow : (Ty.classInstance ⟨"Row", ["Db"], false⟩ []).ProcFree := classInstance (by decide) (by simp)
  have hnil : (Ty.base .nil).ProcFree := base .nil
  have hargument {type : Ty} (h : type.ProcFree) : (Ty.classInstance ⟨"Set", [], true⟩ [type]).ProcFree :=
    classInstance (by decide) (by simpa using h)
  have hoptional : optionalUnion.ProcFree :=
    hargument (optional (union (by decide) (by simp [hrow, hnil]) (by simp)))
  have hunion : unionWithOptional.ProcFree :=
    hargument (union (by decide) (by simp [hrow, optional hnil]) (by simp))
  refine ⟨hoptional, by decide, hunion, by decide, fun h => ?_⟩
  have heq := (render_eq_iff hoptional hunion).mp h
  simp [optionalUnion, unionWithOptional] at heq

end Ty.ProcFree

end RubySig.Rbs
