import RubySig.Proofs.TypeText

/-!
# Which unions and procs share a text

Nothing is put around the members of a union or around the return type of a proc. So the bar after a
proc can be read in two ways: as that of a union that begins with the proc, and as that of a union that
the proc returns. These are the only texts that unions and procs share. A union has the text of some
proc exactly when it begins with a proc, and a proc has the text of some union with at least two members
exactly when it ends with a union. Both go through unions in the first place and procs in the last.
-/

namespace RubySig.Rbs

open RubySig.Text.Brackets

namespace Ty

/-- A type is a proc, or a union whose first member begins with one. -/
inductive BeginsWithProc : Ty → Prop where
  | proc (function : FunctionType) (selfType : Option Ty) : BeginsWithProc (.proc function selfType)
  | union {first : Ty} (later : List Ty) (hfirst : BeginsWithProc first) :
    BeginsWithProc (.union (first :: later))

/-- A type is a union with several members, or a union of a single one or a proc in which the member or
the return type ends with a union. -/
inductive EndsWithUnion : Ty → Prop where
  | union (first second : Ty) (later : List Ty) : EndsWithUnion (.union (first :: second :: later))
  | single {type : Ty} (htype : EndsWithUnion type) : EndsWithUnion (.union [type])
  | proc {function : FunctionType} (selfType : Option Ty) (hreturn : EndsWithUnion function.returnType) :
    EndsWithUnion (.proc function selfType)

/-- A union and a proc in which one bar is read in two ways: the first member of the union reads as the
proc with another return type, and the proc returns what reads as a union of that type with the later
members. -/
inductive SharesBar : Ty → Ty → Prop where
  | intro {first : Ty} {later : List Ty} {function : FunctionType} {selfType : Option Ty} (returned : Ty)
    (hfirst : first.render = (Ty.proc { function with returnType := returned } selfType).render)
    (hreturn : (Ty.union (returned :: later)).render = function.returnType.render) :
    SharesBar (.union (first :: later)) (.proc function selfType)

/-- A union with at least two members in which all names are identifiers. -/
def IsNamedUnion (type : Ty) : Prop :=
  type.AllNames IsIdentifier ∧ ∃ types, type = .union types ∧ 2 ≤ types.length

/-- A proc in which all names are identifiers. -/
def IsNamedProc (type : Ty) : Prop :=
  type.AllNames IsIdentifier ∧ ∃ function selfType, type = .proc function selfType

section Texts

/-- The text of a proc up to the tip of its arrow. -/
def procHead (function : FunctionType) (selfType : Option Ty) : String :=
  "^" ++ parenthesized function.parameterTexts ++ " " ++ Ty.renderSelf "" selfType " " ++ "-"

/-- The texts of the members of a union after the first, each after a bar. -/
def laterMembers (types : List Ty) : String :=
  String.join (types.map fun type => " | " ++ type.render)

/-- A proc is rendered as its head, an arrow and its return type. -/
theorem render_proc (function : FunctionType) (selfType : Option Ty) :
    (Ty.proc function selfType).render =
      procHead function selfType ++ "> " ++ function.returnType.render := by
  have harrow : "-> " = "-" ++ "> " := rfl
  rw [Ty.render, FunctionType.returnText_eq, harrow, procHead]
  simp only [String.append_assoc]

/-- The text in front of the return type does not depend on the return type. -/
theorem procHead_with (function : FunctionType) (selfType : Option Ty) (type : Ty) :
    procHead { function with returnType := type } selfType = procHead function selfType := by
  cases function
  rw [procHead, procHead, FunctionType.parameterTexts, FunctionType.parameterTexts]

/-- A union is rendered as its first member and then the later ones. -/
theorem render_union_cons (first : Ty) (later : List Ty) :
    (Ty.union (first :: later)).render = first.render ++ laterMembers later := by
  rw [Ty.render, Ty.renderEach_eq_map, ← String.toList_inj, String.toList_intercalate, List.map_map,
    List.map_cons, intercalate_cons]
  simp [laterMembers, String.toList_join, List.flatMap_def, Function.comp_def]

/-- After the first member of a union comes a blank or nothing. -/
theorem head?_laterMembers (later : List Ty) : ∀ c ∈ (laterMembers later).toList.head?, c = ' ' := by
  cases later <;> simp [laterMembers]

end Texts

section Names

variable {P : String → Prop}

/-- The names in a union are those in its members. -/
theorem allNames_union_iff {types : List Ty} :
    (Ty.union types).AllNames P ↔ ∀ type ∈ types, type.AllNames P := by
  constructor
  · rintro ⟨-, parts⟩
    exact parts
  · exact fun h => .intro (by simp [ownNames]) h

/-- The return type of a proc can be replaced by any type with good names. -/
theorem AllNames.proc_with {function : FunctionType} {selfType : Option Ty}
    (h : (Ty.proc function selfType).AllNames P) {type : Ty} (htype : type.AllNames P) :
    (Ty.proc { function with returnType := type } selfType).AllNames P := by
  obtain ⟨own, parts⟩ := h
  refine .intro own ?_
  simp only [Ty.parts, FunctionType.parts, List.forall_mem_append, List.forall_mem_singleton] at parts ⊢
  exact ⟨⟨parts.1.1, htype⟩, parts.2⟩

/-- The names in the return type are among those of the proc. -/
theorem AllNames.returnType {function : FunctionType} {selfType : Option Ty}
    (h : (Ty.proc function selfType).AllNames P) : function.returnType.AllNames P := by
  obtain ⟨-, parts⟩ := h
  simp only [Ty.parts, FunctionType.parts, List.forall_mem_append, List.forall_mem_singleton] at parts
  exact parts.1.2

end Names

section Shown

/-- The clause for the type of `self` shows a bracket and a blank. -/
theorem conceals_renderSelf {selfType : Option Ty} (h : ∀ type ∈ selfType, Sealed type.render) {c : Char}
    (hbracket : c ≠ '[') (hblank : c ≠ ' ') : Conceals c (Ty.renderSelf "" selfType " ").toList := by
  cases selfType with
  | none =>
    rw [Ty.renderSelf]
    exact conceals_word "" (by decide) (by simp)
  | some type =>
    have hinner := ((sealed_word "self: ").append (h type rfl)).neutral
    have hclause := hinner.conceals_enclosed (by decide : ('[', ']') ∈ pairs) hbracket
    rw [Ty.renderSelf, String.toList_append]
    exact Conceals.append (by simpa using hclause) (conceals_word " " (by decide) (by simpa using hblank))

/-- What the text of a proc shows in front of the tip of its arrow. -/
theorem conceals_procHead {function : FunctionType} {selfType : Option Ty}
    (h : (Ty.proc function selfType).AllNames IsIdentifier) {c : Char}
    (hc : c ∉ ['^', '(', ' ', '[', '-']) : Conceals c (procHead function selfType).toList := by
  simp only [List.mem_cons, List.not_mem_nil, or_false, not_or] at hc
  obtain ⟨hsign, hparen, hblank, hbracket, hdash⟩ := hc
  obtain ⟨own, parts⟩ := h
  have hsealed : ∀ type ∈ (Ty.proc function selfType).parts, Sealed type.render := fun type htype =>
    (parts type htype).sealed_of_identifiers
  simp only [Ty.parts, FunctionType.parts, List.forall_mem_append, List.forall_mem_map] at hsealed
  have htexts := FunctionType.sealed_parameterTexts (fun name hname => (own name hname).isNameText.isPlain)
    hsealed.1.1
  have hlist : Conceals c (parenthesized function.parameterTexts).toList := by
    have hparens := (neutral_intercalate htexts).conceals_enclosed (by decide : ('(', ')') ∈ pairs) hparen
    simpa [parenthesized] using hparens
  have hself : Conceals c (Ty.renderSelf "" selfType " ").toList :=
    conceals_renderSelf (fun type htype => hsealed.2 type (Option.mem_toList.mpr htype)) hbracket hblank
  simp only [procHead, String.toList_append]
  exact ((((conceals_word "^" (by decide) (by simpa using hsign)).append hlist).append
    (conceals_word " " (by decide) (by simpa using hblank))).append hself).append
    (conceals_word "-" (by decide) (by simpa using hdash))

/-- Where the return type of a proc begins can be told from the text. -/
theorem procHead_append_inj {function other : FunctionType} {selfType otherSelf : Option Ty}
    (h : (Ty.proc function selfType).AllNames IsIdentifier)
    (hother : (Ty.proc other otherSelf).AllNames IsIdentifier) {rest later : String}
    (heq : procHead function selfType ++ "> " ++ rest = procHead other otherSelf ++ "> " ++ later) :
    procHead function selfType = procHead other otherSelf ∧ rest = later := by
  have htip : '>' ∉ ['^', '(', ' ', '[', '-'] := by decide
  have hlists := congrArg String.toList heq
  simp only [String.append_assoc, String.toList_append] at hlists
  obtain ⟨hheads, hrests⟩ := (conceals_procHead h htip).append_inj (conceals_procHead hother htip)
    (by simp) (by simp) hlists
  exact ⟨String.toList_inj.mp hheads, String.toList_inj.mp (List.append_cancel_left hrests)⟩

/-- A type that shows a bar ends with a union. -/
theorem endsWithUnion_of_shows {type : Ty} (h : type.AllNames IsIdentifier)
    (hshows : Shows '|' type.render.toList) : type.EndsWithUnion := by
  induction h with
  | @intro type own parts ih =>
    have hnames : type.AllNames IsIdentifier := .intro own parts
    cases type with
    | untyped | base | classInstance | «variable» | optional =>
      exact absurd hshows (conceals_of_not_isCompound hnames rfl (by decide) (by decide) (by decide)).hidden
    | union types =>
      match types with
      | [] => simp [Ty.render, Shows] at hshows
      | [type] =>
        rw [render_union_cons] at hshows
        exact .single (ih type List.mem_cons_self (by simpa [laterMembers] using hshows))
      | first :: second :: later => exact .union first second later
    | proc function selfType =>
      have hhead := (conceals_procHead hnames (by decide)).append (conceals_word "> " (c := '|'))
      rw [render_proc, String.toList_append, String.toList_append, shows_append_iff hhead.neutral] at hshows
      exact .proc selfType (ih _ (by simp [Ty.parts, FunctionType.parts]) (hshows.resolve_left hhead.hidden))

/-- A type whose text begins with the sign of procs begins with a proc. -/
theorem beginsWithProc_of_head? {type : Ty} (h : type.AllNames IsIdentifier)
    (hhead : type.render.toList.head? = some '^') : type.BeginsWithProc := by
  induction h with
  | @intro type own parts ih =>
    have hnames : type.AllNames IsIdentifier := .intro own parts
    cases type with
    | untyped | base | classInstance | «variable» | optional =>
      obtain ⟨later, hlater⟩ := List.head?_eq_some_iff.mp hhead
      exact absurd ⟨[], later, hlater, rfl⟩
        (conceals_of_not_isCompound hnames rfl (by decide) (by decide) (by decide)).hidden
    | union types =>
      cases types with
      | nil => simp [Ty.render] at hhead
      | cons first later =>
        rw [render_union_cons, String.toList_append, List.head?_append] at hhead
        refine .union later (ih first List.mem_cons_self ?_)
        cases hfirst : first.render.toList.head? with
        | none =>
          rw [hfirst, Option.none_or] at hhead
          exact absurd (head?_laterMembers later '^' hhead) (by decide)
        | some c => simpa [hfirst] using hhead
    | proc function selfType => exact .proc function selfType

end Shown

/-- A type that begins with a proc has the text of a proc. -/
theorem BeginsWithProc.exists_proc {P : String → Prop} {type : Ty} (h : type.BeginsWithProc)
    (hnames : type.AllNames P) :
    ∃ function selfType, (Ty.proc function selfType).AllNames P ∧
      type.render = (Ty.proc function selfType).render := by
  induction h with
  | proc function selfType => exact ⟨function, selfType, hnames, rfl⟩
  | union later hfirst ih =>
    rw [allNames_union_iff, List.forall_mem_cons] at hnames
    obtain ⟨function, selfType, hproc, htext⟩ := ih hnames.1
    -- What comes after the first member goes into the return type.
    refine ⟨{ function with returnType := .union (function.returnType :: later) }, selfType,
      hproc.proc_with ?_, ?_⟩
    · exact allNames_union_iff.mpr (List.forall_mem_cons.mpr ⟨hproc.returnType, hnames.2⟩)
    · rw [render_union_cons, htext, render_proc, render_proc, procHead_with, render_union_cons,
        String.append_assoc]

/-- A type that ends with a union has the text of a union with at least two members. -/
theorem EndsWithUnion.exists_union {P : String → Prop} {type : Ty} (h : type.EndsWithUnion)
    (hnames : type.AllNames P) :
    ∃ first second later, (Ty.union (first :: second :: later)).AllNames P ∧
      (Ty.union (first :: second :: later)).render = type.render := by
  induction h with
  | union first second later => exact ⟨first, second, later, hnames, rfl⟩
  | single htype ih =>
    obtain ⟨first, second, later, hunion, htext⟩ := ih (allNames_union_iff.mp hnames _ List.mem_cons_self)
    refine ⟨first, second, later, hunion, ?_⟩
    rw [htext, render_union_cons]
    simp [laterMembers]
  | @proc function selfType hreturn ih =>
    obtain ⟨first, second, later, hunion, htext⟩ := ih hnames.returnType
    rw [allNames_union_iff, List.forall_mem_cons] at hunion
    -- The proc goes into the first member and returns what was the first member.
    refine ⟨.proc { function with returnType := first } selfType, second, later, ?_, ?_⟩
    · exact allNames_union_iff.mpr (List.forall_mem_cons.mpr ⟨hnames.proc_with hunion.1, hunion.2⟩)
    · rw [render_union_cons, render_proc, procHead_with, String.append_assoc, ← render_union_cons, htext,
        render_proc]

/-- The union begins with a proc where its text is that of a proc. -/
theorem beginsWithProc_of_render_eq {u p : Ty} (hu : u.IsNamedUnion) (hp : p.IsNamedProc)
    (h : u.render = p.render) : u.BeginsWithProc := by
  obtain ⟨-, function, selfType, rfl⟩ := hp
  refine beginsWithProc_of_head? hu.1 ?_
  rw [h, render_proc, procHead]
  simp

/-- The proc ends with a union where its text is that of a union. -/
theorem endsWithUnion_of_render_eq {u p : Ty} (hu : u.IsNamedUnion) (hp : p.IsNamedProc)
    (h : u.render = p.render) : p.EndsWithUnion := by
  obtain ⟨hnames, types, rfl, hmany⟩ := hu
  obtain ⟨first, second, later, rfl⟩ := exists_cons_cons hmany
  have hfirst := (allNames_union_iff.mp hnames first List.mem_cons_self).sealed_of_identifiers.neutral
  have hbar := (hfirst.append (conceals_word " " (c := '|')).neutral).shows '|'
  refine endsWithUnion_of_shows hp.1 ?_
  rw [← h, render_union_cons]
  simpa [laterMembers] using hbar _

/-- A union and a proc have the same text exactly when they differ by the reading of one bar. -/
theorem render_eq_iff_sharesBar {u p : Ty} (hu : u.IsNamedUnion) (hp : p.IsNamedProc) :
    u.render = p.render ↔ SharesBar u p := by
  constructor
  · intro h
    cases beginsWithProc_of_render_eq hu hp h with
    | proc =>
      obtain ⟨-, types, htypes, -⟩ := hu
      contradiction
    | @union first later hfirst =>
      obtain ⟨hnames, function, selfType, rfl⟩ := hp
      obtain ⟨own, otherSelf, hown, htext⟩ :=
        hfirst.exists_proc (allNames_union_iff.mp hu.1 first List.mem_cons_self)
      rw [render_union_cons, htext, render_proc, render_proc, String.append_assoc] at h
      obtain ⟨hhead, hreturn⟩ := procHead_append_inj hown hnames h
      refine .intro own.returnType ?_ ?_
      · rw [htext, render_proc, render_proc, procHead_with, hhead]
      · rw [render_union_cons, hreturn]
  · rintro ⟨returned, hfirst, hreturn⟩
    rw [render_union_cons, hfirst, render_proc, render_proc, procHead_with, ← hreturn, render_union_cons,
      String.append_assoc]

/-- A union with at least two members and a proc, both with identifiers for names, have different texts
unless one bar is read in two ways. A union differs from all procs exactly when it does not begin with a
proc, and a proc from all unions exactly when it does not end with a union. -/
theorem union_text_ne_proc_text_iff {u p : Ty} (hu : u.IsNamedUnion) (hp : p.IsNamedProc) :
    (u.render ≠ p.render ↔ ¬ SharesBar u p) ∧
    ((∀ q : Ty, q.IsNamedProc → u.render ≠ q.render) ↔ ¬ u.BeginsWithProc) ∧
    ((∀ v : Ty, v.IsNamedUnion → v.render ≠ p.render) ↔ ¬ p.EndsWithUnion) := by
  refine ⟨(render_eq_iff_sharesBar hu hp).not, ⟨fun hdiffer hbegins => ?_, fun hnot q hq htext => ?_⟩,
    ⟨fun hdiffer hends => ?_, fun hnot v hv htext => ?_⟩⟩
  · obtain ⟨function, selfType, hnames, htext⟩ := hbegins.exists_proc hu.1
    exact hdiffer _ ⟨hnames, function, selfType, rfl⟩ htext
  · exact hnot (beginsWithProc_of_render_eq hu hq htext)
  · obtain ⟨first, second, later, hnames, htext⟩ := hends.exists_union hp.1
    exact hdiffer _ ⟨hnames, _, rfl, by simp⟩ htext
  · exact hnot (endsWithUnion_of_render_eq hv hp htext)

/-- A proc without parameters. -/
def procReturning (type : Ty) : Ty :=
  .proc ⟨[], [], none, [], [], [], none, type⟩ none

/-- A class without arguments. -/
def classNamed (name : String) : Ty :=
  .classInstance ⟨name, [], false⟩ []

/-- A union whose first member is a proc. -/
def procFirst : Ty :=
  .union [procReturning (classNamed "A"), classNamed "B"]

/-- A union whose last member is a proc. -/
def procLast : Ty :=
  .union [classNamed "B", procReturning (classNamed "A")]

/-- A proc that returns a union. -/
def unionReturned : Ty :=
  procReturning (.union [classNamed "A", classNamed "B"])

section Samples

/-- The only name in a class without arguments is its own. -/
theorem allNames_classNamed {name : String} (h : IsIdentifier name) :
    (classNamed name).AllNames IsIdentifier :=
  .intro (by simpa [classNamed, ownNames] using h) (by simp [classNamed, parts])

/-- The names in a proc without parameters are those of its return type. -/
theorem allNames_procReturning {type : Ty} (h : type.AllNames IsIdentifier) :
    (procReturning type).AllNames IsIdentifier :=
  .intro (by simp [procReturning, ownNames, FunctionType.ownNames, FunctionType.params])
    (by simpa [procReturning, parts, FunctionType.parts, FunctionType.params] using h)

/-- Two types whose names are identifiers form a named union. -/
theorem isNamedUnion_pair {first second : Ty} (hfirst : first.AllNames IsIdentifier)
    (hsecond : second.AllNames IsIdentifier) : (Ty.union [first, second]).IsNamedUnion :=
  ⟨allNames_union_iff.mpr (by simp [hfirst, hsecond]), _, rfl, Nat.le_refl 2⟩

/-- The names in the proc that returns a union are identifiers. -/
theorem isNamedProc_unionReturned : unionReturned.IsNamedProc :=
  ⟨allNames_procReturning (isNamedUnion_pair (allNames_classNamed (by decide))
    (allNames_classNamed (by decide))).1, _, _, rfl⟩

end Samples

/-- A union with a proc for its last member is told from a proc that returns a union. -/
theorem procLast_text_ne :
    procLast.IsNamedUnion ∧ unionReturned.IsNamedProc ∧ procLast.render ≠ unionReturned.render := by
  have hunion : procLast.IsNamedUnion := isNamedUnion_pair (allNames_classNamed (by decide))
    (allNames_procReturning (allNames_classNamed (by decide)))
  have hbegins : ¬ procLast.BeginsWithProc := by
    rintro (_ | ⟨_, hfirst⟩)
    cases hfirst
  refine ⟨hunion, isNamedProc_unionReturned, ?_⟩
  exact (union_text_ne_proc_text_iff hunion isNamedProc_unionReturned).2.1.mpr hbegins _
    isNamedProc_unionReturned

/-- A union with a proc for its first member has the text of a proc that returns a union. -/
theorem procFirst_text_eq :
    procFirst.IsNamedUnion ∧ unionReturned.IsNamedProc ∧ procFirst.render = unionReturned.render ∧
      unionReturned.render = "^() -> A | B" :=
  ⟨isNamedUnion_pair (allNames_procReturning (allNames_classNamed (by decide)))
    (allNames_classNamed (by decide)), isNamedProc_unionReturned, by decide, by decide⟩

end Ty

end RubySig.Rbs
