import RubySig.Proofs.OutsideBrackets
import RubySig.Proofs.ParameterText

/-!
# What the text of a type shows

If every name in a type is an identifier, then the text of a name shows nothing but the characters of
words and colons, and the arguments of a class add an opening bracket to that. An optional type adds
its mark, and an opening parenthesis when it has one. Blanks and bars are shown only by unions and
procs. The names here are those of classes, variables, parameters and keywords alike.
-/

namespace RubySig.Rbs

open RubySig.Text.Brackets

/-- The letters and digits of ASCII, and the underscore. -/
def isWordChar (c : Char) : Bool :=
  c.isAlphanum || c == '_'

/-- A character of a word, or the colon between words. -/
def isNameChar (c : Char) : Bool :=
  isWordChar c || c == ':'

/-- A word whose first character is of some kind. -/
def isWord (begins : Char → Bool) (text : String) : Bool :=
  match text.toList with
  | [] => false
  | first :: rest => begins first && rest.all isWordChar

/-- A word that does not begin with a digit. -/
def IsIdentifier (text : String) : Prop :=
  isWord (fun c => c.isAlpha || c == '_') text = true

/-- A word that begins with a capital letter. -/
def IsConstant (text : String) : Prop :=
  isWord Char.isUpper text = true

instance : DecidablePred IsIdentifier := fun text =>
  inferInstanceAs (Decidable (isWord _ text = true))

instance : DecidablePred IsConstant := fun text =>
  inferInstanceAs (Decidable (isWord _ text = true))

/-- Every character of a text belongs to words or stands between them. -/
def IsNameText (text : String) : Prop :=
  text.toList.all isNameChar = true

instance : DecidablePred IsNameText := fun text =>
  inferInstanceAs (Decidable (text.toList.all isNameChar = true))

section Names

variable {text : String}

/-- A word is a first character and characters of words after it. -/
theorem isWord_iff {begins : Char → Bool} :
    isWord begins text = true ↔ ∃ first rest, text.toList = first :: rest ∧ begins first = true ∧
      ∀ c ∈ rest, isWordChar c = true := by
  unfold isWord
  cases text.toList <;> simp

/-- A constant is an identifier. -/
theorem IsConstant.isIdentifier (h : IsConstant text) : IsIdentifier text := by
  obtain ⟨first, rest, htext, hfirst, hrest⟩ := isWord_iff.mp h
  have halpha : first.isAlpha = (first.isUpper || first.isLower) := rfl
  exact isWord_iff.mpr ⟨first, rest, htext, by simp [halpha, hfirst], hrest⟩

/-- Every character of an identifier is one of words. -/
theorem IsIdentifier.isWordChar (h : IsIdentifier text) : ∀ c ∈ text.toList, isWordChar c = true := by
  obtain ⟨first, rest, htext, hfirst, hrest⟩ := isWord_iff.mp h
  have halphanum : first.isAlphanum = (first.isAlpha || first.isDigit) := rfl
  rw [htext, List.forall_mem_cons]
  refine ⟨?_, hrest⟩
  simp only [Bool.or_eq_true] at hfirst
  rcases hfirst with hfirst | hfirst <;> simp [Rbs.isWordChar, halphanum, hfirst]

/-- An identifier can stand as a name. -/
theorem IsIdentifier.isNameText (h : IsIdentifier text) : IsNameText text :=
  List.all_eq_true.mpr fun c hc => by simp [isNameChar, h.isWordChar c hc]

/-- Commas and brackets are no part of names. -/
theorem not_mem_marks_of_isNameChar {c : Char} (h : isNameChar c = true) : c ∉ marks := by
  have hmarks : marks.all (fun c => !isNameChar c) = true := by decide
  intro hmem
  simpa [h] using List.all_eq_true.mp hmarks c hmem

/-- A name has no marks in it. -/
theorem IsNameText.isPlain (h : IsNameText text) : IsPlain text := fun c hc =>
  not_mem_marks_of_isNameChar (List.all_eq_true.mp h c hc)

/-- The text of a name conceals whatever is no part of names. -/
theorem IsNameText.conceals (h : IsNameText text) {c : Char} (hc : isNameChar c = false) :
    Conceals c text.toList := by
  refine conceals_of_not_mem h.isPlain fun hmem => ?_
  simp [List.all_eq_true.mp h c hmem] at hc

/-- A qualified name whose parts are identifiers is a name. -/
theorem isNameText_qualifiedName {name : QualifiedName}
    (h : ∀ segment ∈ name.segments ++ [name.name], IsIdentifier segment) : IsNameText name.render := by
  have happend (s t : String) (hs : IsNameText s) (ht : IsNameText t) : IsNameText (s ++ t) := by
    rw [IsNameText, String.toList_append, List.all_append, hs, ht]
    rfl
  have hsegments : IsNameText ("::".intercalate (name.segments ++ [name.name])) :=
    intercalate_closed (P := IsNameText) rfl happend (by decide) fun segment hsegment =>
      (h segment hsegment).isNameText
  unfold QualifiedName.render
  split
  · exact happend _ _ (by decide) hsegments
  · exact happend _ _ rfl hsegments

end Names

/-- A word of the notation without brackets conceals what it does not have. -/
theorem conceals_word (text : String) {c : Char} (hplain : IsPlain text := by decide)
    (h : c ∉ text.toList := by decide) : Conceals c text.toList :=
  conceals_of_not_mem hplain h

/-- What holds for all names in a type can be weakened. -/
theorem Ty.AllNames.mono {P Q : String → Prop} (hPQ : ∀ name, P name → Q name) {type : Ty}
    (h : type.AllNames P) : type.AllNames Q := by
  induction h with
  | intro own parts ih => exact .intro (fun name hname => hPQ name (own name hname)) ih

/-- The text of a type is sealed if its names are identifiers. -/
theorem Ty.AllNames.sealed_of_identifiers {type : Ty} (h : type.AllNames IsIdentifier) :
    Sealed type.render :=
  (h.mono fun _ hname => hname.isNameText.isPlain).sealed_render

/-- The first two of several types. -/
theorem exists_cons_cons {types : List Ty} (h : 2 ≤ types.length) :
    ∃ first second later, types = first :: second :: later := by
  obtain ⟨first, rest, rfl⟩ := List.exists_cons_of_length_pos (Nat.lt_of_lt_of_le Nat.zero_lt_two h)
  obtain ⟨second, later, rfl⟩ := List.exists_cons_of_length_pos (Nat.lt_of_succ_lt_succ h)
  exact ⟨first, second, later, rfl⟩

namespace Ty

/-- A type written as a name, possibly with arguments. -/
def isNamed : Ty → Bool
  | .untyped | .base _ | .classInstance _ _ | .variable _ => true
  | .optional _ | .union _ | .proc _ _ => false

/-- The text of a type in front of the mark of an optional type. -/
def operandText (type : Ty) : String :=
  if type.isCompound then "(" ++ type.render ++ ")" else type.render

/-- An optional type is rendered as its operand and a question mark. -/
theorem render_optional (type : Ty) : (Ty.optional type).render = type.operandText ++ "?" := by
  rw [Ty.render, operandText]
  split
  · simp only [String.append_assoc]
    rfl
  · rfl

/-- The operand of an optional type is neutral if its names are identifiers. -/
theorem neutral_operandText {type : Ty} (h : type.AllNames IsIdentifier) :
    Neutral type.operandText.toList := by
  unfold operandText
  split
  · exact (sealed_parens h.sealed_of_identifiers.neutral).neutral
  · exact h.sealed_of_identifiers.neutral

/-- The texts of arguments in square brackets show nothing but the opening bracket. -/
theorem conceals_bracketed {texts : List String} (h : ∀ text ∈ texts, Sealed text) {c : Char}
    (hc : c ≠ '[') : Conceals c (bracketed texts).toList := by
  unfold bracketed
  split
  · exact conceals_word "" (by decide) (by simp)
  · have hinner := (neutral_intercalate h).conceals_enclosed (by decide : ('[', ']') ∈ pairs) hc
    simpa using hinner

/-- A type written as a name shows the characters of names and opening brackets. -/
theorem conceals_named {type : Ty} (h : type.AllNames IsIdentifier) (hnamed : type.isNamed = true)
    {c : Char} (hc : isNameChar c = false) (hbracket : c ≠ '[') : Conceals c type.render.toList := by
  obtain ⟨own, parts⟩ := h
  cases type with
  | untyped =>
    rw [Ty.render]
    exact IsNameText.conceals (by decide) hc
  | base keyword =>
    rw [Ty.render]
    exact IsNameText.conceals (by cases keyword <;> decide) hc
  | classInstance name args =>
    rw [Ty.render, Ty.renderEach_eq_map, String.toList_append]
    exact ((isNameText_qualifiedName own).conceals hc).append
      (conceals_bracketed (List.forall_mem_map.mpr fun arg harg => (parts arg harg).sealed_of_identifiers)
        hbracket)
  | «variable» name =>
    rw [Ty.render]
    exact (own name List.mem_cons_self).isNameText.conceals hc
  | optional | union | proc => contradiction

/-- The text of a compound type in parentheses shows nothing but the opening one. -/
theorem conceals_operandText {type : Ty} (h : type.AllNames IsIdentifier) (hcompound : type.isCompound = true)
    {c : Char} (hc : c ≠ '(') : Conceals c type.operandText.toList := by
  have hinner := h.sealed_of_identifiers.neutral.conceals_enclosed (by decide : ('(', ')') ∈ pairs) hc
  simpa [operandText, hcompound] using hinner

/-- Only unions and procs show anything else than characters of names, opening brackets and the mark of
optional types. -/
theorem conceals_of_not_isCompound {type : Ty} (h : type.AllNames IsIdentifier)
    (hsimple : type.isCompound = false) {c : Char} (hc : isNameChar c = false)
    (hbrackets : c ≠ '[' ∧ c ≠ '(') (hmark : c ≠ '?') : Conceals c type.render.toList := by
  induction h with
  | @intro type own parts ih =>
    have hall : type.AllNames IsIdentifier := .intro own parts
    cases type with
    | untyped | base | classInstance | «variable» => exact conceals_named hall rfl hc hbrackets.1
    | optional type =>
      have htype : type.AllNames IsIdentifier := parts type List.mem_cons_self
      rw [render_optional, String.toList_append]
      refine Conceals.append ?_ (conceals_word "?" (by decide) (by simpa using hmark))
      cases hcompound : type.isCompound with
      | true => exact conceals_operandText htype hcompound hbrackets.2
      | false => simpa [operandText, hcompound] using ih type List.mem_cons_self hcompound
    | union | proc => contradiction

end Ty

end RubySig.Rbs
