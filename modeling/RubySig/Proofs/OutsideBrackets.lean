import RubySig.Proofs.BracketedText

/-!
# What a text shows outside of its brackets

A character of a text is shown if it stands outside of all brackets. Where a text ends can be told
from what it shows: if two balanced texts do not show a character, and each of them is followed by
that character or by nothing, then neither of them can reach further than the other. So texts that
are joined by a separator are determined by the whole, as long as none of them shows how the separator
begins. A balanced text in brackets shows only the opening bracket.
-/

namespace RubySig.Text.Brackets

/-- A text has a character outside of all of its brackets. -/
def Shows (c : Char) (text : List Char) : Prop :=
  ∃ before after, text = before ++ c :: after ∧ openAfter [] before = some []

/-- A text leaves the open brackets as they are and has a character only inside of them. -/
structure Conceals (c : Char) (text : List Char) : Prop where
  neutral : Neutral text
  hidden : ¬ Shows c text

section Open

/-- Brackets that are open around a text make no difference to what it does. -/
theorem step_append {stack next : List Char} {c : Char} (h : step stack c = some next)
    (outer : List Char) : step (stack ++ outer) c = some (next ++ outer) := by
  unfold step at h ⊢
  cases hopens : closing? c with
  | some close =>
    simp only [hopens, Option.some.injEq] at h
    simp [← h]
  | none =>
    cases hcloses : isClosing c with
    | false =>
      simp only [hopens, hcloses, Bool.false_eq_true, if_false, Option.some.injEq] at h
      simp [h]
    | true =>
      cases stack with
      | nil => simp [hopens, hcloses] at h
      | cons close inner =>
        simp only [hopens, hcloses, if_true, Option.ite_none_right_eq_some, Option.some.injEq] at h
        simp [h.1, h.2]

/-- Brackets that are open further out stay open. -/
theorem openAfter_stack_append {stack next text : List Char} (h : openAfter stack text = some next)
    (outer : List Char) : openAfter (stack ++ outer) text = some (next ++ outer) := by
  induction text generalizing stack with
  | nil =>
    obtain rfl : stack = next := by simpa [openAfter] using h
    rfl
  | cons c text ih =>
    rw [openAfter_cons, Option.bind_eq_some_iff] at h
    obtain ⟨after, hstep, hrest⟩ := h
    rw [openAfter_cons, step_append hstep outer, Option.bind_some, ih hrest]

/-- The beginning of a balanced text closes nothing that is open around it. -/
theorem openAfter_of_prefix {text later : List Char} (h : Neutral (text ++ later)) (outer : List Char) :
    ∃ opened, openAfter outer text = some (opened ++ outer) := by
  have hwhole := h []
  rw [openAfter_append, Option.bind_eq_some_iff] at hwhole
  obtain ⟨opened, hopened, -⟩ := hwhole
  exact ⟨opened, openAfter_stack_append hopened outer⟩

end Open

section Shown

variable {c : Char} {text later : List Char}

/-- A neutral text shows the character behind it. -/
theorem Neutral.shows (h : Neutral text) (c : Char) (later : List Char) : Shows c (text ++ c :: later) :=
  ⟨text, later, rfl, h []⟩

/-- A text put together shows what its parts show. -/
theorem shows_append_iff (h : Neutral text) : Shows c (text ++ later) ↔ Shows c text ∨ Shows c later := by
  constructor
  · rintro ⟨before, after, heq, hbefore⟩
    rcases List.append_eq_append_iff.mp heq with ⟨between, rfl, hlater⟩ | ⟨between, rfl, hafter⟩
    · rw [openAfter_append, h []] at hbefore
      exact .inr ⟨between, after, hlater, hbefore⟩
    · cases between with
      | nil => exact .inr ⟨[], after, by simpa using hafter.symm, rfl⟩
      | cons d between =>
        obtain ⟨rfl, -⟩ := List.cons.inj hafter
        exact .inl ⟨before, between, rfl, hbefore⟩
  · rintro (⟨before, after, rfl, hbefore⟩ | ⟨before, after, rfl, hbefore⟩)
    · exact ⟨before, after ++ later, by simp, hbefore⟩
    · exact ⟨text ++ before, after, by simp, by rw [openAfter_append, h []]; exact hbefore⟩

/-- Two texts in a row conceal what both of them conceal. -/
theorem Conceals.append (h : Conceals c text) (hlater : Conceals c later) : Conceals c (text ++ later) where
  neutral := h.neutral.append hlater.neutral
  hidden := by
    rw [shows_append_iff h.neutral, not_or]
    exact ⟨h.hidden, hlater.hidden⟩

/-- A text without brackets conceals what it does not have. -/
theorem conceals_of_not_mem (hplain : ∀ d ∈ text, d ∉ marks) (h : c ∉ text) : Conceals c text where
  neutral := neutral_of_plain hplain
  hidden := by
    rintro ⟨before, after, rfl, -⟩
    exact h (List.mem_append_right _ List.mem_cons_self)

/-- A balanced text in brackets shows nothing but the opening one. -/
theorem Neutral.conceals_enclosed (h : Neutral text) {opening closing : Char}
    (hpair : (opening, closing) ∈ pairs) (hne : c ≠ opening) :
    Conceals c (opening :: (text ++ [closing])) where
  neutral := h.enclosed hpair
  hidden := by
    rintro ⟨_ | ⟨d, before⟩, after, heq, hbefore⟩
    · exact hne (List.cons.inj heq).1.symm
    · obtain ⟨rfl, hinner⟩ := List.cons.inj heq
      have hopen : step [] opening = some [closing] := by simp [step, (pairs_spec _ hpair).1]
      rw [openAfter_cons, hopen, Option.bind_some] at hbefore
      -- Whatever was read of the inner text, the bracket around it is still open.
      obtain ⟨later, hlater⟩ : ∃ later, text = before ++ later := by
        rcases List.append_eq_append_iff.mp hinner with
          ⟨between, hbetween, hlast⟩ | ⟨later, hlater, -⟩
        · cases between with
          | nil => exact ⟨[], by simpa using hbetween.symm⟩
          | cons d between => simp at hlast
        · exact ⟨later, hlater⟩
      obtain ⟨opened, hopened⟩ := openAfter_of_prefix (hlater ▸ h) [closing]
      rw [hopened, Option.some.injEq] at hbefore
      simp at hbefore

end Shown

section Ends

variable {c : Char}

/-- Texts that conceal a character end where it comes next. -/
theorem Conceals.append_inj {text other rest later : List Char} (htext : Conceals c text)
    (hother : Conceals c other) (hrest : ∀ d ∈ rest.head?, d = c) (hlater : ∀ d ∈ later.head?, d = c)
    (h : text ++ rest = other ++ later) : text = other ∧ rest = later := by
  rcases List.append_eq_append_iff.mp h with
    ⟨_ | ⟨d, between⟩, rfl, rfl⟩ | ⟨_ | ⟨d, between⟩, rfl, rfl⟩
  · simp
  · obtain rfl := hrest d rfl
    exact absurd (htext.neutral.shows d between) hother.hidden
  · simp
  · obtain rfl := hlater d rfl
    exact absurd (hother.neutral.shows d between) htext.hidden

/-- A joined list is its first text and then each other one after the separator. -/
theorem intercalate_cons (separator text : List Char) (texts : List (List Char)) :
    separator.intercalate (text :: texts) = text ++ texts.flatMap (separator ++ ·) := by
  induction texts generalizing text with
  | nil => simp
  | cons next texts ih =>
    rw [List.intercalate_cons_cons, ih, List.flatMap_cons, List.append_assoc, List.append_assoc]

/-- After a text of a joined list comes the separator or nothing. -/
theorem head?_flatMap_separator {separator : List Char} (hseparator : separator.head? = some c)
    (texts : List (List Char)) : ∀ d ∈ (texts.flatMap (separator ++ ·)).head?, d = c := by
  cases texts <;> simp [hseparator]

/-- Texts with a separator before each are told apart where the separator begins with a character
that all of them conceal. -/
theorem flatMap_separator_inj {separator : List Char} (hseparator : separator.head? = some c)
    {texts others : List (List Char)} (htexts : ∀ text ∈ texts, Conceals c text)
    (hothers : ∀ other ∈ others, Conceals c other)
    (h : texts.flatMap (separator ++ ·) = others.flatMap (separator ++ ·)) : texts = others := by
  have hne : separator ≠ [] := by
    rintro rfl
    contradiction
  induction texts generalizing others with
  | nil =>
    cases others with
    | nil => rfl
    | cons other others => simp [hne] at h
  | cons text texts ih =>
    cases others with
    | nil => simp [hne] at h
    | cons other others =>
      rw [List.forall_mem_cons] at htexts hothers
      simp only [List.flatMap_cons, List.append_assoc, List.append_cancel_left_eq] at h
      obtain ⟨rfl, hrest⟩ := htexts.1.append_inj hothers.1 (head?_flatMap_separator hseparator texts)
        (head?_flatMap_separator hseparator others) h
      rw [ih htexts.2 hothers.2 hrest]

/-- Joined texts are determined by the whole if none of them shows how the separator begins. -/
theorem intercalate_inj {separator : String} (hseparator : separator.toList.head? = some c)
    {texts others : List String} (hne : texts ≠ []) (hne' : others ≠ [])
    (htexts : ∀ text ∈ texts, Conceals c text.toList)
    (hothers : ∀ other ∈ others, Conceals c other.toList)
    (h : separator.intercalate texts = separator.intercalate others) : texts = others := by
  obtain ⟨text, texts, rfl⟩ := List.exists_cons_of_ne_nil hne
  obtain ⟨other, others, rfl⟩ := List.exists_cons_of_ne_nil hne'
  rw [List.forall_mem_cons] at htexts hothers
  have hlists := congrArg String.toList h
  simp only [String.toList_intercalate, List.map_cons, intercalate_cons] at hlists
  obtain ⟨htext, hrest⟩ := htexts.1.append_inj hothers.1 (head?_flatMap_separator hseparator _)
    (head?_flatMap_separator hseparator _) hlists
  have hmap := flatMap_separator_inj hseparator (List.forall_mem_map.mpr htexts.2)
    (List.forall_mem_map.mpr hothers.2) hrest
  rw [String.toList_inj.mp htext, List.map_injective_iff.mpr (fun _ _ => String.toList_inj.mp) hmap]

end Ends

end RubySig.Text.Brackets
