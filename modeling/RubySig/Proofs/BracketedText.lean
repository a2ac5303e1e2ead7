import Mathlib.Data.List.Basic

/-!
# Texts with brackets

A text that keeps its brackets matched can stand inside another one without being taken for a part
of it. Two readings of a text are compared here: the brackets that are still open after it, innermost
first, and the pieces that it falls into at every comma and blank outside of all brackets. The second
only counts brackets, the first also looks whether each is closed by its own kind.

A text is sealed when it leaves the open brackets as they are and is passed over as a whole where
pieces are cut. Sealed texts can be put together, and a list of them that is joined by commas is cut
into the same list again.
-/

namespace RubySig.Text.Brackets

/-- The opening brackets, each with the bracket that closes it. -/
def pairs : List (Char × Char) :=
  [('(', ')'), ('[', ']'), ('\x7b', '\x7d')]

/-- The bracket that closes an opening one. -/
def closing? (c : Char) : Option Char :=
  pairs.lookup c

/-- A closing bracket. -/
def isClosing (c : Char) : Bool :=
  (pairs.map Prod.snd).contains c

/-- The brackets still to be closed after one more character; none if it closes a bracket that is
not the innermost open one. -/
def step (stack : List Char) (c : Char) : Option (List Char) :=
  match closing? c with
  | some close => some (close :: stack)
  | none =>
    if isClosing c then
      match stack with
      | [] => none
      | close :: outer => if c = close then some outer else none
    else some stack

/-- The brackets still to be closed after a text. -/
def openAfter (stack text : List Char) : Option (List Char) :=
  text.foldlM step stack

/-- Every bracket of a text is closed by its own kind, and none is closed that is not open. -/
def IsBalanced (text : String) : Prop :=
  openAfter [] text.toList = some []

/-- The number of open brackets after one more character. -/
def depthAfter (depth : Nat) (c : Char) : Nat :=
  if (closing? c).isSome then depth + 1 else if isClosing c then depth - 1 else depth

/-- Cut a text at every comma and blank outside of all brackets. `piece` is what came after the last
cut. -/
def cutFrom : (depth : Nat) → (piece : List Char) → List Char → List (List Char)
  | _, piece, [] => [piece]
  | 0, piece, ',' :: ' ' :: rest => piece :: cutFrom 0 [] rest
  | depth, piece, c :: rest => cutFrom (depthAfter depth c) (piece ++ [c]) rest

/-- The pieces of a text between the commas that are outside of all brackets. -/
def cut (text : String) : List String :=
  (cutFrom 0 [] text.toList).map String.ofList

/-- The comma and the brackets. -/
def marks : List Char :=
  [',', '(', ')', '[', ']', '\x7b', '\x7d']

/-- A text without commas and brackets. -/
def IsPlain (text : String) : Prop :=
  ∀ c ∈ text.toList, c ∉ marks

instance : DecidablePred IsPlain := fun text =>
  List.decidableBAll (· ∉ marks) text.toList

/-- A text leaves the open brackets as they are. -/
def Neutral (text : List Char) : Prop :=
  ∀ stack, openAfter stack text = some stack

/-- A text that leaves the open brackets as they are and is not cut. -/
structure Sealed (text : String) : Prop where
  neutral : Neutral text.toList
  passed : ∀ piece rest, cutFrom 0 piece (text.toList ++ rest) = cutFrom 0 (piece ++ text.toList) rest

/-- What the brackets of a pair do to the open brackets. -/
theorem pairs_spec : ∀ pair ∈ pairs, closing? pair.1 = some pair.2 ∧ pair.1 ≠ ',' ∧
    closing? pair.2 = none ∧ isClosing pair.2 = true ∧ pair.2 ≠ ',' := by
  decide

/-- A character that is no mark neither opens nor closes anything. -/
theorem not_mem_marks_spec {c : Char} (h : c ∉ marks) :
    c ≠ ',' ∧ closing? c = none ∧ isClosing c = false := by
  simp only [marks, List.mem_cons, List.not_mem_nil, or_false, not_or] at h
  simp [closing?, isClosing, pairs, List.lookup_eq_none_iff, h]

section Open

variable {text later : List Char}

/-- The brackets that are open after two texts in a row are found by reading them in turn. -/
theorem openAfter_append (stack : List Char) :
    openAfter stack (text ++ later) = (openAfter stack text).bind (openAfter · later) :=
  List.foldlM_append

/-- The brackets that are open after a text are found by reading its first character first. -/
theorem openAfter_cons (stack : List Char) (c : Char) :
    openAfter stack (c :: text) = (step stack c).bind (openAfter · text) :=
  List.foldlM_cons

/-- Two neutral texts in a row are neutral. -/
theorem Neutral.append (h : Neutral text) (hlater : Neutral later) : Neutral (text ++ later) := by
  intro stack
  rw [openAfter_append, h stack]
  exact hlater stack

/-- A text without brackets and other marks is neutral. -/
theorem neutral_of_plain (h : ∀ c ∈ text, c ∉ marks) : Neutral text := by
  intro stack
  induction text with
  | nil => rfl
  | cons c text ih =>
    obtain ⟨-, hopens, hcloses⟩ := not_mem_marks_spec (h c List.mem_cons_self)
    have hstep : step stack c = some stack := by simp [step, hopens, hcloses]
    rw [openAfter_cons, hstep, Option.bind_some, ih fun c hc => h c (List.mem_cons_of_mem _ hc)]

/-- A pair of brackets around a text leaves the open brackets as they are. -/
theorem Neutral.enclosed (h : Neutral text) {opening closing : Char} (hpair : (opening, closing) ∈ pairs) :
    Neutral (opening :: (text ++ [closing])) := by
  obtain ⟨hopens, -, hnot, hcloses, -⟩ := pairs_spec _ hpair
  intro stack
  have hopen : step stack opening = some (closing :: stack) := by simp [step, hopens]
  have hclose : openAfter (closing :: stack) [closing] = some stack := by
    simp [openAfter, step, hnot, hcloses]
  rw [openAfter_cons, hopen, Option.bind_some, openAfter_append, h, Option.bind_some, hclose]

/-- The depth counts the open brackets, whatever is open around them. -/
theorem depthAfter_of_step {stack next : List Char} {c : Char} (h : step stack c = some next)
    (around : Nat) : depthAfter (stack.length + around) c = next.length + around := by
  unfold step at h
  unfold depthAfter
  cases hopens : closing? c with
  | some close =>
    simp only [hopens, Option.some.injEq] at h
    subst h
    simp only [Option.isSome_some, if_true, List.length_cons]
    omega
  | none =>
    cases hcloses : isClosing c with
    | false =>
      simp only [hopens, hcloses, Bool.false_eq_true, if_false, Option.some.injEq] at h
      subst h
      simp
    | true =>
      cases stack with
      | nil => simp [hopens, hcloses] at h
      | cons close outer =>
        simp only [hopens, hcloses, if_true, Option.ite_none_right_eq_some, Option.some.injEq] at h
        obtain ⟨-, rfl⟩ := h
        simp only [Option.isSome_none, Bool.false_eq_true, if_false, if_true, List.length_cons]
        omega

end Open

section Cut

/-- Inside brackets nothing is cut. -/
theorem cutFrom_inside (depth : Nat) (piece rest : List Char) (c : Char) :
    cutFrom (depth + 1) piece (c :: rest) = cutFrom (depthAfter (depth + 1) c) (piece ++ [c]) rest := by
  simp [cutFrom]

/-- A character other than a comma is not cut. -/
theorem cutFrom_of_ne {c : Char} (h : c ≠ ',') (depth : Nat) (piece rest : List Char) :
    cutFrom depth piece (c :: rest) = cutFrom (depthAfter depth c) (piece ++ [c]) rest := by
  simp [cutFrom, h]

/-- A text without marks goes into the piece that is being read. -/
theorem cutFrom_append_of_plain {text : List Char} (h : ∀ c ∈ text, c ∉ marks) (piece rest : List Char) :
    cutFrom 0 piece (text ++ rest) = cutFrom 0 (piece ++ text) rest := by
  induction text generalizing piece with
  | nil => simp
  | cons c text ih =>
    obtain ⟨hcomma, hopens, hcloses⟩ := not_mem_marks_spec (h c List.mem_cons_self)
    have hdepth : depthAfter 0 c = 0 := by simp [depthAfter, hopens, hcloses]
    rw [List.cons_append, cutFrom_of_ne hcomma, hdepth, ih fun c hc => h c (List.mem_cons_of_mem _ hc),
      List.append_assoc, List.singleton_append]

/-- A text inside brackets is passed over as long as it only closes what it has opened. -/
theorem cutFrom_append_of_openAfter {stack next text : List Char} (h : openAfter stack text = some next)
    (depth : Nat) (piece rest : List Char) :
    cutFrom (stack.length + (depth + 1)) piece (text ++ rest) =
      cutFrom (next.length + (depth + 1)) (piece ++ text) rest := by
  induction text generalizing stack piece with
  | nil =>
    obtain rfl : stack = next := by simpa [openAfter] using h
    simp
  | cons c text ih =>
    rw [openAfter_cons, Option.bind_eq_some_iff] at h
    obtain ⟨after, hstep, hrest⟩ := h
    rw [List.cons_append, ← Nat.add_assoc, cutFrom_inside, Nat.add_assoc, depthAfter_of_step hstep,
      ih hrest, List.append_assoc, List.singleton_append]

end Cut

section Texts

variable {text later : String}

/-- Two sealed texts in a row are sealed. -/
theorem Sealed.append (h : Sealed text) (hlater : Sealed later) : Sealed (text ++ later) where
  neutral := by
    rw [String.toList_append]
    exact h.neutral.append hlater.neutral
  passed piece rest := by
    rw [String.toList_append, List.append_assoc, h.passed, hlater.passed, List.append_assoc]

/-- A text without commas and brackets is sealed. -/
theorem sealed_of_isPlain (h : IsPlain text) : Sealed text :=
  ⟨neutral_of_plain h, cutFrom_append_of_plain h⟩

/-- A balanced text in brackets is sealed, also with commas in it. -/
theorem sealed_of_enclosed {inner : List Char} (h : Neutral inner) {opening closing : Char}
    (hpair : (opening, closing) ∈ pairs) (htext : text.toList = opening :: (inner ++ [closing])) :
    Sealed text where
  neutral := htext ▸ h.enclosed hpair
  passed piece rest := by
    obtain ⟨hopens, hcomma, hnot, hcloses, hcomma'⟩ := pairs_spec _ hpair
    have hopen : depthAfter 0 opening = 1 := by simp [depthAfter, hopens]
    have hclose : depthAfter 1 closing = 0 := by simp [depthAfter, hnot, hcloses]
    have hinner := cutFrom_append_of_openAfter (h []) 0 (piece ++ [opening]) (closing :: rest)
    simp only [List.length_nil, Nat.zero_add] at hinner
    rw [htext, List.cons_append, cutFrom_of_ne hcomma, hopen, List.append_assoc, List.singleton_append,
      hinner, cutFrom_of_ne hcomma', hclose]
    simp

/-- What holds of the empty text and goes on to texts that are put together holds of a joined list. -/
theorem intercalate_closed {P : String → Prop} (hempty : P "") (happend : ∀ s t, P s → P t → P (s ++ t))
    {separator : String} (hseparator : P separator) {texts : List String} (h : ∀ text ∈ texts, P text) :
    P (separator.intercalate texts) := by
  induction texts with
  | nil => rwa [String.intercalate_nil]
  | cons text texts ih =>
    have hrest := ih fun text htext => h text (List.mem_cons_of_mem _ htext)
    cases texts with
    | nil =>
      rw [String.intercalate_singleton]
      exact h text List.mem_cons_self
    | cons next texts =>
      rw [String.intercalate_cons_cons]
      exact happend _ _ (happend _ _ (h text List.mem_cons_self) hseparator) hrest

/-- Sealed texts that are joined by commas are cut apart again. -/
theorem cut_intercalate {texts : List String} (hne : texts ≠ []) (h : ∀ text ∈ texts, Sealed text) :
    cut (", ".intercalate texts) = texts := by
  suffices hcut : cutFrom 0 [] (", ".intercalate texts).toList = texts.map String.toList by
    rw [cut, hcut, List.map_map]
    simp [Function.comp_def]
  induction texts with
  | nil => contradiction
  | cons text texts ih =>
    have hsealed := h text List.mem_cons_self
    cases texts with
    | nil =>
      have hpassed := hsealed.passed [] []
      simpa [cutFrom] using hpassed
    | cons next texts =>
      have hrest := ih (List.cons_ne_nil _ _) fun text htext => h text (List.mem_cons_of_mem _ htext)
      have hcomma (later : List Char) :
          cutFrom 0 text.toList (", ".toList ++ later) = text.toList :: cutFrom 0 [] later := by
        simp [cutFrom]
      rw [String.intercalate_cons_cons, String.toList_append, String.toList_append, List.append_assoc,
        hsealed.passed, List.nil_append, hcomma, hrest]
      rfl

-- A comma in brackets and one without a blank are no places to cut.
example : cut "Hash[K, V] h, a,b" = ["Hash[K, V] h", "a,b"] := by
  decide

end Texts

end RubySig.Text.Brackets
