import RubySig.Comment

/-!
# What comments answer, told from their notes

The first assertion, the first application and the first return type of a comment, its asserted
method types and its passthrough items, each said by the notes in the order in which they stand. The
first note of a kind is told by a split of the notes: nothing of the kind stands before it. A comment
that is absent answers as one without notes.
-/

namespace RubySig

open RubySig.Rbs

namespace Note

variable {α β : Type}

/-- The first note of a kind among some notes holds this value, or there is no note of the kind. -/
inductive First (kind : α → Note) : List Note → Option α → Prop where
  | found (before : List Note) (a : α) (after : List Note) (hbefore : ∀ b, kind b ∉ before) :
    First kind (before ++ kind a :: after) (some a)
  | absent {notes : List Note} (habsent : ∀ b, kind b ∉ notes) : First kind notes none

/-- The method type that a note asserts. -/
def payload? : Note → Option MethodType
  | assertion ⟨_, .method type⟩ => some type
  | _ => none

/-- The passthrough in a note. -/
def passthrough? : Note → Option Passthrough
  | passthrough note => some note
  | _ => none

/-- A search for what the notes of one kind say ends with the first note of that kind. -/
theorem findSome?_eq_iff_first (kind : α → Note) (value : α → β) {pick : Note → Option β}
    (hpick : ∀ note b, pick note = some b ↔ ∃ a, note = kind a ∧ value a = b)
    (notes : List Note) (result : Option β) :
    notes.findSome? pick = result ↔ ∃ first, First kind notes first ∧ first.map value = result := by
  have hnone (note : Note) : pick note = none ↔ ∀ a, kind a ≠ note := by
    simp only [Option.eq_none_iff_forall_ne_some, ne_eq, hpick]
    grind
  have hnotMem (notes : List Note) : (∀ note ∈ notes, pick note = none) ↔ ∀ a, kind a ∉ notes := by
    simp only [hnone]
    grind
  constructor
  · intro h
    cases result with
    | none =>
      rw [List.findSome?_eq_none_iff, hnotMem] at h
      exact ⟨none, .absent h, rfl⟩
    | some b =>
      obtain ⟨before, note, after, rfl, hnote, hbefore⟩ := List.findSome?_eq_some_iff.mp h
      obtain ⟨a, rfl, rfl⟩ := (hpick note b).mp hnote
      exact ⟨some a, .found before a after ((hnotMem before).mp hbefore), rfl⟩
  · rintro ⟨first, hfirst, rfl⟩
    cases hfirst with
    | absent habsent => exact List.findSome?_eq_none_iff.mpr ((hnotMem notes).mpr habsent)
    | found before a after hbefore =>
      exact List.findSome?_eq_some_iff.mpr
        ⟨before, kind a, after, rfl, (hpick _ _).mpr ⟨a, rfl, rfl⟩, (hnotMem before).mpr hbefore⟩

end Note

namespace CommentBlock

variable {α : Type} (comments : Option CommentBlock)

/-- The first note of a kind in a comment that may be absent. -/
def FirstNote (kind : α → Note) (first : Option α) : Prop :=
  Note.First kind (comments.elim [] CommentBlock.notes) first

/-- This is the type in the first note on the return value, or there is no such note. -/
def FirstReturn (type : Option Ty) : Prop :=
  ∃ first, FirstNote comments Note.returns first ∧ first.map ReturnNote.type = type

/-- The method types that the notes assert, in order. -/
def payloads : List MethodType :=
  (comments.elim [] CommentBlock.notes).filterMap Note.payload?

/-- The items that the notes pass on, in order. -/
def items : List String :=
  ((comments.elim [] CommentBlock.notes).filterMap Note.passthrough?).flatMap Passthrough.contents

/-- An absent comment has no notes, and any other comment has its own. -/
theorem notesOf_eq_elim : notesOf comments = comments.elim [] CommentBlock.notes := by
  cases comments <;> rfl

/-- A search through a comment for what one kind of note holds ends with the first note of it. -/
theorem findSome?_notesOf_eq_iff (kind : α → Note) {pick : Note → Option α}
    (hpick : ∀ note a, pick note = some a ↔ note = kind a) (first : Option α) :
    (notesOf comments).findSome? pick = first ↔ FirstNote comments kind first := by
  rw [notesOf_eq_elim, Note.findSome?_eq_iff_first kind id (by simpa using hpick)]
  simp [FirstNote]

/-- The first assertion is the one in the first note that asserts something. -/
theorem firstAssertion_eq_iff (first : Option Assertion) :
    firstAssertion comments = first ↔ FirstNote comments Note.assertion first := by
  refine findSome?_notesOf_eq_iff comments Note.assertion (fun note a => ?_) first
  cases note <;> simp [Note.assertion?]

/-- The first application is the one in the first note that applies type arguments. -/
theorem firstApplication_eq_iff (first : Option Application) :
    firstApplication comments = first ↔ FirstNote comments Note.application first := by
  refine findSome?_notesOf_eq_iff comments Note.application (fun note a => ?_) first
  cases note <;> simp [Note.application?]

/-- The return type is the one in the first note on the return value. -/
theorem returnType_eq_iff (type : Option Ty) :
    returnType comments = type ↔ FirstReturn comments type := by
  have hpick (note : Note) (b : Ty) :
      note.returnType? = some b ↔ ∃ a, note = .returns a ∧ a.type = b := by
    cases note <;> simp [Note.returnType?]
  rw [returnType, notesOf_eq_elim, Note.findSome?_eq_iff_first Note.returns ReturnNote.type hpick]
  rfl

/-- The asserted method types are those of the notes that assert one, whatever else the notes say. -/
theorem methodTypes_eq_payloads : methodTypes comments = payloads comments := by
  have hpayload (note : Note) : note.assertion?.bind Assertion.methodType? = note.payload? := by
    cases note with
    | assertion note => obtain ⟨source, type | type⟩ := note <;> rfl
    | returns | var | application | passthrough => rfl
  simp only [methodTypes, notesOf_eq_elim, List.filterMap_filterMap, hpayload, payloads]

/-- The passthrough items are those of all notes that pass some on, one note after the other. -/
theorem passthroughContents_eq_items : passthroughContents comments = items comments := by
  rw [passthroughContents, notesOf_eq_elim, items]
  induction comments.elim [] CommentBlock.notes with
  | nil => rfl
  | cons note notes ih =>
    rw [List.flatMap_cons, ih]
    cases note <;> rfl

end CommentBlock

end RubySig
