import RubySig.Data.Types

/-!
# Reading back what was written

A reader belongs to a writer when it reads back what is written of every value of some class, and
gives no values outside that class. Both halves together say that reading what is written of a
value gives the value exactly when it belongs to the class, and that a value that was read once is
read back from its own data, whatever data it was first read from.

The law is stated here for the readers of single texts, numbers and words, and carried through
everything that readers are put together with: values that may be absent, lists, keyed lists,
fields, and records whose kind is told by a tag. Which problems a reader lists when it fails is not
looked at.
-/

namespace RubySig.Data

namespace Checked

variable {α β : Type}

/-- A function of a result is a value exactly when the result is. -/
theorem map_eq_ok_iff {f : α → β} {x : Checked α} {b : β} :
    f <$> x = ok b ↔ ∃ a, x = ok a ∧ f a = b := by
  cases x with
  | ok a => simp
  | bad issues => simp [Functor.map, map]

/-- A function that was read and its argument give a value exactly when both are values. -/
theorem seq_eq_ok_iff {f : Checked (α → β)} {x : Checked α} {b : β} :
    f <*> x = ok b ↔ ∃ g a, f = ok g ∧ x = ok a ∧ g a = b := by
  cases f <;> cases x <;> simp [Seq.seq, apply]

/-- A result that is a value has a property. -/
def Ensures (x : Checked α) (P : α → Prop) : Prop :=
  ∀ a, x = ok a → P a

/-- What a function makes of a value has a property if it has it for every value like this one. -/
theorem Ensures.map {f : α → β} {x : Checked α} {P : α → Prop} {Q : β → Prop} (h : x.Ensures P)
    (hf : ∀ a, P a → Q (f a)) : (f <$> x).Ensures Q := by
  intro b hb
  obtain ⟨a, ha, rfl⟩ := map_eq_ok_iff.mp hb
  exact hf a (h a ha)

/-- What a function makes of a value has a property if it has it for every value like this one. -/
theorem Ensures.seq {f : Checked (α → β)} {x : Checked α} {P : α → Prop} {Q : β → Prop}
    (hf : f.Ensures fun g => ∀ a, P a → Q (g a)) (hx : x.Ensures P) : (f <*> x).Ensures Q := by
  intro b hb
  obtain ⟨g, a, hg, ha, rfl⟩ := seq_eq_ok_iff.mp hb
  exact hf g hg a (hx a ha)

/-- A step of the path makes no value of a failure and no failure of a value. -/
@[simp]
theorem under_eq_ok_iff {step : Step} {x : Checked α} {a : α} : under step x = ok a ↔ x = ok a := by
  cases x <;> simp [under]

/-- A failure is no value. -/
@[simp]
theorem fail_ne_ok {cause : Cause} {a : α} : (fail cause : Checked α) ≠ ok a := by
  simp [fail]

end Checked

namespace Reader

open Checked

/-- A reader reads back what is written of the values with a property, and gives no other values. -/
structure Inverts {α : Type} (read : Reader α) (write : α → Value) (P : α → Prop) : Prop where
  readBack : ∀ {a : α}, P a → read (write a) = .ok a
  sound : ∀ value, (read value).Ensures P

/-- The reader of a field reads back what stands in a field of this name, and gives no values without
the property. -/
structure InvertsField {α : Type} (read : Fields → Checked α) (name : String) (write : α → Value)
    (P : α → Prop) : Prop where
  readBack : ∀ {fields : Fields} {a : α}, fields.lookup name = some (write a) → P a → read fields = .ok a
  sound : ∀ fields, (read fields).Ensures P

variable {α β : Type} {read : Reader α} {write : α → Value} {P Q : α → Prop}

namespace Inverts

/-- The class of values that are read back can be told in another way. -/
theorem congr (h : Inverts read write P) (hiff : ∀ a, P a ↔ Q a) : Inverts read write Q where
  readBack ha := h.readBack ((hiff _).mpr ha)
  sound value a ha := (hiff a).mp (h.sound value a ha)

/-- A reader reads back what is written of the same values in another way. -/
theorem of_write_eq (h : Inverts read write P) {write' : α → Value} (hwrite : ∀ a, write' a = write a) :
    Inverts read write' P where
  readBack ha := by rw [hwrite, h.readBack ha]
  sound := h.sound

/-- A value in another form is written as before. -/
theorem map (h : Inverts read write P) (make : α → β) {write' : β → Value}
    (hwrite : ∀ a, write' (make a) = write a) :
    Inverts (fun value => make <$> read value) write' (fun b => ∃ a, b = make a ∧ P a) where
  readBack := by
    rintro _ ⟨a, rfl, ha⟩
    simp only [hwrite, h.readBack ha, map_ok]
  sound value := (h.sound value).map fun a ha => ⟨a, rfl, ha⟩

end Inverts

/-! ## Single values -/

/-- A text is read back. -/
theorem inverts_text : Inverts text .text (fun _ => True) :=
  ⟨fun _ => rfl, fun _ _ _ => trivial⟩

/-- A truth value is read back. -/
theorem inverts_bool : Inverts bool .bool (fun _ => True) :=
  ⟨fun _ => rfl, fun _ _ _ => trivial⟩

/-- A number is read back. -/
theorem inverts_int : Inverts int .int (fun _ => True) :=
  ⟨fun _ => rfl, fun _ _ _ => trivial⟩

/-- A value is found again among some values under its own word, if it is one of them and no two of
them have the same word. -/
theorem lookup_words {word : α → String} (hword : Function.Injective word) {a : α} {values : List α}
    (ha : a ∈ values) : (values.map fun b => (word b, b)).lookup (word a) = some a := by
  induction values with
  | nil => simp at ha
  | cons b rest ih =>
    by_cases hb : word a = word b
    · obtain rfl := hword hb
      simp
    · have hrest : a ∈ rest := by
        rcases List.mem_cons.mp ha with rfl | hrest
        · exact absurd rfl hb
        · exact hrest
      have hother : (word a == word b) = false := by simpa using hb
      simp [List.lookup_cons, hother, ih hrest]

/-- A word for a value is read back where every value has a word of its own. -/
theorem inverts_word {cause : List String → Cause} {word : α → String} {values : List α}
    (hword : Function.Injective word) (hall : ∀ a, a ∈ values) :
    Inverts (Reader.word cause (values.map fun a => (word a, a))) (fun a => .text (word a))
      (fun _ => True) where
  readBack := by
    intro a _
    simp only [Reader.word, lookup_words hword (hall a)]
  sound _ _ _ := trivial

/-- A fixed text is read back. -/
theorem inverts_literal (name : String) :
    Inverts (literal name) (fun _ => .text name) (fun _ => True) where
  readBack := by
    intro a _
    simp [literal, Reader.word]
  sound _ _ _ := trivial

/-! ## Absent values and lists -/

/-- A value that may be absent is read back if no value is written as null. -/
theorem Inverts.nullable (h : Inverts read write P) (hnull : ∀ a, write a ≠ .null) :
    Inverts (nullable read) (Value.ofOption write) (fun a => ∀ b ∈ a, P b) where
  readBack := by
    intro a ha
    cases a with
    | none => rfl
    | some b =>
      have hb := h.readBack (ha b rfl)
      have hnotNull := hnull b
      unfold Reader.nullable
      split
      · simp_all [Value.ofOption]
      · simp [Value.ofOption, hb]
  sound := by
    intro value a ha b hb
    obtain rfl : a = some b := hb
    unfold Reader.nullable at ha
    split at ha
    · simp at ha
    · obtain ⟨c, hc, hcb⟩ := map_eq_ok_iff.mp ha
      obtain rfl : c = b := by simpa using hcb
      exact h.sound value c hc

/-- The values of a list are read back from any place on. -/
theorem Inverts.eachFrom_readBack (h : Inverts read write P) {items : List α}
    (hitems : ∀ item ∈ items, P item) (i : Nat) : eachFrom read i (items.map write) = .ok items := by
  induction items generalizing i with
  | nil => rfl
  | cons item rest ih =>
    rw [List.forall_mem_cons] at hitems
    simp [eachFrom, h.readBack hitems.1, ih hitems.2]

/-- The values that are read from a list have the property. -/
theorem Inverts.eachFrom_sound (h : Inverts read write P) {values : List Value} {i : Nat} {items : List α}
    (hread : eachFrom read i values = .ok items) : ∀ item ∈ items, P item := by
  induction values generalizing i items with
  | nil =>
    obtain rfl : [] = items := by simpa [eachFrom] using hread
    simp
  | cons value rest ih =>
    simp only [eachFrom, seq_eq_ok_iff, map_eq_ok_iff, under_eq_ok_iff] at hread
    obtain ⟨_, later, ⟨item, hitem, rfl⟩, hlater, rfl⟩ := hread
    exact List.forall_mem_cons.mpr ⟨h.sound _ _ hitem, ih hlater⟩

/-- A list is read back if its values are. -/
theorem Inverts.list (h : Inverts read write P) :
    Inverts (list read) (fun items => .list (items.map write)) (fun items => ∀ item ∈ items, P item) where
  readBack hitems := h.eachFrom_readBack hitems 0
  sound := by
    intro value items hread
    unfold Reader.list at hread
    split at hread
    · exact h.eachFrom_sound hread
    · exact absurd hread fail_ne_ok

/-! ## Keyed lists -/

/-- The entries of a keyed list are read back. -/
theorem Inverts.eachEntry_readBack (h : Inverts read write P) {entries : List (String × α)}
    (hentries : ∀ entry ∈ entries, P entry.2) :
    eachEntry read (entries.map fun entry => (entry.1, write entry.2)) = .ok entries := by
  induction entries with
  | nil => rfl
  | cons entry rest ih =>
    rw [List.forall_mem_cons] at hentries
    simp [eachEntry, h.readBack hentries.1, ih hentries.2]

/-- The entries that are read have the keys of the data. -/
theorem Inverts.eachEntry_sound (h : Inverts read write P) {fields : Fields} {entries : List (String × α)}
    (hread : eachEntry read fields = .ok entries) :
    entries.map Prod.fst = fields.map Prod.fst ∧ ∀ entry ∈ entries, P entry.2 := by
  induction fields generalizing entries with
  | nil =>
    obtain rfl : [] = entries := by simpa [eachEntry] using hread
    simp
  | cons field rest ih =>
    obtain ⟨key, value⟩ := field
    simp only [eachEntry, seq_eq_ok_iff, map_eq_ok_iff, under_eq_ok_iff] at hread
    obtain ⟨_, later, ⟨item, hitem, rfl⟩, hlater, rfl⟩ := hread
    obtain ⟨hkeys, hlater⟩ := ih hlater
    exact ⟨by simp [hkeys], List.forall_mem_cons.mpr ⟨h.sound _ _ hitem, hlater⟩⟩

/-- Pairs are found again in the list that is written of them. -/
theorem entries?_pairs (fields : Fields) :
    entries? (.list (fields.map fun field => .list [.text field.1, field.2])) = some fields := by
  unfold entries?
  induction fields with
  | nil => rfl
  | cons field rest ih =>
    simp only [List.map_cons, List.mapM_cons, pair?, ih]
    rfl

/-- A keyed list is read back if its values are and no key stands in it twice. -/
theorem Inverts.keyed (h : Inverts read write P) :
    Inverts (keyed read)
      (fun entries => .list (entries.map fun entry => .list [.text entry.1, write entry.2]))
      (fun entries => (entries.map Prod.fst).Nodup ∧ ∀ entry ∈ entries, P entry.2) where
  readBack := by
    rintro entries ⟨hkeys, hentries⟩
    have hpairs : entries? (.list (entries.map fun entry => .list [.text entry.1, write entry.2])) =
        some (entries.map fun entry => (entry.1, write entry.2)) := by
      simpa [Function.comp_def] using entries?_pairs (entries.map fun entry => (entry.1, write entry.2))
    have hdistinct : ((entries.map fun entry => (entry.1, write entry.2)).map Prod.fst).Nodup := by
      simpa [Function.comp_def] using hkeys
    simp only [Reader.keyed, hpairs, Keyed.ofPairs_eq_self hdistinct, h.eachEntry_readBack hentries]
  sound := by
    intro value entries hread
    simp only [Reader.keyed] at hread
    split at hread
    · obtain ⟨hkeys, hentries⟩ := h.eachEntry_sound hread
      exact ⟨hkeys ▸ Keyed.nodup_ofPairs _, hentries⟩
    · exact absurd hread fail_ne_ok

/-! ## Fields of records -/

/-- A field that must be there is read back if its value is. -/
theorem Inverts.required (h : Inverts read write P) (name : String) :
    InvertsField (fun fields => required fields name read) name write P where
  readBack := by
    intro fields a hfield ha
    simp [Reader.required, hfield, h.readBack ha]
  sound := by
    intro fields a hread
    unfold Reader.required at hread
    split at hread <;> simp at hread
    exact h.sound _ _ hread

/-- A field with a default is read back if its value is and the default has the property. -/
theorem Inverts.defaulted (h : Inverts read write P) (name : String) (default : α) (hdefault : P default) :
    InvertsField (fun fields => defaulted fields name default read) name write P where
  readBack := by
    intro fields a hfield ha
    simp [Reader.defaulted, hfield, h.readBack ha]
  sound := by
    intro fields a hread
    unfold Reader.defaulted at hread
    split at hread
    · exact h.sound _ _ (under_eq_ok_iff.mp hread)
    · cases hread
      exact hdefault

/-- The field that names the kind of a record is read back. -/
theorem tag_eq_ok {fields : Fields} {key name : String} (h : fields.lookup key = some (.text name)) :
    tag fields key name = .ok () :=
  ((inverts_literal name).defaulted key () trivial).readBack h trivial

/-- Nothing is asked of what a tag gives. -/
theorem tag_ensures {fields : Fields} {key name : String} : (tag fields key name).Ensures fun _ => True :=
  fun _ _ => trivial

/-- A record gives a value exactly when its fields do. -/
theorem record_eq_ok_iff {className : String} {read : Fields → Checked α} {value : Value} {a : α} :
    record className read value = .ok a ↔ ∃ fields, value = .record fields ∧ read fields = .ok a := by
  cases value with
  | record fields => simp [record]
  | null | bool | int | real | text | list => simp [record]

/-- What the fields of a record give has a property if it has it for all fields. -/
theorem record_ensures {className : String} {read : Fields → Checked α} {P : α → Prop}
    (h : ∀ fields, (read fields).Ensures P) (value : Value) : (record className read value).Ensures P := by
  intro a ha
  obtain ⟨fields, -, hread⟩ := record_eq_ok_iff.mp ha
  exact h fields a hread

/-! ## Records whose kind is told by a tag -/

/-- A tagged record gives a value exactly when it has a known tag and the reader of this tag gives
one. -/
theorem tagged_eq_ok_iff {key : String} {kinds : List (String × Reader α)} {value : Value} {a : α} :
    tagged key kinds value = .ok a ↔
      ∃ fields name read, value = .record fields ∧ fields.lookup key = some (.text name) ∧
        kinds.lookup name = some read ∧ read value = .ok a := by
  cases value with
  | null | bool | int | real | text | list => simp [tagged]
  | record fields =>
    cases hfield : fields.lookup key with
    | none => simp [tagged, hfield]
    | some found =>
      cases found with
      | null | bool | int | real | list | record => simp [tagged, hfield]
      | text name => cases hkind : kinds.lookup name <;> simp [tagged, hfield, hkind]

/-- What is found under a key is among the entries. -/
theorem mem_of_lookup {κ γ : Type} [BEq κ] [LawfulBEq κ] {entries : List (κ × γ)} {key : κ} {value : γ}
    (h : entries.lookup key = some value) : (key, value) ∈ entries := by
  obtain ⟨before, after, rfl, -⟩ := List.lookup_eq_some_iff.mp h
  simp

/-- A value of one of several kinds is read back if each kind is, and its data show its tag. -/
theorem inverts_tagged {key : String} {kinds : List (String × Reader α)} (tagOf : α → String)
    (hwrite : ∀ a, ∃ fields, write a = .record fields ∧ fields.lookup key = some (.text (tagOf a)))
    (hkind : ∀ a, ∃ read, kinds.lookup (tagOf a) = some read)
    (hread : ∀ name read, (name, read) ∈ kinds → Inverts read write fun a => tagOf a = name ∧ P a) :
    Inverts (tagged key kinds) write P where
  readBack := by
    intro a ha
    obtain ⟨fields, hfields, htag⟩ := hwrite a
    obtain ⟨read, hlookup⟩ := hkind a
    exact tagged_eq_ok_iff.mpr ⟨fields, tagOf a, read, hfields, htag, hlookup,
      (hread _ _ (mem_of_lookup hlookup)).readBack ⟨rfl, ha⟩⟩
  sound := by
    intro value a ha
    obtain ⟨_, _, _, _, _, hlookup, ha⟩ := tagged_eq_ok_iff.mp ha
    exact ((hread _ _ (mem_of_lookup hlookup)).sound _ _ ha).2

end Reader

end RubySig.Data
