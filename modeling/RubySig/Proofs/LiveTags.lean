import RubySig.Text.Markup

/-!
# Live tags

A listing reads a text from left to right and looks for backslashes followed by a tag. What it finds
is live if the number of backslashes is even, and text if it is odd. Here this search is stated as a
relation, next to `tags`, which goes through the text one character at a time and keeps a count of
backslashes: the two find the same tags. Neither sees a tag in a text that was escaped.
-/

namespace RubySig.Text.Markup

/-! ## The search -/

/-- A text starts with some backslashes and a tag with this body. -/
structure TagAt (cs : List Char) (slashes : Nat) (body rest : List Char) : Prop where
  text_eq : cs = backslashes slashes ++ '[' :: (body ++ ']' :: rest)
  begins : body.head?.any beginsTag = true
  noOpening : '[' ∉ body
  noClosing : ']' ∉ body

/-- What a search from left to right finds in a text. After a tag it goes on behind its closing
bracket, and a character at which no tag is found is passed over. -/
inductive Scan : List Char → List (Nat × List Char) → Prop where
  | done : Scan [] []
  | found {cs : List Char} {slashes : Nat} {body rest : List Char} {tags : List (Nat × List Char)} :
      TagAt cs slashes body rest → Scan rest tags → Scan cs ((slashes, body) :: tags)
  | passed {c : Char} {cs : List Char} {tags : List (Nat × List Char)} :
      (∀ slashes body rest, ¬ TagAt (c :: cs) slashes body rest) → Scan cs tags → Scan (c :: cs) tags

/-- A text without live tags: the search finds only tags after an odd number of backslashes. -/
def Inert (s : String) : Prop :=
  ∃ tags, Scan s.toList tags ∧ ∀ tag ∈ tags, tag.1 % 2 = 1

/-- A bracket is closed by the next closing bracket, with no bracket in between. -/
theorem closes_iff (cs : List Char) :
    closes cs = true ↔ ∃ body rest, cs = body ++ ']' :: rest ∧ '[' ∉ body ∧ ']' ∉ body := by
  induction cs with
  | nil => simp [closes]
  | cons c cs ih =>
    rw [closes]
    constructor
    · intro h
      split at h
      · next hc => exact ⟨[], cs, by simp [hc]⟩
      · split at h
        · contradiction
        · obtain ⟨body, rest, rfl, hopening, hclosing⟩ := ih.mp h
          exact ⟨c :: body, rest, rfl, by grind, by grind⟩
    · rintro ⟨body, rest, htext, hopening, hclosing⟩
      cases body with
      | nil => grind
      | cons b body => grind

/-- A bracket opens a tag if a body and a closing bracket follow. -/
theorem opensTag_iff (cs : List Char) :
    opensTag cs = true ↔ ∃ body rest, TagAt ('[' :: cs) 0 body rest := by
  have hopen : beginsTag '[' = false := rfl
  have hclose : beginsTag ']' = false := rfl
  constructor
  · intro h
    cases cs with
    | nil => simp [opensTag] at h
    | cons c cs =>
      rw [opensTag, Bool.and_eq_true, closes_iff] at h
      obtain ⟨hc, body, rest, rfl, hopening, hclosing⟩ := h
      exact ⟨c :: body, rest, rfl, hc, by grind, by grind⟩
  · rintro ⟨body, rest, htext, hbegins, hopening, hclosing⟩
    obtain rfl := List.tail_eq_of_cons_eq htext
    cases body with
    | nil => simp at hbegins
    | cons b body =>
      rw [List.cons_append, opensTag, Bool.and_eq_true, closes_iff]
      exact ⟨hbegins, body, rest, rfl, by grind, by grind⟩

/-- The number of backslashes before another character is unique. -/
theorem backslashes_append_inj {n m : Nat} {c d : Char} {cs ds : List Char} (hc : c ≠ '\\')
    (hd : d ≠ '\\') (h : backslashes n ++ c :: cs = backslashes m ++ d :: ds) :
    n = m ∧ c = d ∧ cs = ds := by
  induction n generalizing m with
  | zero => cases m <;> simp_all [backslashes_succ]
  | succ n ih =>
    cases m with
    | zero => simp [backslashes_succ, Ne.symm hd] at h
    | succ m =>
      simp only [backslashes_succ, List.cons_append, List.cons.injEq, true_and] at h
      simpa using ih h

/-- The text up to the first closing bracket is unique. -/
theorem body_append_inj {body body' rest rest' : List Char} (hbody : ']' ∉ body) (hbody' : ']' ∉ body')
    (h : body ++ ']' :: rest = body' ++ ']' :: rest') : body = body' ∧ rest = rest' := by
  induction body generalizing body' with
  | nil => cases body' <;> simp_all
  | cons b body ih => cases body' <;> grind

/-- The only tag that a text can start with is the one behind all of its first backslashes. -/
theorem tagAt_backslashes_iff {n slashes : Nat} {c : Char} {cs body rest : List Char} (hc : c ≠ '\\') :
    TagAt (backslashes n ++ c :: cs) slashes body rest ↔
      slashes = n ∧ c = '[' ∧ TagAt ('[' :: cs) 0 body rest := by
  constructor
  · intro h
    obtain ⟨rfl, rfl, rfl⟩ := backslashes_append_inj hc (by decide) h.text_eq
    exact ⟨rfl, rfl, { h with text_eq := rfl }⟩
  · rintro ⟨rfl, rfl, h⟩
    exact { h with text_eq := congrArg (backslashes slashes ++ ·) h.text_eq }

/-- At most one tag stands at the beginning of a text. -/
theorem TagAt.unique {cs body body' rest rest' : List Char} {slashes slashes' : Nat}
    (h : TagAt cs slashes body rest) (h' : TagAt cs slashes' body' rest') :
    slashes = slashes' ∧ body = body' ∧ rest = rest' := by
  obtain ⟨hslashes, -, htail⟩ :=
    backslashes_append_inj (by decide) (by decide) (h.text_eq.symm.trans h'.text_eq)
  exact ⟨hslashes, body_append_inj h.noClosing h'.noClosing htail⟩

/-- No tag stands at the beginning of the empty text. -/
theorem not_tagAt_nil (slashes : Nat) (body rest : List Char) : ¬ TagAt [] slashes body rest :=
  fun h => by simpa using h.text_eq

/-- Before a closing bracket without an opening one no tag starts. -/
theorem not_tagAt_of_closing {cs rest : List Char} (h : '[' ∉ cs) (slashes : Nat) (body rest' : List Char) :
    ¬ TagAt (cs ++ ']' :: rest) slashes body rest' := by
  rintro ⟨htext, -⟩
  induction slashes generalizing cs with
  | zero => cases cs <;> simp_all
  | succ n ih =>
    cases cs with
    | nil => simp [backslashes_succ] at htext
    | cons c cs =>
      simp only [backslashes_succ, List.cons_append, List.cons.injEq] at htext
      exact ih (fun hmem => h (.tail _ hmem)) htext.2

/-! ## What the search finds -/

/-- The tags of a text are unique. -/
theorem Scan.unique {cs : List Char} {tags tags' : List (Nat × List Char)} (h : Scan cs tags)
    (h' : Scan cs tags') : tags = tags' := by
  induction h generalizing tags' with
  | done =>
    cases h' with
    | done => rfl
    | found htag => exact absurd htag (not_tagAt_nil _ _ _)
  | found htag _ ih =>
    cases h' with
    | done => exact absurd htag (not_tagAt_nil _ _ _)
    | found htag' hrest' =>
      obtain ⟨rfl, rfl, rfl⟩ := htag.unique htag'
      rw [ih hrest']
    | passed hnone => exact absurd htag (hnone _ _ _)
  | passed hnone _ ih =>
    cases h' with
    | found htag' => exact absurd htag' (hnone _ _ _)
    | passed _ hrest' => exact ih hrest'

/-- A character that begins no tag is passed over. -/
theorem scan_cons_iff {c : Char} {cs : List Char} {tags : List (Nat × List Char)}
    (hnone : ∀ slashes body rest, ¬ TagAt (c :: cs) slashes body rest) :
    Scan (c :: cs) tags ↔ Scan cs tags := by
  constructor
  · intro h
    cases h with
    | found htag => exact absurd htag (hnone _ _ _)
    | passed _ h => exact h
  · exact .passed hnone

/-- A closing bracket without an opening one is passed over with all before it. -/
theorem scan_append_closing_iff {cs rest : List Char} {tags : List (Nat × List Char)} (h : '[' ∉ cs) :
    Scan (cs ++ ']' :: rest) tags ↔ Scan rest tags := by
  induction cs with
  | nil => exact scan_cons_iff (not_tagAt_of_closing h)
  | cons c cs ih =>
    exact (scan_cons_iff (not_tagAt_of_closing h)).trans (ih fun hmem => h (.tail _ hmem))

/-- Backslashes, and a character after them that opens no tag, are passed over. -/
theorem scan_backslashes_iff {n : Nat} {c : Char} {cs : List Char} {tags : List (Nat × List Char)}
    (hc : c ≠ '\\') (hopens : ¬ (c = '[' ∧ opensTag cs = true)) :
    Scan (backslashes n ++ c :: cs) tags ↔ Scan cs tags := by
  have hnone (n slashes : Nat) (body rest : List Char) :
      ¬ TagAt (backslashes n ++ c :: cs) slashes body rest := by
    rw [tagAt_backslashes_iff hc]
    rintro ⟨-, rfl, htag⟩
    exact hopens ⟨rfl, (opensTag_iff cs).mpr ⟨body, rest, htag⟩⟩
  induction n with
  | zero => exact scan_cons_iff (hnone 0)
  | succ n ih => exact (scan_cons_iff (hnone (n + 1))).trans ih

/-- Backslashes alone hold no tag. -/
theorem scan_backslashes (n : Nat) : Scan (backslashes n) [] := by
  induction n with
  | zero => exact .done
  | succ n ih =>
    refine .passed (fun slashes body rest htag => ?_) ih
    have htext : backslashes (n + 1) = backslashes slashes ++ '[' :: (body ++ ']' :: rest) := htag.text_eq
    have hmem : '[' ∈ backslashes (n + 1) := by simp [htext]
    exact absurd (List.eq_of_mem_replicate hmem) (by decide)

/-- The search has a result in each text, and the live ones among the tags found are those of
`tagsFrom`. -/
theorem exists_scan (cs : List Char) (n : Nat) :
    ∃ tags, Scan (backslashes n ++ cs) tags ∧ ∀ position, (tagsFrom position n cs).map Prod.snd =
      (tags.filter fun tag => tag.1 % 2 = 0).map Prod.snd := by
  -- The count stands for the backslashes that were passed: the search starts before them.
  induction cs generalizing n with
  | nil => exact ⟨[], by simpa using scan_backslashes n, fun _ => rfl⟩
  | cons c cs ih =>
    by_cases hslash : c = '\\'
    · obtain ⟨tags, hscan, htags⟩ := ih (n + 1)
      refine ⟨tags, ?_, fun position => ?_⟩
      · rwa [hslash, backslashes_append_cons]
      · rw [tagsFrom, if_pos hslash, htags]
    · obtain ⟨tags, hscan, htags⟩ := ih 0
      rw [backslashes_zero, List.nil_append] at hscan
      by_cases hopens : c = '[' ∧ opensTag cs = true
      · obtain ⟨rfl, hopens⟩ := hopens
        obtain ⟨body, rest, htag⟩ := (opensTag_iff cs).mp hopens
        obtain rfl : cs = body ++ ']' :: rest := List.tail_eq_of_cons_eq htag.text_eq
        have hbody : (body ++ ']' :: rest).takeWhile (· ≠ ']') = body := by
          rw [List.takeWhile_append_of_pos fun b hb => by grind [htag.noClosing]]
          simp
        -- `tagsFrom` goes on inside the tag, the search behind it; no tag begins in between.
        refine ⟨(n, body) :: tags, .found ((tagAt_backslashes_iff hslash).mpr ⟨rfl, rfl, htag⟩)
          ((scan_append_closing_iff htag.noOpening).mp hscan), fun position => ?_⟩
        rw [tagsFrom, if_neg hslash, hbody]
        by_cases hn : n % 2 = 0 <;> simp [hopens, hn, htags]
      · refine ⟨tags, (scan_backslashes_iff hslash hopens).mpr hscan, fun position => ?_⟩
        have hnone : (c = '[' && opensTag cs && n % 2 = 0) = false := by grind
        rw [tagsFrom, if_neg hslash, hnone, if_neg Bool.false_ne_true, htags]

/-- A text is inert if and only if it has no tags that set a style. -/
theorem inert_iff (s : String) : Inert s ↔ tags s = [] := by
  obtain ⟨found, hscan, htags⟩ := exists_scan s.toList 0
  rw [backslashes_zero, List.nil_append] at hscan
  have hlive : tags s = [] ↔ ∀ tag ∈ found, tag.1 % 2 = 1 := by
    rw [tags, ← List.map_eq_nil_iff, htags 0, List.map_eq_nil_iff, List.filter_eq_nil_iff]
    simp
  rw [hlive, Inert]
  constructor
  · rintro ⟨found', hscan', hodd⟩
    rwa [hscan.unique hscan']
  · exact fun hodd => ⟨found, hscan, hodd⟩

instance (s : String) : Decidable (Inert s) :=
  decidable_of_iff _ (inert_iff s).symm

/-- Characters that are enough for a tag: both brackets, and one that may follow the opening one. -/
def SpellsTag (cs : List Char) : Prop :=
  '[' ∈ cs ∧ (∃ c ∈ cs, beginsTag c = true) ∧ ']' ∈ cs

/-- The characters of a tag are found in its text. -/
theorem spellsTag_of_tagsFrom_ne_nil {position slashes : Nat} {cs : List Char}
    (h : tagsFrom position slashes cs ≠ []) : SpellsTag cs := by
  induction cs generalizing position slashes with
  | nil => exact absurd rfl h
  | cons c cs ih =>
    have hlater {position slashes : Nat} (h : tagsFrom position slashes cs ≠ []) :
        SpellsTag (c :: cs) := by
      obtain ⟨hopen, ⟨b, hb, hbegins⟩, hclose⟩ := ih h
      exact ⟨.tail _ hopen, ⟨b, .tail _ hb, hbegins⟩, .tail _ hclose⟩
    rw [tagsFrom] at h
    split at h
    · exact hlater h
    · split at h
      · next htag =>
        simp only [Bool.and_eq_true, decide_eq_true_eq] at htag
        obtain ⟨⟨rfl, hopens⟩, -⟩ := htag
        obtain ⟨body, rest, htag⟩ := (opensTag_iff cs).mp hopens
        obtain rfl : cs = body ++ ']' :: rest := List.tail_eq_of_cons_eq htag.text_eq
        cases body with
        | nil => simpa using htag.begins
        | cons b body => exact ⟨by simp, ⟨b, by simp, htag.begins⟩, by simp⟩
      · exact hlater h

/-! ## Escaped texts -/

/-- Backslashes do not keep a bracket from being closed. -/
theorem closes_backslashes_append (n : Nat) (cs : List Char) :
    closes (backslashes n ++ cs) = closes cs := by
  induction n with
  | zero => rfl
  | succ n ih => simp [backslashes_succ, closes, ih]

/-- Escaping puts in no brackets and takes none away. -/
theorem closes_escapeFrom (n : Nat) (cs : List Char) : closes (escapeFrom n cs) = closes cs := by
  induction cs generalizing n with
  | nil => simpa [closes, escapeFrom] using closes_backslashes_append n []
  | cons c cs ih =>
    rw [escapeFrom]
    split
    · next hslash => simp [ih, closes, hslash]
    · split <;> simp_all [closes_backslashes_append, closes]

/-- What is escaped behind backslashes begins with one. -/
theorem escapeFrom_succ (n : Nat) (cs : List Char) : ∃ ds, escapeFrom (n + 1) cs = '\\' :: ds := by
  induction cs generalizing n with
  | nil => exact ⟨backslashes n, rfl⟩
  | cons c cs ih =>
    rw [escapeFrom]
    split
    · exact ih (n + 1)
    · split
      · exact ⟨_, rfl⟩
      · exact ⟨_, rfl⟩

/-- An escaped text makes a tag of the bracket before it if and only if the text does. -/
theorem opensTag_escapeFrom (cs : List Char) : opensTag (escapeFrom 0 cs) = opensTag cs := by
  have hslash : beginsTag '\\' = false := rfl
  have hopen : beginsTag '[' = false := rfl
  cases cs with
  | nil => rfl
  | cons c cs =>
    rw [escapeFrom]
    split
    · next hc =>
      obtain ⟨ds, hds⟩ := escapeFrom_succ 0 cs
      simp [hds, opensTag, hc, hslash]
    · split
      · next hc => simp_all [backslashes, opensTag]
      · simp [opensTag, closes_escapeFrom]

/-- Backslashes are counted for the tag behind them. -/
theorem tagsFrom_backslashes_append (position slashes n : Nat) (cs : List Char) :
    tagsFrom position slashes (backslashes n ++ cs) = tagsFrom (position + n) (slashes + n) cs := by
  induction n generalizing position slashes with
  | zero => rfl
  | succ n ih =>
    rw [backslashes_succ, List.cons_append, tagsFrom, if_pos rfl, ih]
    congr 1 <;> omega

/-- No tag of an escaped text sets a style. -/
theorem tagsFrom_escapeFrom (position n : Nat) (cs : List Char) :
    tagsFrom position 0 (escapeFrom n cs) = [] := by
  induction cs generalizing position n with
  | nil => simpa [tagsFrom, escapeFrom] using tagsFrom_backslashes_append position 0 n []
  | cons c cs ih =>
    rw [escapeFrom]
    split
    · exact ih position (n + 1)
    · next hslash =>
      split
      · rw [tagsFrom_backslashes_append, tagsFrom, if_neg hslash, if_neg (by simp), ih]
      · next hopens =>
        rw [tagsFrom_backslashes_append, tagsFrom, if_neg hslash, opensTag_escapeFrom,
          if_neg (by simp_all), ih]

/-- A backslash at the end closes no bracket. -/
theorem closes_append_backslash (cs : List Char) : closes (cs ++ ['\\']) = closes cs := by
  induction cs with
  | nil => rfl
  | cons c cs ih => simp only [List.cons_append, closes, ih]

/-- A backslash at the end opens no tag. -/
theorem opensTag_append_backslash (cs : List Char) : opensTag (cs ++ ['\\']) = opensTag cs := by
  cases cs with
  | nil => rfl
  | cons c cs => simp only [List.cons_append, opensTag, closes_append_backslash]

/-- A backslash at the end of a text adds no tag. -/
theorem tagsFrom_append_backslash {position slashes : Nat} {cs : List Char}
    (h : tagsFrom position slashes cs = []) : tagsFrom position slashes (cs ++ ['\\']) = [] := by
  induction cs generalizing position slashes with
  | nil => rfl
  | cons c cs ih =>
    rw [tagsFrom] at h
    rw [List.cons_append, tagsFrom, opensTag_append_backslash]
    split at h
    · next hslash => rw [if_pos hslash, ih h]
    · next hslash =>
      split at h
      · contradiction
      · next hopens => rw [if_neg hslash, if_neg hopens, ih h]

/-- Escaping keeps every character in its place among the others. -/
theorem sublist_escapeFrom (n : Nat) (cs : List Char) :
    (backslashes n ++ cs).Sublist (escapeFrom n cs) := by
  induction cs generalizing n with
  | nil => simp [escapeFrom]
  | cons c cs ih =>
    rw [escapeFrom]
    split
    · next hslash =>
      rw [hslash, backslashes_append_cons]
      exact ih (n + 1)
    · split
      · refine .append ?_ (.cons_cons c (ih 0))
        exact (List.replicate_sublist_replicate _).mpr (by omega)
      · exact .append (.refl _) (.cons_cons c (ih 0))

/-- Without its backslashes nothing is left of a run of backslashes. -/
theorem filter_backslashes (n : Nat) : (backslashes n).filter (· ≠ '\\') = [] := by
  simp [backslashes]

/-- Escaping puts in nothing but backslashes. -/
theorem filter_escapeFrom (n : Nat) (cs : List Char) :
    (escapeFrom n cs).filter (· ≠ '\\') = cs.filter (· ≠ '\\') := by
  induction cs generalizing n with
  | nil => exact filter_backslashes n
  | cons c cs ih =>
    rw [escapeFrom]
    split
    · next hslash => rw [ih, hslash]; rfl
    · split <;> simp only [List.filter_append, filter_backslashes, List.filter_cons, ih, List.nil_append]

/-- A text is another one in which backslashes were put so that no tag is live. -/
structure Escapes (escaped original : String) : Prop where
  inert : Inert escaped
  sublist : original.toList.Sublist escaped.toList
  filter_eq : escaped.toList.filter (· ≠ '\\') = original.toList.filter (· ≠ '\\')

/-- What `escape` makes of a text escapes it. -/
theorem escapes_escape (s : String) : Escapes (escape s) s := by
  -- The backslash that doubles a single one at the end changes none of the three laws.
  have hchars : (escape s).toList = escapeFrom 0 s.toList ∨
      (escape s).toList = escapeFrom 0 s.toList ++ ['\\'] := by
    rw [escape, String.toList_ofList, escapeChars]
    split <;> simp
  refine ⟨(inert_iff _).mpr ?_, ?_, ?_⟩
  · have htags := tagsFrom_escapeFrom 0 0 s.toList
    obtain h | h := hchars <;> rw [tags, h]
    · exact htags
    · exact tagsFrom_append_backslash htags
  · have hsublist := sublist_escapeFrom 0 s.toList
    obtain h | h := hchars <;> rw [h]
    · exact hsublist
    · exact hsublist.trans (List.sublist_append_left _ _)
  · have hfilter := filter_escapeFrom 0 s.toList
    obtain h | h := hchars <;> rw [h]
    · exact hfilter
    · rw [List.filter_append, hfilter]
      exact List.append_nil _

end RubySig.Text.Markup
