import RubySig.Proofs.CharacterBytes
import RubySig.Ruby.SyntaxTree

/-!
# Texts of nodes over UTF-8 sources

Nodes are placed by bytes and their texts are characters. Over the bytes of a text, a node has the
characters whose bytes it spans, with at most three replacement characters before them where it
begins inside a character, and at most one after them where it ends inside one. So a node over a
part of the text has just that part as its text.
-/

namespace RubySig

namespace Text.Utf8

/-- Characters with the positions of their first bytes, the first character at `position`. -/
def placed (position : Nat) : List Char → List (Nat × Char)
  | [] => []
  | c :: cs => (position, c) :: placed (position + c.utf8Size) cs

/-- The characters whose bytes all lie between `start` and `stop`, where the first character of the
text is at `position`. -/
def charsWithin (start stop position : Nat) (cs : List Char) : List Char :=
  ((placed position cs).filter fun x => start ≤ x.1 && x.1 + x.2.utf8Size ≤ stop).map Prod.snd

/-- At `i` one character ends or another begins, where the first one is at `position`. -/
def IsBoundary (position : Nat) (cs : List Char) (i : Nat) : Prop :=
  ∃ before after, cs = before ++ after ∧ i = position + (encode before).length

/-- A boundary does not lie before the text. -/
theorem IsBoundary.le {position : Nat} {cs : List Char} {i : Nat} (h : IsBoundary position cs i) :
    position ≤ i := by
  obtain ⟨before, -, -, rfl⟩ := h
  exact Nat.le_add_right position _

/-- A boundary behind the beginning of a text is one of what follows its first character. -/
theorem IsBoundary.tail {position : Nat} {c : Char} {cs : List Char} {i : Nat}
    (h : IsBoundary position (c :: cs) i) (hi : position < i) :
    IsBoundary (position + c.utf8Size) cs i := by
  obtain ⟨before, after, hcs, rfl⟩ := h
  cases before with
  | nil => exact absurd hi (Nat.lt_irrefl position)
  | cons d before =>
    obtain ⟨rfl, rfl⟩ := List.cons_eq_cons.mp hcs
    exact ⟨before, after, rfl, by simp [Nat.add_assoc]⟩

/-- No boundary lies inside a character. -/
theorem not_isBoundary_inside {position : Nat} {c : Char} {cs : List Char} {i : Nat} (hlow : position < i)
    (hhigh : i < position + c.utf8Size) : ¬ IsBoundary position (c :: cs) i :=
  fun h => absurd (h.tail hlow).le (Nat.not_le_of_lt hhigh)

/-- A valid position of a text is a boundary. -/
theorem isBoundary_of_isValid {s : String} {i : Nat} (h : String.Pos.Raw.IsValid s ⟨i⟩) :
    IsBoundary 0 s.toList i := by
  obtain ⟨before, after, rfl, hi⟩ := String.Pos.Raw.isValid_iff_exists_append.mp h
  refine ⟨before.toList, after.toList, String.toList_append, ?_⟩
  rw [length_encode, Nat.zero_add]
  exact congrArg String.Pos.Raw.byteIdx hi

/-- The first character is within a span exactly when all its bytes are. -/
theorem charsWithin_cons (start stop position : Nat) (c : Char) (cs : List Char) :
    charsWithin start stop position (c :: cs) =
      if start ≤ position ∧ position + c.utf8Size ≤ stop then
        c :: charsWithin start stop (position + c.utf8Size) cs
      else charsWithin start stop (position + c.utf8Size) cs := by
  by_cases h : start ≤ position ∧ position + c.utf8Size ≤ stop
  · simp [charsWithin, placed, h]
  · rw [if_neg h, charsWithin, placed, List.filter_cons_of_neg (by simpa using h), charsWithin]

/-- No character is within a span that ends before the text or before it starts. -/
theorem charsWithin_eq_nil {start stop position : Nat} (h : stop ≤ position ∨ stop < start)
    (cs : List Char) : charsWithin start stop position cs = [] := by
  induction cs generalizing position with
  | nil => rfl
  | cons c cs ih =>
    have hsize := c.utf8Size_pos
    rw [charsWithin_cons, if_neg (by omega), ih (by omega)]

/-- From the beginning of a character on, bytes decode to the characters that end among them, with
one replacement character for a character that does not. -/
theorem decode_take_encode {start position : Nat} (hstart : start ≤ position) (stop : Nat)
    (cs : List Char) : ∃ r ≤ 1,
      decode ((encode cs).take (stop - position)) =
        charsWithin start stop position cs ++ List.replicate r replacement ∧
      (IsBoundary position cs stop → r = 0) := by
  induction cs generalizing position with
  | nil => exact ⟨0, Nat.zero_le 1, by simp [encode, charsWithin, placed, decode, decodeFrom], fun _ => rfl⟩
  | cons c cs ih =>
    have hlength := String.length_utf8EncodeChar c
    have hsize := c.utf8Size_pos
    rw [encode_cons, charsWithin_cons, List.take_append, hlength, Nat.sub_sub]
    obtain hwhole | hcut | hbefore : position + c.utf8Size ≤ stop ∨
        (position < stop ∧ stop < position + c.utf8Size) ∨ stop ≤ position := by omega
    · obtain ⟨r, hr, hdecode, hboundary⟩ := ih (Nat.le_add_right_of_le hstart)
      refine ⟨r, hr, ?_, fun h => hboundary (h.tail (by omega))⟩
      rw [List.take_of_length_le (by omega), (encodes_encodeChar c).decode_append, hdecode,
        if_pos ⟨hstart, hwhole⟩, List.cons_append]
    · -- The cut leaves a beginning of `c`, and nothing of the characters after it.
      refine ⟨1, Nat.le_refl 1, ?_, fun h => absurd h (not_isBoundary_inside hcut.1 hcut.2)⟩
      rw [show stop - (position + c.utf8Size) = 0 by omega, List.take_zero, List.append_nil,
        (encodes_encodeChar c).decode_take (by omega) (by omega), if_neg (by omega),
        charsWithin_eq_nil (by omega)]
      rfl
    · refine ⟨0, Nat.zero_le 1, ?_, fun _ => rfl⟩
      rw [show stop - position = 0 by omega, show stop - (position + c.utf8Size) = 0 by omega,
        if_neg (by omega), charsWithin_eq_nil (by omega)]
      rfl

/-- Bytes of a character without its first one are at most three faults. -/
theorem decode_drop_encodeChar (c : Char) {m : Nat} (hm : 0 < m) (n : Nat) (rest : List UInt8) :
    ∃ r ≤ 3, decode (((String.utf8EncodeChar c).take n).drop m ++ rest) =
      List.replicate r replacement ++ decode rest := by
  refine ⟨_, ?_, decode_following (fun b hb => following_of_mem_tail (c := c) ?_) rest⟩
  · have hsize := c.utf8Size_le_four
    rw [List.length_drop, List.length_take, String.length_utf8EncodeChar]
    omega
  · obtain ⟨m, rfl⟩ := Nat.exists_eq_add_one.mpr hm
    rw [List.drop_take, ← List.drop_tail] at hb
    exact List.mem_of_mem_drop (List.mem_of_mem_take hb)

/-- Bytes between two positions decode to the characters whose bytes are among them, with
replacement characters where they begin or end inside a character. -/
theorem decode_slice_encode {start stop : Nat} (hle : start ≤ stop) (position : Nat) (cs : List Char) :
    ∃ r ≤ 3, ∃ r' ≤ 1,
      decode (((encode cs).take (stop - position)).drop (start - position)) =
        List.replicate r replacement ++ charsWithin start stop position cs ++ List.replicate r' replacement ∧
      (IsBoundary position cs start → r = 0) ∧ (IsBoundary position cs stop → r' = 0) := by
  induction cs generalizing position with
  | nil =>
    refine ⟨0, Nat.zero_le 3, 0, Nat.zero_le 1, ?_, fun _ => rfl, fun _ => rfl⟩
    simp [encode, charsWithin, placed, decode, decodeFrom]
  | cons c cs ih =>
    have hlength := String.length_utf8EncodeChar c
    obtain hbefore | hcut | hafter : start ≤ position ∨
        (position < start ∧ start < position + c.utf8Size) ∨ position + c.utf8Size ≤ start := by omega
    · obtain ⟨r', hr', hdecode, hboundary⟩ := decode_take_encode hbefore stop (c :: cs)
      refine ⟨0, Nat.zero_le 3, r', hr', ?_, fun _ => rfl, hboundary⟩
      rw [show start - position = 0 by omega, List.drop_zero, hdecode]
      rfl
    · -- The rest of the character gives the faults, and the next one begins behind `start`.
      obtain ⟨r', hr', hdecode, hboundary⟩ := decode_take_encode (Nat.le_of_lt hcut.2) stop cs
      obtain ⟨r, hr, hfaults⟩ := decode_drop_encodeChar c (Nat.sub_pos_of_lt hcut.1) (stop - position)
        ((encode cs).take (stop - (position + c.utf8Size)))
      refine ⟨r, hr, r', hr', ?_, fun h => absurd h (not_isBoundary_inside hcut.1 hcut.2),
        fun h => hboundary (h.tail (by omega))⟩
      have hinside : start - position ≤ ((String.utf8EncodeChar c).take (stop - position)).length := by
        rw [List.length_take, hlength]
        omega
      rw [encode_cons, List.take_append, hlength, Nat.sub_sub, List.drop_append_of_le_length hinside,
        hfaults, hdecode, charsWithin_cons, if_neg (by omega), List.append_assoc]
    · have hsize := c.utf8Size_pos
      obtain ⟨r, hr, r', hr', hdecode, hstart, hstop⟩ := ih (position + c.utf8Size)
      refine ⟨r, hr, r', hr', ?_, fun h => hstart (h.tail (by omega)), fun h => hstop (h.tail (by omega))⟩
      rw [encode_cons, List.take_append, hlength, List.take_of_length_le (by omega), Nat.sub_sub,
        List.drop_append, hlength, List.drop_of_length_le (by omega), Nat.sub_sub, List.nil_append,
        hdecode, charsWithin_cons, if_neg (by omega)]

end Text.Utf8

open Text.Utf8

namespace Ruby.SyntaxTree

/-- The text of a node is what its bytes of the source are decoded to. -/
theorem toList_text_ofString (s : String) (t : SyntaxTree) :
    (t.text (.ofString s)).toList = decode (((encode s.toList).take t.stop).drop t.start) := by
  rw [text, String.toList_ofList, Source.ofString, Array.toList_extract, List.extract, List.drop_take]

/-- A node has the characters of the source whose bytes it spans, between at most three replacement
characters, where it begins inside a character, and at most one, where it ends inside one. -/
theorem text_spans_whole_characters (s : String) (t : SyntaxTree) :
    (∃ r ≤ 3, ∃ r' ≤ 1,
      (t.text (.ofString s)).toList = List.replicate r replacement ++
        charsWithin t.start t.stop 0 s.toList ++ List.replicate r' replacement ∧
      (String.Pos.Raw.IsValid s ⟨t.start⟩ → r = 0) ∧ (String.Pos.Raw.IsValid s ⟨t.stop⟩ → r' = 0)) ∧
    ∀ before middle after : String, s = before ++ middle ++ after → t.start = before.utf8ByteSize →
      t.stop = t.start + middle.utf8ByteSize → t.text (.ofString s) = middle := by
  constructor
  · rw [toList_text_ofString]
    obtain hlt | hle := Nat.lt_or_ge t.stop t.start
    · refine ⟨0, Nat.zero_le 3, 0, Nat.zero_le 1, ?_, fun _ => rfl, fun _ => rfl⟩
      rw [charsWithin_eq_nil (.inr hlt), List.drop_take, Nat.sub_eq_zero_of_le (Nat.le_of_lt hlt)]
      rfl
    · obtain ⟨r, hr, r', hr', hdecode, hstart, hstop⟩ := decode_slice_encode hle 0 s.toList
      exact ⟨r, hr, r', hr', hdecode, hstart ∘ isBoundary_of_isValid, hstop ∘ isBoundary_of_isValid⟩
  · rintro before middle after rfl hstart hstop
    rw [← length_encode] at hstart hstop
    rw [← String.toList_inj, toList_text_ofString, hstop, hstart]
    simp [encode_append, List.take_append, decode_encode]

example : text (.ofString "né日本") { type := "identifier", start := 2, stop := 8 } = "\ufffd日\ufffd" := by
  rfl

end Ruby.SyntaxTree

end RubySig
