import RubySig.Text.Utf8
import Mathlib.Tactic.SplitIfs

/-!
# Bytes of characters

How the decoder reads the bytes of one character, whole or in part. The whole is read as the
character, whatever comes after it, a beginning of it that is not the whole as a single fault, and
the bytes after the first one as one fault each. So decoding undoes encoding, also before other
bytes.
-/

namespace RubySig.Text.Utf8

/-- A byte is in a range exactly when it lies between its ends. -/
theorem ByteRange.holds_iff {range : ByteRange} {b : UInt8} :
    range.holds b = true ↔ range.1 ≤ b.toNat ∧ b.toNat ≤ range.2 := by
  simp [ByteRange.holds]

/-- Bytes that turn a pending character into `c`. -/
inductive Completes : Pending → List UInt8 → Char → Prop where
  | last {p : Pending} {b : UInt8} {c : Char} (awaited : p.next.holds b = true)
    (done : p.advance b = .inl c) : Completes p [b] c
  | more {p q : Pending} {b : UInt8} {bytes : List UInt8} {c : Char} (awaited : p.next.holds b = true)
    (pending : p.advance b = .inr q) (rest : Completes q bytes c) : Completes p (b :: bytes) c

/-- Bytes that the decoder reads as `c`. -/
inductive Encodes : List UInt8 → Char → Prop where
  | single {b : UInt8} {c : Char} (begins : start b = .single c) : Encodes [b] c
  | lead {b : UInt8} {p : Pending} {bytes : List UInt8} {c : Char} (begins : start b = .lead p)
    (rest : Completes p bytes c) : Encodes (b :: bytes) c

/-- The bytes that complete a character give it, whatever follows them. -/
theorem Completes.decodeFrom_append {p : Pending} {bytes : List UInt8} {c : Char}
    (h : Completes p bytes c) (rest : List UInt8) :
    decodeFrom (some p) (bytes ++ rest) = c :: decodeFrom none rest := by
  induction h with
  | last awaited done => simp [decodeFrom, step, awaited, done]
  | more awaited pending _ ih => simp [decodeFrom, step, awaited, pending, ih]

/-- The bytes of a character give it, whatever follows them. -/
theorem Encodes.decode_append {bytes : List UInt8} {c : Char} (h : Encodes bytes c)
    (rest : List UInt8) : decode (bytes ++ rest) = c :: decode rest := by
  cases h with
  | single begins => simp [decode, decodeFrom, step, fresh, begins]
  | lead begins hrest => simp [decode, decodeFrom, step, fresh, begins, hrest.decodeFrom_append]

/-- A character that does not go on to its end is one fault, however much of it is there. -/
theorem Completes.decodeFrom_take {p : Pending} {bytes : List UInt8} {c : Char}
    (h : Completes p bytes c) {n : Nat} (hn : n < bytes.length) :
    decodeFrom (some p) (bytes.take n) = [replacement] := by
  induction h generalizing n with
  | last => simp_all [decodeFrom]
  | more awaited pending _ ih =>
    cases n with
    | zero => rfl
    | succ n => simpa [decodeFrom, step, awaited, pending] using ih (by simpa using hn)

/-- A character that is cut off after its first byte or later gives one replacement. -/
theorem Encodes.decode_take {bytes : List UInt8} {c : Char} (h : Encodes bytes c) {n : Nat}
    (hpos : 0 < n) (hn : n < bytes.length) : decode (bytes.take n) = [replacement] := by
  obtain ⟨n, rfl⟩ := Nat.exists_eq_add_one.mpr hpos
  cases h with
  | single => simp at hn
  | lead begins rest =>
    simpa [decode, decodeFrom, step, fresh, begins] using rest.decodeFrom_take (by simpa using hn)

/-- A byte that goes on with a character begins none, so it is a fault by itself. -/
theorem start_of_following {b : UInt8} (h : following.holds b = true) : start b = .invalid := by
  obtain ⟨hlow, hhigh⟩ : 0x80 ≤ b.toNat ∧ b.toNat ≤ 0xbf := ByteRange.holds_iff.mp h
  simp only [start]
  rw [if_neg (by omega), if_pos (by omega)]

/-- Following bytes without a first byte give one replacement each. -/
theorem decode_following {bytes : List UInt8} (h : ∀ b ∈ bytes, following.holds b = true)
    (rest : List UInt8) :
    decode (bytes ++ rest) = List.replicate bytes.length replacement ++ decode rest := by
  induction bytes with
  | nil => rfl
  | cons b bytes ih =>
    have hstart := start_of_following (h b List.mem_cons_self)
    have ih := ih fun b hb => h b (List.mem_cons_of_mem _ hb)
    simp only [decode] at ih ⊢
    simp [decodeFrom, step, fresh, hstart, ih, List.replicate_succ]

/-! ## The bytes of one character -/

/-- The byte after the first one that holds the lowest six bits of a number. -/
def followingByte (n : Nat) : UInt8 :=
  .ofNat (n % 64 + 128)

/-- A following byte is the lowest six bits of a number above the mark of following bytes. -/
theorem toNat_followingByte (n : Nat) : (followingByte n).toNat = n % 64 + 128 := by
  rw [followingByte, UInt8.toNat_ofNat']
  omega

/-- A following byte is in the range of following bytes. -/
theorem following_followingByte (n : Nat) : following.holds (followingByte n) = true := by
  rw [ByteRange.holds_iff, toNat_followingByte, following]
  omega

/-- The bytes of a character, by how many bits its number has. -/
theorem encodeChar_eq (c : Char) : String.utf8EncodeChar c =
    if c.toNat ≤ 0x7f then [.ofNat c.toNat]
    else if c.toNat ≤ 0x7ff then [.ofNat (c.toNat / 64 % 32 + 192), followingByte c.toNat]
    else if c.toNat ≤ 0xffff then
      [.ofNat (c.toNat / 4096 % 16 + 224), followingByte (c.toNat / 64), followingByte c.toNat]
    else
      [.ofNat (c.toNat / 262144 % 8 + 240), followingByte (c.toNat / 4096),
        followingByte (c.toNat / 64), followingByte c.toNat] :=
  rfl

/-- Every byte of a character after the first is a following byte. -/
theorem following_of_mem_tail {c : Char} {b : UInt8} (h : b ∈ (String.utf8EncodeChar c).tail) :
    following.holds b = true := by
  rw [encodeChar_eq] at h
  split_ifs at h <;> simp only [List.tail_cons, List.mem_cons, List.not_mem_nil, or_false] at h
  · rw [h, following_followingByte]
  · obtain rfl | rfl := h <;> exact following_followingByte _
  · obtain rfl | rfl | rfl := h <;> exact following_followingByte _

/-- Appending the lowest six bits to the others gives back a number. -/
theorem bits_followingByte (n : Nat) : n / 64 * 64 + ((followingByte n).toNat - 0x80) = n := by
  rw [toNat_followingByte]
  omega

/-- The lowest six bits complete a character whose other bits were read. -/
theorem completes_lastByte (c : Char) (seen : Nat) :
    Completes ⟨following, [], c.toNat / 64, seen⟩ [followingByte c.toNat] c :=
  .last (following_followingByte _)
    (by simp only [Pending.advance, bits_followingByte, Char.ofNat_toNat])

/-- Six more bits are read before the bytes that complete a character. -/
theorem Completes.followingByte_cons {next next' : ByteRange} {later : List ByteRange} {n seen : Nat}
    {bytes : List UInt8} {c : Char} (h : next.holds (followingByte n) = true)
    (rest : Completes ⟨next', later, n, seen + 1⟩ bytes c) :
    Completes ⟨next, next' :: later, n / 64, seen⟩ (followingByte n :: bytes) c :=
  .more h (by simp only [Pending.advance, bits_followingByte]) rest

/-- The first byte of a character of two bytes awaits one following byte. -/
theorem start_two {n : Nat} (hlow : 0x7f < n) (hhigh : n ≤ 0x7ff) :
    start (.ofNat (n / 64 % 32 + 192)) = .lead ⟨following, [], n / 64, 1⟩ := by
  have hbyte : (UInt8.ofNat (n / 64 % 32 + 192)).toNat = n / 64 + 192 := by
    rw [UInt8.toNat_ofNat']
    omega
  simp only [start, hbyte]
  rw [if_neg (by omega), if_neg (by omega), if_pos (by omega), Nat.add_sub_cancel]

/-- The range of the second byte keeps out overlong forms and surrogates. -/
theorem exists_start_three {n : Nat} (hlow : 0x7ff < n) (hhigh : n ≤ 0xffff)
    (hvalid : n < 0xd800 ∨ 0xdfff < n) :
    ∃ next, start (.ofNat (n / 4096 % 16 + 224)) = .lead ⟨next, [following], n / 64 / 64, 1⟩ ∧
      next.holds (followingByte (n / 64)) = true := by
  have hbyte : (UInt8.ofNat (n / 4096 % 16 + 224)).toNat = n / 64 / 64 + 224 := by
    rw [UInt8.toNat_ofNat']
    omega
  simp only [start, hbyte, ByteRange.holds_iff, toNat_followingByte]
  obtain hlead | hlead | hlead : n / 64 / 64 = 0 ∨ n / 64 / 64 = 0xd ∨ n / 64 / 64 ≠ 0 ∧ n / 64 / 64 ≠ 0xd := by
    omega
  · exact ⟨(0xa0, 0xbf), by simp [hlead], by omega⟩
  · exact ⟨(0x80, 0x9f), by simp [hlead], by omega⟩
  · refine ⟨following, ?_, by simp only [following]; omega⟩
    rw [if_neg (by omega), if_neg (by omega), if_neg (by omega), if_neg (by omega), if_neg (by omega),
      if_pos (by omega), Nat.add_sub_cancel]

/-- The range of the second byte keeps out overlong forms and numbers beyond the last character. -/
theorem exists_start_four {n : Nat} (hlow : 0xffff < n) (hhigh : n < 0x110000) :
    ∃ next, start (.ofNat (n / 262144 % 8 + 240)) =
        .lead ⟨next, [following, following], n / 64 / 64 / 64, 1⟩ ∧
      next.holds (followingByte (n / 64 / 64)) = true := by
  have hbyte : (UInt8.ofNat (n / 262144 % 8 + 240)).toNat = n / 64 / 64 / 64 + 240 := by
    rw [UInt8.toNat_ofNat']
    omega
  simp only [start, hbyte, ByteRange.holds_iff, toNat_followingByte]
  obtain hlead | hlead | hlead : n / 64 / 64 / 64 = 0 ∨ n / 64 / 64 / 64 = 4 ∨
      n / 64 / 64 / 64 ≠ 0 ∧ n / 64 / 64 / 64 < 4 := by
    omega
  · exact ⟨(0x90, 0xbf), by simp [hlead], by omega⟩
  · exact ⟨(0x80, 0x8f), by simp [hlead], by omega⟩
  · refine ⟨following, ?_, by simp only [following]; omega⟩
    rw [if_neg (by omega), if_neg (by omega), if_neg (by omega), if_neg (by omega), if_neg (by omega),
      if_neg (by omega), if_neg (by omega), if_pos (by omega), Nat.add_sub_cancel]

/-- The decoder reads the bytes of a character as that character. -/
theorem encodes_encodeChar (c : Char) : Encodes (String.utf8EncodeChar c) c := by
  have hvalid : c.toNat < 0xd800 ∨ 0xdfff < c.toNat ∧ c.toNat < 0x110000 := c.valid
  rw [encodeChar_eq]
  split_ifs with hone htwo hthree
  · have hbyte : (UInt8.ofNat c.toNat).toNat = c.toNat := by
      rw [UInt8.toNat_ofNat']
      omega
    refine .single ?_
    simp only [start, hbyte]
    rw [if_pos (by omega), Char.ofNat_toNat]
  · exact .lead (start_two (by omega) htwo) (completes_lastByte c 1)
  · obtain ⟨next, hstart, hnext⟩ := exists_start_three (by omega) hthree (by omega)
    exact .lead hstart ((completes_lastByte c 2).followingByte_cons hnext)
  · obtain ⟨next, hstart, hnext⟩ := exists_start_four (n := c.toNat) (by omega) (by omega)
    have hlast := (completes_lastByte c 3).followingByte_cons (following_followingByte _)
    rw [show c.toNat / 4096 = c.toNat / 64 / 64 by omega]
    exact .lead hstart (hlast.followingByte_cons hnext)

/-! ## The bytes of texts -/

/-- The bytes of a text begin with those of its first character. -/
@[simp]
theorem encode_cons (c : Char) (cs : List Char) : encode (c :: cs) = String.utf8EncodeChar c ++ encode cs :=
  List.flatMap_cons

/-- The bytes of two texts in a row are those of the first and then those of the second. -/
theorem encode_append (cs ds : List Char) : encode (cs ++ ds) = encode cs ++ encode ds :=
  List.flatMap_append

/-- A text has as many bytes as its size says. -/
theorem length_encode (s : String) : (encode s.toList).length = s.utf8ByteSize := by
  have hbytes : s.toByteArray = (encode s.toList).toByteArray := String.utf8Encode_toList.symm
  rw [← String.size_toByteArray, hbytes, List.size_toByteArray]

/-- A whole text is decoded before whatever bytes follow it. -/
theorem decode_encode_append (cs : List Char) (rest : List UInt8) :
    decode (encode cs ++ rest) = cs ++ decode rest := by
  induction cs with
  | nil => rfl
  | cons c cs ih =>
    rw [encode_cons, List.append_assoc, (encodes_encodeChar c).decode_append, ih, List.cons_append]

/-- Decoding undoes encoding. -/
theorem decode_encode (cs : List Char) : decode (encode cs) = cs := by
  simpa [decode, decodeFrom] using decode_encode_append cs []

end RubySig.Text.Utf8
