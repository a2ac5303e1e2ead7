import RubySig.Declaration.Member
import RubySig.Proofs.OutlineEntries
import Mathlib.Data.List.Induction

/-!
# Characters of names come from the source

Decoding makes up no character of one byte: each of them, the null character apart, is a byte of the
source. So the owners in an outline and the names in its aliases hold only such characters of one
byte as the source has, next to the colons between the parts of an owner. That holds for any tree,
also where nodes span pieces of characters.
-/

namespace RubySig

open RubySig.Ruby

namespace Text.Utf8

/-- The character of one byte. -/
def byteChar (b : UInt8) : Char :=
  Char.ofNat b.toNat

/-- The character of a valid number has this number. -/
theorem toNat_ofNat_of_isValidChar {n : Nat} (hvalid : n.isValidChar) : (Char.ofNat n).toNat = n := by
  rw [Char.ofNat, dif_pos hvalid]
  rfl

/-- The character of one byte has the number of the byte. -/
theorem toNat_byteChar (b : UInt8) : (byteChar b).toNat = b.toNat :=
  toNat_ofNat_of_isValidChar (.inl (by have := b.toNat_lt; omega))

/-- A byte below the first wide one is decoded to its character. -/
theorem decode_singleton {b : UInt8} (hb : b.toNat < 0x80) : decode [b] = [byteChar b] := by
  simp [decode, decodeFrom, step, fresh, start, hb, byteChar]

/-- A character is among these bytes if it is one of one byte and not the null character. -/
def OfBytes (bytes : List UInt8) (c : Char) : Prop :=
  c.toNat ≠ 0 → c.toNat < 0x80 → c ∈ bytes.map byteChar

/-- What is among some bytes is among more bytes. -/
theorem OfBytes.mono {bytes bytes' : List UInt8} {c : Char} (h : OfBytes bytes c)
    (hsub : bytes ⊆ bytes') : OfBytes bytes' c :=
  fun hnull hbyte => List.map_subset byteChar hsub (h hnull hbyte)

/-- Decoding never takes a character of one byte for a wider one. -/
theorem ofBytes_ofNat {bytes : List UInt8} {n : Nat} (h : 0x80 ≤ n) : OfBytes bytes (Char.ofNat n) := by
  intro hnull hbyte
  by_cases hvalid : n.isValidChar
  · rw [toNat_ofNat_of_isValidChar hvalid] at hbyte
    omega
  · rw [Char.ofNat, dif_neg hvalid] at hnull
    exact absurd rfl hnull

/-- The bits of a pending character are enough for more than one byte. -/
structure Pending.Wide (p : Pending) : Prop where
  next : 2 ≤ p.bits * 64 + (p.next.1 - 0x80)
  last : p.later = [] → 2 ≤ p.bits

/-- What a byte begins is its own character, a wide one, or a fault. -/
def Start.Narrows (b : UInt8) : Start → Prop
  | single c => c = byteChar b
  | lead p => p.Wide
  | invalid => True

/-- A byte begins its own character or a wide one, or it is a fault. -/
theorem narrows_start (b : UInt8) : (start b).Narrows b := by
  simp only [start]
  repeat' refine iteInduction (fun _ => ?_) (fun _ => ?_)
  all_goals first
    | rfl
    | trivial
    | exact ⟨by simp only [following]; omega, by simp <;> omega⟩

/-- A byte without anything pending gives itself or characters of more bytes. -/
theorem fresh_ofBytes (b : UInt8) :
    (∀ c ∈ (fresh b).1, OfBytes [b] c) ∧ ∀ p, (fresh b).2 = some p → p.Wide := by
  have hstart := narrows_start b
  unfold fresh
  cases h : start b with
  | single c =>
    rw [h] at hstart
    simp [OfBytes, show c = byteChar b from hstart]
  | lead p =>
    rw [h] at hstart
    refine ⟨by simp, ?_⟩
    rintro q ⟨⟩
    exact hstart
  | invalid => exact ⟨by simpa [replacement] using ofBytes_ofNat (by decide), by simp⟩

/-- A byte gives itself or characters of more bytes, and keeps what is pending wide. -/
theorem step_ofBytes {pending : Option Pending} (hpending : ∀ p, pending = some p → p.Wide) (b : UInt8) :
    (∀ c ∈ (step pending b).1, OfBytes [b] c) ∧ ∀ p, (step pending b).2 = some p → p.Wide := by
  have hreplacement : OfBytes [b] replacement := ofBytes_ofNat (by decide)
  cases pending with
  | none => exact fresh_ofBytes b
  | some p =>
    obtain ⟨hnext, hlast⟩ := hpending p rfl
    rw [step]
    split
    · next hholds =>
      -- Each awaited byte adds six bits, so a wide character stays wide and ends beyond one byte.
      have hbyte : p.next.1 ≤ b.toNat := by simp_all [ByteRange.holds]
      cases hlater : p.later with
      | nil =>
        have hbits : 0x80 ≤ p.bits * 64 + (b.toNat - 0x80) := by have := hlast hlater; omega
        simpa [Pending.advance, hlater] using ofBytes_ofNat hbits
      | cons next later =>
        simp only [Pending.advance, hlater]
        refine ⟨by simp, ?_⟩
        rintro q ⟨⟩
        have hbits : 2 ≤ p.bits * 64 + (b.toNat - 0x80) := by omega
        exact ⟨by simp only; omega, fun _ => hbits⟩
    · obtain ⟨hchars, hwide⟩ := fresh_ofBytes b
      exact ⟨by simpa using ⟨hreplacement, hchars⟩, hwide⟩

/-- The characters of one byte in a decoded text are bytes. -/
theorem decodeFrom_ofBytes {pending : Option Pending} (hpending : ∀ p, pending = some p → p.Wide)
    (bytes : List UInt8) : ∀ c ∈ decodeFrom pending bytes, OfBytes bytes c := by
  induction bytes generalizing pending with
  | nil =>
    intro c hc
    obtain rfl : c = replacement := by
      rw [decodeFrom] at hc
      split at hc <;> simp_all
    exact ofBytes_ofNat (by decide)
  | cons b bytes ih =>
    obtain ⟨hchars, hwide⟩ := step_ofBytes hpending b
    intro c hc
    rw [decodeFrom, List.mem_append] at hc
    obtain hc | hc := hc
    · exact (hchars c hc).mono (by simp)
    · exact (ih hwide c hc).mono (List.subset_cons_self b bytes)

end Text.Utf8

open Text.Utf8

/-- The characters of one byte in a text come from the source. -/
def Ruby.Source.Spells (source : Source) (s : String) : Prop :=
  ∀ c ∈ s.toList, OfBytes source.toList c

namespace Ruby.SyntaxTree

variable (source : Source) (t : SyntaxTree)

/-- The text of a node is spelled by the source. -/
theorem spells_text : source.Spells (t.text source) := by
  intro c hc
  rw [text, String.toList_ofList] at hc
  have hsub : (source.extract t.start t.stop).toList ⊆ source.toList := by
    rw [Array.toList_extract]
    exact fun b hb => List.mem_of_mem_drop (List.mem_of_mem_take hb)
  exact (decodeFrom_ofBytes (by simp) _ c hc).mono hsub

/-- The empty text is spelled by any source. -/
theorem spells_empty : source.Spells "" := by
  simp [Source.Spells]

/-- The text under a field is spelled by the source. -/
theorem spells_fieldText (field : String) : source.Spells (t.fieldText source field) := by
  rcases fieldText_cases source t field with ⟨_, child, _, -, -, -, -, htext⟩ | ⟨-, -, htext⟩
  · rw [htext]
    exact spells_text source child
  · rw [htext]
    exact spells_empty source

/-- The text between quotes is spelled by the source. -/
theorem spells_quotedContent : source.Spells (t.quotedContent source) := by
  intro c hc
  rw [quotedContent, String.toList_join, List.mem_flatMap] at hc
  obtain ⟨piece, hpiece, hc⟩ := hc
  obtain ⟨child, -, rfl⟩ := List.mem_map.mp hpiece
  exact spells_text source child c hc

/-- The value of a symbol is spelled by the source. -/
theorem spells_symbolValue {name : String} (h : t.symbolValue? source = some name) : source.Spells name := by
  unfold symbolValue? at h
  repeat' split at h
  · obtain rfl := Option.some.inj h
    intro c hc
    rw [String.toList_ofList] at hc
    exact spells_text source t c (List.mem_of_mem_drop hc)
  · contradiction
  · obtain rfl := Option.some.inj h
    exact spells_quotedContent source t
  · contradiction

/-- The name in an alias is spelled by the source. -/
theorem spells_aliasName {t : Option SyntaxTree} {name : String}
    (h : aliasName source t = .symbol (some name)) : source.Spells name := by
  cases t with
  | none => simp [aliasName] at h
  | some t =>
    rw [aliasName] at h
    split at h
    · obtain rfl := Option.some.inj (Expr.symbol.inj h)
      exact spells_text source t
    · unfold readExpr at h
      repeat' split at h
      all_goals first
        | contradiction
        | exact spells_symbolValue source t (Expr.symbol.inj h)

end Ruby.SyntaxTree

/-- An alias with a member has symbols for its names. -/
theorem AliasDeclaration.symbols_of_member_eq_ok {d : AliasDeclaration} {member : Rbs.Alias}
    (h : d.member = .ok member) : d.statement.newName = .symbol (some member.newName) ∧
      d.statement.oldName = .symbol (some member.oldName) := by
  have hsymbol {role : AliasRole} {expr : Expr} {name : String} (h : symbolName role expr = .ok name) :
      expr = .symbol (some name) := by
    unfold symbolName at h
    split at h <;> simp_all
  unfold AliasDeclaration.member at h
  cases hold : d.oldName with
  | error => simp [hold, bind, Except.bind] at h
  | ok old =>
    cases hnew : d.newName with
    | error => simp [hold, hnew, bind, Except.bind] at h
    | ok new =>
      simp only [hold, hnew, bind, Except.bind, pure, Except.pure, Except.ok.injEq] at h
      subst h
      exact ⟨hsymbol hnew, hsymbol hold⟩

namespace Outline

/-- An owner is made of characters of the source and the colons between its parts. -/
theorem ofBytes_of_mem_owner {source : Source} {scopes : List SyntaxTree} {owner : String} {c : Char}
    (howner : ownerOf source scopes = some owner) (hc : c ∈ owner.toList) :
    c = ':' ∨ OfBytes source.toList c := by
  induction scopes using List.reverseRecOn generalizing owner with
  | nil => simp [ownerOf] at howner
  | append_singleton scopes t ih =>
    have hname := SyntaxTree.spells_fieldText source t "name" c
    rw [ownerOf_append_singleton, Option.some.injEq] at howner
    subst howner
    unfold qualify at hc
    split at hc
    · exact .inr (hname hc)
    · next outer houter =>
      split at hc
      · exact .inr (hname hc)
      · simp only [String.toList_append, List.mem_append] at hc
        obtain (hc | hc) | hc := hc
        · exact ih houter hc
        · exact .inl (by simpa using hc)
        · exact .inr (hname hc)

/-- The names in the aliases of an outline are spelled by the source. -/
theorem spells_of_alias {ctx : Context} {mode : Mode} {t : SyntaxTree} {d : AliasDeclaration}
    {member : Rbs.Alias} (hdeclares : Declares ctx mode t (.aliasing d)) (hmember : d.member = .ok member) :
    ctx.source.Spells member.newName ∧ ctx.source.Spells member.oldName := by
  obtain ⟨hnew, hold⟩ := AliasDeclaration.symbols_of_member_eq_ok hmember
  cases hdeclares with
  | aliasing => exact ⟨SyntaxTree.spells_aliasName _ hnew, SyntaxTree.spells_aliasName _ hold⟩

end Outline

end RubySig
