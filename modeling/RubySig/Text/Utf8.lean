/-!
# UTF-8

Bytes are read one at a time. Between characters nothing is pending; after a lead byte the bytes
still awaited are known, each with its least and greatest value. A byte that is not the awaited one
ends the pending character and is read anew, so each longest beginning of a character that does not
go on to the end of one counts as a single fault.

`decode` puts the replacement character in the place of each fault. `firstFault` finds the first
one, for readers that refuse such bytes.
-/

namespace RubySig.Text.Utf8

/-- What stands in the place of bytes that are no character. -/
def replacement : Char := '�'

/-- The least and the greatest value of a byte. -/
abbrev ByteRange := Nat × Nat

/-- A byte lies in a range. -/
def ByteRange.holds (range : ByteRange) (b : UInt8) : Bool :=
  range.1 ≤ b.toNat && b.toNat ≤ range.2

/-- Any byte that goes on with a character. -/
def following : ByteRange := (0x80, 0xbf)

/-- A character that has begun: the byte awaited next, those after it, the bits collected so far,
and the number of bytes they came from. -/
structure Pending where
  next : ByteRange
  later : List ByteRange
  bits : Nat
  seen : Nat
  deriving DecidableEq

/-- What a byte begins. -/
inductive Start where
  | single (c : Char)
  | lead (pending : Pending)
  | invalid

/-- What a byte begins. Lead bytes of overlong forms, surrogates and values beyond the last
character are excluded here or by the range of the byte after them. -/
def start (b : UInt8) : Start :=
  let n := b.toNat
  if n < 0x80 then .single (Char.ofNat n)
  else if n < 0xc2 then .invalid
  else if n < 0xe0 then .lead ⟨following, [], n - 0xc0, 1⟩
  else if n = 0xe0 then .lead ⟨(0xa0, 0xbf), [following], 0, 1⟩
  else if n = 0xed then .lead ⟨(0x80, 0x9f), [following], 0xd, 1⟩
  else if n < 0xf0 then .lead ⟨following, [following], n - 0xe0, 1⟩
  else if n = 0xf0 then .lead ⟨(0x90, 0xbf), [following, following], 0, 1⟩
  else if n < 0xf4 then .lead ⟨following, [following, following], n - 0xf0, 1⟩
  else if n = 0xf4 then .lead ⟨(0x80, 0x8f), [following, following], 4, 1⟩
  else .invalid

/-- The pending character after the awaited byte: complete, or still pending. -/
def Pending.advance (p : Pending) (b : UInt8) : Char ⊕ Pending :=
  let bits := p.bits * 64 + (b.toNat - 0x80)
  match p.later with
  | [] => .inl (Char.ofNat bits)
  | next :: later => .inr ⟨next, later, bits, p.seen + 1⟩

/-- The characters that a byte between characters gives, and what is pending after it. -/
def fresh (b : UInt8) : List Char × Option Pending :=
  match start b with
  | .single c => ([c], none)
  | .lead p => ([], some p)
  | .invalid => ([replacement], none)

/-- The characters that a byte gives, and what is pending after it. -/
def step : Option Pending → UInt8 → List Char × Option Pending
  | none, b => fresh b
  | some p, b =>
    if p.next.holds b then
      match p.advance b with
      | .inl c => ([c], none)
      | .inr p => ([], some p)
    else (replacement :: (fresh b).1, (fresh b).2)

/-- Decode bytes, given what is pending. -/
def decodeFrom (pending : Option Pending) : List UInt8 → List Char
  | [] => if pending.isSome then [replacement] else []
  | b :: rest => (step pending b).1 ++ decodeFrom (step pending b).2 rest

/-- The characters of bytes, with the replacement character for each fault. -/
def decode (bytes : List UInt8) : List Char :=
  decodeFrom none bytes

/-- The bytes of characters. -/
def encode (cs : List Char) : List UInt8 :=
  cs.flatMap String.utf8EncodeChar

/-- Why bytes are no character. -/
inductive Reason where
  | invalidStart
  | invalidContinuation
  | unexpectedEnd
  deriving DecidableEq

/-- The words for a reason. -/
def Reason.text : Reason → String
  | .invalidStart => "invalid start byte"
  | .invalidContinuation => "invalid continuation byte"
  | .unexpectedEnd => "unexpected end of data"

/-- Bytes that are no character: where they begin, how many they are, and why. -/
structure Fault where
  position : Nat
  length : Nat
  reason : Reason
  deriving DecidableEq

/-- The first fault, given what is pending and the position of the next byte. -/
def faultFrom (pending : Option Pending) (position : Nat) : List UInt8 → Option Fault
  | [] => pending.map fun p => ⟨position - p.seen, p.seen, .unexpectedEnd⟩
  | b :: rest =>
    match pending with
    | none =>
      match start b with
      | .single _ => faultFrom none (position + 1) rest
      | .lead p => faultFrom (some p) (position + 1) rest
      | .invalid => some ⟨position, 1, .invalidStart⟩
    | some p =>
      if p.next.holds b then
        match p.advance b with
        | .inl _ => faultFrom none (position + 1) rest
        | .inr p => faultFrom (some p) (position + 1) rest
      else some ⟨position - p.seen, p.seen, .invalidContinuation⟩

/-- The first fault among bytes. -/
def firstFault (bytes : List UInt8) : Option Fault :=
  faultFrom none 0 bytes

end RubySig.Text.Utf8
