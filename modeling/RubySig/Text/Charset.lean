import RubySig.Text.Blank
import RubySig.Text.Quoted
import RubySig.Text.Utf8

/-!
# Character sets of source files

A source file is decoded by a character set that is known by its name. Bytes that the set does not
allow are refused, with their position and the reason.
-/

namespace RubySig.Text

/-- Character sets that a source file can be in. -/
inductive Charset where
  | utf8
  | utf8Marked
  | latin1
  | ascii
  | utf16
  | utf16Little
  | utf16Big
  deriving DecidableEq

namespace Charset

/-- Names of character sets, in small letters with underscores between the words. -/
def names : List (String × Charset) :=
  [("utf_8", utf8), ("utf8", utf8), ("u8", utf8), ("utf", utf8), ("cp65001", utf8),
    ("utf_8_sig", utf8Marked),
    ("latin_1", latin1), ("latin1", latin1), ("latin", latin1), ("l1", latin1), ("iso_8859_1", latin1),
    ("iso8859_1", latin1), ("iso8859", latin1), ("8859", latin1), ("cp819", latin1),
    ("ascii", ascii), ("us_ascii", ascii), ("us", ascii), ("646", ascii),
    ("utf_16", utf16), ("utf16", utf16), ("u16", utf16),
    ("utf_16_le", utf16Little), ("utf_16le", utf16Little),
    ("utf_16_be", utf16Big), ("utf_16be", utf16Big)]

/-- Write runs of characters other than letters, digits and points as one underscore between words,
and letters as small letters. `started` and `pending` say that a word and such a run came before. -/
def normalize (started pending : Bool) : List Char → List Char
  | [] => []
  | c :: rest =>
    if c.isAlphanum || c = '.' then
      (if started && pending then ['_'] else []) ++ c.toLower :: normalize true false rest
    else normalize started true rest

/-- The character set with a name; case and the signs between words do not count. -/
def ofName? (name : String) : Option Charset :=
  names.lookup (String.ofList (normalize false false name.toList))

end Charset

/-- Why bytes cannot be decoded. -/
inductive DecodeFault where
  | refused (codec : String) (first : UInt8) (position length : Nat) (reason : String)
  | markMissing
  deriving DecidableEq

/-- The words for bytes that cannot be decoded. -/
def DecodeFault.message : DecodeFault → String
  | .refused codec first position length reason =>
    "'" ++ codec ++ "' codec can't decode "
      ++ (if length = 1 then
          "byte 0x" ++ String.ofList (Quoted.hex 2 first.toNat) ++ " in position " ++ toString position
        else "bytes in position " ++ toString position ++ "-" ++ toString (position + length - 1))
      ++ ": " ++ reason
  | .markMissing => "UTF-16 stream does not start with BOM"

namespace Charset

/-- Characters, or why there are none. -/
abbrev Decoded := Except DecodeFault (List Char)

/-- Refuse bytes at a position. -/
def refuse (codec : String) (bytes : List UInt8) (position length : Nat) (reason : String) : Decoded :=
  .error (.refused codec ((bytes.drop position).headD 0) position length reason)

/-- Decode UTF-8 without replacement. -/
def decodeUtf8 (bytes : List UInt8) : Decoded :=
  match Utf8.firstFault bytes with
  | none => .ok (Utf8.decode bytes)
  | some fault => refuse "utf-8" bytes fault.position fault.length fault.reason.text

/-- The byte order mark in UTF-8. -/
def mark : List UInt8 := [0xef, 0xbb, 0xbf]

/-- Decode UTF-8 that may start with a byte order mark. Bytes that end within the mark are empty. -/
def decodeUtf8Marked (bytes : List UInt8) : Decoded :=
  if bytes.length < 3 && mark.take bytes.length == bytes then .ok []
  else if bytes.take 3 == mark then decodeUtf8 (bytes.drop 3)
  else decodeUtf8 bytes

/-- Decode one byte per character. -/
def decodeLatin1 (bytes : List UInt8) : Decoded :=
  .ok (bytes.map fun b => Char.ofNat b.toNat)

/-- Decode one byte per character, where only the lower half of the bytes is allowed. -/
def decodeAscii (bytes : List UInt8) : Decoded :=
  match bytes.findIdx? (0x80 ≤ ·) with
  | none => decodeLatin1 bytes
  | some position => refuse "ascii" bytes position 1 "ordinal not in range(128)"

/-- The unit of two bytes. -/
def unit (big : Bool) (a b : UInt8) : Nat :=
  if big then a.toNat * 256 + b.toNat else b.toNat * 256 + a.toNat

/-- A unit that begins a pair. -/
def isHigh (u : Nat) : Bool := 0xd800 ≤ u && u < 0xdc00

/-- A unit that ends a pair. -/
def isLow (u : Nat) : Bool := 0xdc00 ≤ u && u < 0xe000

/-- Decode units of two bytes from a position on; `all` is the whole input. -/
def decodeUnits (big : Bool) (all : List UInt8) (position : Nat) : List UInt8 → Decoded
  | [] => .ok []
  | [_] => refuse (if big then "utf-16-be" else "utf-16-le") all position 1 "truncated data"
  | a :: b :: rest =>
    let codec := if big then "utf-16-be" else "utf-16-le"
    let u := unit big a b
    if isHigh u then
      match rest with
      | c :: d :: rest =>
        let v := unit big c d
        if isLow v then
          (Char.ofNat (0x10000 + (u - 0xd800) * 0x400 + (v - 0xdc00)) :: ·)
            <$> decodeUnits big all (position + 4) rest
        else refuse codec all position 2 "illegal UTF-16 surrogate"
      | [] => refuse codec all position 2 "unexpected end of data"
      | [_] => refuse codec all position 3 "unexpected end of data"
    else if isLow u then refuse codec all position 2 "illegal encoding"
    else (Char.ofNat u :: ·) <$> decodeUnits big all (position + 2) rest

/-- Decode units of two bytes whose order a mark at the start tells. -/
def decodeUtf16 (bytes : List UInt8) : Decoded :=
  match bytes with
  | 0xff :: 0xfe :: rest => decodeUnits false bytes 2 rest
  | 0xfe :: 0xff :: rest => decodeUnits true bytes 2 rest
  | _ =>
    match decodeUnits false bytes 0 bytes with
    | .error fault => .error fault
    | .ok [] => .ok []
    | .ok _ => .error .markMissing

/-- Decode bytes by a character set. -/
def decode (charset : Charset) (bytes : List UInt8) : Decoded :=
  match charset with
  | utf8 => decodeUtf8 bytes
  | utf8Marked => decodeUtf8Marked bytes
  | latin1 => decodeLatin1 bytes
  | ascii => decodeAscii bytes
  | utf16 => decodeUtf16 bytes
  | utf16Little => decodeUnits false bytes 0 bytes
  | utf16Big => decodeUnits true bytes 0 bytes

end Charset

end RubySig.Text
