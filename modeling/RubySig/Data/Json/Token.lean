import RubySig.Data.Value
import RubySig.Number.Whole

/-!
# Tokens of a JSON text

The brackets, commas and colons of a JSON text and the scalars between them. A text may name a
character by its code in UTF-16; two codes that form a surrogate pair name one character, and a
lone surrogate is replaced by U+FFFD. A number without fraction and power of ten is a whole number
of any size. Beside the words of the format, `NaN` and the two infinities are read.
-/

namespace RubySig.Data.Json

open RubySig.Number (ofDigits signed)

/-- A token of a JSON text. -/
inductive Token where
  | openList
  | closeList
  | openRecord
  | closeRecord
  | comma
  | colon
  | scalar (value : Value)

/-- The tokens of one character. -/
def punctuation : List (Char × Token) :=
  [('[', .openList), (']', .closeList), ('\x7b', .openRecord), ('\x7d', .closeRecord),
    (',', .comma), (':', .colon)]

/-- A fraction: a point and digits. Without a point there is no digit. -/
def fraction? : List Char → Option (List Char × List Char)
  | '.' :: rest =>
    let digits := rest.takeWhile Char.isDigit
    if digits.isEmpty then none else some (digits, rest.dropWhile Char.isDigit)
  | rest => some ([], rest)

/-- A power of ten: its mark, a sign and digits. -/
def power? : List Char → Option Int
  | mark :: rest =>
    let (negative, digits) := match rest with
      | '-' :: digits => (true, digits)
      | '+' :: digits => (false, digits)
      | digits => (false, digits)
    if (mark = 'e' || mark = 'E') && !digits.isEmpty && digits.all Char.isDigit then
      some (signed negative (ofDigits digits))
    else none
  | [] => none

/-- A number without its sign. -/
def magnitude? (negative : Bool) (cs : List Char) : Option Value := do
  let whole := cs.takeWhile Char.isDigit
  let (fraction, rest) ← fraction? (cs.dropWhile Char.isDigit)
  if whole.isEmpty || (whole.head? = some '0' && 1 < whole.length) then none
  else if fraction.isEmpty && rest.isEmpty then
    return .int (signed negative (ofDigits whole))
  else do
    let power ← if rest.isEmpty then some 0 else power? rest
    return .real (.ofDecimal negative (ofDigits (whole ++ fraction)) (power - Int.ofNat fraction.length))

/-- The scalars that are words. -/
def words : List (String × Value) :=
  [("null", .null), ("true", .bool true), ("false", .bool false), ("NaN", .real .nan),
    ("Infinity", .real (.infinite false)), ("-Infinity", .real (.infinite true))]

/-- A word or a number. -/
def scalar? (cs : List Char) : Option Value :=
  match words.lookup (String.ofList cs) with
  | some value => some value
  | none =>
    match cs with
    | '-' :: rest => magnitude? true rest
    | rest => magnitude? false rest

/-- Characters of words and numbers. -/
def isScalarChar (c : Char) : Bool :=
  c.isAlphanum || c = '-' || c = '+' || c = '.'

/-- The value of a hexadecimal digit. -/
def hexDigit? (c : Char) : Option Nat :=
  if c.isDigit then some (c.toNat - 48)
  else if 'a' ≤ c && c ≤ 'f' then some (c.toNat - 87)
  else if 'A' ≤ c && c ≤ 'F' then some (c.toNat - 55)
  else none

/-- The value of hexadecimal digits. -/
def hexValue? (digits : List Char) : Option Nat :=
  digits.foldlM (fun value c => (hexDigit? c).map (16 * value + ·)) 0

/-- What a letter stands for behind a backslash. -/
def escapes : List (Char × Char) :=
  [('"', '"'), ('\\', '\\'), ('/', '/'), ('b', '\x08'), ('f', '\x0c'), ('n', '\n'), ('r', '\r'),
    ('t', '\t')]

/-- The codes of a text up to its closing quote, and what follows the quote. -/
def textCodes? (before : List Nat) : List Char → Option (List Nat × List Char)
  | [] => none
  | '"' :: rest => some (before.reverse, rest)
  | '\\' :: 'u' :: a :: b :: c :: d :: rest =>
    match hexValue? [a, b, c, d] with
    | some code => textCodes? (code :: before) rest
    | none => none
  | '\\' :: letter :: rest =>
    match escapes.lookup letter with
    | some c => textCodes? (c.toNat :: before) rest
    | none => none
  | c :: rest => textCodes? (c.toNat :: before) rest

/-- What follows a text is shorter than the text and what follows it. -/
theorem length_lt_of_textCodes? {before codes : List Nat} {cs rest : List Char}
    (h : textCodes? before cs = some (codes, rest)) : rest.length < cs.length := by
  fun_induction textCodes? before cs with
  | case1 => simp at h
  | case2 before after => simp_all
  | case3 before a b c d after code _ ih => exact Nat.lt_of_lt_of_le (ih h) (by simp; omega)
  | case4 => simp at h
  | case5 before letter after _ c _ ih => exact Nat.lt_of_lt_of_le (ih h) (by simp; omega)
  | case6 => simp at h
  | case7 before c after _ _ _ ih => exact Nat.lt_of_lt_of_le (ih h) (by simp)

/-- The characters of codes, a surrogate pair as one. -/
def ofCodes : List Nat → List Char
  | [] => []
  | [code] => [if code.isValidChar then Char.ofNat code else '\ufffd']
  | high :: low :: rest =>
    if 0xd800 ≤ high && high < 0xdc00 && 0xdc00 ≤ low && low < 0xe000 then
      Char.ofNat (0x10000 + (high - 0xd800) * 0x400 + (low - 0xdc00)) :: ofCodes rest
    else (if high.isValidChar then Char.ofNat high else '\ufffd') :: ofCodes (low :: rest)

/-- The tokens of a text, behind those already found, which stand in reverse. -/
def tokens (before : List Token) (cs : List Char) : Option (List Token) :=
  match cs with
  | [] => some before.reverse
  | c :: rest =>
    if c = ' ' || c = '\n' || c = '\r' || c = '\t' then tokens before rest
    else if c = '"' then
      match h : textCodes? [] rest with
      | none => none
      | some (codes, after) =>
        have : after.length < rest.length := length_lt_of_textCodes? h
        tokens (.scalar (.text (String.ofList (ofCodes codes))) :: before) after
    else
      match punctuation.lookup c with
      | some token => tokens (token :: before) rest
      | none =>
        match scalar? (c :: rest.takeWhile isScalarChar) with
        | some value => tokens (.scalar value :: before) (rest.dropWhile isScalarChar)
        | none => none
termination_by cs.length
decreasing_by
  · simp
  · simp
    omega
  · simp
  · have := (List.dropWhile_sublist isScalarChar (l := rest)).length_le
    simp
    omega

end RubySig.Data.Json
