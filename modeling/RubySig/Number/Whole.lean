import RubySig.Text.Blank

/-!
# Whole numbers in texts

A text says a whole number if, blanks around it left out, it is a minus sign or nothing, then a zero
alone or digits that start with another digit. Otherwise some decoration is taken away and the rest
has to be of that form: a plus sign in front, zeros and underscores before the first other digit
or a minus sign, a fraction that has no digit but zero, and underscores that stand one by one
inside. Very long runs of digits are refused.
-/

namespace RubySig.Number

open RubySig.Text (isBlank trim)

/-- Why a text says no whole number. -/
inductive WholeFault where
  | malformed
  | tooLong
  deriving DecidableEq

/-- The value of decimal digits. -/
def ofDigits (digits : List Char) : Nat :=
  digits.foldl (fun value c => 10 * value + (c.toNat - 48)) 0

/-- A whole number with a sign. -/
def signed (negative : Bool) (n : Nat) : Int :=
  if negative then -Int.ofNat n else Int.ofNat n

/-- How long a run of digits with its sign may be. -/
def longestRun : Nat := 4300

/-- A minus sign or nothing, and digits. The length of the run counts before what follows it. -/
def plainWhole (cs : List Char) : Except WholeFault Int :=
  let negative := cs.head? = some '-'
  let digits := if negative then cs.tail else cs
  let run := digits.takeWhile Char.isDigit
  if run.head? = some '0' then if digits.length = 1 then .ok 0 else .error .malformed
  else if longestRun < run.length + (if negative then 1 else 0) then .error .tooLong
  else if run.isEmpty || run.length < digits.length then .error .malformed
  else .ok (signed negative (ofDigits run))

/-- Leave out zeros and underscores behind a first zero, up to another digit or a minus sign. Before
a point, and at the end, the last of them stays. -/
def dropZeros (last : Char) : List Char → Option (List Char)
  | [] => some [last]
  | c :: rest =>
    if c = '0' || c = '_' then dropZeros c rest
    else if c.isDigit || c = '-' then some (c :: rest)
    else if c = '.' then some (last :: c :: rest)
    else none

/-- Leave out zeros at the start of a number. -/
def dropLeadingZeros : List Char → Option (List Char)
  | [] => none
  | c :: rest =>
    if c = '0' then dropZeros c rest
    else if c.isDigit || c = '-' then some (c :: rest)
    else none

/-- Leave out a fraction that has digits and no digit but zero. -/
def dropZeroFraction (cs : List Char) : List Char :=
  match cs.dropWhile (· ≠ '.') with
  | _ :: zero :: zeros => if (zero :: zeros).all (· = '0') then cs.takeWhile (· ≠ '.') else cs
  | _ => cs

/-- Whether two underscores stand side by side. -/
def hasDoubleUnderscore : List Char → Bool
  | a :: b :: rest => (a = '_' && b = '_') || hasDoubleUnderscore (b :: rest)
  | _ => false

/-- Leave out underscores if each stands between two other characters. -/
def dropUnderscores (cs : List Char) : List Char :=
  if cs.head? = some '_' || cs.getLast? = some '_' || hasDoubleUnderscore cs then cs
  else cs.filter (· ≠ '_')

/-- Take the decoration away from a number. -/
def undecorated? (cs : List Char) : Option (List Char) := do
  let unsigned ← match cs with
    | '+' :: '-' :: _ => none
    | '+' :: rest => some rest
    | rest => some rest
  return dropUnderscores (dropZeroFraction (← dropLeadingZeros unsigned))

/-- The whole number that a text says. -/
def readWhole (s : String) : Except WholeFault Int :=
  let cs := trim isBlank s.toList
  match plainWhole cs with
  | .error .malformed =>
    match undecorated? cs with
    | some plain => plainWhole plain
    | none => .error .malformed
  | result => result

end RubySig.Number
