import RubySig.Text.Blank

/-!
# Markup

Texts in a listing may hold tags in square brackets that set a style: an opening bracket, one of
the letters `a` to `z` or `#`, `/`, `@`, and then anything but an opening bracket up to the first
closing one. A tag is text instead when an odd number of backslashes stands before it.

`escape` makes every tag of a text stand for itself, `plain` is what a text looks like. A tag that
starts with a slash closes an earlier one; `fault?` finds one that closes nothing, since such a
text cannot be shown.
-/

namespace RubySig.Text.Markup

/-- Characters that may follow the opening bracket of a tag. -/
def beginsTag (c : Char) : Bool :=
  ('a' ≤ c && c ≤ 'z') || c = '#' || c = '/' || c = '@'

/-- A closing bracket comes, and no opening one before it. -/
def closes : List Char → Bool
  | [] => false
  | c :: rest => if c = ']' then true else if c = '[' then false else closes rest

/-- What follows an opening bracket makes a tag of it. -/
def opensTag : List Char → Bool
  | [] => false
  | c :: rest => beginsTag c && closes rest

/-- A number of backslashes. -/
def backslashes (n : Nat) : List Char :=
  List.replicate n '\\'

/-- No backslashes are no text. -/
@[simp]
theorem backslashes_zero : backslashes 0 = [] := rfl

/-- One more backslash is put in front. -/
theorem backslashes_succ (n : Nat) : backslashes (n + 1) = '\\' :: backslashes n := rfl

/-- A backslash behind backslashes is one more of them. -/
theorem backslashes_append_cons (n : Nat) (cs : List Char) :
    backslashes n ++ '\\' :: cs = backslashes (n + 1) ++ cs := by
  rw [backslashes, backslashes, List.replicate_succ', List.append_assoc, List.singleton_append]

/-- Double the backslashes before each tag and add one. `slashes` counts those just before. -/
def escapeFrom (slashes : Nat) : List Char → List Char
  | [] => backslashes slashes
  | c :: rest =>
    if c = '\\' then escapeFrom (slashes + 1) rest
    else if c = '[' && opensTag rest then backslashes (2 * slashes + 1) ++ c :: escapeFrom 0 rest
    else backslashes slashes ++ c :: escapeFrom 0 rest

/-- A text that ends in a single backslash. -/
def endsInBackslash (cs : List Char) : Bool :=
  match cs.reverse with
  | '\\' :: '\\' :: _ => false
  | '\\' :: _ => true
  | _ => false

/-- Make the tags of a text stand for themselves. A single backslash at the end is doubled, so that
it does not escape what is put after it. -/
def escapeChars (cs : List Char) : List Char :=
  let escaped := escapeFrom 0 cs
  if endsInBackslash escaped then escaped ++ ['\\'] else escaped

/-- Make the tags of a text stand for themselves. -/
def escape (s : String) : String :=
  String.ofList (escapeChars s.toList)

/-- The text without its tags. `inTag` says that a tag has begun, `slashes` counts the backslashes
just before. A bracket that begins no tag loses one backslash before it. -/
def plainFrom (inTag : Bool) (slashes : Nat) : List Char → List Char
  | [] => backslashes slashes
  | c :: rest =>
    if inTag then plainFrom (c ≠ ']') 0 rest
    else if c = '\\' then plainFrom false (slashes + 1) rest
    else if c = '[' && opensTag rest then
      backslashes (slashes / 2)
        ++ if slashes % 2 = 0 then plainFrom true 0 rest else c :: plainFrom false 0 rest
    else if c = '[' then backslashes (slashes - 1) ++ c :: plainFrom false 0 rest
    else backslashes slashes ++ c :: plainFrom false 0 rest

/-- What a text looks like. -/
def plain (s : String) : String :=
  String.ofList (plainFrom false 0 s.toList)

/-- The tags of a text that set a style, each with its position and what stands in its brackets.
`slashes` counts the backslashes just before. -/
def tagsFrom (position slashes : Nat) : List Char → List (Nat × List Char)
  | [] => []
  | c :: rest =>
    if c = '\\' then tagsFrom (position + 1) (slashes + 1) rest
    else if c = '[' && opensTag rest && slashes % 2 = 0 then
      (position, rest.takeWhile (· ≠ ']')) :: tagsFrom (position + 1) 0 rest
    else tagsFrom (position + 1) 0 rest

/-- The tags of a text that set a style. -/
def tags (s : String) : List (Nat × List Char) :=
  tagsFrom 0 0 s.toList

/-- Why a text cannot be shown: a closing tag for which none is open, by name or at all. -/
inductive Fault where
  | unmatched (tag : String) (position : Nat)
  | nothingOpen (position : Nat)
  deriving DecidableEq

/-- The words for a fault. -/
def Fault.message : Fault → String
  | .unmatched tag position =>
    "closing tag '" ++ tag ++ "' at position " ++ toString position ++ " doesn't match any open tag"
  | .nothingOpen position =>
    "closing tag '[/]' at position " ++ toString position ++ " has nothing to close"

/-- The name of a style as it is compared. -/
def styleName (cs : List Char) : List Char :=
  (trim isSpacing cs).map Char.toLower

/-- The first closing tag that closes nothing, given the open styles, the innermost first. What
follows an equals sign is no part of the name of a tag. -/
def faultFrom (opened : List (List Char)) : List (Nat × List Char) → Option Fault
  | [] => none
  | (position, body) :: rest =>
    match body.takeWhile (· ≠ '=') with
    | '/' :: closed =>
      let name := styleName closed
      if name.isEmpty && opened.isEmpty then some (.nothingOpen position)
      else if name.isEmpty then faultFrom opened.tail rest
      else if opened.contains name then faultFrom (opened.erase name) rest
      else some (.unmatched ("[" ++ String.ofList body ++ "]") position)
    | name => faultFrom (styleName name :: opened) rest

/-- Why a text cannot be shown, if it cannot. -/
def fault? (s : String) : Option Fault :=
  faultFrom [] (tags s)

end RubySig.Text.Markup
