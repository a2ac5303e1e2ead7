import RubySig.Data.Issue
import RubySig.Data.Value
import RubySig.Keyed
import RubySig.Number.Whole

/-!
# Reading plain data

A reader turns a plain value into a value of a type, or lists every problem: the fields of a
record in the order in which the reader names them, the items of a list in order, each with the
path that leads to it.
-/

namespace RubySig.Data

open RubySig.Number (Binary64 readWhole)
open RubySig.Text (lower)

/-- A value, or the problems that stand in its way. -/
inductive Checked (α : Type) where
  | ok (value : α)
  | bad (issues : List Issue)

namespace Checked

variable {α β : Type}

/-- Apply a function to the value. -/
def map (f : α → β) : Checked α → Checked β
  | ok value => ok (f value)
  | bad issues => bad issues

/-- Apply a checked function to a checked value and keep the problems of both. -/
def apply : Checked (α → β) → Checked α → Checked β
  | ok f, ok value => ok (f value)
  | ok _, bad issues => bad issues
  | bad issues, ok _ => bad issues
  | bad first, bad second => bad (first ++ second)

instance : Applicative Checked where
  map := map
  pure := ok
  seq f x := apply f (x ())

/-- One problem at this place. -/
def fail (cause : Cause) : Checked α :=
  bad [⟨[], cause⟩]

/-- The same result seen from one step further out. -/
def under (step : Step) : Checked α → Checked α
  | ok value => ok value
  | bad issues => bad (issues.map fun issue => { issue with path := step :: issue.path })

/-- A function is applied to a value. -/
@[simp]
theorem map_ok (f : α → β) (value : α) : f <$> ok value = ok (f value) := rfl

/-- A function that was read is applied to a value that was read. -/
@[simp]
theorem seq_ok (f : α → β) (value : α) : ok f <*> ok value = ok (f value) := rfl

/-- A step of the path matters to problems only. -/
@[simp]
theorem under_ok (step : Step) (value : α) : under step (ok value) = ok value := rfl

end Checked

/-- A reader of plain values. -/
abbrev Reader (α : Type) := Value → Checked α

namespace Reader

variable {α : Type}

/-- A text. -/
def text : Reader String
  | .text s => .ok s
  | _ => .fail .notText

/-- Words that are read as a truth value. -/
def truthWords : List (String × Bool) :=
  [("0", false), ("off", false), ("f", false), ("false", false), ("n", false), ("no", false),
    ("1", true), ("on", true), ("t", true), ("true", true), ("y", true), ("yes", true)]

/-- Whether a whole number fits a signed word of 64 bits. -/
def fitsWord (n : Int) : Bool :=
  -9223372036854775808 ≤ n && n < 9223372036854775808

/-- The truth value of a number, which has to be zero or one. Numbers that do not fit a word are
no truth values at all. -/
def truthOfInt (n : Int) : Checked Bool :=
  if n = 0 then .ok false
  else if n = 1 then .ok true
  else if fitsWord n then .fail .unreadableBoolean
  else .fail .notBoolean

/-- The whole number that a number of double precision is, strictly inside the range of a word. -/
def wordOfReal? (x : Binary64) : Option Int :=
  x.whole?.filter fun n => fitsWord n && fitsWord (-n)

/-- A truth value, a number that stands for one, or a word for one in any case. -/
def bool : Reader Bool
  | .bool b => .ok b
  | .int n => truthOfInt n
  | .real x =>
    match wordOfReal? x with
    | some n => truthOfInt n
    | none => .fail .notBoolean
  | .text s =>
    match truthWords.lookup (lower s) with
    | some b => .ok b
    | none => .fail .unreadableBoolean
  | _ => .fail .notBoolean

/-- The whole number that a number of double precision is. -/
def intOfReal (x : Binary64) : Checked Int :=
  if !x.isFinite then .fail .notFinite
  else if x.whole?.isNone then .fail .fractional
  else
    match wordOfReal? x with
    | some n => .ok n
    | none => .fail .oversizedInteger

/-- The whole number that a text says. -/
def intOfText (s : String) : Checked Int :=
  match readWhole s with
  | .ok n => .ok n
  | .error .malformed => .fail .unreadableInteger
  | .error .tooLong => .fail .oversizedInteger

/-- A whole number, a truth value as one or zero, or a text that says a whole number. -/
def int : Reader Int
  | .int n => .ok n
  | .bool b => .ok (if b then 1 else 0)
  | .real x => intOfReal x
  | .text s => intOfText s
  | _ => .fail .notInteger

/-- One of some words, each with its meaning; `cause` is the problem that lists them. -/
def word (cause : List String → Cause) (meanings : List (String × α)) : Reader α
  | .text s =>
    match meanings.lookup s with
    | some value => .ok value
    | none => .fail (cause (meanings.map Prod.fst))
  | _ => .fail (cause (meanings.map Prod.fst))

/-- Exactly this word. -/
def literal (s : String) : Reader Unit :=
  word .notLiteral [(s, ())]

/-- Null, or what a reader accepts. -/
def nullable (read : Reader α) : Reader (Option α)
  | .null => .ok none
  | value => some <$> read value

/-- Read items, the first of which has the given index. -/
def eachFrom (read : Reader α) : Nat → List Value → Checked (List α)
  | _, [] => .ok []
  | i, value :: rest => List.cons <$> (read value).under (.index i) <*> eachFrom read (i + 1) rest

/-- A list of what a reader accepts. -/
def list (read : Reader α) : Reader (List α)
  | .list items => eachFrom read 0 items
  | _ => .fail .notList

/-- Read the value of every entry. -/
def eachEntry (read : Reader α) : Fields → Checked (List (String × α))
  | [] => .ok []
  | (key, value) :: rest =>
    (fun item items => (key, item) :: items) <$> (read value).under (.name key) <*> eachEntry read rest

/-- A list of a text and a value. -/
def pair? : Value → Option (String × Value)
  | .list [.text key, value] => some (key, value)
  | _ => none

/-- The entries of a record, or of a list of pairs that each start with a text. -/
def entries? : Value → Option Fields
  | .record fields => some fields
  | .list items => items.mapM pair?
  | _ => none

/-- A keyed list: of a repeated key the first place and the last value count. -/
def keyed (read : Reader α) : Reader (List (String × α))
  | value =>
    match entries? value with
    | some pairs => eachEntry read (Keyed.ofPairs pairs)
    | none => .fail .notMapping

/-- A field that has to be there. -/
def required (fields : Fields) (name : String) (read : Reader α) : Checked α :=
  match fields.lookup name with
  | some value => (read value).under (.name name)
  | none => (Checked.fail .missing).under (.name name)

/-- A field that has a default. -/
def defaulted (fields : Fields) (name : String) (default : α) (read : Reader α) : Checked α :=
  match fields.lookup name with
  | some value => (read value).under (.name name)
  | none => .ok default

/-- The field that names the kind of a record; it may be left out. -/
def tag (fields : Fields) (key name : String) : Checked Unit :=
  defaulted fields key () (literal name)

/-- A record of the class with this name. -/
def record (className : String) (read : Fields → Checked α) : Reader α
  | .record fields => read fields
  | _ => .fail (.notInstance className)

/-- A record whose kind, found under a key, decides how it is read. -/
def tagged (key : String) (kinds : List (String × Reader α)) : Reader α
  | .record fields =>
    match fields.lookup key with
    | none => .fail (.tagMissing key)
    | some (.text name) =>
      match kinds.lookup name with
      | some read => (read (.record fields)).under (.name name)
      | none => .fail (.tagUnknown key name (kinds.map Prod.fst))
    | some other => .fail (.tagUnknown key other.shown (kinds.map Prod.fst))
  | _ => .fail .notTagged

end Reader

end RubySig.Data
