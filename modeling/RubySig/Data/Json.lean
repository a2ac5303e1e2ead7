import RubySig.Data.Json.Token
import RubySig.Keyed

/-!
# JSON texts

Plain values are read from JSON texts and written as such. Reading goes through the tokens once,
from one state to the next, with the lists and records that are still open on a stack; the fields
of a record keep their order, and of a repeated name the first place and the last value count.
-/

namespace RubySig.Data

namespace Json

/-- A list or record that is still open, with what it holds so far in reverse. -/
inductive Frame where
  | list (before : List Value)
  | record (before : Fields) (name : String)

/-- What is known of a value after some of its tokens, with what is open around it. -/
inductive State where
  /-- A value has to follow. -/
  | needValue (outer : List Frame)
  /-- The first item of a list, or the end of the list, has to follow. -/
  | firstItem (outer : List Frame)
  /-- The first name of a record, or the end of the record, has to follow. -/
  | firstName (outer : List Frame)
  /-- A name has to follow. -/
  | needName (before : Fields) (outer : List Frame)
  /-- The colon behind a name has to follow. -/
  | needColon (before : Fields) (name : String) (outer : List Frame)
  /-- A value is complete. -/
  | complete (value : Value) (outer : List Frame)

/-- The state after the first token of a value. -/
def State.opening (outer : List Frame) : Token → Option State
  | .scalar value => some (.complete value outer)
  | .openList => some (.firstItem outer)
  | .openRecord => some (.firstName outer)
  | _ => none

/-- The state after one more token. -/
def State.next : State → Token → Option State
  | .needValue outer, token => opening outer token
  | .firstItem outer, .closeList => some (.complete (.list []) outer)
  | .firstItem outer, token => opening (.list [] :: outer) token
  | .firstName outer, .closeRecord => some (.complete (.record []) outer)
  | .firstName outer, .scalar (.text name) => some (.needColon [] name outer)
  | .needName before outer, .scalar (.text name) => some (.needColon before name outer)
  | .needColon before name outer, .colon => some (.needValue (.record before name :: outer))
  | .complete value (.list before :: outer), .comma =>
    some (.needValue (.list (value :: before) :: outer))
  | .complete value (.list before :: outer), .closeList =>
    some (.complete (.list (value :: before).reverse) outer)
  | .complete value (.record before name :: outer), .comma =>
    some (.needName ((name, value) :: before) outer)
  | .complete value (.record before name :: outer), .closeRecord =>
    some (.complete (.record (Keyed.ofPairs ((name, value) :: before).reverse)) outer)
  | _, _ => none

/-- Characters that are written by their code: controls, and those that separate lines, so that a
JSON text is a single line. -/
def needsCode (c : Char) : Bool :=
  let n := c.toNat
  n < 0x20 || (0x7f ≤ n && n < 0xa0) || n = 0x2028 || n = 0x2029

/-- A character between the quotes of a text. -/
def escapeChar (c : Char) : List Char :=
  if c = '"' || c = '\\' then ['\\', c]
  else if needsCode c then '\\' :: 'u' :: Text.Quoted.hex 4 c.toNat
  else [c]

/-- A text in quotes. -/
def quoteText (s : String) : String :=
  String.ofList ('"' :: s.toList.flatMap escapeChar ++ ['"'])

end Json

namespace Value

/-- The value that a JSON text says. -/
def ofJson? (s : String) : Option Value := do
  match ← (← Json.tokens [] s.toList).foldlM Json.State.next (.needValue []) with
  | .complete value [] => some value
  | _ => none

mutual

/-- The JSON text of a value. -/
def toJson : Value → String
  | null => "null"
  | bool true => "true"
  | bool false => "false"
  | int n => toString n
  | real (.finite negative m q) => (Number.Binary64.finite negative m q).text
  | real (.infinite negative) => if negative then "-Infinity" else "Infinity"
  | real .nan => "NaN"
  | text s => Json.quoteText s
  | list items => "[" ++ ",".intercalate (toJsonEach items) ++ "]"
  | record fields => "\x7b" ++ ",".intercalate (toJsonFields fields) ++ "\x7d"

/-- The JSON texts of the items of a list. -/
def toJsonEach : List Value → List String
  | [] => []
  | value :: rest => value.toJson :: toJsonEach rest

/-- The JSON texts of the fields of a record. -/
def toJsonFields : List (String × Value) → List String
  | [] => []
  | (name, value) :: rest => (Json.quoteText name ++ ":" ++ value.toJson) :: toJsonFields rest

end

end Value

end RubySig.Data
