import RubySig.Number.Shortest
import RubySig.Text.Quoted

/-!
# Plain data

The values in which types, members, notes and Ruby nodes are exchanged: what a JSON text can
say. A number that is written with a fraction or a power of ten is a number of double precision.
-/

namespace RubySig.Data

open RubySig.Number (Binary64)

/-- A plain value. -/
inductive Value where
  | null
  | bool (value : Bool)
  | int (value : Int)
  | real (value : Binary64)
  | text (value : String)
  | list (items : List Value)
  | record (fields : List (String × Value))
  deriving Inhabited

/-- The fields of a record. -/
abbrev Fields := List (String × Value)

namespace Value

mutual

/-- The text of a value inside another value. -/
def quoted : Value → String
  | null => "None"
  | bool true => "True"
  | bool false => "False"
  | int n => toString n
  | real x => x.text
  | text s => Text.Quoted.render s
  | list items => "[" ++ ", ".intercalate (quotedEach items) ++ "]"
  | record fields => "\x7b" ++ ", ".intercalate (quotedFields fields) ++ "\x7d"

/-- The texts of the items of a list. -/
def quotedEach : List Value → List String
  | [] => []
  | value :: rest => value.quoted :: quotedEach rest

/-- The texts of the fields of a record. -/
def quotedFields : List (String × Value) → List String
  | [] => []
  | (name, value) :: rest => (Text.Quoted.render name ++ ": " ++ value.quoted) :: quotedFields rest

end

/-- How a message shows a value: a text as it is. -/
def shown : Value → String
  | text s => s
  | value => value.quoted

end Value

end RubySig.Data
