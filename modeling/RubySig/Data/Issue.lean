/-!
# Problems of plain data

What can be wrong with a value at some place of the data, and the words for it. The words of a
problem depend on its cause only, never on the value around it.
-/

namespace RubySig.Data

/-- One step of the path to a place: a field, key or tag, or the index of an item. -/
inductive Step where
  | name (name : String)
  | index (index : Nat)
  deriving DecidableEq

/-- Why a value does not fit. -/
inductive Cause where
  | missing
  | notText
  | notBoolean
  | unreadableBoolean
  | notInteger
  | unreadableInteger
  | oversizedInteger
  | fractional
  | notFinite
  | notLiteral (allowed : List String)
  | notMember (allowed : List String)
  | notList
  | notMapping
  | notInstance (className : String)
  | notTagged
  | tagMissing (key : String)
  | tagUnknown (key found : String) (allowed : List String)
  | patternMismatch (pattern : String)
  | tooDeep
  deriving DecidableEq

/-- A cause at a place. -/
structure Issue where
  path : List Step
  cause : Cause
  deriving DecidableEq

/-- A name in single quotes. -/
def inQuotes (name : String) : String :=
  "'" ++ name ++ "'"

/-- Names as a choice: commas between them and `or` before the last. -/
def choice : List String → String
  | [] => ""
  | [last] => inQuotes last
  | [first, last] => inQuotes first ++ " or " ++ inQuotes last
  | first :: rest => inQuotes first ++ ", " ++ choice rest

/-- The short name of a cause. -/
def Cause.code : Cause → String
  | missing => "missing"
  | notText => "string_type"
  | notBoolean => "bool_type"
  | unreadableBoolean => "bool_parsing"
  | notInteger => "int_type"
  | unreadableInteger => "int_parsing"
  | oversizedInteger => "int_parsing_size"
  | fractional => "int_from_float"
  | notFinite => "finite_number"
  | notLiteral _ => "literal_error"
  | notMember _ => "enum"
  | notList => "tuple_type"
  | notMapping => "dict_type"
  | notInstance _ => "model_type"
  | notTagged => "model_attributes_type"
  | tagMissing _ => "union_tag_not_found"
  | tagUnknown _ _ _ => "union_tag_invalid"
  | patternMismatch _ => "string_pattern_mismatch"
  | tooDeep => "recursion_depth_exceeded"

/-- The words for a cause. -/
def Cause.message : Cause → String
  | missing => "Field required"
  | notText => "Input should be a valid string"
  | notBoolean => "Input should be a valid boolean"
  | unreadableBoolean => "Input should be a valid boolean, unable to interpret input"
  | notInteger => "Input should be a valid integer"
  | unreadableInteger => "Input should be a valid integer, unable to parse string as an integer"
  | oversizedInteger => "Unable to parse input string as an integer, exceeded maximum size"
  | fractional => "Input should be a valid integer, got a number with a fractional part"
  | notFinite => "Input should be a finite number"
  | notLiteral allowed => "Input should be " ++ choice allowed
  | notMember allowed => "Input should be " ++ choice allowed
  | notList => "Input should be a valid tuple"
  | notMapping => "Input should be a valid dictionary"
  | notInstance className => "Input should be a valid dictionary or instance of " ++ className
  | notTagged => "Input should be a valid dictionary or object to extract fields from"
  | tagMissing key => "Unable to extract tag using discriminator " ++ inQuotes key
  | tagUnknown key found allowed =>
    "Input tag " ++ inQuotes found ++ " found using " ++ inQuotes key
      ++ " does not match any of the expected tags: " ++ ", ".intercalate (allowed.map inQuotes)
  | patternMismatch pattern => "String should match pattern " ++ inQuotes pattern
  | tooDeep => "Recursion error - maximum validation depth exceeded"

end RubySig.Data
