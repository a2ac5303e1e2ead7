import RubySig.Data.Checked
import RubySig.Settings
import RubySig.Settings.Dotenv
import RubySig.Text.Charset

/-!
# Loading settings

Each setting is taken from the first place that has it: a value given outright, a variable of the
environment, a line of the environment file, the default. Names are compared without regard to
case; of several values given outright the first counts, and of several variables or lines the
last. All values are checked, and all problems are reported. An environment file whose
bytes are no text stops the loading before any value is looked at.
-/

namespace RubySig.Settings

open RubySig.Data
open RubySig.Text (Charset DecodeFault lower)

/-- Where settings come from besides values given outright. -/
structure Surroundings where
  env : List (String × String) := []
  dotenv : Option (List UInt8) := none

/-- Why settings cannot be loaded. -/
inductive LoadFault where
  | undecodable (fault : DecodeFault)
  | invalid (issues : List Issue)

/-- A variable by its name in small letters. Of names that differ only in case the last counts. -/
def find? {α : Type} (entries : List (String × α)) (name : String) : Option α :=
  ((entries.filter fun entry => lower entry.1 == name).getLast?).map Prod.snd

/-- What all variables of the environment start with. -/
def variablePrefix : String := "rbs_inline_"

/-- The bindings of the environment file; none without a file. -/
def Surroundings.bindings (s : Surroundings) : Except DecodeFault (Logged (List Dotenv.Binding)) :=
  match s.dotenv with
  | none => .ok (pure [])
  | some bytes => do
    let cs ← Charset.utf8.decode bytes
    return Dotenv.parse s.env (String.ofList cs)

/-- The value found for a setting. -/
def found? (given : Fields) (env : List (String × String)) (file : List Dotenv.Binding)
    (name : String) : Option Value :=
  match given.find? fun entry => lower entry.1 == name with
  | some entry => some entry.2
  | none =>
    match find? env (variablePrefix ++ name) with
    | some text => some (.text text)
    | none => (find? file (variablePrefix ++ name)).join.map .text

/-- The word for a level, exactly. -/
def readLevel : Reader Level
  | .text word =>
    match Level.ofText? word with
    | some level => .ok level
    | none => .fail (.patternMismatch "^(DEBUG|INFO|WARNING|ERROR|CRITICAL)$")
  | _ => .fail .notText

/-- The settings of the values that are found for them. -/
def ofValues (found : String → Option Value) : Checked Settings :=
  let setting {α : Type} (name : String) (default : α) (read : Reader α) : Checked α :=
    match found name with
    | some value => (read value).under (.name name)
    | none => .ok default
  Settings.mk <$> setting "warn_unsupported_receiver" true Reader.bool
    <*> setting "log_level" .warning readLevel
    <*> setting "source_encoding" "utf-8" Reader.text
    <*> setting "show_private" true Reader.bool

/-- Load settings. -/
def load (given : Fields) (s : Surroundings) : Logged (Except LoadFault Settings) :=
  match s.bindings with
  | .error fault => pure (.error (.undecodable fault))
  | .ok file => do
    match ofValues (found? given s.env (← file)) with
    | .ok settings => return .ok settings
    | .bad issues => return .error (.invalid issues)

/-- The settings of these surroundings, or why they have none. -/
def fromSurroundings (s : Surroundings) : Logged (Except LoadFault Settings) :=
  load [] s

end RubySig.Settings
