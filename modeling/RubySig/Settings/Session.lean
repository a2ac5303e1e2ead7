import RubySig.Settings.Load

/-!
# Settings over time

Settings are loaded when they are first asked for and kept from then on, whatever happens to the
surroundings, until they are dropped. A load that fails keeps nothing. Every successful load has a
serial number, by which two answers can be told to be the same loaded settings.
-/

namespace RubySig.Settings

/-- Settings as they were loaded. -/
structure Loaded where
  serial : Nat
  settings : Settings

/-- Surroundings that change, and what was loaded from them. -/
structure Session where
  surroundings : Surroundings := {}
  kept : Option Loaded := none
  loads : Nat := 0

namespace Session

/-- Set a variable of the environment. -/
def setEnv (s : Session) (name value : String) : Session :=
  { s with surroundings := { s.surroundings with env := Keyed.put s.surroundings.env name value } }

/-- Remove a variable of the environment. -/
def unsetEnv (s : Session) (name : String) : Session :=
  { s with surroundings := { s.surroundings with env := Keyed.erase s.surroundings.env name } }

/-- Write the environment file, or remove it. -/
def setDotenv (s : Session) (text : Option String) : Session :=
  { s with surroundings :=
      { s.surroundings with dotenv := text.map fun text => Text.Utf8.encode text.toList } }

/-- Drop what was loaded. -/
def clear (s : Session) : Session :=
  { s with kept := none }

/-- The settings kept, or else those of the surroundings. -/
def get (s : Session) : Except LoadFault Loaded × Session :=
  match s.kept with
  | some loaded => (.ok loaded, s)
  | none =>
    match (fromSurroundings s.surroundings).value with
    | .error fault => (.error fault, s)
    | .ok settings =>
      let loaded := ⟨s.loads, settings⟩
      (.ok loaded, { s with kept := some loaded, loads := s.loads + 1 })

/-- Load again, whatever was kept. -/
def reload (s : Session) : Except LoadFault Loaded × Session :=
  s.clear.get

end Session

end RubySig.Settings
