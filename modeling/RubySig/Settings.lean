import RubySig.Logged

/-!
# Settings

What the user of the library can choose. Where the choices come from is the matter of the modules
below this one.
-/

namespace RubySig

/-- The choices of a user. -/
structure Settings where
  warnUnsupportedReceiver : Bool := true
  logLevel : Level := .warning
  sourceEncoding : String := "utf-8"
  showPrivate : Bool := true
  deriving DecidableEq

/-- Settings that may have failed to load, asked for by something that may not need them. Without
need a failure does not matter. -/
def Settings.onDemand {ε : Type} (needed : Bool) (loaded : Except ε Settings) : Except ε Settings :=
  match loaded with
  | .ok settings => .ok settings
  | .error problem => if needed then .error problem else .ok {}

end RubySig
