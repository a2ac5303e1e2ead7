import RubySig.Command
import RubySig.Ruby.TreeFile

/-!
# The program

Runs a command against the files and variables of the system. The tree of a Ruby file `F` is made
by a parser of Ruby beforehand and is taken from the file `F.tree`.
-/

namespace RubySig.Program

open RubySig.Command
open RubySig.Ruby
open RubySig.Settings (Surroundings)

/-- The variables that settings are taken from. -/
def variableNames : List String :=
  ["RBS_INLINE_WARN_UNSUPPORTED_RECEIVER", "RBS_INLINE_LOG_LEVEL", "RBS_INLINE_SOURCE_ENCODING",
    "RBS_INLINE_SHOW_PRIVATE"]

/-- The path that a command is about. -/
def pathOf? (args : List String) : Option Path :=
  match parseGlobal args with
  | .proceed (_, rest) =>
    match parseScan rest with
    | .proceed scanArgs => some scanArgs.path
    | _ => none
  | _ => none

/-- The bytes of a file, if there is such a file. -/
def readFile? (path : String) : IO (Option ByteArray) := do
  try
    return some (← IO.FS.readBinFile path)
  catch _ =>
    return none

/-- The text of bytes. -/
def textOf (bytes : ByteArray) : String :=
  String.ofList (Text.Utf8.decode bytes.toList)

/-- The variables and the environment file of the system. -/
def surroundings : IO Surroundings := do
  let mut env := []
  for name in variableNames do
    if let some value := ← IO.getEnv name then env := env ++ [(name, value)]
  return { env := env, dotenv := (← readFile? ".env").map ByteArray.toList }

/-- An empty tree, for files without one. -/
def emptyTree : SyntaxTree := { type := "program", start := 0, stop := 0 }

/-- What a command about a path finds around it. -/
def world (path : String) : IO World := do
  let found := match ← readFile? path with
    | some bytes => Found.file bytes.toList
    | none => .missing
  let tree := ((← readFile? (path ++ ".tree")).bind fun bytes => TreeFile.parse (textOf bytes)).getD emptyTree
  return { surroundings := ← surroundings, find := fun _ => found, parse := fun _ => tree }

/-- Run a command: print what it prints and give its exit code. -/
def run (args : List String) : IO UInt32 := do
  let outcome := Command.run (← world (((pathOf? args).map Path.render).getD "")) args
  IO.print outcome.stdout
  IO.eprint outcome.stderr
  match outcome.breakdown with
  | some (.settings (.invalid issues)) =>
    for issue in issues do
      IO.eprintln issue.cause.message
  | some (.settings (.undecodable fault)) => IO.eprintln fault.message
  | some (.reading fault) => IO.eprintln fault.message
  | some (.printing fault) => IO.eprintln fault.message
  | none => pure ()
  return UInt32.ofNat outcome.exitCode

end RubySig.Program

/-- The program. -/
def main (args : List String) : IO UInt32 :=
  RubySig.Program.run args
