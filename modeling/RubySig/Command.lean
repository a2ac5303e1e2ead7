import RubySig.Files
import RubySig.Listing
import RubySig.Listing.Grid
import RubySig.Settings.Load

/-!
# The command line

`scan PATH` lists the declarations of a file. Options before the command are for all commands,
options after it may stand before or after the path. The settings are loaded before the arguments
of the command are looked at, unless full reports are asked for.

Running a command is a function from the arguments and the world around them to what is printed;
the parser of Ruby is a part of that world.
-/

namespace RubySig.Command

open RubySig.Data
open RubySig.Ruby
open RubySig.Settings (LoadFault Surroundings)
open RubySig.Text (DecodeFault)

/-! ## Arguments -/

/-- Options with their meanings: words after two dashes, and letters after one. -/
structure Options (α : Type) where
  words : List (String × α)
  letters : List (Char × α)

/-- The meanings of the letters after one dash. -/
def letterOptions {α : Type} (options : Options α) : List Char → Option (List α)
  | [] => some []
  | c :: rest => do
    let meaning ← options.letters.lookup c
    let meanings ← letterOptions options rest
    return meaning :: meanings

/-- An argument that is an option: a dash and something after it. -/
def isOption (arg : String) : Bool :=
  match arg.toList with
  | '-' :: _ :: _ => true
  | _ => false

/-- The meanings of an option, none if it is not known. -/
def optionMeanings {α : Type} (options : Options α) (arg : String) : Option (List α) :=
  match options.words.lookup arg with
  | some meaning => some [meaning]
  | none =>
    match arg.toList with
    | '-' :: '-' :: _ => none
    | _ :: letters => letterOptions options letters
    | [] => none

/-- Separate options from other arguments; none if an option is not known. What follows two dashes
is no option, nor is what follows the first other argument if `leading` says so. -/
def separate {α : Type} (options : Options α) (leading : Bool) :
    List String → Option (List α × List String)
  | [] => some ([], [])
  | arg :: rest =>
    if arg = "--" then some ([], rest)
    else if isOption arg then do
      let meanings ← optionMeanings options arg
      let (later, others) ← separate options leading rest
      return (meanings ++ later, others)
    else if leading then some ([], arg :: rest)
    else do
      let (later, others) ← separate options leading rest
      return (later, arg :: others)

/-- Options for all commands. -/
inductive GlobalOption where
  | verbose
  | help
  deriving DecidableEq

/-- Options of `scan`. -/
inductive ScanOption where
  | showPrivate (choice : Bool)
  | help
  deriving DecidableEq

/-- How options for all commands are written. -/
def globalOptions : Options GlobalOption where
  words := [("--verbose", .verbose), ("--help", .help)]
  letters := [('v', .verbose)]

/-- How options of `scan` are written. -/
def scanOptions : Options ScanOption where
  words := [("--show-private", .showPrivate true), ("--hide-private", .showPrivate false), ("--help", .help)]
  letters := []

/-- The arguments of `scan`. -/
structure ScanArguments where
  path : Path
  showPrivate : Option Bool
  deriving DecidableEq

/-- A request that can be told from its arguments alone. -/
inductive Parsed (α : Type) where
  | misused
  | help
  | proceed (value : α)

/-- The choice of an option of `scan`. -/
def ScanOption.choice? : ScanOption → Option Bool
  | .showPrivate choice => some choice
  | .help => none

/-- The arguments of `scan`: one path, and of the choices about private declarations the last. -/
def parseScan (args : List String) : Parsed ScanArguments :=
  match separate scanOptions false args with
  | none => .misused
  | some (options, others) =>
    if options.contains .help then .help
    else
      match others with
      | [path] => .proceed ⟨Path.ofString path, (options.filterMap ScanOption.choice?).getLast?⟩
      | _ => .misused

/-- Whether full reports are asked for, and the arguments of the command, which has to be `scan`. -/
def parseGlobal (args : List String) : Parsed (Bool × List String) :=
  match separate globalOptions true args with
  | none => .misused
  | some (options, others) =>
    if options.contains .help then .help
    else
      match others with
      | "scan" :: rest => .proceed (options.contains .verbose, rest)
      | _ => .misused

/-! ## Running -/

/-- What surrounds a command: variables, what paths lead to, and the parser of Ruby. -/
structure World where
  surroundings : Surroundings
  find : Path → Found
  parse : Source → SyntaxTree

/-- The outline of the file that a path leads to. The comments of the file are not looked at. -/
def outlineFile (settings : Settings) (world : World) (path : Path) :
    Except ReadFault (Logged (List Entry)) := do
  let source ← readSource settings path (world.find path)
  return Outline.ofTree ⟨source, fun _ => none⟩ (world.parse source)

/-- Something that ends a command without being reported by it. -/
inductive Breakdown where
  | settings (fault : LoadFault)
  | reading (fault : ReadFault)
  | printing (fault : Text.Markup.Fault)

/-- What a command leaves behind. -/
structure Outcome where
  exitCode : Nat
  stdout : String := ""
  stderr : String := ""
  breakdown : Option Breakdown := none

/-- The lines of the events that are serious enough. -/
def logLines (threshold : Level) (log : List Event) : String :=
  String.join ((log.filter fun event => threshold.rank ≤ event.level.rank).map fun event =>
    event.render ++ "\n")

/-- How many cells of the terminal a line takes at most. -/
def lineWidth : Nat := 400

/-- What is printed of a text in markup. -/
def printed (markup : String) : String :=
  String.ofList (Text.Cells.printable (Text.Markup.plain markup).toList)

/-- The lines of a text in markup. -/
def printedLines (markup : String) : String :=
  String.join ((Text.Wrap.wrap .cut lineWidth (printed markup).toList).map fun line =>
    String.ofList (Text.Wrap.bound .cut lineWidth line) ++ "\n")

/-- Report an error in markup, with something after it. -/
def reportError (text after : String) : Outcome :=
  let markup := "[red]Error:[/red] " ++ text
  match Text.Markup.fault? markup with
  | some fault => { exitCode := 1, breakdown := some (.printing fault) }
  | none => { exitCode := 1, stderr := printedLines markup ++ after }

/-- What follows an error if full reports are asked for. -/
def detailLines : String := "\n--- Traceback (verbose mode) ---\n"

/-- Faults that `scan` reports itself: those of the file, and of its bytes. -/
def isReported : ReadFault → Bool
  | .notFound _ | .isDirectory _ | .notDirectory _ | .nameTooLong _ => true
  | .undecodable (.refused _ _ _ _ _) => true
  | .undecodable .markMissing => false
  | .unknownEncoding _ | .embeddedNull => false

/-- The sides to which the columns of a listing are moved. -/
def sides : List Listing.Grid.Side :=
  [.right, .left, .left, .left, .left, .left]

/-- The first fault in the cells of a listing, which are looked at column by column. -/
def faultInRows? (rows : List Listing.Row) : Option Text.Markup.Fault :=
  (List.range sides.length).findSome? fun column =>
    rows.findSome? fun row => Text.Markup.fault? (row.cells.getD column "")

/-- The grid of a listing. -/
def drawRows (rows : List Listing.Row) : String :=
  Listing.Grid.draw lineWidth sides Listing.headings (rows.map fun row => row.cells.map printed)

/-- Print an outline. -/
def list (settings : Settings) (threshold : Level) (showPrivate : Bool) (outline : Logged (List Entry)) :
    Outcome :=
  match outline.value with
  | [] => ⟨0, "No declarations found\n", logLines threshold outline.log, none⟩
  | entries =>
    let rows := Listing.rows settings showPrivate entries
    let log := logLines threshold (outline.log ++ rows.log)
    match faultInRows? rows.value with
    | some fault => { exitCode := 1, stderr := log, breakdown := some (.printing fault) }
    | none => ⟨0, drawRows rows.value, log, none⟩

/-- The report of a file that cannot be read. -/
def readFailure (verbose : Bool) (path : Path) (message : String) : Outcome :=
  reportError ("Failed to read " ++ path.render ++ ": " ++ message) (if verbose then detailLines else "")

/-- List the declarations of a file. -/
def listFile (world : World) (settings : Settings) (verbose : Bool) (args : ScanArguments) : Outcome :=
  match outlineFile settings world args.path with
  | .error fault =>
    if isReported fault then readFailure verbose args.path fault.message
    else { exitCode := 1, breakdown := some (.reading fault) }
  | .ok outline =>
    list settings (if verbose then .debug else settings.logLevel)
      (args.showPrivate.getD settings.showPrivate) outline

/-- Put something before what a command prints as errors. -/
def Outcome.after (before : String) (outcome : Outcome) : Outcome :=
  { outcome with stderr := before ++ outcome.stderr }

/-- Run `scan` with settings that are not loaded before there is a file to read. -/
def scanVerbose (world : World) (args : ScanArguments) : Outcome :=
  let loaded := Settings.fromSurroundings world.surroundings
  Outcome.after (logLines .debug loaded.log) <|
    match loaded.value with
    | .error (.undecodable fault) => readFailure true args.path fault.message
    | .error fault => { exitCode := 1, breakdown := some (.settings fault) }
    | .ok settings => listFile world settings true args

/-- Run `scan` on a path, given how a file is listed. -/
def scan (world : World) (path : Path) (listing : Outcome) : Outcome :=
  match world.find path with
  | .file _ => listing
  | .tooLong => { exitCode := 1, breakdown := some (.reading (.nameTooLong path)) }
  | _ => reportError ("File not found: " ++ path.render) ""

/-- Run `scan` with the arguments behind it. -/
def runScan (args : List String) (proceed : ScanArguments → Outcome) : Outcome :=
  match parseScan args with
  | .misused => { exitCode := 2 }
  | .help => { exitCode := 0 }
  | .proceed scanArgs => proceed scanArgs

/-- Run the command that the arguments ask for. Without full reports the settings have to load
before the arguments of the command are looked at; what is reported on the way is then printed
without level and channel, as no log has been set up yet. -/
def run (world : World) (args : List String) : Outcome :=
  match parseGlobal args with
  | .misused => { exitCode := 2 }
  | .help => { exitCode := 0 }
  | .proceed (true, rest) =>
    runScan rest fun scanArgs => scan world scanArgs.path (scanVerbose world scanArgs)
  | .proceed (false, rest) =>
    let loaded := Settings.fromSurroundings world.surroundings
    Outcome.after (String.join (loaded.log.map fun event => event.message ++ "\n")) <|
      match loaded.value with
      | .error fault => { exitCode := 1, breakdown := some (.settings fault) }
      | .ok settings =>
        runScan rest fun scanArgs => scan world scanArgs.path (listFile world settings false scanArgs)

end RubySig.Command
