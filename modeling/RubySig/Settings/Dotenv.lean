import RubySig.Keyed
import RubySig.Logged
import RubySig.Text.Blank
import RubySig.Text.Newline

/-!
# Environment files

A file of lines `NAME=value`. A line may start with `export`, blanks may stand around the equals
sign, and a value may stand in single or double quotes, where it may go over several lines and has
escapes. A value without quotes ends before a comment sign that follows a blank. A line that is
none of this is passed over and reported. In every value `${NAME}` and `${NAME:-default}` stand for
the value of an earlier line or of the surroundings. A byte order mark at the start does not count.
-/

namespace RubySig.Settings.Dotenv

open RubySig.Text (isSpacing trimEnd unifyNewlines)

/-- Blanks that do not end a line. -/
def isInline (c : Char) : Bool :=
  isSpacing c && c ≠ '\n' && c ≠ '\r'

/-- What follows the end of the line. -/
def skipLine (cs : List Char) : List Char :=
  (cs.dropWhile (· ≠ '\n')).drop 1

/-- The text up to a closing quote and what follows it. A backslash takes the next character along,
whatever it is. -/
def quotedBody (quote : Char) : List Char → Option (List Char × List Char)
  | [] => none
  | [c] => if c = quote then some ([], []) else none
  | c :: d :: rest =>
    if c = quote then some ([], d :: rest)
    else if c = '\\' then (quotedBody quote rest).map fun (body, after) => (c :: d :: body, after)
    else (quotedBody quote (d :: rest)).map fun (body, after) => (c :: body, after)

/-- Escapes inside single quotes. -/
def singleEscapes : List (Char × Char) :=
  [('\\', '\\'), ('\'', '\'')]

/-- Escapes inside double quotes. -/
def doubleEscapes : List (Char × Char) :=
  [('\\', '\\'), ('\'', '\''), ('"', '"'), ('a', '\x07'), ('b', '\x08'), ('f', '\x0c'), ('n', '\n'),
    ('r', '\r'), ('t', '\t'), ('v', '\x0b')]

/-- Replace escapes; `pending` says that a backslash came before. -/
def unescapeFrom (escapes : List (Char × Char)) (pending : Bool) : List Char → List Char
  | [] => if pending then ['\\'] else []
  | c :: rest =>
    if pending then
      match escapes.lookup c with
      | some d => d :: unescapeFrom escapes false rest
      | none => '\\' :: c :: unescapeFrom escapes false rest
    else if c = '\\' then unescapeFrom escapes true rest
    else c :: unescapeFrom escapes false rest

/-- The part of a line before a comment sign that follows a blank. -/
def dropComment (afterBlank : Bool) : List Char → List Char
  | [] => []
  | c :: rest => if c = '#' && afterBlank then [] else c :: dropComment (isSpacing c) rest

/-- The value at the start of a text and what follows it; none for a quote that is not closed.
`afterBlank` says that a blank stands before the text. -/
def value (afterBlank : Bool) (cs : List Char) : Option (List Char × List Char) :=
  match cs with
  | '\'' :: rest =>
    (quotedBody '\'' rest).map fun (body, after) => (unescapeFrom singleEscapes false body, after)
  | '"' :: rest =>
    (quotedBody '"' rest).map fun (body, after) => (unescapeFrom doubleEscapes false body, after)
  | _ =>
    some (trimEnd isSpacing (dropComment afterBlank (cs.takeWhile (· ≠ '\n'))), cs.dropWhile (· ≠ '\n'))

/-- Leave out `export` and the blanks after it. -/
def dropExport (cs : List Char) : List Char :=
  match cs with
  | 'e' :: 'x' :: 'p' :: 'o' :: 'r' :: 't' :: c :: rest =>
    if isInline c then rest.dropWhile isInline else cs
  | _ => cs

/-- The name at the start of a text and what follows it; none at a comment sign. -/
def key (cs : List Char) : Option (Option String × List Char) :=
  match cs with
  | '#' :: _ => some (none, cs)
  | '\'' :: rest =>
    match rest.takeWhile (· ≠ '\''), rest.dropWhile (· ≠ '\'') with
    | name@(_ :: _), _ :: after => some (some (String.ofList name), after)
    | _, _ => none
  | _ =>
    let inName := fun c => c ≠ '=' && c ≠ '#' && !isSpacing c
    match cs.takeWhile inName with
    | [] => none
    | name => some (some (String.ofList name), cs.dropWhile inName)

/-- What follows the end of the line if nothing but blanks and a comment comes before it. -/
def endOfLine (cs : List Char) : Option (List Char) :=
  let rest := match cs.dropWhile isInline with
    | '#' :: comment => comment.dropWhile (· ≠ '\n')
    | other => other
  match rest with
  | [] => some []
  | '\n' :: after => some after
  | _ => none

/-- A name with its value; a name may stand without one. -/
abbrev Binding := String × Option String

/-- What a statement turns out to be. -/
inductive Statement where
  | binding (found : Binding)
  | comment
  | unreadable

/-- A statement without a name is a comment. -/
def Statement.ofName (value : Option String) : Option String → Statement
  | some name => .binding (name, value)
  | none => .comment

/-- The statement at the start of a text, and the text after its line. -/
def statement (cs : List Char) : Statement × List Char :=
  let start := dropExport cs
  match key start with
  | none => (.unreadable, skipLine start)
  | some (name, afterKey) =>
    match afterKey.dropWhile isInline with
    | '=' :: afterSign =>
      let rest := afterSign.dropWhile isInline
      match value (rest.length < afterSign.length) rest with
      | none => (.unreadable, skipLine rest)
      | some (body, afterValue) =>
        match endOfLine afterValue with
        | none => (.unreadable, skipLine afterValue)
        | some next => (.ofName (some (String.ofList body)) name, next)
    | rest =>
      match endOfLine rest with
      | none => (.unreadable, skipLine rest)
      | some next => (.ofName none name, next)

/-- The statements of a text, at most so many, each with the number of the line where the text
before it ends, from the given number on. -/
def statements : Nat → Nat → List Char → List (Nat × Statement)
  | 0, _, _ => []
  | count + 1, line, cs =>
    match cs.dropWhile isSpacing with
    | [] => []
    | rest =>
      let (found, next) := statement rest
      let taken := cs.take (cs.length - next.length)
      (line, found) :: statements count (line + taken.count '\n') next

/-- A reference at the start of a text after `${`: name, default, and how long it is. -/
def reference? (cs : List Char) : Option (String × String × Nat) :=
  let name := cs.takeWhile fun c => c ≠ '\x7d' && c ≠ ':'
  match cs.drop name.length with
  | '\x7d' :: _ => some (String.ofList name, "", name.length + 1)
  | ':' :: '-' :: rest =>
    let default := rest.takeWhile (· ≠ '\x7d')
    match rest.drop default.length with
    | _ :: _ => some (String.ofList name, String.ofList default, name.length + default.length + 3)
    | [] => none
  | _ => none

/-- Put values in the place of references. The first `skip` characters are left out. -/
def expandFrom (get : String → Option (Option String)) (skip : Nat) : List Char → List Char
  | [] => []
  | c :: rest =>
    if 0 < skip then expandFrom get (skip - 1) rest
    else
      match c, rest with
      | '$', '\x7b' :: inner =>
        match reference? inner with
        | some (name, default, length) =>
          (((get name).getD (some default)).getD "").toList ++ expandFrom get (length + 1) rest
        | none => c :: expandFrom get 0 rest
      | _, _ => c :: expandFrom get 0 rest

/-- Put values in the place of references, line by line. -/
def expandAll (env : List (String × String)) (known : List Binding) : List Binding → List Binding
  | [] => known
  | (name, text) :: rest =>
    let get := fun wanted =>
      match known.lookup wanted with
      | some text => some text
      | none => (env.lookup wanted).map some
    let text := text.map fun text => String.ofList (expandFrom get 0 text.toList)
    expandAll env (Keyed.put known name text) rest

/-- The binding of a statement. -/
def binding? : Nat × Statement → Option Binding
  | (_, .binding found) => some found
  | _ => none

/-- What is reported about a statement. -/
def event? : Nat × Statement → Option Event
  | (line, .unreadable) => some (.unreadableStatement line)
  | _ => none

/-- Leave out a byte order mark at the start. -/
def dropMark : List Char → List Char
  | '\ufeff' :: rest => rest
  | cs => cs

/-- The names of an environment file with their values. -/
def parse (env : List (String × String)) (text : String) : Logged (List Binding) :=
  let cs := dropMark (unifyNewlines text).toList
  let found := statements cs.length 1 cs
  ⟨expandAll env [] (found.filterMap binding?), found.filterMap event?⟩

end RubySig.Settings.Dotenv
