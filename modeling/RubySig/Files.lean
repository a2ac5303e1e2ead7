import RubySig.Keyed
import RubySig.Ruby.SyntaxTree
import RubySig.Settings
import RubySig.Text.Charset
import RubySig.Text.Newline

/-!
# Source files

Files below a working directory, found by their paths, and the source text of a file in the
character set of the settings. Line ends are unified, and the bytes of a source are those of the
text in UTF-8. Of what lies above the working directory only the directories themselves are known.
-/

namespace RubySig

open RubySig.Ruby
open RubySig.Text

/-- A path: what stands before its first part, and its parts. Empty parts and single points are left
out, two points are kept. -/
structure Path where
  root : String
  parts : List String
  deriving DecidableEq

namespace Path

/-- Cut a text at every slash. -/
def cut (current : List Char) : List Char → List String
  | [] => [String.ofList current.reverse]
  | c :: rest => if c = '/' then String.ofList current.reverse :: cut [] rest else cut (c :: current) rest

/-- The parts of a relative path. -/
def partsOf (s : String) : List String :=
  (cut [] s.toList).filter fun part => part ≠ "" && part ≠ "."

/-- The path that a text stands for. Exactly two slashes at the start are kept apart from one. -/
def ofString (s : String) : Path :=
  match s.toList with
  | '/' :: '/' :: '/' :: _ => ⟨"/", partsOf s⟩
  | '/' :: '/' :: _ => ⟨"//", partsOf s⟩
  | '/' :: _ => ⟨"/", partsOf s⟩
  | _ => ⟨"", partsOf s⟩

/-- The text of a path; a single point when nothing is left of it. -/
def render (p : Path) : String :=
  if p.root.isEmpty && p.parts.isEmpty then "." else p.root ++ "/".intercalate p.parts

end Path

/-- A place below the working directory: the names that lead to it. -/
abbrev Place := List String

/-- The files and directories below the working directory. -/
structure Files where
  files : List (Place × List UInt8) := []
  directories : List Place := []

/-- What a path leads to. -/
inductive Found where
  | file (bytes : List UInt8)
  | directory
  | missing
  | notDirectory
  | tooLong
  | unusable

namespace Files

/-- Make the directories that names lead through, from a place on, and give the place they end at. -/
def makeDirectories (directories : List Place) (place : Place) : List String → List Place × Place
  | [] => (directories, place)
  | ".." :: rest => makeDirectories directories place.dropLast rest
  | name :: rest => makeDirectories ((place ++ [name]) :: directories) (place ++ [name]) rest

/-- Write a file, with the directories on the way to it. A file that is already there is replaced. -/
def write (f : Files) (name : String) (bytes : List UInt8) : Files :=
  let parts := Path.partsOf name
  let (directories, place) := makeDirectories f.directories [] parts.dropLast
  { files := Keyed.put f.files (place ++ parts.getLast?.toList) bytes, directories := directories }

/-- What stands at a place below the working directory. -/
def standing (f : Files) (place : Place) : Found :=
  match f.files.lookup place with
  | some bytes => .file bytes
  | none => if place.isEmpty || f.directories.contains place then .directory else .missing

/-- How many bytes a name may have. -/
def longestName : Nat := 255

/-- How many bytes a path may have. -/
def longestPath : Nat := 4095

/-- Follow names above the working directory. -/
def followAbove : List String → Found
  | [] => .directory
  | name :: rest =>
    if name = ".." then followAbove rest
    else if longestName < name.utf8ByteSize then .tooLong
    else .missing

/-- Follow names from a place; every place on the way has to be a directory. -/
def follow (f : Files) (place : Place) : List String → Found
  | [] => f.standing place
  | name :: rest =>
    match f.standing place with
    | .directory =>
      if name = ".." then
        if place.isEmpty then followAbove rest else follow f place.dropLast rest
      else if longestName < name.utf8ByteSize then .tooLong
      else follow f (place ++ [name]) rest
    | .file _ => .notDirectory
    | other => other

/-- What a path leads to. -/
def find (f : Files) (path : Path) : Found :=
  if path.render.toList.contains '\x00' then .unusable
  else if longestPath < path.render.utf8ByteSize then .tooLong
  else if path.root.isEmpty then f.follow [] path.parts
  else followAbove path.parts

/-- The bytes of the file that a name leads to. -/
def bytes? (f : Files) (name : String) : Option (List UInt8) :=
  match f.find (Path.ofString name) with
  | .file bytes => some bytes
  | _ => none

end Files

/-- Why the source text of a file cannot be read. -/
inductive ReadFault where
  | notFound (path : Path)
  | isDirectory (path : Path)
  | notDirectory (path : Path)
  | nameTooLong (path : Path)
  | embeddedNull
  | unknownEncoding (name : String)
  | undecodable (fault : DecodeFault)

namespace ReadFault

/-- The words for a fault of reading. -/
def message : ReadFault → String
  | notFound path => "[Errno 2] No such file or directory: " ++ Quoted.render path.render
  | isDirectory path => "[Errno 21] Is a directory: " ++ Quoted.render path.render
  | notDirectory path => "[Errno 20] Not a directory: " ++ Quoted.render path.render
  | nameTooLong path => "[Errno 36] File name too long: " ++ Quoted.render path.render
  | embeddedNull => "embedded null byte"
  | unknownEncoding name => "unknown encoding: " ++ name
  | undecodable fault => fault.message

end ReadFault

/-- The source of bytes in a character set. -/
def decodeSource (encoding : String) (bytes : List UInt8) : Except ReadFault Source :=
  match Charset.ofName? encoding with
  | none => .error (.unknownEncoding encoding)
  | some charset =>
    match charset.decode bytes with
    | .error fault => .error (.undecodable fault)
    | .ok cs => .ok (Source.ofString (unifyNewlines (String.ofList cs)))

/-- The source of what a path leads to, in the character set of the settings. -/
def readSource (settings : Settings) (path : Path) : Found → Except ReadFault Source
  | .missing => .error (.notFound path)
  | .directory => .error (.isDirectory path)
  | .notDirectory => .error (.notDirectory path)
  | .tooLong => .error (.nameTooLong path)
  | .unusable => .error .embeddedNull
  | .file bytes => decodeSource settings.sourceEncoding bytes

end RubySig
