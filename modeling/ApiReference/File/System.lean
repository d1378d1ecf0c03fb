/-
# A file system

A file system is a list of files and directories by their place below the root,
and the place of the working directory. A path is followed part by part; each
part needs a directory to go on from. There are no links, nothing is forbidden,
and there is room for all that is written.

Creating a directory with its parents first tries the directory itself, then
its ancestors, until one can be made or is there, and then makes the others
again from there on.

Key definitions: `FileSystem`, `FileError`, `FileSystem.follow`,
`FileSystem.read`, `FileSystem.makeDirectory`, `FileSystem.makeDirectories`,
`FileSystem.write`.
-/
import ApiReference.File.Path

namespace ApiReference

/-- Names from the root on. -/
abbrev Place := List String

/-- What is at a place. -/
inductive FileSystem.Entry where
  | directory
  | file (content : ByteArray)

/-- Two entries are the same. -/
def FileSystem.Entry.same : FileSystem.Entry → FileSystem.Entry → Bool
  | .directory, .directory => true
  | .file a, .file b => a.data == b.data
  | _, _ => false

/-- Files and directories by their place, the root not among them. -/
structure FileSystem where
  entries : List (Place × FileSystem.Entry)
  working : Place

/-- Why a file cannot be used. -/
inductive FileError where
  | notFound
  | alreadyThere
  | notDirectory
  | isDirectory
  | nameTooLong
  | nullByte
  | notText
  deriving DecidableEq, Repr

namespace FileError

/-- The wording of an error. -/
def message : FileError → String
  | notFound => "No such file or directory (os error 2)"
  | alreadyThere => "File exists (os error 17)"
  | notDirectory => "Not a directory (os error 20)"
  | isDirectory => "Is a directory (os error 21)"
  | nameTooLong => "File name too long (os error 36)"
  | nullByte => "file name contained an unexpected NUL byte"
  | notText => "stream did not contain valid UTF-8"

end FileError

namespace FileSystem

/-- The length in bytes that a path may not reach. -/
def pathLimit : Nat := 4096

/-- The length in bytes that a name may not pass. -/
def nameLimit : Nat := 255

/-- What is at a place. -/
def entry? (fs : FileSystem) (place : Place) : Option Entry :=
  if place = [] then some .directory else fs.entries.lookup place

/-- There is a directory at a place. -/
def hasDirectory (fs : FileSystem) (place : Place) : Bool :=
  match fs.entry? place with
  | some .directory => true
  | _ => false

/-! ### Following a path -/

/-- Follow one part of a path from a place. -/
def step (fs : FileSystem) (place : Place) (part : String) : Except FileError Place :=
  if !fs.hasDirectory place then .error .notDirectory
  else if part = "" ∨ part = "." then .ok place
  else if part = ".." then .ok place.dropLast
  else if nameLimit < part.utf8ByteSize then .error .nameTooLong
  else if (fs.entry? (place ++ [part])).isSome then .ok (place ++ [part])
  else .error .notFound

/-- Follow the parts of a path from a place. -/
def follow (fs : FileSystem) (place : Place) : List String → Except FileError Place
  | [] => .ok place
  | part :: rest => do
    let next ← fs.step place part
    fs.follow next rest

/-- Where a path starts, if its text can be a path at all. -/
def start (fs : FileSystem) (p : Path) : Except FileError Place :=
  if p.text.toList.contains '\x00' then .error .nullByte
  else if pathLimit ≤ p.text.utf8ByteSize then .error .nameTooLong
  else if p.text = "" then .error .notFound
  else .ok (if p.isAbsolute then [] else fs.working)

/-- The place that a path leads to. -/
def locate (fs : FileSystem) (p : Path) : Except FileError Place := do
  let place ← fs.start p
  fs.follow place p.parts

/-- What a path leads to. -/
def find (fs : FileSystem) (p : Path) : Except FileError Entry := do
  let place ← fs.locate p
  match fs.entry? place with
  | some entry => .ok entry
  | none => .error .notFound

/-- The path leads to something. -/
def reaches (fs : FileSystem) (p : Path) : Bool := (fs.find p).isOk

/-- The path leads to a file. -/
def isFile (fs : FileSystem) (p : Path) : Bool :=
  match fs.find p with
  | .ok (.file _) => true
  | _ => false

/-- The path leads to a directory. -/
def isDirectory (fs : FileSystem) (p : Path) : Bool :=
  match fs.find p with
  | .ok .directory => true
  | _ => false

/-- The text of a file. -/
def read (fs : FileSystem) (p : Path) : Except FileError String := do
  match ← fs.find p with
  | .directory => .error .isDirectory
  | .file content =>
    match String.fromUTF8? content with
    | some text => .ok text
    | none => .error .notText

/-- The places below a place, relative to it. -/
def below (fs : FileSystem) (place : Place) : List Place :=
  fs.entries.filterMap fun x => if place.isPrefixOf x.1 ∧ x.1 ≠ place then some (x.1.drop place.length) else none

/-- The names in the directory at a place. -/
def namesIn (fs : FileSystem) (place : Place) : List String :=
  (fs.below place).filterMap fun
    | [name] => some name
    | _ => none

/-! ### Changing a file system -/

/-- Put an entry at a place. -/
def put (place : Place) (entry : Entry) : List (Place × Entry) → List (Place × Entry)
  | [] => [(place, entry)]
  | (p, e) :: rest => if p = place then (p, entry) :: rest else (p, e) :: put place entry rest

/-- The file system with an entry at a place. -/
def set (fs : FileSystem) (place : Place) (entry : Entry) : FileSystem :=
  { fs with entries := put place entry fs.entries }

/-- The parts of a path without the empty ones at its end. -/
def trimmedParts (p : Path) : List String := (p.parts.reverse.dropWhile (· = "")).reverse

/-- The directory in which a path names something, and the name. -/
def target (fs : FileSystem) (p : Path) : Except FileError (Place × String) := do
  let place ← fs.start p
  let parts := trimmedParts p
  let directory ← fs.follow place parts.dropLast
  if fs.hasDirectory directory then .ok (directory, parts.getLast?.getD "") else .error .notDirectory

/-- The name of a directory itself or of the one above it, not of something in it. -/
def isDots (name : String) : Bool := name = "" || name = "." || name = ".."

/-- Make a directory where nothing is. -/
def makeDirectory (fs : FileSystem) (p : Path) : Except FileError FileSystem := do
  let (directory, name) ← fs.target p
  if isDots name then .error .alreadyThere
  else if nameLimit < name.utf8ByteSize then .error .nameTooLong
  else if (fs.entry? (directory ++ [name])).isSome then .error .alreadyThere
  else .ok (fs.set (directory ++ [name]) .directory)

/-- Make a directory that may be there already. -/
def ensureDirectory (fs : FileSystem) (p : Path) : Except FileError FileSystem :=
  match fs.makeDirectory p with
  | .ok after => .ok after
  | .error e => if e = .alreadyThere ∧ fs.isDirectory p then .ok fs else .error e

/-- Try to make the first of several paths, each the parent of the one before it;
where its own parent is missing, try the next one. The paths that are still to be
made are collected in `missing`, the innermost last. -/
def makeFirst (fs : FileSystem) (missing : List Path) : List Path → Except FileError (FileSystem × List Path)
  | [] => .ok (fs, missing)
  | p :: rest =>
    match fs.ensureDirectory p with
    | .ok after => .ok (after, missing)
    | .error .notFound => makeFirst fs (p :: missing) rest
    | .error e => .error e

/-- A file system after a change, and the error if the change failed on the way. -/
structure Attempt where
  after : FileSystem
  error : Option FileError

/-- Make directories one after the other. -/
def makeAll (fs : FileSystem) : List Path → Attempt
  | [] => ⟨fs, none⟩
  | p :: rest =>
    match fs.ensureDirectory p with
    | .ok after => after.makeAll rest
    | .error e => ⟨fs, some e⟩

/-- Make a directory and its parents. What has been made before a failure stays. -/
def makeDirectories (fs : FileSystem) (p : Path) : Attempt :=
  match fs.makeFirst [] p.ancestors with
  | .ok (after, missing) => after.makeAll missing
  | .error e => ⟨fs, some e⟩

/-- Write a file. -/
def write (fs : FileSystem) (p : Path) (text : String) : Except FileError FileSystem := do
  let (directory, name) ← fs.target p
  if p.endsInSlash || isDots name then .error .isDirectory
  else if nameLimit < name.utf8ByteSize then .error .nameTooLong
  else
    match fs.entry? (directory ++ [name]) with
    | some .directory => .error .isDirectory
    | _ => .ok (fs.set (directory ++ [name]) (.file text.toUTF8))

/-- What a file system has that was not there before, or was not the same. -/
def changes (before after : FileSystem) : List (Place × Entry) :=
  after.entries.filter fun x =>
    match before.entry? x.1 with
    | some entry => !entry.same x.2
    | none => true

end FileSystem
end ApiReference
