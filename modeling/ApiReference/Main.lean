/-
# The program

The program takes a picture of the files that a run can look at, makes the run
on it, reports, and carries the changes out. Files are read only once it is
known which ones are inputs.

Not covered by the run: what the system forbids, and links.
-/
import ApiReference.Command.Run
import ApiReference.Command.Verbosity

namespace ApiReference
namespace Program

open Command

/-- How the program is called. -/
def usage : String :=
  unlines
    ["Generate API documentation from syntax trees", "",
     "Usage: apireference [OPTIONS] [FILES]...", "",
     "  -f, --format <FORMAT>  text (default), html, markdown, json",
     "  -o, --output <OUTPUT>  output file, or directory to write index.<ext> into",
     "  -n, --name <NAME>      project name shown in page titles",
     "  -v, --verbose...       more log output",
     "  -h, --help             this text"]

/-- The text of a place. -/
def textOf (place : Place) : String := "/" ++ "/".intercalate place

/-- Look at a place, without reading what is in a file. -/
def look (fs : FileSystem) (place : Place) : IO FileSystem := do
  if place = [] then return fs
  let path ← try IO.FS.realPath (textOf place) catch _ => return fs
  if ← path.isDir then return fs.set place .directory
  if ← path.pathExists then return fs.set place (.file .empty)
  return fs

/-- Look at all that is below a directory. -/
partial def lookBelow (fs : FileSystem) (place : Place) : IO FileSystem := do
  if !fs.hasDirectory place then return fs
  let path ← IO.FS.realPath (textOf place)
  let entries ← try path.readDir catch _ => pure #[]
  let mut fs := fs
  for entry in entries do
    let there := place ++ [entry.fileName]
    fs ← look fs there
    fs ← lookBelow fs there
  return fs

/-- Look at the places on the way of the parts of a path. -/
def lookAlong (fs : FileSystem) (place : Place) : List String → IO (FileSystem × Place)
  | [] => return (fs, place)
  | part :: rest => do
    if part = "" || part = "." then lookAlong fs place rest
    else if part = ".." then lookAlong fs place.dropLast rest
    else
      let there := place ++ [part]
      lookAlong (← look fs there) there rest

/-- Look at what an argument can name: the places on its way, and for a pattern
all that is below its last part without wildcards. -/
def lookFor (fs : FileSystem) (argument : String) : IO FileSystem := do
  let path : Path := ⟨argument⟩
  let start := if path.isAbsolute then [] else fs.working
  let (fs, _) ← lookAlong fs start path.parts
  if !Glob.isPattern argument then return fs
  let (fs, place) ← lookAlong fs start (path.parts.takeWhile (!Glob.isPattern ·))
  lookBelow fs place

/-- Read a file. -/
def readInput (fs : FileSystem) (path : Path) : IO FileSystem := do
  match fs.locate path with
  | .error _ => return fs
  | .ok place =>
    match fs.entry? place with
    | some (.file _) =>
      let content ← try IO.FS.readBinFile (textOf place) catch _ => return fs
      return fs.set place (.file content)
    | _ => return fs

/-- The files and directories that a run can look at. -/
def picture (s : Settings) : IO FileSystem := do
  let working := ((← IO.currentDir).toString.splitOn "/").filter (· ≠ "")
  let start : FileSystem := ⟨[], working⟩
  let (fs, _) ← lookAlong start [] working
  let fs ← s.files.foldlM lookFor fs
  let fs ← match s.output with
    | none => pure fs
    | some output => do
      let path : Path := ⟨output⟩
      let (fs, place) ← lookAlong fs (if path.isAbsolute then [] else working) path.parts
      let names := [Format.console, .html, .markdown, .json].map fun f => "index." ++ f.extension
      names.foldlM (fun fs name => look fs (place ++ [name])) fs
  match (inputs fs s.files).result with
  | .error _ => return fs
  | .ok paths => paths.foldlM readInput fs

/-- Carry a change out. -/
def apply (place : Place) : FileSystem.Entry → IO Unit
  | .directory => IO.FS.createDir (textOf place)
  | .file content => IO.FS.writeBinFile (textOf place) content

/-- Run with settings. -/
def runWith (s : Settings) : IO UInt32 := do
  let begun ← IO.monoMsNow
  let fs ← picture s
  let outcome := Command.run fs s
  let elapsed := toString ((← IO.monoMsNow) - begun)
  for event in shown (shownLevel? s.verbosity (← IO.getEnv "RUST_LOG")) outcome.events do
    IO.eprintln (event.line elapsed)
  for (place, entry) in fs.changes outcome.after do
    apply place entry
  IO.print outcome.printed
  if let .error e := outcome.result then IO.eprint e.report
  return outcome.code

/-- Run with arguments. -/
def run (arguments : List String) : IO UInt32 := do
  match Settings.read arguments (← IO.getEnv "PROJECT_NAME") with
  | .error .help =>
    IO.print usage
    return 0
  | .error .usage =>
    IO.eprint ("error: the arguments cannot be understood\n\n" ++ usage)
    return 2
  | .ok settings => runWith settings

end Program
end ApiReference

/-- The program with its arguments. -/
def main (arguments : List String) : IO UInt32 := ApiReference.Program.run arguments
