/-
# A run of the program

A run looks up the format, expands the arguments, loads and merges the files,
documents them, and writes the documentation to the console or to a file. Each
step can fail, and the first failure is that of the run. Files change only in
the last step, when nothing else can fail.

Not covered: a console that does not take the whole text. The run would then fail
after all other steps, with no file changed and a part of the text written. The
console here takes every text, as a `FileSystem` has room for every file; what is
proved of a run without an output file applies to such a console.

Key definitions: `Outcome`, `Outcome.printed`, `Outcome.code`, `outputPath`, `deliver`,
`document`, `run`.
-/
import ApiReference.Command.Arguments
import ApiReference.Command.Failure

namespace ApiReference
namespace Command

/-- What comes of a run: what is reported, what is written to the console or why
nothing is, and the file system after it. -/
structure Outcome where
  events : List Event
  result : Except Failure String
  after : FileSystem

namespace Outcome

/-- What is written to the console. -/
def printed (o : Outcome) : String :=
  match o.result with
  | .ok text => text
  | .error _ => ""

/-- The number that the program ends with. -/
def code (o : Outcome) : UInt32 :=
  match o.result with
  | .ok _ => 0
  | .error _ => 1

end Outcome

/-- Where an output goes: into a directory, a file named `index`; a slash at the
end marks a directory even before there is one. -/
def outputPath (fs : FileSystem) (format : Format) (path : Path) : Path :=
  if path.endsInSlash || fs.isDirectory path then path.join ("index." ++ format.extension) else path

/-- The directory of a path, if it is not the working directory. -/
def directoryOf? (path : Path) : Option Path := path.parent?.filter (·.text ≠ "")

/-- Write a text to a file in a directory that is there. -/
def writeFile (fs : FileSystem) (path : Path) (text : String) : FileSystem × Option Failure :=
  match fs.write path text with
  | .ok after => (after, none)
  | .error e => (fs, some (.write path e))

/-- Write a text to a file, making its directory. -/
def deliver (fs : FileSystem) (path : Path) (text : String) : FileSystem × Option Failure :=
  match directoryOf? path with
  | none => writeFile fs path text
  | some directory =>
    let attempt := fs.makeDirectories directory
    match attempt.error with
    | some e => (attempt.after, some (.createDirectory directory e))
    | none => writeFile attempt.after path text

/-- The documentation that settings ask for. -/
def document (fs : FileSystem) (s : Settings) (format : Format) : Reported (Except Failure String) :=
  let expanded := inputs fs s.files
  match expanded.result with
  | .error e => ⟨expanded.events, .error (.input e)⟩
  | .ok paths =>
    let loaded := SyntaxTree.ofFiles fs paths
    let events := expanded.events ++ loaded.events
    match loaded.result with
    | .error e => ⟨events, .error (.load e)⟩
    | .ok tree =>
      ⟨events ++ tree.events ++ [.loaded tree.docs.length],
        .ok (format.document s.project tree.docs)⟩

/-- A run of the program. -/
def run (fs : FileSystem) (s : Settings) : Outcome :=
  match Format.ofName? s.format with
  | none => ⟨[], .error (.unknownFormat s.format), fs⟩
  | some format =>
    let r := document fs s format
    match r.result with
    | .error e => ⟨r.events, .error e, fs⟩
    | .ok text =>
      match s.output with
      | none => ⟨r.events, .ok text, fs⟩
      | some output =>
        let path := outputPath fs format ⟨output⟩
        match deliver fs path text with
        | (after, some e) => ⟨r.events, .error e, after⟩
        | (after, none) => ⟨r.events ++ [.written path.text], .ok "", after⟩

end Command
end ApiReference
