/-
# The files that the arguments name

An argument that is no pattern, or that names a file as it stands, is that path.
Any other argument is a pattern and gives the files it matches, in the order of
their paths; a pattern without files is reported. A path equal to the one before
it is left out.

Key definitions: `InputError`, `inputsOf`, `expand`, `dropRepeats`, `inputs`.
-/
import ApiReference.Glob.Matches
import ApiReference.Tree.OfFiles

namespace ApiReference
namespace Command

/-- Why there is nothing to load. -/
inductive InputError where
  | badPattern (pattern : String) (error : Glob.Error)
  | noFiles
  deriving DecidableEq, Repr

/-- The argument is used as it stands. -/
def isLiteral (fs : FileSystem) (argument : String) : Bool :=
  fs.isFile ⟨argument⟩ || !Glob.isPattern argument

/-- The paths of an argument. -/
def inputsOf (fs : FileSystem) (argument : String) : Except InputError (List Path) :=
  if isLiteral fs argument then .ok [⟨argument⟩]
  else
    match Glob.files fs argument with
    | .ok paths => .ok paths
    | .error e => .error (.badPattern argument e)

/-- The paths of arguments in order, and a report of each pattern without files. -/
def expand (fs : FileSystem) : List String → Reported (Except InputError (List Path))
  | [] => ⟨[], .ok []⟩
  | argument :: rest =>
    match inputsOf fs argument with
    | .error e => ⟨[], .error e⟩
    | .ok paths =>
      let r := expand fs rest
      ⟨(if paths = [] then [.unmatched argument] else []) ++ r.events, r.result.map (paths ++ ·)⟩

/-- Leave out each path that is the same as the last one kept, which is `last`. -/
def dropRepeatsAfter (last : Path) : List Path → List Path
  | [] => []
  | p :: rest => if p.same last then dropRepeatsAfter last rest else p :: dropRepeatsAfter p rest

/-- Leave out each path that is the same as the one before it. -/
def dropRepeats : List Path → List Path
  | [] => []
  | p :: rest => p :: dropRepeatsAfter p rest

/-- The files to load. -/
def inputs (fs : FileSystem) (arguments : List String) : Reported (Except InputError (List Path)) :=
  let r := expand fs arguments
  ⟨r.events, do
    let paths ← r.result
    if paths = [] then .error .noFiles else .ok (dropRepeats paths)⟩

end Command
end ApiReference
