/-
# The files that a pattern names

A pattern is followed part by part from the root or the working directory. A
name without wildcards is gone to directly. A part with wildcards is compared
with the names in the directory; `.` and `..` are among them only for a part
that begins with a dot. Any directories are all that is below, and the part
behind them is compared with the name of each.

The files found are in the order of their paths.

Key definitions: `Glob.follow`, `Glob.matching`, `Glob.files`.
-/
import ApiReference.File.System
import ApiReference.Glob.Pattern

namespace ApiReference
namespace Glob

/-- The path of the working directory, which is left out of what is found. -/
def isHere (p : Path) : Bool := p.components = [.here]

/-- A name in the directory that a path leads to. -/
def child (p : Path) (name : String) : Path := if isHere p then ⟨name⟩ else p.join name

/-- The paths of all that is below a directory, each directory before what is in
it and names in their order. -/
def below (fs : FileSystem) (p : Path) : List Path :=
  match fs.locate p with
  | .error _ => []
  | .ok place =>
    let places := (fs.below place).mergeSort fun a b =>
      !Path.componentsBefore (b.map .name) (a.map .name)
    places.map fun names => names.foldl child p

/-- The paths of what is in a directory, by name. -/
def children (fs : FileSystem) (p : Path) : List Path :=
  match fs.locate p with
  | .error _ => []
  | .ok place => ((fs.namesIn place).mergeSort fun a b => !decide (b < a)).map (child p)

/-- The directory itself and the one above it, as far as tokens that begin with
a dot match them. -/
def dots (tokens : List Token) : List String :=
  if tokens.head? = some (.char '.') then ["..", "."].filter fun name => accepts tokens name.toList
  else []

/-- Tokens match the last name of a path. -/
def acceptsName (tokens : List Token) (p : Path) : Bool :=
  match p.name? with
  | some name => accepts tokens name.toList
  | none => false

mutual

/-- The paths to which parts lead from a path. -/
def follow (fs : FileSystem) : List Part → Path → List Path
  | [], p => [p]
  | .name name :: rest, p =>
    let next := child p name
    let there := if name = "." ∨ name = ".." then fs.isDirectory p else fs.reaches next
    if there then follow fs rest next else []
  | .wild tokens :: rest, p =>
    if fs.isDirectory p then
      (dots tokens).flatMap (fun name => follow fs rest (p.join name)) ++
        (children fs p).flatMap fun q => if acceptsName tokens q then follow fs rest q else []
    else []
  | .anyDirectories :: rest, p =>
    if fs.isDirectory p then (below fs p).flatMap (followHere fs rest) else []

/-- The paths to which parts lead when the first is compared with the last name
of a path; a directory, where there are no parts. -/
def followHere (fs : FileSystem) : List Part → Path → List Path
  | [], p => if fs.isDirectory p then [p] else []
  | .anyDirectories :: rest, p => followHere fs rest p
  | .name name :: rest, p => if p.name? = some name then follow fs rest p else []
  | .wild tokens :: rest, p => if acceptsName tokens p then follow fs rest p else []

end

/-- The paths that a pattern matches, of directories only if it ends in a slash. -/
def matching (fs : FileSystem) (pattern : String) : Except Error (List Path) := do
  let parts ← parts pattern
  let whole : Path := ⟨pattern⟩
  let start : Path := if whole.isAbsolute then ⟨"/"⟩ else ⟨"."⟩
  let found := follow fs parts start
  pure (if whole.endsInSlash then found.filter fs.isDirectory else found)

/-- The files that a pattern matches, in the order of their paths. -/
def files (fs : FileSystem) (pattern : String) : Except Error (List Path) := do
  let found ← matching fs pattern
  pure ((found.filter fs.isFile).mergeSort fun p q => !q.before p)

end Glob
end ApiReference
