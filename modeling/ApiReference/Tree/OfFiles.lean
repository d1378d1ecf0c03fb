/-
# Syntax trees from files

A file is read and decoded; several files are merged in order, so that a module
of a later file replaces one of the same name in its place. Every replacement is
reported. The first file that cannot be loaded ends the loading.

Key definitions: `FileRefusal`, `SyntaxTree.ofFile`, `SyntaxTree.mergeFiles`,
`SyntaxTree.ofFiles`.
-/
import ApiReference.File.System
import ApiReference.Log
import ApiReference.Tree.Reading

namespace ApiReference

/-- Why a file gives no syntax tree. -/
inductive FileRefusal where
  | missing (path : Path)
  | unreadable (path : Path) (error : FileError)
  | malformed (path : Path) (refusal : Refusal)

namespace FileRefusal

/-- The wording of an error. -/
def message : FileRefusal → String
  | missing path => "AST file not found: " ++ path.text
  | unreadable path _ => "failed to read AST file " ++ path.text
  | malformed path _ => "malformed AST in " ++ path.text

/-- The wording of what is behind an error. -/
def reason? : FileRefusal → Option String
  | missing _ => none
  | unreadable _ error => some error.message
  | malformed _ refusal => some refusal.message

end FileRefusal

/-- A result and what is reported on the way to it. -/
structure Reported (α : Type) where
  events : List Event
  result : α

/-- The same after some events. -/
def Reported.after {α : Type} (events : List Event) (r : Reported α) : Reported α :=
  { r with events := events ++ r.events }

namespace SyntaxTree

/-- The syntax tree of a file. -/
def ofFile (fs : FileSystem) (path : Path) : Except FileRefusal SyntaxTree :=
  match fs.read path with
  | .error .notFound => .error (.missing path)
  | .error error => .error (.unreadable path error)
  | .ok text =>
    match ofText text with
    | .error refusal => .error (.malformed path refusal)
    | .ok tree => .ok tree

/-- A tree with the syntax trees of files merged into it. -/
def mergeFiles (fs : FileSystem) (t : SyntaxTree) :
    List Path → Reported (Except FileRefusal SyntaxTree)
  | [] => ⟨[], .ok t⟩
  | path :: rest =>
    match ofFile fs path with
    | .error e => ⟨[], .error e⟩
    | .ok more =>
      (mergeFiles fs (t.merge more) rest).after
        ((t.replaced more.modules).map fun name => .redefined name path.text)

/-- The syntax trees of files, merged. -/
def ofFiles (fs : FileSystem) (paths : List Path) : Reported (Except FileRefusal SyntaxTree) :=
  mergeFiles fs empty paths

end SyntaxTree
end ApiReference
