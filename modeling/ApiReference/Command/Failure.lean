/-
# Why a run fails, and how that is reported

A failure names what could not be done and the causes behind it, each of the one
before. The report has them on lines of their own, several causes numbered; a
text of several lines is indented as a whole.

Not covered: the failure to write to the console, and its report, "failed to write
stdout" with the cause. A run here always writes what it prints (`Command/Run`).

Key definitions: `Failure`, `Failure.texts`, `Failure.report`.
-/
import ApiReference.Command.Inputs
import ApiReference.Output.Format

namespace ApiReference
namespace Command

/-- Why a run fails. -/
inductive Failure where
  | unknownFormat (name : String)
  | input (error : InputError)
  | load (error : FileRefusal)
  | createDirectory (path : Path) (error : FileError)
  | write (path : Path) (error : FileError)

namespace Failure

/-- What failed, and then the causes, each of the one before it. -/
def texts : Failure → String × List String
  | unknownFormat name => (Format.unknownMessage name, [])
  | input .noFiles => ("no AST files to process", [])
  | input (.badPattern pattern e) => ("invalid glob pattern: " ++ pattern, [e.message])
  | load e => ("failed to load AST", e.message :: e.reason?.toList)
  | createDirectory path e => ("failed to create directory: " ++ path.text, [e.message])
  | write path e => ("failed to write " ++ path.text, [e.message])

/-- A text with `pad` put before each of its lines but the first. -/
def indentMore (pad text : String) : String := ("\n" ++ pad).intercalate (text.splitOn "\n")

/-- Causes, numbered from `n` on. -/
def numbered (n : Nat) : List String → String
  | [] => ""
  | text :: rest =>
    let number := toString n
    let pad := String.ofList (List.replicate (5 - number.length) ' ')
    pad ++ number ++ ": " ++ indentMore "       " text ++ "\n" ++ numbered (n + 1) rest

/-- The list of causes; a single one has no number. -/
def causes : List String → String
  | [] => ""
  | [text] => "\nCaused by:\n    " ++ indentMore "    " text ++ "\n"
  | texts => "\nCaused by:\n" ++ numbered 0 texts

/-- A failure as it is reported. -/
def report (e : Failure) : String := "Error: " ++ e.texts.1 ++ "\n" ++ causes e.texts.2

end Failure

end Command
end ApiReference
