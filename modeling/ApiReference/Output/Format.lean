/-
# Formats of documentation

A format is asked for by name; two of the formats have a short name as well.

Key definitions: `Format`, `Format.ofName?`, `Format.extension`, `Format.document`.
-/
import ApiReference.Output.Console
import ApiReference.Output.Html
import ApiReference.Output.Markdown
import ApiReference.Output.Record

namespace ApiReference

/-- A format of documentation. -/
inductive Format where
  | console
  | html
  | markdown
  | json
  deriving DecidableEq, Repr

namespace Format

/-- The format with a name. -/
def ofName? (name : String) : Option Format :=
  if name = "text" ∨ name = "txt" then some console
  else if name = "html" then some html
  else if name = "markdown" ∨ name = "md" then some markdown
  else if name = "json" then some json
  else none

/-- The wording for a name that no format has. -/
def unknownMessage (name : String) : String :=
  "unknown format: " ++ name ++ ". Use text, html, markdown, or json"

/-- The ending of the names of files. -/
def extension : Format → String
  | console => "txt"
  | html => "html"
  | markdown => "md"
  | json => "json"

/-- The documentation of a project. -/
def document : Format → String → List ModuleDoc → String
  | console, _, modules => Console.text modules
  | html, project, modules => Html.page project modules
  | markdown, project, modules => Markdown.page project modules
  | json, project, modules => Record.text project modules

end Format
end ApiReference
