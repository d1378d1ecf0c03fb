/-
# Documentation as a Markdown page

The page has a title, an index of the modules, and for every module a heading
and a block for each function: its heading, whether it is native, its
description, its signature in a fence, its parameters and the type of its
result. Every part ends with an empty line.

Nothing is escaped: a name that looks like Markdown is read as Markdown.

Key definitions: `Markdown.functionLines`, `Markdown.moduleLines`,
`Markdown.lines`, `Markdown.page`.
-/
import ApiReference.Docs.Basic
import ApiReference.Text.Anchor
import ApiReference.Text.Lines

namespace ApiReference
namespace Markdown

/-- A line that opens or closes a fence. -/
def fence : String := "```"

/-- A description, if it is not empty. -/
def descriptionLines (description : String) : List String :=
  if description = "" then [] else [description, ""]

/-- An item of the list of parameters. -/
def parameterItem (p : ParameterDoc) : String :=
  "* **" ++ p.name ++ "** (" ++ p.shownType ++ ")" ++
    if p.description = "" then "" else ": " ++ p.description

/-- The list of parameters, if there are any. -/
def parameterLines (parameters : List ParameterDoc) : List String :=
  if parameters = [] then [] else ["#### Parameters", ""] ++ parameters.map parameterItem ++ [""]

/-- The type of the result, if there is one. -/
def returnLines : Option String → List String
  | none => []
  | some type => ["**Returns** `" ++ type ++ "`", ""]

/-- The lines of a function. -/
def functionLines (f : FunctionDoc) : List String :=
  ["### " ++ f.name, ""] ++ (if f.isNative then ["> `native`", ""] else []) ++
    descriptionLines f.description ++ [fence, f.signature, fence, ""] ++
    parameterLines f.parameters ++ returnLines f.returns

/-- The lines of a module. -/
def moduleLines (m : ModuleDoc) : List String :=
  ["## " ++ m.name, ""] ++ descriptionLines m.description ++
    if m.functions = [] then ["_Module has no functions._", ""] else m.functions.flatMap functionLines

/-- The index of the modules, if there are any. -/
def indexLines (modules : List ModuleDoc) : List String :=
  if modules = [] then [] else ["## Index", ""] ++ modules.map (fun m => anchorItem m.name) ++ [""]

/-- The lines of the page. -/
def lines (project : String) (modules : List ModuleDoc) : List String :=
  ["# " ++ project, ""] ++ indexLines modules ++ modules.flatMap moduleLines

/-- The Markdown page of a project. -/
def page (project : String) (modules : List ModuleDoc) : String := unlines (lines project modules)

end Markdown
end ApiReference
