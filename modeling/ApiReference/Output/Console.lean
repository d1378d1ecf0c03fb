/-
# Documentation as console text

A module is its name, its description, the signatures of its functions and an
empty line.

Key definitions: `Console.lines`, `Console.text`.
-/
import ApiReference.Docs.Basic
import ApiReference.Text.Lines

namespace ApiReference
namespace Console

/-- The lines of a module. -/
def moduleLines (m : ModuleDoc) : List String :=
  ["Module: " ++ m.name, "Description: " ++ m.description] ++
    m.functions.map (fun f => "   Method: " ++ f.signature ++ " ") ++ [""]

/-- The lines of all modules. -/
def lines (modules : List ModuleDoc) : List String := modules.flatMap moduleLines

/-- The console text of modules. -/
def text (modules : List ModuleDoc) : String := unlines (lines modules)

end Console
end ApiReference
