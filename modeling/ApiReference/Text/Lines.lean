/-
# Texts made of lines

Key definitions: `unlines`.
-/
namespace ApiReference

/-- Lines as a text, each with its line feed. -/
def unlines (lines : List String) : String := String.join (lines.map (· ++ "\n"))

end ApiReference
