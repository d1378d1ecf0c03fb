/-
# Anchors of headings

A heading can be linked to by its anchor: its title in lower case, with letters,
numbers and hyphens kept, spaces turned into hyphens and everything else left
out. Different titles can have the same anchor.

Key definitions: `anchor`, `anchorItem`.
-/
import ApiReference.Text.Alphanumeric
import ApiReference.Text.Lowercase

namespace ApiReference

/-- A character that an anchor keeps, a space for the moment included. -/
def keptInAnchor (c : Char) : Bool := isAlphanumeric c || c = ' ' || c = '-'

/-- The anchor of a title. -/
def anchor (title : String) : String :=
  String.ofList (((lowercase title).toList.filter keptInAnchor).map fun c => if c = ' ' then '-' else c)

/-- An item of an index that links to the heading with a title. -/
def anchorItem (title : String) : String := "* [" ++ title ++ "](#" ++ anchor title ++ ")"

end ApiReference
