/-
# Lines and columns

Reading counts bytes; a message names a line and a column. `Position.ofOffset`
turns the one into the other: lines end in a line feed and count from one, the
column is the number of bytes since the last line feed. The offset may lie
within a character.

Key definitions: `Position`, `Position.ofOffset`.
-/
namespace ApiReference

/-- A place in a text, the column in bytes. -/
structure Position where
  line : Nat
  column : Nat
  deriving DecidableEq, Repr

namespace Position

/-- The place `offset` bytes into the text whose characters `cs` start at byte
`here`, in line `line`, which starts at byte `lineStart`. -/
def advance (offset : Nat) : List Char → (here line lineStart : Nat) → Position
  | [], _, line, lineStart => ⟨line, offset - lineStart⟩
  | c :: cs, here, line, lineStart =>
    if offset ≤ here then ⟨line, offset - lineStart⟩
    else if c = '\n' then advance offset cs (here + 1) (line + 1) (here + 1)
    else advance offset cs (here + c.utf8Size) line lineStart

/-- The place `offset` bytes into a text. -/
def ofOffset (text : String) (offset : Nat) : Position := advance offset text.toList 0 1 0

end Position
end ApiReference
