/-
# Properties of characters as ranges of code points

A property of Unicode characters is a list of ranges in ascending order, each
with its first and its last code point.

Key definitions: `Ranges`, `Ranges.has`.
-/
namespace ApiReference

/-- Ranges of code points, each with its first and its last. -/
abbrev Ranges := List (Nat × Nat)

/-- The code point of a character lies in one of the ranges. -/
def Ranges.has : Ranges → Char → Bool
  | [], _ => false
  | (first, last) :: rest, c => (first ≤ c.toNat && c.toNat ≤ last) || Ranges.has rest c

end ApiReference
