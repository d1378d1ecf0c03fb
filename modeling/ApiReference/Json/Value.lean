/-
# JSON values and their texts

`Value.compact` writes a value without white space, `Value.pretty` with each item
on a line of its own, indented by two spaces a level. Both write a string with
`quote`: quotes, backslashes and control characters are escaped, everything else
stands for itself. Objects are written in the order in which the value holds
their members.

Key definitions: `Value`, `quote`, `Value.compact`, `Value.pretty`.
-/
import ApiReference.Decimal.Numeral
import ApiReference.Decimal.Shortest

namespace ApiReference

/-- The text of a number. -/
def Number.text : Number → String
  | .int n => toString n
  | .float x => Decimal.text x

namespace Json

/-- A JSON value. -/
inductive Value where
  | null
  | bool (value : Bool)
  | number (value : Number)
  | string (value : String)
  | list (items : List Value)
  | object (members : List (String × Value))

/-- A digit below sixteen, in lower case. -/
def hexDigit (n : Nat) : Char := Nat.digitChar n

/-- A character as it is written in a string. -/
def escape (c : Char) : List Char :=
  if c = '"' then ['\\', '"']
  else if c = '\\' then ['\\', '\\']
  else if c = '\x08' then ['\\', 'b']
  else if c = '\x0c' then ['\\', 'f']
  else if c = '\n' then ['\\', 'n']
  else if c = '\r' then ['\\', 'r']
  else if c = '\t' then ['\\', 't']
  else if c.toNat < 0x20 then
    ['\\', 'u', '0', '0', hexDigit (c.toNat / 16), hexDigit (c.toNat % 16)]
  else [c]

/-- A string with its quotes and escapes. -/
def quote (s : String) : String := "\"" ++ String.ofList (s.toList.flatMap escape) ++ "\""

namespace Value

mutual

/-- The text of a value without white space. -/
def compact : Value → String
  | .null => "null"
  | .bool value => if value then "true" else "false"
  | .number value => value.text
  | .string value => quote value
  | .list items => "[" ++ compactItems items ++ "]"
  | .object members => "\x7b" ++ compactMembers members ++ "\x7d"

/-- The texts of items, with commas between them. -/
def compactItems : List Value → String
  | [] => ""
  | [v] => compact v
  | v :: w :: rest => compact v ++ "," ++ compactItems (w :: rest)

/-- The texts of members, with commas between them. -/
def compactMembers : List (String × Value) → String
  | [] => ""
  | [(k, v)] => quote k ++ ":" ++ compact v
  | (k, v) :: w :: rest => quote k ++ ":" ++ compact v ++ "," ++ compactMembers (w :: rest)

end

/-- A line feed and the indentation of a level. -/
def newline (level : Nat) : String := "\n" ++ String.ofList (List.replicate (2 * level) ' ')

mutual

/-- The text of a value at a level of indentation. -/
def prettyAt (level : Nat) : Value → String
  | .list [] => "[]"
  | .list (v :: rest) => "[" ++ prettyItems (level + 1) (v :: rest) ++ newline level ++ "]"
  | .object [] => "\x7b\x7d"
  | .object (m :: rest) =>
    "\x7b" ++ prettyMembers (level + 1) (m :: rest) ++ newline level ++ "\x7d"
  | .null => "null"
  | .bool value => if value then "true" else "false"
  | .number value => value.text
  | .string value => quote value

/-- The texts of items, each on a line of its own, with commas between them. -/
def prettyItems (level : Nat) : List Value → String
  | [] => ""
  | [v] => newline level ++ prettyAt level v
  | v :: w :: rest => newline level ++ prettyAt level v ++ "," ++ prettyItems level (w :: rest)

/-- The texts of members, each on a line of its own, with commas between them. -/
def prettyMembers (level : Nat) : List (String × Value) → String
  | [] => ""
  | [(k, v)] => newline level ++ quote k ++ ": " ++ prettyAt level v
  | (k, v) :: w :: rest =>
    newline level ++ quote k ++ ": " ++ prettyAt level v ++ "," ++ prettyMembers level (w :: rest)

end

/-- The text of a value with each item on a line of its own. -/
def pretty (v : Value) : String := prettyAt 0 v

end Value
end Json
end ApiReference
