/-
# Text shown in a message

A text that a message quotes is put between double quotes. Quotes, backslashes
and the usual control characters get a backslash; any other character that
cannot be shown, or would join the quote before it, is written by its code
point.

Key definitions: `showChar`, `quoted`.
-/
import ApiReference.Text.Printable

namespace ApiReference

/-- The code point of a character between braces. -/
def codePointEscape (c : Char) : List Char :=
  ['\\', 'u', '\x7b'] ++ Nat.toDigits 16 c.toNat ++ ['\x7d']

/-- A character as a message shows it. -/
def showChar (c : Char) : List Char :=
  if c = '\x00' then ['\\', '0']
  else if c = '\t' then ['\\', 't']
  else if c = '\r' then ['\\', 'r']
  else if c = '\n' then ['\\', 'n']
  else if c = '\\' then ['\\', '\\']
  else if c = '"' then ['\\', '"']
  else if isGraphemeExtend c || !isPrintable c then codePointEscape c
  else [c]

/-- A text as a message quotes it. -/
def quoted (text : String) : String := "\"" ++ String.ofList (text.toList.flatMap showChar) ++ "\""

end ApiReference
