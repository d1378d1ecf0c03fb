/-
# What can be wrong with a JSON text

A fault is a cause and the number of bytes read when it is found. Where a value
is only passed over, a text is held to fewer rules than where its value is
wanted, so that reading can break off for two reasons at one place: a `Break`
has the fault of either way.

Key definitions: `Json.Cause`, `Json.Cause.message`, `Json.Fault`, `Json.Break`.
-/
namespace ApiReference
namespace Json

/-- Why a text is not JSON. -/
inductive Cause where
  | endInValue
  | endInList
  | endInObject
  | endInString
  | expectedValue
  | expectedWord
  | expectedColon
  | expectedListEnd
  | expectedObjectEnd
  | trailingComma
  | trailingCharacters
  | keyNotString
  | controlCharacter
  | invalidEscape
  | loneSurrogate
  | unpairedSurrogate
  | invalidNumber
  | numberTooLarge
  deriving DecidableEq, Repr

namespace Cause

/-- The text ends too early. -/
def isEnd : Cause → Bool
  | endInValue | endInList | endInObject | endInString => true
  | _ => false

/-- The wording of a cause. -/
def message : Cause → String
  | endInValue => "EOF while parsing a value"
  | endInList => "EOF while parsing a list"
  | endInObject => "EOF while parsing an object"
  | endInString => "EOF while parsing a string"
  | expectedValue => "expected value"
  | expectedWord => "expected ident"
  | expectedColon => "expected `:`"
  | expectedListEnd => "expected `,` or `]`"
  | expectedObjectEnd => "expected `,` or `\x7d`"
  | trailingComma => "trailing comma"
  | trailingCharacters => "trailing characters"
  | keyNotString => "key must be a string"
  | controlCharacter => "control character (\\u0000-\\u001F) found while parsing a string"
  | invalidEscape => "invalid escape"
  | loneSurrogate => "lone leading surrogate in hex escape"
  | unpairedSurrogate => "unexpected end of hex escape"
  | invalidNumber => "invalid number"
  | numberTooLarge => "number out of range"

end Cause

/-- A cause and the number of bytes read when it is found. -/
structure Fault where
  cause : Cause
  offset : Nat
  deriving DecidableEq, Repr

/-- Reading breaks off: with `kept` where the value is wanted, with `skipped`
where it is passed over. -/
structure Break where
  kept : Fault
  skipped : Fault
  deriving DecidableEq, Repr

/-- Reading breaks off for the same reason either way. -/
def Break.both (cause : Cause) (offset : Nat) : Break := ⟨⟨cause, offset⟩, ⟨cause, offset⟩⟩

end Json
end ApiReference
