/-
# Why a text is no syntax tree

A dump is refused because it is not JSON, or because its JSON does not have the
shape of a syntax tree. Either way the refusal names the place up to which the
text was read.

Key definitions: `Refusal.Cause`, `Refusal.Cause.message`, `Refusal`,
`Refusal.message`.
-/
import ApiReference.Json.Value
import ApiReference.Json.Fault
import ApiReference.Text.Position
import ApiReference.Text.Quoted

namespace ApiReference

namespace Refusal

/-- What a value was to be. -/
inductive Expected where
  | modules
  | root
  | node
  | nodes
  | tag
  | typeRecord
  deriving DecidableEq

/-- What a value is. -/
inductive Found where
  | null
  | bool (value : Bool)
  | number (value : Number)
  | string (value : String)
  | list
  | object

/-- A field of a record. -/
inductive Field where
  | tag
  | value
  | children
  | type
  | typeName
  deriving DecidableEq

/-- Why a text is refused: it is not JSON, a value is of the wrong type, a tag is
out of range, a field is given twice, or a node has no tag, either as an object
or as an empty list. -/
inductive Cause where
  | unreadable (cause : Json.Cause)
  | invalidType (found : Found) (expected : Expected)
  | tagOutOfRange (n : Int)
  | duplicateField (field : Field)
  | missingTag
  | emptyNode

namespace Expected

/-- What was expected, in words. -/
def text : Expected → String
  | modules => "a map"
  | root => "struct ModuleRoot"
  | node => "struct RawNode"
  | nodes => "a sequence"
  | tag => "u32"
  | typeRecord => "struct RawAnalysisType"

end Expected

namespace Found

/-- What was found, in words. -/
def text : Found → String
  | null => "null"
  | bool value => "boolean `" ++ (if value then "true" else "false") ++ "`"
  | number (.int n) => "integer `" ++ toString n ++ "`"
  | number (.float x) => "floating point `" ++ Decimal.text x ++ "`"
  | string value => "string " ++ quoted value
  | list => "sequence"
  | object => "map"

end Found

namespace Field

/-- The key of a field. -/
def key : Field → String
  | tag => "type"
  | value => "value"
  | children => "children"
  | type => "analysisType"
  | typeName => "_type"

end Field

namespace Cause

/-- The wording of a cause. -/
def message : Cause → String
  | unreadable cause => cause.message
  | invalidType found expected => "invalid type: " ++ found.text ++ ", expected " ++ expected.text
  | tagOutOfRange n => "invalid value: integer `" ++ toString n ++ "`, expected " ++ Expected.tag.text
  | duplicateField field => "duplicate field `" ++ field.key ++ "`"
  | missingTag => "missing field `" ++ Field.tag.key ++ "`"
  | emptyNode => "invalid length 0, expected struct RawNode with 4 elements"

end Cause

end Refusal

/-- Why a text is refused, and where. -/
structure Refusal where
  cause : Refusal.Cause
  position : Position

namespace Refusal

/-- The wording of a refusal. -/
def message (r : Refusal) : String :=
  r.cause.message ++ " at line " ++ toString r.position.line ++ " column " ++ toString r.position.column

end Refusal
end ApiReference
