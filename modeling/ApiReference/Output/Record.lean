/-
# Documentation as a JSON document

The document is an object with the name of the project and the list of its
modules, written over several lines and ended with a line feed. Types that are
missing are null.

Key definitions: `Record.ofFunction`, `Record.ofModule`, `Record.ofProject`,
`Record.text`.
-/
import ApiReference.Docs.Basic
import ApiReference.Json.Value

namespace ApiReference
namespace Record

open Json (Value)

/-- A type, null if there is none. -/
def ofType : Option String → Value
  | none => .null
  | some type => .string type

/-- A parameter. -/
def ofParameter (p : ParameterDoc) : Value :=
  .object [("name", .string p.name), ("type", ofType p.type), ("description", .string p.description)]

/-- A function. -/
def ofFunction (f : FunctionDoc) : Value :=
  .object
    [("name", .string f.name), ("description", .string f.description),
     ("parameters", .list (f.parameters.map ofParameter)), ("isNative", .bool f.isNative),
     ("returns", ofType f.returns)]

/-- A module. -/
def ofModule (m : ModuleDoc) : Value :=
  .object
    [("name", .string m.name), ("description", .string m.description),
     ("functions", .list (m.functions.map ofFunction))]

/-- A project. -/
def ofProject (project : String) (modules : List ModuleDoc) : Value :=
  .object [("name", .string project), ("modules", .list (modules.map ofModule))]

/-- The JSON document of a project. -/
def text (project : String) (modules : List ModuleDoc) : String :=
  (ofProject project modules).pretty ++ "\n"

end Record
end ApiReference
