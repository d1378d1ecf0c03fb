/-
# Documentation of modules

What a reader of an API wants to know: the modules, their functions, and of each
function the parameters, the type of its result and whether it is implemented
outside the language. A signature is a function on one line.

Key definitions: `ParameterDoc`, `FunctionDoc`, `ModuleDoc`,
`FunctionDoc.signature`, `ModuleDoc.findIndex?`, `ModuleDoc.find?`.
-/
namespace ApiReference

/-- A parameter of a function. -/
structure ParameterDoc where
  name : String
  type : Option String
  description : String
  deriving DecidableEq, Repr

/-- A function with its parameters in order. -/
structure FunctionDoc where
  name : String
  description : String
  parameters : List ParameterDoc
  isNative : Bool
  returns : Option String
  deriving DecidableEq, Repr

/-- A module with its functions in order. -/
structure ModuleDoc where
  name : String
  description : String
  functions : List FunctionDoc
  deriving DecidableEq, Repr

namespace ParameterDoc

/-- The type as it is shown, a question mark if there is none. -/
def shownType (p : ParameterDoc) : String := p.type.getD "?"

/-- A parameter as a signature shows it. -/
def signature (p : ParameterDoc) : String := p.name ++ ": " ++ p.shownType

end ParameterDoc

namespace FunctionDoc

/-- A function without parameters and result. -/
def ofName (name description : String) : FunctionDoc := ⟨name, description, [], false, none⟩

/-- The function with one more parameter. -/
def withParameter (f : FunctionDoc) (p : ParameterDoc) : FunctionDoc :=
  { f with parameters := f.parameters ++ [p] }

/-- A function on one line. -/
def signature (f : FunctionDoc) : String :=
  f.name ++ "(" ++ ", ".intercalate (f.parameters.map ParameterDoc.signature) ++ ")" ++
    match f.returns with
    | some type => ": " ++ type
    | none => ""

end FunctionDoc

namespace ModuleDoc

/-- A module without functions. -/
def ofName (name description : String) : ModuleDoc := ⟨name, description, []⟩

/-- The module with one more function. -/
def withFunction (m : ModuleDoc) (f : FunctionDoc) : ModuleDoc :=
  { m with functions := m.functions ++ [f] }

/-- The place of the first function with a name. -/
def findIndex? (m : ModuleDoc) (name : String) : Option Nat :=
  m.functions.findIdx? (·.name = name)

/-- The function at the place of the first one with a name. -/
def find? (m : ModuleDoc) (name : String) : Option FunctionDoc :=
  (m.findIndex? name).bind fun i => m.functions[i]?

end ModuleDoc
end ApiReference
