/-
# The arguments of the command line

Options are given as `-f X`, `-fX`, `-f=X`, `--format X` or `--format=X`, each at
most once; `-v` may be repeated and put together with another short option.
Everything else is a file, and so is everything behind `--`. A value in an
argument of its own does not begin with a hyphen, unless it is just that.

Key definitions: `Choice`, `Arguments`, `Arguments.read`, `Settings`,
`Settings.read`.
-/
namespace ApiReference
namespace Command

/-- An option with a value. -/
inductive Choice where
  | format
  | output
  | name
  deriving DecidableEq, Repr

/-- What the arguments ask for, other than to run. -/
inductive Refused where
  | help
  | usage
  deriving DecidableEq, Repr

/-- The arguments as far as they are read, files last first. -/
structure Arguments where
  files : List String
  format : Option String
  output : Option String
  name : Option String
  verbosity : Nat
  deriving DecidableEq, Repr

namespace Choice

/-- The option of a letter. -/
def ofLetter? : Char → Option Choice
  | 'f' => some format
  | 'o' => some output
  | 'n' => some name
  | _ => none

/-- The option of a word. -/
def ofWord? (word : String) : Option Choice :=
  if word = "format" then some format
  else if word = "output" then some output
  else if word = "name" then some name
  else none

end Choice

/-- What is to be done with an argument. -/
inductive Step where
  | done (arguments : Arguments)
  | needValue (choice : Choice) (arguments : Arguments)
  | refuse (why : Refused)

namespace Arguments

/-- Nothing is read. -/
def empty : Arguments := ⟨[], none, none, none, 0⟩

/-- An option has its value. -/
def has (a : Arguments) : Choice → Bool
  | .format => a.format.isSome
  | .output => a.output.isSome
  | .name => a.name.isSome

/-- Give an option its value: only once, and a place for the output is not empty. -/
def choose (a : Arguments) (choice : Choice) (value : String) : Step :=
  if a.has choice then .refuse .usage
  else
    match choice with
    | .format => .done { a with format := some value }
    | .output => if value = "" then .refuse .usage else .done { a with output := some value }
    | .name => .done { a with name := some value }

/-- One more file. -/
def addFile (a : Arguments) (file : String) : Arguments := { a with files := file :: a.files }

/-- One more call for detail. -/
def addVerbose (a : Arguments) : Arguments := { a with verbosity := a.verbosity + 1 }

/-- Short options put together, behind their hyphen. -/
def readLetters (a : Arguments) : List Char → Step
  | [] => .done a
  | c :: cs =>
    if c = 'v' then a.addVerbose.readLetters cs
    else if c = 'h' then .refuse .help
    else
      match Choice.ofLetter? c, cs with
      | none, _ => .refuse .usage
      | some choice, [] => .needValue choice a
      | some choice, '=' :: value => a.choose choice (String.ofList value)
      | some choice, value => a.choose choice (String.ofList value)

/-- A long option, behind its two hyphens. -/
def readWord (a : Arguments) (cs : List Char) : Step :=
  let word := String.ofList (cs.takeWhile (· ≠ '='))
  match cs.dropWhile (· ≠ '=') with
  | [] =>
    if word = "verbose" then .done a.addVerbose
    else if word = "help" then .refuse .help
    else
      match Choice.ofWord? word with
      | some choice => .needValue choice a
      | none => .refuse .usage
  | _ :: value =>
    match Choice.ofWord? word with
    | some choice => a.choose choice (String.ofList value)
    | none => .refuse .usage

/-- The argument is a value or a file, not an option. -/
def isPlain (argument : String) : Bool := argument.toList.head? ≠ some '-' || argument = "-"

/-- Read an argument that is not the value of an option before it. -/
def readOne (a : Arguments) (argument : String) : Step :=
  match argument.toList with
  | '-' :: '-' :: word => a.readWord word
  | '-' :: c :: letters => a.readLetters (c :: letters)
  | _ => .done (a.addFile argument)

/-- Read arguments; `waiting` is an option whose value is to come. -/
def readAfter (a : Arguments) (waiting : Option Choice) : List String → Except Refused Arguments
  | [] => if waiting.isSome then .error .usage else .ok a
  | argument :: rest =>
    let step :=
      match waiting with
      | some choice => if isPlain argument then a.choose choice argument else .refuse .usage
      | none => a.readOne argument
    if argument = "--" ∧ waiting = none then .ok (rest.foldl addFile a)
    else
      match step with
      | .done a => a.readAfter none rest
      | .needValue choice a => a.readAfter (some choice) rest
      | .refuse why => .error why

/-- Read the arguments of a command line. -/
def read (arguments : List String) : Except Refused Arguments := empty.readAfter none arguments

end Arguments

/-! ### Settings -/

/-- How the program is to run. -/
structure Settings where
  files : List String
  format : String
  output : Option String
  project : String
  verbosity : Nat
  deriving DecidableEq, Repr

namespace Settings

/-- The settings of arguments; without a name the environment may name the
project. -/
def ofArguments (a : Arguments) (projectName : Option String) : Settings where
  files := if a.files = [] then ["ast.json"] else a.files.reverse
  format := a.format.getD "text"
  output := a.output
  project := (a.name.or projectName).getD "ALCL"
  verbosity := a.verbosity

/-- The settings of a command line. -/
def read (arguments : List String) (projectName : Option String) : Except Refused Settings := do
  let a ← Arguments.read arguments
  pure (ofArguments a projectName)

end Settings
end Command
end ApiReference
