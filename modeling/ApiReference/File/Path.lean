/-
# Paths

A path is the text by which a file is named. Two texts can name the same file in
all but spelling: what counts is the list of their components, for which
repeated slashes, a slash at the end and a `.` that is not the first part are
nothing. Paths are compared component by component; a parent keeps the spelling
of what is left.

Key definitions: `Path`, `Path.Component`, `Path.parts`, `Path.steps`,
`Path.components`, `Path.same`, `Path.before`, `Path.parent?`, `Path.join`.
-/
namespace ApiReference

/-- The text by which a file is named. -/
structure Path where
  text : String
  deriving DecidableEq, Repr

namespace Path

/-- A part of a path that leads somewhere. -/
inductive Component where
  | root
  | here
  | up
  | name (text : String)
  deriving DecidableEq, Repr

/-- Split a text at its slashes; empty parts are kept. -/
def splitSlashes : List Char → List (List Char)
  | [] => [[]]
  | c :: cs =>
    if c = '/' then [] :: splitSlashes cs
    else
      match splitSlashes cs with
      | [] => [[c]]
      | part :: parts => (c :: part) :: parts

/-- The parts of a path between its slashes. -/
def parts (p : Path) : List String := (splitSlashes p.text.toList).map String.ofList

/-- The path starts at the root. -/
def isAbsolute (p : Path) : Bool := p.text.toList.head? = some '/'

/-- The component of a part that is not the first of a relative path. -/
def component? (part : String) : Option Component :=
  if part = "" ∨ part = "." then none
  else if part = ".." then some .up
  else some (.name part)

/-- The components of parts that come after the text `seen`, each with the path
that ends with it. -/
def stepsAfter (seen : String) : List String → List (Component × Path)
  | [] => []
  | part :: rest =>
    let here := seen ++ "/" ++ part
    match component? part with
    | some c => (c, ⟨here⟩) :: stepsAfter here rest
    | none => stepsAfter here rest

/-- The components of a path, each with the path that ends with it. -/
def steps (p : Path) : List (Component × Path) :=
  match p.parts with
  | [] => []
  | first :: rest =>
    if p.isAbsolute then (.root, ⟨"/"⟩) :: stepsAfter "" rest
    else if first = "." then (.here, ⟨"."⟩) :: stepsAfter "." rest
    else
      match component? first with
      | some c => (c, ⟨first⟩) :: stepsAfter first rest
      | none => stepsAfter first rest

/-- The components of a path. -/
def components (p : Path) : List Component := p.steps.map (·.1)

/-- Two paths have the same components. -/
def same (p q : Path) : Bool := p.components = q.components

namespace Component

/-- The order of kinds of components. -/
def rank : Component → Nat
  | root => 0
  | here => 1
  | up => 2
  | name _ => 3

/-- A component comes before another; names are in the order of their characters. -/
def before (a b : Component) : Bool :=
  match a, b with
  | name s, name t => s < t
  | a, b => a.rank < b.rank

end Component

/-- A list of components comes before another, by their first difference. -/
def componentsBefore : List Component → List Component → Bool
  | _, [] => false
  | [], _ :: _ => true
  | a :: as, b :: bs => if a = b then componentsBefore as bs else a.before b

/-- A path comes before another. -/
def before (p q : Path) : Bool := componentsBefore p.components q.components

/-- The path without its last component; none if there is no component but the
root. -/
def parent? (p : Path) : Option Path :=
  match p.steps.reverse with
  | [] | (.root, _) :: _ => none
  | [_] => some ⟨""⟩
  | _ :: (_, parent) :: _ => some parent

/-- The path itself, its parent, and so on, longest first; neither the root nor
the empty path is one of them. -/
def ancestors (p : Path) : List Path :=
  match (p.steps.filter fun x => x.1 ≠ .root).reverse with
  | [] => []
  | _ :: rest => p :: rest.map (·.2)

/-- The last component, if it is a name. -/
def name? (p : Path) : Option String :=
  match p.components.getLast? with
  | some (.name text) => some text
  | _ => none

/-- The text ends with a slash. -/
def endsInSlash (p : Path) : Bool := p.text.toList.getLast? = some '/'

/-- A relative path from where another one leads. -/
def join (p : Path) (rest : String) : Path :=
  if p.text = "" ∨ p.endsInSlash then ⟨p.text ++ rest⟩ else ⟨p.text ++ "/" ++ rest⟩

end Path
end ApiReference
