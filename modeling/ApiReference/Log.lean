/-
# What is reported along the way

An `Event` says what happened; its level says how much anyone wants to know of
it. `Event.line` is the line of a log: the level, the message and the details.
Names from the syntax tree are quoted in it, file names are not.

Key definitions: `Level`, `Event`, `Event.level`, `Event.line`, `SyntaxTree.events`.
-/
import ApiReference.Docs.OfTree
import ApiReference.Text.Quoted

namespace ApiReference

/-- How important an event is. -/
inductive Level where
  | error
  | warn
  | info
  | debug
  | trace
  deriving DecidableEq, Repr

namespace Level

/-- A number that grows with the detail. -/
def detail : Level → Nat
  | error => 1
  | warn => 2
  | info => 3
  | debug => 4
  | trace => 5

/-- The name of a level. -/
def text : Level → String
  | error => "ERROR"
  | warn => "WARN"
  | info => "INFO"
  | debug => "DEBUG"
  | trace => "TRACE"

end Level

/-- Something worth a line of the log. -/
inductive Event where
  | nameless (module : String) (kind : UInt32)
  | skipped (module function : String) (kind : UInt32)
  | documented (module : String) (functions : Nat)
  | redefined (module file : String)
  | unmatched (pattern : String)
  | loaded (modules : Nat)
  | written (path : String)
  deriving DecidableEq, Repr

namespace Event

/-- The level of an event. -/
def level : Event → Level
  | nameless .. | redefined .. | unmatched .. => .warn
  | loaded .. | written .. => .info
  | documented .. => .debug
  | skipped .. => .trace

/-- A character of a message, control characters that a terminal acts on shown by
their code point. -/
def showControl (c : Char) : List Char :=
  if c = '\x1b' then "\\x1b".toList
  else if c = '\x07' then "\\x07".toList
  else if c = '\x08' then "\\x08".toList
  else if c = '\x0c' then "\\x0c".toList
  else if c = '\x7f' then "\\x7f".toList
  else if 0x80 ≤ c.toNat ∧ c.toNat ≤ 0x9F then codePointEscape c
  else [c]

/-- The message of an event. How many milliseconds loading took is not part of
the event; its text is `elapsed`. -/
def message (elapsed : String) : Event → String
  | nameless .. => "node has no identifier"
  | skipped .. => "skipping node"
  | documented .. => "extracted module"
  | redefined .. => "module redefined"
  | unmatched pattern => "no files matched: " ++ pattern
  | loaded .. => "AST loaded in " ++ elapsed ++ "ms"
  | written .. => "documentation written"

/-- The details of an event, each with its name, as a log shows them. -/
def details : Event → List (String × String)
  | nameless module kind => [("module", quoted module), ("kind", toString kind)]
  | skipped module function kind =>
    [("module", quoted module), ("function", quoted function), ("kind", toString kind)]
  | documented module functions => [("module", quoted module), ("functions", toString functions)]
  | redefined module file => [("module", module), ("file", file)]
  | unmatched _ => []
  | loaded modules => [("modules", toString modules)]
  | written path => [("path", path)]

/-- The line of a log. -/
def line (elapsed : String) (e : Event) : String :=
  " ".intercalate (e.level.text ::
    String.ofList ((e.message elapsed).toList.flatMap showControl) ::
    e.details.map fun x => x.1 ++ "=" ++ x.2)

end Event

/-! ### The events of documenting a syntax tree -/

/-- A node that gives a name but has none is reported. -/
def Node.nameEvents (module : String) (n : Node) : List Event :=
  if n.value = none then [.nameless module n.kind.tag] else []

/-- The events of a child of a function. -/
def Node.childEvents (module function : String) (n : Node) : List Event :=
  match n.kind with
  | .parameter => n.nameEvents module
  | .nativeMark | .externalMark => []
  | .function | .other _ => [.skipped module function n.kind.tag]

/-- The events of a function. -/
def Node.functionEvents (module : String) (n : Node) : List Event :=
  n.nameEvents module ++ n.children.flatMap (Node.childEvents module n.name)

/-- The events of a module. -/
def Root.events (module : String) (r : Root) : List Event :=
  r.functions.flatMap (Node.functionEvents module) ++ [.documented module r.functions.length]

/-- The events of all modules, in order. -/
def SyntaxTree.events (t : SyntaxTree) : List Event := t.modules.flatMap fun x => x.2.events x.1

end ApiReference
