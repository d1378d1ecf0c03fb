/-
# The documentation of a syntax tree

Documented are the functions that stand directly below a module root. Of a
function node, the children that are parameters give its parameters, a mark
makes it native, and its own type is the type of the result. Every other node is
passed over. A node without text has the empty name.

Key definitions: `FunctionDoc.ofNode`, `ModuleDoc.ofRoot`, `SyntaxTree.docs`.
-/
import ApiReference.Docs.Basic
import ApiReference.Tree.Basic

namespace ApiReference

namespace Node

/-- The text of a node as a name. -/
def name (n : Node) : String := n.value.getD ""

/-- A node that makes the function above it native. -/
def isMark (n : Node) : Bool := n.kind = .nativeMark || n.kind = .externalMark

/-- The children of a kind, in order. -/
def childrenOf (n : Node) (kind : Kind) : List Node := n.children.filter (·.kind = kind)

end Node

/-- The documentation of a parameter node. -/
def ParameterDoc.ofNode (n : Node) : ParameterDoc := ⟨n.name, n.type, ""⟩

/-- The documentation of a function node. -/
def FunctionDoc.ofNode (n : Node) : FunctionDoc where
  name := n.name
  description := ""
  parameters := (n.childrenOf .parameter).map .ofNode
  isNative := n.children.any Node.isMark
  returns := n.type

/-- The functions that stand directly below a root. -/
def Root.functions (r : Root) : List Node := r.children.filter (·.kind = .function)

/-- The documentation of a module. -/
def ModuleDoc.ofRoot (name : String) (r : Root) : ModuleDoc := ⟨name, "", r.functions.map .ofNode⟩

/-- The documentation of all modules, in order. -/
def SyntaxTree.docs (t : SyntaxTree) : List ModuleDoc := t.modules.map fun x => .ofRoot x.1 x.2

end ApiReference
