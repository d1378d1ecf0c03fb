/-
# Syntax trees of modules

A compiler's dump holds one tree per module. Of a node we keep its kind, its
text, its children and the type that was resolved for it; of a module root only
the children. A `SyntaxTree` holds module roots by name, in the order in which
the names first came; `SyntaxTree.insert` replaces a root in its place or adds
it at the end.

Key definitions: `Kind`, `Node`, `Root`, `SyntaxTree`, `SyntaxTree.insert`,
`SyntaxTree.ofList`, `SyntaxTree.merge`, `SyntaxTree.same`.
Key theorems: `Kind.tag_ofTag`.
-/
namespace ApiReference

/-! ### Nodes -/

/-- What a node stands for, as far as documentation looks at it; of any other
node only the tag is known. -/
inductive Kind where
  | function
  | parameter
  | nativeMark
  | externalMark
  | other (tag : UInt32)
  deriving DecidableEq, Repr

namespace Kind

/-- The kind that a tag names. -/
def ofTag (tag : UInt32) : Kind :=
  if tag = 4 then .function
  else if tag = 5 then .parameter
  else if tag = 9 then .nativeMark
  else if tag = 10 then .externalMark
  else .other tag

/-- The tag of a kind. -/
def tag : Kind → UInt32
  | function => 4
  | parameter => 5
  | nativeMark => 9
  | externalMark => 10
  | other tag => tag

/-- The name of a kind without its tag. -/
def label : Kind → String
  | function => "FunctionDecl"
  | parameter => "Parameter"
  | nativeMark => "NativeMarker"
  | externalMark => "ExternMarker"
  | other _ => "Other"

/-- The name of a kind. -/
def text : Kind → String
  | other tag => "Other(" ++ toString tag ++ ")"
  | k => k.label

/-- A kind keeps the tag it was made from. -/
theorem tag_ofTag (tag : UInt32) : (ofTag tag).tag = tag := by
  unfold ofTag
  repeat' split
  all_goals simp_all [Kind.tag]

end Kind

/-- A node. Text and type may be missing. -/
structure Node where
  kind : Kind
  value : Option String
  children : List Node
  type : Option String

namespace Node

mutual

/-- Two nodes are equal if all their parts are. -/
def decEq : (a b : Node) → Decidable (a = b)
  | ⟨k, v, cs, t⟩, ⟨k', v', cs', t'⟩ =>
    if h : k = k' ∧ v = v' ∧ t = t' then
      match decEqList cs cs' with
      | .isTrue hc => .isTrue (by rw [h.1, h.2.1, h.2.2, hc])
      | .isFalse hc => .isFalse (by simp [hc])
    else .isFalse (by simp only [mk.injEq]; exact fun g => h ⟨g.1, g.2.1, g.2.2.2⟩)

/-- Two lists of nodes are equal if their nodes are, in order. -/
def decEqList : (as bs : List Node) → Decidable (as = bs)
  | [], [] => .isTrue rfl
  | [], _ :: _ => .isFalse (by simp)
  | _ :: _, [] => .isFalse (by simp)
  | a :: as, b :: bs =>
    match decEq a b with
    | .isTrue h =>
      match decEqList as bs with
      | .isTrue hs => .isTrue (by rw [h, hs])
      | .isFalse hs => .isFalse (by simp [hs])
    | .isFalse h => .isFalse (by simp [h])

end

instance : DecidableEq Node := decEq

/-- A node of which only the kind is known. -/
def ofKind (kind : Kind) : Node := ⟨kind, none, [], none⟩

end Node

/-- The root of a module. -/
structure Root where
  children : List Node
  deriving DecidableEq

/-! ### Module roots by name -/

/-- Module roots by name, in order. -/
structure SyntaxTree where
  modules : List (String × Root)
  deriving DecidableEq

namespace SyntaxTree

/-- A tree without modules. -/
def empty : SyntaxTree := ⟨[]⟩

/-- The names in order. -/
def names (t : SyntaxTree) : List String := t.modules.map (·.1)

/-- How many modules there are. -/
def size (t : SyntaxTree) : Nat := t.modules.length

/-- The root with a name. -/
def find? (t : SyntaxTree) (name : String) : Option Root := t.modules.lookup name

/-- Put a root in the place of the one with its name, or at the end. -/
def put (name : String) (root : Root) : List (String × Root) → List (String × Root)
  | [] => [(name, root)]
  | (n, r) :: rest => if n = name then (n, root) :: rest else (n, r) :: put name root rest

/-- The tree with a root under a name; what was there before is `find?`. -/
def insert (t : SyntaxTree) (name : String) (root : Root) : SyntaxTree := ⟨put name root t.modules⟩

/-- Insert roots in order. -/
def insertAll (t : SyntaxTree) (roots : List (String × Root)) : SyntaxTree :=
  roots.foldl (fun t x => t.insert x.1 x.2) t

/-- The tree of a list of roots, later ones replacing earlier ones in place. -/
def ofList (roots : List (String × Root)) : SyntaxTree := empty.insertAll roots

/-- The first tree with the modules of the second inserted. -/
def merge (a b : SyntaxTree) : SyntaxTree := a.insertAll b.modules

/-- The names of the roots that inserting a list of roots replaces, in order. -/
def replaced (t : SyntaxTree) : List (String × Root) → List String
  | [] => []
  | (name, root) :: rest =>
    let later := (t.insert name root).replaced rest
    if (t.find? name).isSome then name :: later else later

/-- Two trees have the same modules, in whatever order. -/
def same (a b : SyntaxTree) : Bool :=
  a.size == b.size && a.modules.all fun x => b.find? x.1 = some x.2

end SyntaxTree
end ApiReference
