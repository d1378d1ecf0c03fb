/-
# Reading a syntax tree from a JSON text

The text is an object of module roots. A root is a record with the field
`children`; a node one with the fields `type` (or `kind`), `value`, `children`
and `analysisType`; an analysis type one with the field `_type`. A record is
written as an object, whose other members are passed over, or as the list of its
fields in this order, of which later ones may be left out.

All reading is in the order of the text, so that the first fault is reported,
be it of the text or of the shape.

Key definitions: `readTag`, `readText`, `readType`, `readField`, `readNode`,
`readRoot`, `readModules`, `SyntaxTree.ofDocument`, `SyntaxTree.ofText`.
-/
import ApiReference.Json.Reading
import ApiReference.Tree.Basic
import ApiReference.Tree.Refusal

namespace ApiReference

namespace Refusal

/-- A cause and the number of bytes read when it is found. -/
structure Fault where
  cause : Cause
  offset : Nat

/-- A fault of the text. -/
def Fault.ofText (f : Json.Fault) : Fault := ⟨.unreadable f.cause, f.offset⟩

/-- What comes of reading a part of a tree. -/
abbrev Reading := Except Fault

/-- The reading fails for a cause. -/
def fail {α : Type} (cause : Cause) (offset : Nat) : Reading α := .error ⟨cause, offset⟩

/-- The reading fails for a fault of the text. -/
def failText {α : Type} (f : Json.Fault) : Reading α := .error (.ofText f)

/-- What the text itself gives. -/
def fromText {α : Type} : Except Json.Fault α → Reading α
  | .ok a => .ok a
  | .error f => failText f

/-- Nothing but faults of the text that passing over a source meets. -/
def passOver (source : Json.Source) : Reading Unit :=
  match source.skipFault? with
  | some f => failText f
  | none => .ok ()

/-- A source that is not what it was to be. A list or an object is refused at
its bracket, any other value after it is read. -/
def mismatch {α : Type} (expected : Expected) : Json.Source → Reading α
  | .gap why => failText why.kept
  | .null stop => fail (.invalidType .null expected) stop
  | .bool value stop => fail (.invalidType (.bool value) expected) stop
  | .number (.ok value) stop => fail (.invalidType (.number value) expected) stop
  | .number (.error f) _ => failText f
  | .string (.ok value) stop => fail (.invalidType (.string value) expected) stop
  | .string (.error f) _ => failText f
  | .list start _ => fail (.invalidType .list expected) start
  | .object start _ => fail (.invalidType .object expected) start

/-- A further item of a record that has all its fields. -/
def failSurplus {α : Type} (start : Nat) : Reading α :=
  failText ⟨.trailingCharacters, start + 1⟩

end Refusal

open Json (Source Items Members Value)
open Refusal

/-! ### Tags, texts and types -/

/-- The tag of a node: a whole number of 32 bits. -/
def readTag : Source → Reading UInt32
  | .number (.ok (.int n)) stop =>
    if 0 ≤ n ∧ n.toNat < UInt32.size then .ok (UInt32.ofNat n.toNat) else fail (.tagOutOfRange n) stop
  | source => mismatch .tag source

/-- The text of a value: none for null, a string itself, of any other value its
JSON text. -/
def textOf? : Value → Option String
  | .null => none
  | .string s => some s
  | v => some v.compact

/-- The text of any source. -/
def readText (source : Source) : Reading (Option String) :=
  fromText (source.value.map textOf?)

/-- The name of a type from the members of its record, the ones read so far
giving `name`. -/
def readTypeMembers (name : Option (Option String)) : Members → Reading (Option String)
  | .closed _ => .ok (name.getD none)
  | .cut why => failText why.kept
  | .member key settled value rest => do
    let k ← fromText key
    if k = Field.typeName.key then
      if name.isSome then fail (.duplicateField .typeName) settled
      else
        let text ← readText value
        readTypeMembers (some text) rest
    else
      passOver value
      readTypeMembers name rest

/-- The name of a type from the items of its record. -/
def readTypeItems : Items → Reading (Option String)
  | .closed _ => .ok none
  | .cut why _ => failText why.kept
  | .item _ value rest => do
    let text ← readText value
    match rest with
    | .closed _ => .ok text
    | .cut _ beyond => failText beyond
    | .item start _ _ => failSurplus start

/-- The name of a type that is not empty. -/
def nonempty? : Option String → Option String
  | some "" => none
  | name => name

/-- The type of a node. -/
def readType : Source → Reading (Option String)
  | .null _ => .ok none
  | .list _ items => nonempty? <$> readTypeItems items
  | .object _ members => nonempty? <$> readTypeMembers none members
  | source => mismatch .typeRecord source

/-! ### Nodes -/

/-- The fields of a node that have been read. -/
structure NodeFields where
  tag : Option UInt32
  value : Option (Option String)
  children : Option (List Node)
  type : Option (Option String)

namespace NodeFields

/-- No field is read. -/
def empty : NodeFields := ⟨none, none, none, none⟩

/-- A field has been read. -/
def has (x : NodeFields) : Field → Bool
  | .tag => x.tag.isSome
  | .value => x.value.isSome
  | .children => x.children.isSome
  | .type => x.type.isSome
  | .typeName => false

/-- The node, if its tag is known. -/
def node? (x : NodeFields) : Option Node :=
  x.tag.map fun tag => ⟨.ofTag tag, x.value.getD none, x.children.getD [], x.type.getD none⟩

/-- The field of a node that a key names. -/
def ofKey? (key : String) : Option Field :=
  if key = "type" ∨ key = "kind" then some .tag
  else if key = "value" then some .value
  else if key = "children" then some .children
  else if key = "analysisType" then some .type
  else none

/-- The order of the fields of a node that is written as a list. -/
def order : List Field := [.tag, .value, .children, .type]

end NodeFields

/-- Read a field of a node from a source; `children` are the nodes that the source
lists, if it is asked for them. -/
def readField (fields : NodeFields) (field : Field) (source : Source)
    (children : Unit → Reading (List Node)) : Reading NodeFields :=
  match field with
  | .tag => do
    let tag ← readTag source
    pure { fields with tag := some tag }
  | .value => do
    let value ← readText source
    pure { fields with value := some value }
  | .children => do
    let nodes ← children ()
    pure { fields with children := some nodes }
  | .type => do
    let type ← readType source
    pure { fields with type := some type }
  | .typeName => .ok fields

mutual

/-- A node. -/
def readNode : Source → Reading Node
  | .list _ items => readNodeItems .empty NodeFields.order items
  | .object _ members => readNodeMembers .empty members
  | source => mismatch .node source

/-- A node from its members, those read so far giving `fields`. -/
def readNodeMembers (fields : NodeFields) : Members → Reading Node
  | .closed stop =>
    match fields.node? with
    | some node => .ok node
    | none => fail .missingTag stop
  | .cut why => failText why.kept
  | .member key settled value rest => do
    let k ← fromText key
    match NodeFields.ofKey? k with
    | some field =>
      if fields.has field then fail (.duplicateField field) settled
      else
        let fields ← readField fields field value fun _ => readNodes value
        readNodeMembers fields rest
    | none =>
      passOver value
      readNodeMembers fields rest

/-- A node from its items, those read so far giving `fields`, with the fields
`order` to come. -/
def readNodeItems (fields : NodeFields) (order : List Field) : Items → Reading Node
  | .closed stop =>
    match fields.node? with
    | some node => .ok node
    | none => fail .emptyNode stop
  | .cut why beyond => failText (if order = [] then beyond else why.kept)
  | .item start value rest =>
    match order with
    | [] => failSurplus start
    | field :: order => do
      let fields ← readField fields field value fun _ => readNodes value
      readNodeItems fields order rest

/-- A list of nodes. -/
def readNodes : Source → Reading (List Node)
  | .list _ items => readNodeList items
  | source => mismatch .nodes source

/-- The nodes of a list. -/
def readNodeList : Items → Reading (List Node)
  | .closed _ => .ok []
  | .cut why _ => failText why.kept
  | .item _ value rest => do
    let node ← readNode value
    let nodes ← readNodeList rest
    pure (node :: nodes)

end

/-! ### Roots and the whole text -/

/-- A root from its members, the ones read so far giving `children`. -/
def readRootMembers (children : Option (List Node)) : Members → Reading Root
  | .closed _ => .ok ⟨children.getD []⟩
  | .cut why => failText why.kept
  | .member key settled value rest => do
    let k ← fromText key
    if k = Field.children.key then
      if children.isSome then fail (.duplicateField .children) settled
      else
        let nodes ← readNodes value
        readRootMembers (some nodes) rest
    else
      passOver value
      readRootMembers children rest

/-- A root from its items. -/
def readRootItems : Items → Reading Root
  | .closed _ => .ok ⟨[]⟩
  | .cut why _ => failText why.kept
  | .item _ value rest => do
    let nodes ← readNodes value
    match rest with
    | .closed _ => .ok ⟨nodes⟩
    | .cut _ beyond => failText beyond
    | .item start _ _ => failSurplus start

/-- The root of a module. -/
def readRoot : Source → Reading Root
  | .list _ items => readRootItems items
  | .object _ members => readRootMembers none members
  | source => mismatch .root source

/-- The roots by name, as they come. -/
def readModuleMembers : Members → Reading (List (String × Root))
  | .closed _ => .ok []
  | .cut why => failText why.kept
  | .member key _ value rest => do
    let name ← fromText key
    let root ← readRoot value
    let roots ← readModuleMembers rest
    pure ((name, root) :: roots)

/-- The roots of a whole text. -/
def readModules : Source → Reading (List (String × Root))
  | .object _ members => readModuleMembers members
  | source => mismatch .modules source

namespace SyntaxTree

/-- The tree of a document, behind whose value nothing may stand. -/
def ofDocument (document : Json.Document) : Reading SyntaxTree := do
  let roots ← readModules document.value
  match document.trailing with
  | some f => failText f
  | none => pure (ofList roots)

/-- The tree of a text. -/
def ofText (text : String) : Except Refusal SyntaxTree :=
  match ofDocument (.ofText text) with
  | .ok tree => .ok tree
  | .error f => .error ⟨f.cause, .ofOffset text f.offset⟩

end SyntaxTree
end ApiReference
