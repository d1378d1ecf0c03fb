/-
# A JSON text as a tree, as far as it can be read

A `Source` is a JSON value where it stands in its text. Reading may break off
inside it: then the tree has a `gap` or a `cut` at that place and is meaningful
up to it. Whoever reads the tree in the order of the text meets the first fault
first, whether it is a fault of the text or one of what the text says.

`Document.ofLexemes` builds the tree from the lexemes by an automaton that keeps
the containers it is inside of in a list, so that nesting of any depth can be
read.

Not covered: what the values mean; this is `Source.value` and the readers of
the syntax tree.

Key definitions: `Source`, `Items`, `Members`, `Document`, `Build.step`,
`Document.ofText`.
-/
import ApiReference.Json.Lexeme

namespace ApiReference
namespace Json

mutual

/-- A value with the byte at which it ends, a container with the byte at which it
starts. -/
inductive Source where
  | gap (why : Break)
  | null (stop : Nat)
  | bool (value : Bool) (stop : Nat)
  | number (kept : Except Fault Number) (stop : Nat)
  | string (kept : Except Fault String) (stop : Nat)
  | list (start : Nat) (items : Items)
  | object (start : Nat) (members : Members)

/-- The items of a list from some point on. Where reading breaks off, `beyond` is
the fault for a reader that wants no further item. -/
inductive Items where
  | closed (stop : Nat)
  | cut (why : Break) (beyond : Fault)
  | item (start : Nat) (value : Source) (rest : Items)

/-- The members of an object from some point on. `settled` is the byte at which
the lexeme behind the key starts, or ends if it closes the object. -/
inductive Members where
  | closed (stop : Nat)
  | cut (why : Break)
  | member (key : Except Fault String) (settled : Nat) (value : Source) (rest : Members)

end

/-- A text: its value and, if more than white space follows, the fault of that. -/
structure Document where
  value : Source
  trailing : Option Fault

/-! ### Building the tree -/

/-- A key and where it is settled. -/
structure Key where
  name : Except Fault String
  settled : Nat

/-- A container that is being read, with the place in it that the value being
read will take; what it holds so far is last first. -/
inductive Hole where
  | item (start : Nat) (done : List (Nat × Source)) (here : Nat)
  | member (start : Nat) (done : List (Key × Source)) (key : Key)

/-- The items `done`, last first, put before `rest`. -/
def Items.after (done : List (Nat × Source)) (rest : Items) : Items :=
  done.foldl (fun rest x => .item x.1 x.2 rest) rest

/-- The members `done`, last first, put before `rest`. -/
def Members.after (done : List (Key × Source)) (rest : Members) : Members :=
  done.foldl (fun rest x => .member x.1.name x.1.settled x.2 rest) rest

namespace Source

/-- The value inside the containers it stands in, all of which break off behind it. -/
def within (why : Break) : Source → List Hole → Source
  | value, [] => value
  | value, .item start done here :: holes =>
    within why (.list start (.after done (.item here value (.cut why why.kept)))) holes
  | value, .member start done key :: holes =>
    within why (.object start (.after done (.member key.name key.settled value (.cut why)))) holes

end Source

/-- Where in a container the builder is: behind its bracket, behind a value, or
behind a comma. -/
inductive Place where
  | first
  | behind
  | next
  deriving DecidableEq

/-- What the builder is in the middle of. -/
inductive Build where
  | value (holes : List Hole)
  | items (place : Place) (start : Nat) (done : List (Nat × Source)) (holes : List Hole)
  | members (place : Place) (start : Nat) (done : List (Key × Source)) (holes : List Hole)
  | colon (start : Nat) (done : List (Key × Source)) (name : Except Fault String) (holes : List Hole)
  | whole (value : Source)
  | stopped (document : Document)

namespace Build

/-- Nothing is read. -/
def empty : Build := .value []

/-- A value is read and takes its place. -/
def complete (source : Source) : List Hole → Build
  | [] => .whole source
  | .item start done here :: holes => .items .behind start ((here, source) :: done) holes
  | .member start done key :: holes => .members .behind start ((key, source) :: done) holes

/-- Reading breaks off with `source`. -/
def stop (source : Source) (why : Break) (holes : List Hole) : Document :=
  ⟨source.within why holes, none⟩

/-- Reading breaks off in a list. -/
def stopItems (start : Nat) (done : List (Nat × Source)) (why : Break) (beyond : Fault)
    (holes : List Hole) : Document :=
  stop (.list start (.after done (.cut why beyond))) why holes

/-- Reading breaks off in an object. -/
def stopMembers (start : Nat) (done : List (Key × Source)) (why : Break) (holes : List Hole) :
    Document :=
  stop (.object start (.after done (.cut why))) why holes

/-- Reading breaks off behind a key. -/
def stopColon (start : Nat) (done : List (Key × Source)) (key : Key) (why : Break)
    (holes : List Hole) : Document :=
  stop (.gap why) why (.member start done key :: holes)

/-- Begin a value with a lexeme. -/
def begin (x : Lexeme) (holes : List Hole) : Build :=
  match x.token with
  | .null => complete (.null x.stop) holes
  | .bool b => complete (.bool b x.stop) holes
  | .number kept => complete (.number kept x.stop) holes
  | .string kept => complete (.string kept x.stop) holes
  | .openList => .items .first x.start [] holes
  | .openObject => .members .first x.start [] holes
  | .broken _ why => .stopped (stop (.gap why) why holes)
  | .closeList | .closeObject | .comma | .colon =>
    let why := Break.both .expectedValue (x.start + 1)
    .stopped (stop (.gap why) why holes)

/-- Read a lexeme in a list. -/
def stepItems (place : Place) (start : Nat) (done : List (Nat × Source)) (holes : List Hole)
    (x : Lexeme) : Build :=
  let peek := x.start + 1
  match place, x.token with
  | .first, .closeList | .behind, .closeList => complete (.list start (.after done (.closed x.stop))) holes
  | .behind, .comma => .items .next start done holes
  | .behind, _ =>
    .stopped (stopItems start done (.both .expectedListEnd peek) ⟨.trailingCharacters, peek⟩ holes)
  | .next, .closeList =>
    let why := ⟨⟨.trailingComma, peek⟩, ⟨.expectedValue, peek⟩⟩
    .stopped (stopItems start done why ⟨.trailingComma, peek⟩ holes)
  | .first, _ | .next, _ => begin x (.item start done x.start :: holes)

/-- Read a lexeme in an object where a key or its end may stand. -/
def stepMembers (place : Place) (start : Nat) (done : List (Key × Source)) (holes : List Hole)
    (x : Lexeme) : Build :=
  let peek := x.start + 1
  match place, x.token with
  | .first, .closeObject | .behind, .closeObject =>
    complete (.object start (.after done (.closed x.stop))) holes
  | .behind, .comma => .members .next start done holes
  | .behind, _ => .stopped (stopMembers start done (.both .expectedObjectEnd peek) holes)
  | .next, .closeObject =>
    .stopped (stopMembers start done ⟨⟨.trailingComma, peek⟩, ⟨.keyNotString, peek⟩⟩ holes)
  | _, .string name => .colon start done name holes
  | _, .broken true why => .stopped (stopMembers start done why holes)
  | _, _ => .stopped (stopMembers start done (.both .keyNotString peek) holes)

/-- Read the lexeme behind a key. -/
def stepColon (start : Nat) (done : List (Key × Source)) (name : Except Fault String)
    (holes : List Hole) (x : Lexeme) : Build :=
  match x.token with
  | .colon => .value (.member start done ⟨name, x.start⟩ :: holes)
  | .closeObject =>
    .stopped (stopColon start done ⟨name, x.stop⟩ (.both .expectedColon (x.start + 1)) holes)
  | _ => .stopped (stopColon start done ⟨name, x.start⟩ (.both .expectedColon (x.start + 1)) holes)

/-- Read a lexeme. -/
def step : Build → Lexeme → Build
  | .value holes, x => begin x holes
  | .items place start done holes, x => stepItems place start done holes x
  | .members place start done holes, x => stepMembers place start done holes x
  | .colon start done name holes, x => stepColon start done name holes x
  | .whole source, x => .stopped ⟨source, some ⟨.trailingCharacters, x.start + 1⟩⟩
  | .stopped document, _ => .stopped document

/-- Read the end of a text of `size` bytes. -/
def finish (size : Nat) : Build → Document
  | .value holes =>
    let why := Break.both .endInValue size
    stop (.gap why) why holes
  | .items .next start done holes =>
    stopItems start done (.both .endInValue size) ⟨.trailingCharacters, size⟩ holes
  | .items _ start done holes => stopItems start done (.both .endInList size) ⟨.endInList, size⟩ holes
  | .members .next start done holes =>
    stopMembers start done ⟨⟨.endInValue, size⟩, ⟨.endInObject, size⟩⟩ holes
  | .members _ start done holes => stopMembers start done (.both .endInObject size) holes
  | .colon start done name holes => stopColon start done ⟨name, size⟩ (.both .endInObject size) holes
  | .whole source => ⟨source, none⟩
  | .stopped document => document

end Build

namespace Document

/-- The document of the lexemes of a text of `size` bytes. -/
def ofLexemes (lexemes : List Lexeme) (size : Nat) : Document :=
  (lexemes.foldl Build.step .empty).finish size

/-- The document of a text. -/
def ofText (text : String) : Document := ofLexemes (Lexeme.scan text) text.utf8ByteSize

end Document

end Json
end ApiReference
