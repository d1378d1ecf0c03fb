/-
# Reading a value, and passing over one

`Source.value` reads the JSON value of a source and fails with the first fault
of the text. Members are ordered by key, and of members with one key the last
counts, so that two objects that differ in neither way have the same value.

`Source.skipFault?` is the first fault that passing over a source meets: it does
not look at what strings and numbers mean.

Key definitions: `Source.value`, `Source.skipFault?`, `insertEarlier`.
-/
import ApiReference.Json.Document
import ApiReference.Json.Value

namespace ApiReference
namespace Json

/-- Put a member before the members of later places: it goes where its key
belongs, and gives way to a later member with its key. -/
def insertEarlier (key : String) (value : Value) : List (String × Value) → List (String × Value)
  | [] => [(key, value)]
  | (k, v) :: rest =>
    if key < k then (key, value) :: (k, v) :: rest
    else if key = k then (k, v) :: rest
    else (k, v) :: insertEarlier key value rest

mutual

/-- The value of a source. -/
def Source.value : Source → Except Fault Value
  | .gap why => .error why.kept
  | .null _ => .ok .null
  | .bool value _ => .ok (.bool value)
  | .number kept _ => kept.map .number
  | .string kept _ => kept.map .string
  | .list _ items => items.values.map .list
  | .object _ members => members.entries.map .object

/-- The values of items. -/
def Items.values : Items → Except Fault (List Value)
  | .closed _ => .ok []
  | .cut why _ => .error why.kept
  | .item _ value rest => do
    let v ← value.value
    let vs ← rest.values
    pure (v :: vs)

/-- The members with their values, by key. -/
def Members.entries : Members → Except Fault (List (String × Value))
  | .closed _ => .ok []
  | .cut why => .error why.kept
  | .member key _ value rest => do
    let k ← key
    let v ← value.value
    let later ← rest.entries
    pure (insertEarlier k v later)

end

mutual

/-- The first fault that passing over a source meets. -/
def Source.skipFault? : Source → Option Fault
  | .gap why => some why.skipped
  | .null _ | .bool _ _ | .number _ _ | .string _ _ => none
  | .list _ items => items.skipFault?
  | .object _ members => members.skipFault?

/-- The first fault that passing over items meets. -/
def Items.skipFault? : Items → Option Fault
  | .closed _ => none
  | .cut why _ => some why.skipped
  | .item _ value rest => value.skipFault?.or rest.skipFault?

/-- The first fault that passing over members meets. -/
def Members.skipFault? : Members → Option Fault
  | .closed _ => none
  | .cut why => some why.skipped
  | .member _ _ value rest => value.skipFault?.or rest.skipFault?

end

end Json
end ApiReference
