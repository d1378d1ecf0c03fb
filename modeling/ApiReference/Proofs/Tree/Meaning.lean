/-
# The syntax tree that a term means

`Term.node?`, `Term.root?` and `Term.tree?` read a term without regard to places;
that the readers of the tree agree with them is in `Proofs/Tree/Reading`
(`toOption_ofText`). A record is known by the terms given for each of its fields
(`Term.nodeSlots?`, `Term.slot?`): the node that a term means is put together from
its four slots, whether they come from an object, in any order, or from a list
(`node?_eq`).

Key definitions: `named`, `fieldFrom`, `Term.slot?`, `Term.nodeSlots?`,
`Term.tag?`, `Term.type?`, `Term.node?`, `Term.root?`, `Term.tree?`.
Key theorems: `gather_eq`, `node?_eq`.
-/
import ApiReference.Tree.Reading
import ApiReference.Proofs.Json.Meaning

namespace ApiReference

open Json (Term Source Items Members)

/-! ### Fields -/

/-- The terms of the members with one of some names. -/
def named (names : List String) (ms : List (Option String × Term)) : List Term :=
  (ms.filter fun m => m.1.any (· ∈ names)).map (·.2)

/-- Every key has a text. -/
def KeysLegible (ms : List (Option String × Term)) : Prop := ∀ m ∈ ms, m.1.isSome

instance (ms : List (Option String × Term)) : Decidable (KeysLegible ms) :=
  inferInstanceAs (Decidable (∀ m ∈ ms, m.1.isSome))

/-- The value of a field for which the terms `ts` are given, if `found` is its value
so far: there must be at most one. -/
def fieldFrom {α : Type} (read : Term → Option α) : Option α → List Term → Option (Option α)
  | found, [] => some found
  | none, t :: ts => (read t).bind fun a => fieldFrom read (some a) ts
  | some _, _ :: _ => none

/-- The value of a field for which the terms `ts` are given. -/
def field {α : Type} (read : Term → Option α) (ts : List Term) : Option (Option α) :=
  fieldFrom read none ts

section field
variable {α : Type} {read : Term → Option α}

theorem field_nil : field read [] = some none := rfl

theorem field_single (t : Term) : field read [t] = (read t).map some := by
  simp only [field, fieldFrom]
  cases read t <;> rfl

theorem field_many (t u : Term) (ts : List Term) : field read (t :: u :: ts) = none := by
  simp only [field, fieldFrom]
  cases read t <;> rfl

theorem field_isSome_iff (ts : List Term) :
    (field read ts).isSome ↔ ts.length ≤ 1 ∧ ∀ t ∈ ts, (read t).isSome := by
  match ts with
  | [] => simp [field_nil]
  | [t] => simp [field_single]
  | t :: u :: ts => simp [field_many]

end field

theorem named_cons (names : List String) (k : Option String) (t : Term)
    (ms : List (Option String × Term)) :
    named names ((k, t) :: ms) = if k.any (· ∈ names) then t :: named names ms else named names ms := by
  simp only [named, List.filter_cons]
  split <;> rfl

theorem keysLegible_cons (k : Option String) (t : Term) (ms : List (Option String × Term)) :
    KeysLegible ((k, t) :: ms) ↔ k.isSome ∧ KeysLegible ms := by
  simp [KeysLegible]

/-- The value of the field `name` that members give, if `found` is its value so far. -/
def memberFrom {α : Type} (name : String) (read : Term → Option α) (found : Option α)
    (ms : List (Option String × Term)) : Option (Option α) :=
  if KeysLegible ms then fieldFrom read found (named [name] ms) else none

/-- Members are read one after the other. -/
theorem memberFrom_cons {α : Type} (name : String) (read : Term → Option α) (found : Option α)
    (k : Option String) (t : Term) (ms : List (Option String × Term)) :
    memberFrom name read found ((k, t) :: ms) = k.bind fun k =>
      if k = name then
        if found.isSome then none else (read t).bind fun a => memberFrom name read (some a) ms
      else memberFrom name read found ms := by
  simp only [memberFrom, keysLegible_cons, named_cons]
  cases k with
  | none => simp
  | some k =>
    by_cases hl : KeysLegible ms
    · by_cases hk : k = name
      · cases found <;> simp [hl, hk, fieldFrom]
      · simp [hl, hk]
    · simp [hl]

/-! ### Terms as parts of a tree -/

namespace Json.Term

/-- The tag of a node: a numeral of digits only that fits 32 bits. -/
def tag? : Term → Option UInt32
  | .number ⟨false, whole, [], none⟩ =>
    if Numeral.ofDigits whole < UInt32.size then some (UInt32.ofNat (Numeral.ofDigits whole)) else none
  | _ => none

/-- The text of a term: none for null, a string itself, of any other term the JSON
text of its value. -/
def text? (t : Term) : Option (Option String) := t.value?.map textOf?

/-- The terms given for the only field of a record. -/
def slot? (name : String) : Term → Option (List Term)
  | .object ms => if KeysLegible ms then some (named [name] ms) else none
  | .list ts => some ts
  | _ => none

/-- The type of a node. -/
def type? : Term → Option (Option String)
  | .null => some none
  | t => (t.slot? "_type").bind fun ts => (field text? ts).map fun x => nonempty? (x.getD none)

/-- Take up a field of a node from a term that lists the nodes `children`, if it
lists nodes. -/
def putField (fields : NodeFields) (field : Refusal.Field) (t : Term) (children : Option (List Node)) :
    Option NodeFields :=
  match field with
  | .tag => t.tag?.map fun tag => { fields with tag := some tag }
  | .value => t.text?.map fun value => { fields with value := some value }
  | .children => children.map fun nodes => { fields with children := some nodes }
  | .type => t.type?.map fun type => { fields with type := some type }
  | .typeName => some fields

mutual

/-- The node that a term means. -/
def node? : Term → Option Node
  | .object ms => (gather .empty ms).bind NodeFields.node?
  | .list ts => (gatherItems .empty NodeFields.order ts).bind NodeFields.node?
  | _ => none

/-- The fields of a node from members, those before them giving `fields`. -/
def gather (fields : NodeFields) : List (Option String × Term) → Option NodeFields
  | [] => some fields
  | (k, t) :: ms => k.bind fun k =>
    match NodeFields.ofKey? k with
    | some field =>
      if fields.has field then none
      else (putField fields field t (nodes? t)).bind fun fields => gather fields ms
    | none => gather fields ms

/-- The fields of a node from items, with the fields `order` to come. -/
def gatherItems (fields : NodeFields) (order : List Refusal.Field) : List Term → Option NodeFields
  | [] => some fields
  | t :: ts =>
    match order with
    | [] => none
    | field :: order =>
      (putField fields field t (nodes? t)).bind fun fields => gatherItems fields order ts

/-- The nodes that a term lists. -/
def nodes? : Term → Option (List Node)
  | .list ts => nodeList? ts
  | _ => none

/-- The nodes that terms mean. -/
def nodeList? : List Term → Option (List Node)
  | [] => some []
  | t :: ts => (node? t).bind fun n => (nodeList? ts).map (n :: ·)

end

/-! ### Slots of a node -/

/-- The terms given for each field of a node. -/
structure NodeSlots where
  tag : List Term
  value : List Term
  children : List Term
  type : List Term

namespace NodeSlots

/-- One more term is given for a field, before the others. -/
def give (s : NodeSlots) (field : Refusal.Field) (t : Term) : NodeSlots :=
  match field with
  | .tag => { s with tag := t :: s.tag }
  | .value => { s with value := t :: s.value }
  | .children => { s with children := t :: s.children }
  | .type => { s with type := t :: s.type }
  | .typeName => s

/-- The slots that members fill. -/
def ofMembers (ms : List (Option String × Term)) : NodeSlots where
  tag := named ["type", "kind"] ms
  value := named ["value"] ms
  children := named ["children"] ms
  type := named ["analysisType"] ms

/-- The slots that items fill, in their order. -/
def ofItems (ts : List Term) : NodeSlots where
  tag := ts[0]?.toList
  value := ts[1]?.toList
  children := ts[2]?.toList
  type := ts[3]?.toList

/-- The fields that the slots fill, `fields` being filled already. -/
def fill (fields : NodeFields) (s : NodeSlots) : Option NodeFields :=
  (fieldFrom tag? fields.tag s.tag).bind fun tag =>
    (fieldFrom text? fields.value s.value).bind fun value =>
      (fieldFrom nodes? fields.children s.children).bind fun children =>
        (fieldFrom type? fields.type s.type).map fun type => ⟨tag, value, children, type⟩

theorem ofMembers_cons (k : String) (t : Term) (ms : List (Option String × Term)) :
    ofMembers ((some k, t) :: ms) =
      match NodeFields.ofKey? k with
      | some field => (ofMembers ms).give field t
      | none => ofMembers ms := by
  simp only [ofMembers, named_cons, Option.any_some, List.mem_cons, List.not_mem_nil, or_false]
  unfold NodeFields.ofKey?
  by_cases htag : k = "type" ∨ k = "kind"
  · rcases htag with rfl | rfl <;> rfl
  · by_cases hvalue : k = "value"
    · subst hvalue
      rfl
    · by_cases hchildren : k = "children"
      · subst hchildren
        rfl
      · by_cases htype : k = "analysisType"
        · subst htype
          rfl
        · simp [htag, hvalue, hchildren, htype]

/-- A field that has been given already cannot be given again; any other is put
among the fields. -/
theorem fill_give (fields : NodeFields) (s : NodeSlots) {field : Refusal.Field}
    (hf : field ≠ .typeName) (t : Term) :
    fill fields (s.give field t) =
      if fields.has field then none
      else (putField fields field t (nodes? t)).bind fun fields => fill fields s := by
  obtain ⟨tag, value, children, type⟩ := fields
  cases field with
  | typeName => exact absurd rfl hf
  | tag => cases tag <;> cases ht : t.tag? <;> simp [fill, give, putField, NodeFields.has, fieldFrom, ht]
  | value =>
    cases value <;> cases ht : t.text? <;> simp [fill, give, putField, NodeFields.has, fieldFrom, ht]
  | children =>
    cases children <;> cases ht : t.nodes? <;> simp [fill, give, putField, NodeFields.has, fieldFrom, ht]
  | type => cases type <;> cases ht : t.type? <;> simp [fill, give, putField, NodeFields.has, fieldFrom, ht]

end NodeSlots

theorem ofKey?_ne_typeName {k : String} {field : Refusal.Field} (h : NodeFields.ofKey? k = some field) :
    field ≠ .typeName := by
  unfold NodeFields.ofKey? at h
  rintro rfl
  repeat' split at h
  all_goals cases h

/-- Members read one after the other fill the slots of the object. -/
theorem gather_eq (fields : NodeFields) (ms : List (Option String × Term)) :
    gather fields ms = if KeysLegible ms then NodeSlots.fill fields (.ofMembers ms) else none := by
  induction ms generalizing fields with
  | nil =>
    obtain ⟨tag, value, children, type⟩ := fields
    simp [gather, KeysLegible, NodeSlots.ofMembers, named, NodeSlots.fill, fieldFrom]
  | cons m ms ih =>
    obtain ⟨k, t⟩ := m
    cases k with
    | none => simp [gather, KeysLegible]
    | some k =>
      simp only [gather, keysLegible_cons, Option.isSome_some, true_and, Option.bind_some,
        NodeSlots.ofMembers_cons]
      cases hk : NodeFields.ofKey? k with
      | none => exact ih fields
      | some field =>
        simp only [NodeSlots.fill_give _ _ (ofKey?_ne_typeName hk), ih]
        by_cases hl : KeysLegible ms
        · simp only [if_pos hl]
        · simp [if_neg hl]

/-- Items read one after the other fill the slots of the list, of which there are four. -/
theorem gatherItems_eq (ts : List Term) : gatherItems .empty NodeFields.order ts =
    if ts.length ≤ 4 then NodeSlots.fill .empty (.ofItems ts) else none := by
  match ts with
  | [] => rfl
  | [a] =>
    cases ha : a.tag? <;> simp [gatherItems, NodeFields.order, putField, NodeSlots.fill,
      NodeSlots.ofItems, fieldFrom, NodeFields.empty, ha]
  | [a, b] =>
    cases ha : a.tag? <;> cases hb : b.text? <;> simp [gatherItems, NodeFields.order, putField,
      NodeSlots.fill, NodeSlots.ofItems, fieldFrom, NodeFields.empty, ha, hb]
  | [a, b, c] =>
    cases ha : a.tag? <;> cases hb : b.text? <;> cases hc : c.nodes? <;> simp [gatherItems,
      NodeFields.order, putField, NodeSlots.fill, NodeSlots.ofItems, fieldFrom, NodeFields.empty, ha,
      hb, hc]
  | [a, b, c, d] =>
    cases ha : a.tag? <;> cases hb : b.text? <;> cases hc : c.nodes? <;> cases hd : d.type? <;>
      simp [gatherItems, NodeFields.order, putField, NodeSlots.fill, NodeSlots.ofItems, fieldFrom,
        NodeFields.empty, ha, hb, hc, hd]
  | a :: b :: c :: d :: e :: ts =>
    rw [if_neg (by simp)]
    simp [gatherItems, NodeFields.order]

/-- The terms given for each field of a node. -/
def nodeSlots? : Term → Option NodeSlots
  | .object ms => if KeysLegible ms then some (.ofMembers ms) else none
  | .list ts => if ts.length ≤ 4 then some (.ofItems ts) else none
  | _ => none

/-- A node is known by its slots. -/
theorem node?_eq (t : Term) :
    t.node? = t.nodeSlots?.bind fun s => (NodeSlots.fill .empty s).bind NodeFields.node? := by
  cases t with
  | object ms =>
    simp only [node?, nodeSlots?, gather_eq]
    split <;> rfl
  | list ts =>
    simp only [node?, nodeSlots?, gatherItems_eq]
    split <;> rfl
  | _ => rfl

/-- What a term means as a node, slot by slot. -/
theorem node?_eq_some_iff {t : Term} {n : Node} : t.node? = some n ↔
    ∃ s tag value children type, t.nodeSlots? = some s ∧ field tag? s.tag = some (some tag) ∧
      field text? s.value = some value ∧ field nodes? s.children = some children ∧
      field type? s.type = some type ∧
      n = ⟨.ofTag tag, value.getD none, children.getD [], type.getD none⟩ := by
  rw [node?_eq]
  constructor
  · intro h
    obtain ⟨s, hs, h⟩ := Option.bind_eq_some_iff.mp h
    obtain ⟨fields, hf, hn⟩ := Option.bind_eq_some_iff.mp h
    obtain ⟨tag, ht, hf⟩ := Option.bind_eq_some_iff.mp hf
    obtain ⟨value, hv, hf⟩ := Option.bind_eq_some_iff.mp hf
    obtain ⟨children, hc, hf⟩ := Option.bind_eq_some_iff.mp hf
    obtain ⟨type, hy, rfl⟩ := Option.map_eq_some_iff.mp hf
    obtain ⟨tag, rfl, rfl⟩ := Option.map_eq_some_iff.mp hn
    exact ⟨s, tag, value, children, type, hs, ht, hv, hc, hy, rfl⟩
  · rintro ⟨s, tag, value, children, type, hs, ht, hv, hc, hy, rfl⟩
    have hf : NodeSlots.fill .empty s = some ⟨some tag, value, children, type⟩ := by
      simp only [field] at ht hv hc hy
      simp only [NodeSlots.fill, NodeFields.empty, ht, hv, hc, hy, Option.bind_some, Option.map_some]
    rw [hs, Option.bind_some, hf]
    rfl

/-- The root that a term means. -/
def root? (t : Term) : Option Root :=
  (t.slot? "children").bind fun ts => (field nodes? ts).map fun x => ⟨x.getD []⟩

/-- The roots that members mean, by name. -/
def roots? : List (Option String × Term) → Option (List (String × Root))
  | [] => some []
  | (k, t) :: ms => k.bind fun k => (root? t).bind fun r => (roots? ms).map ((k, r) :: ·)

/-- The tree that a term means. -/
def tree? : Term → Option SyntaxTree
  | .object ms => (roots? ms).map .ofList
  | _ => none

end Json.Term

end ApiReference
