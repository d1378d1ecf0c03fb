/-
# Spellings of one tree

Two texts can differ much and still be read as one tree. A record of the tree is
written as an object, in any order, with fields of other names among its own, or as
the list of its fields; fields of their default may be left out. `RecordStep` is one
such change to a record, and `NodeStep`, `RootStep` and `TreeStep` are one change
anywhere below a node, a root and a tree. A text is respelled by any number of them,
and by the white space and escapes that `HasText` leaves open (`Respelled`).

Every step keeps what a term means (`node?_of_step`, `root?_of_step`), and every text
that is read says a term, so its spellings are read as the same tree
(`ofText_of_respelled`). `Text` is a
condition on the keys of the fields that come and go: a key without a text is
refused (`unpairedKey_respells`).

Key definitions: `RecordStep`, `InField`, `TypeStep`, `NodeStep`, `RootStep`,
`TreeStep`, `Respelled`, `slots?`, `SlotStep`.
Key theorems: `slots_of_recordStep`, `slots_of_inField`, `node?_of_step`,
`tree?_of_step`.
-/
import Mathlib.Logic.Relation
import ApiReference.Proofs.Tree.Accepting
import ApiReference.Proofs.Tree.Shape

namespace ApiReference

open Json (Term)

/-! ### Records and their fields -/

/-- A field of a record: its names, and the term that stands for leaving it out. -/
structure FieldSpec where
  names : List String
  default : Option Term

/-- The fields of a node, in the order of the list form. -/
def nodeFields : List FieldSpec :=
  [⟨["type", "kind"], none⟩, ⟨["value"], some .null⟩, ⟨["children"], some (.list [])⟩,
    ⟨["analysisType"], some .null⟩]

/-- The fields of a root. -/
def rootFields : List FieldSpec := [⟨["children"], some (.list [])⟩]

/-- The fields of an analysis type. -/
def typeFields : List FieldSpec := [⟨["_type"], some .null⟩]

/-- The names of the `i`-th field. -/
def namesAt (fields : List FieldSpec) (i : Nat) : List String := (fields[i]?.map (·.names)).getD []

/-- The default of the `i`-th field. -/
def defaultAt (fields : List FieldSpec) (i : Nat) : Option Term := fields[i]?.bind (·.default)

/-! ### Steps -/

section Steps
variable (Text : Option String → Prop)

/-- One change to the spelling of a record. Members are changed at the front, where
`permute` takes them. -/
inductive RecordStep (fields : List FieldSpec) : Term → Term → Prop
  | permute {ms ms' : List (Option String × Term)} (h : ms.Perm ms') :
    RecordStep fields (.object ms) (.object ms')
  | rename {i : Nat} {a b : String} {t : Term} {ms : List (Option String × Term)}
    (ha : a ∈ namesAt fields i) (hb : b ∈ namesAt fields i) :
    RecordStep fields (.object ((some a, t) :: ms)) (.object ((some b, t) :: ms))
  | add {k : Option String} {t : Term} {ms : List (Option String × Term)} (hk : Text k)
    (hn : ∀ i, ∀ name ∈ namesAt fields i, k ≠ some name) :
    RecordStep fields (.object ms) (.object ((k, t) :: ms))
  | remove {k : Option String} {t : Term} {ms : List (Option String × Term)}
    (hn : ∀ i, ∀ name ∈ namesAt fields i, k ≠ some name) :
    RecordStep fields (.object ((k, t) :: ms)) (.object ms)
  | drop {i : Nat} {name : String} {t : Term} {ms : List (Option String × Term)}
    (hn : name ∈ namesAt fields i) (hd : defaultAt fields i = some t) :
    RecordStep fields (.object ((some name, t) :: ms)) (.object ms)
  | listed {ms : List (Option String × Term)} {ts : List Term}
    (known : ∀ m ∈ ms, ∃ i, ∃ name ∈ namesAt fields i, m.1 = some name)
    (length : ts.length = fields.length)
    (given : ∀ i t, ts[i]? = some t → named (namesAt fields i) ms = [t] ∨
      named (namesAt fields i) ms = [] ∧ defaultAt fields i = some t) :
    RecordStep fields (.object ms) (.list ts)
  | trim {t : Term} (ts : List Term) (hd : defaultAt fields ts.length = some t) :
    RecordStep fields (.list (ts ++ [t])) (.list ts)

/-- The value of the `i`-th field of a record is changed from `t` to `u`. -/
inductive InField (fields : List FieldSpec) (i : Nat) (t u : Term) : Term → Term → Prop
  | member {name : String} {ms : List (Option String × Term)} (hn : name ∈ namesAt fields i) :
    InField fields i t u (.object ((some name, t) :: ms)) (.object ((some name, u) :: ms))
  | item {ts us : List Term} (hi : ts.length = i) :
    InField fields i t u (.list (ts ++ t :: us)) (.list (ts ++ u :: us))

/-- A record of no type: its only field, if it is given, is null or empty. -/
inductive Untyped : Term → Prop
  | object {ms : List (Option String × Term)}
    (h : ∀ t ∈ named ["_type"] ms, t = .null ∨ t = .string (some "")) : Untyped (.object ms)
  | list {ts : List Term} (h : ∀ t ∈ ts, t = .null ∨ t = .string (some "")) : Untyped (.list ts)

/-- One change to an analysis type. -/
inductive TypeStep : Term → Term → Prop
  | record {t u : Term} (h : RecordStep Text typeFields t u) : TypeStep t u
  | untyped {t : Term} (h : Untyped t) : TypeStep t .null

/-- One change to a node, or to a node below. -/
inductive NodeStep : Term → Term → Prop
  | record {t u : Term} (h : RecordStep Text nodeFields t u) : NodeStep t u
  | type {t u a b : Term} (h : TypeStep Text t u) (hf : InField nodeFields 3 t u a b) : NodeStep a b
  | child {t u a b : Term} (ts us : List Term) (h : NodeStep t u)
    (hf : InField nodeFields 2 (.list (ts ++ t :: us)) (.list (ts ++ u :: us)) a b) : NodeStep a b

/-- One change to a module root, or to a node below. -/
inductive RootStep : Term → Term → Prop
  | record {t u : Term} (h : RecordStep Text rootFields t u) : RootStep t u
  | child {t u a b : Term} (ts us : List Term) (h : NodeStep Text t u)
    (hf : InField rootFields 0 (.list (ts ++ t :: us)) (.list (ts ++ u :: us)) a b) : RootStep a b

/-- One change somewhere in a tree. -/
inductive TreeStep : Term → Term → Prop
  | root {k : Option String} {t u : Term} (ms ms' : List (Option String × Term))
    (h : RootStep Text t u) : TreeStep (.object (ms ++ (k, t) :: ms')) (.object (ms ++ (k, u) :: ms'))

/-- The text `b` says what `a` says, up to any number of changes. -/
def Respelled (a b : String) : Prop :=
  ∃ t u, t.HasText a ∧ u.HasText b ∧ Relation.ReflTransGen (TreeStep Text) t u

end Steps

/-! ### Slots of a record -/

/-- The terms given for each field of a record, by the number of the field. -/
def slots? (fields : List FieldSpec) : Term → Option (Nat → List Term)
  | .object ms => if KeysLegible ms then some fun i => named (namesAt fields i) ms else none
  | .list ts => if ts.length ≤ fields.length then some fun i => ts[i]?.toList else none
  | _ => none

/-- No two fields share a name. -/
def Distinct (fields : List FieldSpec) : Prop :=
  ∀ i j name, name ∈ namesAt fields i → name ∈ namesAt fields j → i = j

/-- The terms given for a field before and after a step, if `d` is its default. -/
inductive SlotStep (d : Option Term) : List Term → List Term → Prop
  | permute {ts us : List Term} (h : ts.Perm us) : SlotStep d ts us
  | drop {t : Term} {ts : List Term} (h : d = some t) : SlotStep d (t :: ts) ts
  | fill {t : Term} (h : d = some t) : SlotStep d [] [t]

theorem SlotStep.refl (d : Option Term) (ts : List Term) : SlotStep d ts ts := .permute (.refl ts)

theorem distinct_of_nodup {fields : List FieldSpec} (h : (fields.flatMap (·.names)).Nodup) :
    Distinct fields := by
  induction fields with
  | nil => intro i j name hi; simp [namesAt] at hi
  | cons f fields ih =>
    rw [List.flatMap_cons, List.nodup_append] at h
    have htail : ∀ i name, name ∈ namesAt fields i → name ∈ fields.flatMap (·.names) := by
      intro i name hi
      cases hf : fields[i]? with
      | none => simp [namesAt, hf] at hi
      | some g =>
        simp only [namesAt, hf, Option.map_some, Option.getD_some] at hi
        exact List.mem_flatMap.mpr ⟨g, List.mem_of_getElem? hf, hi⟩
    intro i j name hi hj
    match i, j with
    | 0, 0 => rfl
    | 0, j + 1 => exact absurd rfl (h.2.2 name hi name (htail j name hj))
    | i + 1, 0 => exact absurd rfl (h.2.2 name hj name (htail i name hi))
    | i + 1, j + 1 => rw [ih h.2.1 i j name hi hj]

theorem distinct_nodeFields : Distinct nodeFields := distinct_of_nodup (by decide)

theorem distinct_rootFields : Distinct rootFields := distinct_of_nodup (by decide)

theorem distinct_typeFields : Distinct typeFields := distinct_of_nodup (by decide)

theorem slots?_object {fields : List FieldSpec} {ms : List (Option String × Term)} {s : Nat → List Term} :
    slots? fields (.object ms) = some s ↔
      KeysLegible ms ∧ s = fun i => named (namesAt fields i) ms := by
  rw [slots?, Option.ite_none_right_eq_some, Option.some.injEq, eq_comm (b := s)]

theorem slots?_list {fields : List FieldSpec} {ts : List Term} {s : Nat → List Term} :
    slots? fields (.list ts) = some s ↔ ts.length ≤ fields.length ∧ s = fun i => ts[i]?.toList := by
  rw [slots?, Option.ite_none_right_eq_some, Option.some.injEq, eq_comm (b := s)]

theorem named_cons_some_of_mem {names : List String} {name : String} (h : name ∈ names) (t : Term)
    (ms : List (Option String × Term)) : named names ((some name, t) :: ms) = t :: named names ms := by
  rw [named_cons, if_pos (by simpa using h)]

theorem named_cons_some_of_not_mem {names : List String} {name : String} (h : name ∉ names) (t : Term)
    (ms : List (Option String × Term)) : named names ((some name, t) :: ms) = named names ms := by
  rw [named_cons, if_neg (by simpa using h)]

theorem named_cons_of_ne {names : List String} {k : Option String} (h : ∀ name ∈ names, k ≠ some name)
    (t : Term) (ms : List (Option String × Term)) : named names ((k, t) :: ms) = named names ms := by
  cases k with
  | none => rw [named_cons, if_neg (by simp)]
  | some name => exact named_cons_some_of_not_mem (fun hn => h name hn rfl) t ms

/-- What a step does to each slot. -/
theorem slots_of_recordStep {fields : List FieldSpec} (hd : Distinct fields) {t u : Term}
    (h : RecordStep (·.isSome) fields t u) {s : Nat → List Term} (hs : slots? fields t = some s) :
    ∃ s', slots? fields u = some s' ∧ ∀ i, SlotStep (defaultAt fields i) (s i) (s' i) := by
  cases h with
  | permute h =>
    obtain ⟨hk, rfl⟩ := slots?_object.mp hs
    refine ⟨_, slots?_object.mpr ⟨fun m hm => hk m (h.mem_iff.mpr hm), rfl⟩, fun i => ?_⟩
    exact .permute ((h.filter _).map _)
  | @rename i a b t ms ha hb =>
    obtain ⟨hk, rfl⟩ := slots?_object.mp hs
    refine ⟨_, slots?_object.mpr ⟨?_, rfl⟩, fun j => ?_⟩
    · rw [keysLegible_cons] at hk ⊢
      exact ⟨rfl, hk.2⟩
    · show SlotStep _ (named (namesAt fields j) ((some a, t) :: ms)) _
      by_cases hj : a ∈ namesAt fields j
      · have hi := hd j i a hj ha
        rw [named_cons_some_of_mem hj, named_cons_some_of_mem (hi ▸ hb)]
        exact .refl _ _
      · have hbj : b ∉ namesAt fields j := fun hb' => hj (hd j i b hb' hb ▸ ha)
        rw [named_cons_some_of_not_mem hj, named_cons_some_of_not_mem hbj]
        exact .refl _ _
  | add hk' hn =>
    obtain ⟨hk, rfl⟩ := slots?_object.mp hs
    refine ⟨_, slots?_object.mpr ⟨(keysLegible_cons ..).mpr ⟨hk', hk⟩, rfl⟩, fun i => ?_⟩
    rw [named_cons_of_ne (hn i)]
    exact .refl _ _
  | @remove k t ms hn =>
    obtain ⟨hk, rfl⟩ := slots?_object.mp hs
    refine ⟨_, slots?_object.mpr ⟨((keysLegible_cons ..).mp hk).2, rfl⟩, fun i => ?_⟩
    show SlotStep _ (named (namesAt fields i) ((k, t) :: ms)) _
    rw [named_cons_of_ne (hn i)]
    exact .refl _ _
  | @drop i name t ms hn hdt =>
    obtain ⟨hk, rfl⟩ := slots?_object.mp hs
    refine ⟨_, slots?_object.mpr ⟨((keysLegible_cons ..).mp hk).2, rfl⟩, fun j => ?_⟩
    show SlotStep _ (named (namesAt fields j) ((some name, t) :: ms)) _
    by_cases hj : name ∈ namesAt fields j
    · rw [named_cons_some_of_mem hj]
      exact .drop (hd j i name hj hn ▸ hdt)
    · rw [named_cons_some_of_not_mem hj]
      exact .refl _ _
  | @listed ms ts known length given =>
    obtain ⟨hk, rfl⟩ := slots?_object.mp hs
    refine ⟨_, slots?_list.mpr ⟨Nat.le_of_eq length, rfl⟩, fun i => ?_⟩
    show SlotStep _ (named (namesAt fields i) ms) ts[i]?.toList
    cases ht : ts[i]? with
    | none =>
      have hi : fields.length ≤ i := length ▸ List.getElem?_eq_none_iff.mp ht
      rw [namesAt, List.getElem?_eq_none hi, Option.map_none, Option.getD_none]
      have : named [] ms = [] := by simp [named]
      rw [this]
      exact .refl _ _
    | some t =>
      rcases given i t ht with hn | ⟨hn, hdt⟩
      · rw [hn]
        exact .refl _ _
      · rw [hn]
        exact .fill hdt
  | @trim t ts hdt =>
    obtain ⟨hl, rfl⟩ := slots?_list.mp hs
    rw [List.length_append] at hl
    refine ⟨_, slots?_list.mpr ⟨by omega, rfl⟩, fun i => ?_⟩
    show SlotStep _ (ts ++ [t])[i]?.toList ts[i]?.toList
    rcases Nat.lt_trichotomy i ts.length with hi | rfl | hi
    · rw [List.getElem?_append_left hi]
      exact .refl _ _
    · rw [List.getElem?_concat_length, List.getElem?_eq_none (Nat.le_refl _)]
      exact .drop hdt
    · rw [List.getElem?_append_right (Nat.le_of_lt hi), List.getElem?_eq_none (Nat.le_of_lt hi),
        List.getElem?_eq_none (by simp only [List.length_singleton]; omega)]
      exact .refl _ _

/-- A change to one field leaves the other slots as they are. -/
theorem slots_of_inField {fields : List FieldSpec} (hd : Distinct fields) {i : Nat} {t u a b : Term}
    (h : InField fields i t u a b) {s : Nat → List Term} (hs : slots? fields a = some s) :
    ∃ s' rest, slots? fields b = some s' ∧ s i = t :: rest ∧ s' i = u :: rest ∧
      ∀ j, j ≠ i → s' j = s j := by
  cases h with
  | @member name ms hn =>
    obtain ⟨hk, rfl⟩ := slots?_object.mp hs
    refine ⟨_, named (namesAt fields i) ms, slots?_object.mpr ⟨?_, rfl⟩, ?_, ?_, fun j hj => ?_⟩
    · rw [keysLegible_cons] at hk ⊢
      exact hk
    · exact named_cons_some_of_mem hn t ms
    · exact named_cons_some_of_mem hn u ms
    · have hnj : name ∉ namesAt fields j := fun hnj => hj (hd j i name hnj hn)
      simp only [named_cons_some_of_not_mem hnj]
  | @item ts us hi =>
    obtain ⟨hl, rfl⟩ := slots?_list.mp hs
    subst hi
    refine ⟨_, [], slots?_list.mpr ⟨?_, rfl⟩, ?_, ?_, fun j hj => ?_⟩
    · simpa using hl
    · simp
    · simp
    · rcases Nat.lt_or_gt_of_ne hj with hj | hj
      · simp only [List.getElem?_append_left hj]
      · obtain ⟨k, rfl⟩ := Nat.exists_eq_add_of_lt hj
        have hk : ts.length + k + 1 - ts.length = k + 1 := by omega
        simp only [List.getElem?_append_right (Nat.le_of_lt hj), hk, List.getElem?_cons_succ]

/-! ### Fields with a default -/

/-- The value of a field for which the terms `ts` are given, `e` if there are none. -/
def fieldD {α : Type} (read : Term → Option α) (e : α) (ts : List Term) : Option α :=
  (field read ts).map (·.getD e)

section fieldD
variable {α : Type} {read : Term → Option α}

theorem field_perm {ts us : List Term} (h : ts.Perm us) : field read ts = field read us := by
  match ts, us, h.length_eq with
  | [], [], _ => rfl
  | [t], [u], _ =>
    rw [List.singleton_perm_singleton] at h
    rw [h]
  | t :: t' :: ts, u :: u' :: us, _ => rw [field_many, field_many]

theorem fieldD_single (e : α) (t : Term) : fieldD read e [t] = read t := by
  rw [fieldD, field_single]
  cases read t <;> rfl

theorem fieldD_cons_eq_some {e a : α} {t : Term} {ts : List Term} (h : fieldD read e (t :: ts) = some a) :
    ts = [] ∧ read t = some a := by
  cases ts with
  | nil => exact ⟨rfl, (fieldD_single e t).symm.trans h⟩
  | cons u ts =>
    rw [fieldD, field_many] at h
    cases h

/-- A step that a slot makes is not seen by its reader, if the default is read as what
stands for no term. -/
theorem fieldD_of_slotStep {d : Option Term} {e a : α} (hd : ∀ t, d = some t → read t = some e)
    {ts us : List Term} (h : SlotStep d ts us) (ha : fieldD read e ts = some a) :
    fieldD read e us = some a := by
  cases h with
  | permute h => rwa [fieldD, ← field_perm h]
  | drop h =>
    obtain ⟨rfl, ht⟩ := fieldD_cons_eq_some ha
    rw [hd _ h] at ht
    exact ht
  | fill h =>
    rw [fieldD_single, hd _ h]
    exact ha

theorem field_of_slotStep {a : α} {ts us : List Term} (h : SlotStep none ts us)
    (ha : field read ts = some (some a)) : field read us = some (some a) := by
  cases h with
  | permute h => rwa [← field_perm h]
  | drop h => cases h
  | fill h => cases h

end fieldD

/-! ### Steps keep what is read -/

/-- A record of one field is read from its only slot. -/
theorem slot?_bind_fieldD {α : Type} (read : Term → Option α) (e : α) (name : String) (d : Option Term)
    (t : Term) : (t.slot? name).bind (fieldD read e) =
      (slots? [⟨[name], d⟩] t).bind fun s => fieldD read e (s 0) := by
  cases t with
  | object ms =>
    simp only [Term.slot?, slots?]
    split <;> rfl
  | list ts =>
    rcases ts with _ | ⟨t, _ | ⟨u, ts⟩⟩
    · rfl
    · rfl
    · simp [Term.slot?, slots?, fieldD, field_many]
  | _ => rfl

theorem type?_eq {t : Term} (h : t ≠ .null) : t.type? =
    ((slots? typeFields t).bind fun s => fieldD Term.text? none (s 0)).map nonempty? := by
  have hslot := slot?_bind_fieldD Term.text? none "_type" (some .null) t
  rw [typeFields, ← hslot]
  cases t with
  | null => exact absurd rfl h
  | _ => simp only [Term.type?, Option.map_bind, fieldD, Option.map_map, Function.comp_def]

theorem root?_eq (t : Term) : t.root? =
    ((slots? rootFields t).bind fun s => fieldD Term.nodes? [] (s 0)).map Root.mk := by
  have hslot := slot?_bind_fieldD Term.nodes? [] "children" (some (.list [])) t
  rw [rootFields, ← hslot]
  simp only [Term.root?, Option.map_bind, fieldD, Option.map_map, Function.comp_def]

theorem nodeSlots?_eq (t : Term) : t.nodeSlots? =
    (slots? nodeFields t).map fun s => ⟨s 0, s 1, s 2, s 3⟩ := by
  cases t with
  | object ms =>
    simp only [Term.nodeSlots?, slots?]
    split <;> rfl
  | list ts =>
    have hlength : nodeFields.length = 4 := rfl
    simp only [Term.nodeSlots?, slots?, hlength]
    split <;> rfl
  | _ => rfl

/-- What a term means as a node, read from its slots. -/
theorem node?_eq_some_iff_slots {t : Term} {n : Node} : t.node? = some n ↔
    ∃ s tag value children type, slots? nodeFields t = some s ∧ field Term.tag? (s 0) = some (some tag) ∧
      fieldD Term.text? none (s 1) = some value ∧ fieldD Term.nodes? [] (s 2) = some children ∧
      fieldD Term.type? none (s 3) = some type ∧ n = ⟨.ofTag tag, value, children, type⟩ := by
  rw [Term.node?_eq_some_iff, nodeSlots?_eq]
  constructor
  · rintro ⟨slots, tag, value, children, type, hslots, ht, hv, hc, hy, rfl⟩
    obtain ⟨s, hs, rfl⟩ := Option.map_eq_some_iff.mp hslots
    refine ⟨s, tag, _, _, _, hs, ht, ?_, ?_, ?_, rfl⟩
    · rw [fieldD, hv, Option.map_some]
    · rw [fieldD, hc, Option.map_some]
    · rw [fieldD, hy, Option.map_some]
  · rintro ⟨s, tag, value, children, type, hs, ht, hv, hc, hy, rfl⟩
    obtain ⟨value, hv', rfl⟩ := Option.map_eq_some_iff.mp hv
    obtain ⟨children, hc', rfl⟩ := Option.map_eq_some_iff.mp hc
    obtain ⟨type, hy', rfl⟩ := Option.map_eq_some_iff.mp hy
    exact ⟨_, tag, value, children, type, by rw [hs]; rfl, ht, hv', hc', hy', rfl⟩

theorem type?_of_recordStep {t u : Term} (h : RecordStep (·.isSome) typeFields t u) {x : Option String}
    (hx : t.type? = some x) : u.type? = some x := by
  have hne : t ≠ .null ∧ u ≠ .null := by cases h <;> simp
  rw [type?_eq hne.1] at hx
  obtain ⟨y, hy, rfl⟩ := Option.map_eq_some_iff.mp hx
  obtain ⟨s, hs, hy⟩ := Option.bind_eq_some_iff.mp hy
  obtain ⟨s', hs', hstep⟩ := slots_of_recordStep distinct_typeFields h hs
  have hy' := fieldD_of_slotStep (by rintro _ ⟨⟩; rfl) (hstep 0) hy
  rw [type?_eq hne.2, hs', Option.bind_some, hy', Option.map_some]

theorem type?_of_untyped {t : Term} (h : Untyped t) {x : Option String} (hx : t.type? = some x) :
    x = none := by
  have hterm : ∀ u : Term, u = .null ∨ u = .string (some "") → ∀ y, u.text? = some y → nonempty? y = none := by
    rintro _ (rfl | rfl) y hy
    · cases hy; rfl
    · cases hy; rfl
  have hfield : ∀ ts : List Term, (∀ u ∈ ts, u = .null ∨ u = .string (some "")) →
      (field Term.text? ts).map (fun y => nonempty? (y.getD none)) = some x → x = none := by
    intro ts hts hx
    obtain ⟨y, hy, rfl⟩ := Option.map_eq_some_iff.mp hx
    rcases ts with _ | ⟨u, _ | ⟨v, ts⟩⟩
    · cases hy
      rfl
    · rw [field_single] at hy
      obtain ⟨z, hz, rfl⟩ := Option.map_eq_some_iff.mp hy
      exact hterm u (hts u (List.mem_singleton_self u)) z hz
    · rw [field_many] at hy
      cases hy
  cases h with
  | object h =>
    obtain ⟨ts, hts, hx⟩ := Option.bind_eq_some_iff.mp hx
    obtain ⟨-, hts⟩ := Option.ite_none_right_eq_some.mp hts
    cases hts
    exact hfield _ h hx
  | list h => exact hfield _ h hx

theorem type?_of_step {t u : Term} (h : TypeStep (·.isSome) t u) {x : Option String}
    (hx : t.type? = some x) : u.type? = some x := by
  cases h with
  | record h => exact type?_of_recordStep h hx
  | untyped h =>
    rw [type?_of_untyped h hx]
    rfl

/-- A list of nodes is read alike if one node in it is. -/
theorem nodes?_of_node? {t u : Term} (h : ∀ n, t.node? = some n → u.node? = some n) {ts us : List Term}
    {ns : List Node} (hn : (Term.list (ts ++ t :: us)).nodes? = some ns) :
    (Term.list (ts ++ u :: us)).nodes? = some ns := by
  simp only [Term.nodes?] at hn ⊢
  induction ts generalizing ns with
  | nil =>
    rw [List.nil_append, Term.nodeList?] at hn ⊢
    obtain ⟨n, ht, hn⟩ := Option.bind_eq_some_iff.mp hn
    rw [h n ht]
    exact hn
  | cons v ts ih =>
    rw [List.cons_append, Term.nodeList?] at hn ⊢
    obtain ⟨n, hv, hn⟩ := Option.bind_eq_some_iff.mp hn
    obtain ⟨ns, hns, rfl⟩ := Option.map_eq_some_iff.mp hn
    rw [hv, Option.bind_some, ih hns, Option.map_some]

/-- A field is read alike if the term in it is. -/
theorem fieldD_cons_of_read {α : Type} {read : Term → Option α} {e a : α} {t u : Term}
    (h : ∀ x, read t = some x → read u = some x) {ts : List Term}
    (ha : fieldD read e (t :: ts) = some a) : fieldD read e (u :: ts) = some a := by
  obtain ⟨rfl, ht⟩ := fieldD_cons_eq_some ha
  rw [fieldD_single]
  exact h a ht

/-- A step keeps the node that a term means. -/
theorem node?_of_step {t u : Term} (h : NodeStep (·.isSome) t u) {n : Node} (hn : t.node? = some n) :
    u.node? = some n := by
  induction h generalizing n with
  | record h =>
    obtain ⟨s, tag, value, children, type, hs, ht, hv, hc, hy, rfl⟩ := node?_eq_some_iff_slots.mp hn
    obtain ⟨s', hs', hstep⟩ := slots_of_recordStep distinct_nodeFields h hs
    refine node?_eq_some_iff_slots.mpr ⟨s', tag, value, children, type, hs', ?_, ?_, ?_, ?_, rfl⟩
    · exact field_of_slotStep (hstep 0) ht
    · exact fieldD_of_slotStep (by rintro _ ⟨⟩; rfl) (hstep 1) hv
    · exact fieldD_of_slotStep (by rintro _ ⟨⟩; rfl) (hstep 2) hc
    · exact fieldD_of_slotStep (by rintro _ ⟨⟩; rfl) (hstep 3) hy
  | type h hf =>
    obtain ⟨s, tag, value, children, type, hs, ht, hv, hc, hy, rfl⟩ := node?_eq_some_iff_slots.mp hn
    obtain ⟨s', rest, hs', hi, hi', hj⟩ := slots_of_inField distinct_nodeFields hf hs
    refine node?_eq_some_iff_slots.mpr ⟨s', tag, value, children, type, hs', ?_, ?_, ?_, ?_, rfl⟩
    · rwa [hj 0 (by decide)]
    · rwa [hj 1 (by decide)]
    · rwa [hj 2 (by decide)]
    · rw [hi] at hy
      rw [hi']
      exact fieldD_cons_of_read (fun _ => type?_of_step h) hy
  | child ts us h hf ih =>
    obtain ⟨s, tag, value, children, type, hs, ht, hv, hc, hy, rfl⟩ := node?_eq_some_iff_slots.mp hn
    obtain ⟨s', rest, hs', hi, hi', hj⟩ := slots_of_inField distinct_nodeFields hf hs
    refine node?_eq_some_iff_slots.mpr ⟨s', tag, value, children, type, hs', ?_, ?_, ?_, ?_, rfl⟩
    · rwa [hj 0 (by decide)]
    · rwa [hj 1 (by decide)]
    · rw [hi] at hc
      rw [hi']
      exact fieldD_cons_of_read (fun _ => nodes?_of_node? fun _ => ih) hc
    · rwa [hj 3 (by decide)]

/-- A step keeps the root that a term means. -/
theorem root?_of_step {t u : Term} (h : RootStep (·.isSome) t u) {r : Root} (hr : t.root? = some r) :
    u.root? = some r := by
  rw [root?_eq] at hr ⊢
  obtain ⟨children, hc, rfl⟩ := Option.map_eq_some_iff.mp hr
  obtain ⟨s, hs, hc⟩ := Option.bind_eq_some_iff.mp hc
  have hu : ∃ s', slots? rootFields u = some s' ∧ fieldD Term.nodes? [] (s' 0) = some children := by
    cases h with
    | record h =>
      obtain ⟨s', hs', hstep⟩ := slots_of_recordStep distinct_rootFields h hs
      exact ⟨s', hs', fieldD_of_slotStep (by rintro _ ⟨⟩; rfl) (hstep 0) hc⟩
    | child ts us h hf =>
      obtain ⟨s', rest, hs', hi, hi', -⟩ := slots_of_inField distinct_rootFields hf hs
      rw [hi] at hc
      refine ⟨s', hs', ?_⟩
      rw [hi']
      exact fieldD_cons_of_read (fun _ => nodes?_of_node? fun _ => node?_of_step h) hc
  obtain ⟨s', hs', hc'⟩ := hu
  rw [hs', Option.bind_some, hc', Option.map_some]

theorem roots?_of_step {t u : Term} (h : RootStep (·.isSome) t u) (k : Option String)
    {ms ms' : List (Option String × Term)} {rs : List (String × Root)}
    (hr : Term.roots? (ms ++ (k, t) :: ms') = some rs) : Term.roots? (ms ++ (k, u) :: ms') = some rs := by
  induction ms generalizing rs with
  | nil =>
    rw [List.nil_append, Term.roots?] at hr ⊢
    obtain ⟨name, hk, hr⟩ := Option.bind_eq_some_iff.mp hr
    obtain ⟨r, ht, hr⟩ := Option.bind_eq_some_iff.mp hr
    rw [hk, Option.bind_some, root?_of_step h ht]
    exact hr
  | cons m ms ih =>
    obtain ⟨k', v⟩ := m
    rw [List.cons_append, Term.roots?] at hr ⊢
    obtain ⟨name, hk, hr⟩ := Option.bind_eq_some_iff.mp hr
    obtain ⟨r, hv, hr⟩ := Option.bind_eq_some_iff.mp hr
    obtain ⟨rs, hrs, rfl⟩ := Option.map_eq_some_iff.mp hr
    rw [hk, Option.bind_some, hv, Option.bind_some, ih hrs, Option.map_some]

/-- A step keeps the tree that a term means, the order of its modules included. -/
theorem tree?_of_step {t u : Term} (h : TreeStep (·.isSome) t u) {tree : SyntaxTree}
    (ht : t.tree? = some tree) : u.tree? = some tree := by
  cases h with
  | root ms ms' h =>
    rw [Term.tree?] at ht ⊢
    obtain ⟨rs, hrs, rfl⟩ := Option.map_eq_some_iff.mp ht
    rw [roots?_of_step h _ hrs, Option.map_some]

theorem tree?_of_steps {t u : Term} (h : Relation.ReflTransGen (TreeStep (·.isSome)) t u)
    {tree : SyntaxTree} (ht : t.tree? = some tree) : u.tree? = some tree := by
  induction h with
  | refl => exact ht
  | tail _ hstep ih => exact tree?_of_step hstep ih

/-- Every text that is read says a term, and however it is respelled, it is read as
the same tree. -/
theorem ofText_of_respelled {a : String} {tree : SyntaxTree} (ha : SyntaxTree.ofText a = .ok tree) :
    (∃ t : Term, t.HasText a) ∧ ∀ b, Respelled (·.isSome) a b → SyntaxTree.ofText b = .ok tree := by
  constructor
  · obtain ⟨t, ht, -⟩ := ofText_eq_ok_iff_exists.mp ha
    exact ⟨t, ht⟩
  · rintro b ⟨t, u, hta, hub, hsteps⟩
    have ht := (ofText_eq_ok_iff hta tree).mp ha
    exact (ofText_eq_ok_iff hub tree).mpr (tree?_of_steps hsteps ht)

/-- A module of one function, with all its fields named. -/
def plainForm : Json.Value :=
  .object [("m", .object [("children", .list [.object [("type", .number (.int 4)), ("value", .null)]])])]

/-- The module of `plainForm`, its node given by a list and its tag alone. -/
def shortForm : Json.Value :=
  .object [("m", .object [("type", .list []), ("children", .list [.list [.number (.int 4)]])])]

/-- A node with a tag and a null value may be given by the list of its tag alone. -/
theorem node_respells (tag : Term) : Relation.ReflTransGen (NodeStep (·.isSome))
    (.object [(some "type", tag), (some "value", .null)]) (.list [tag]) := by
  have hlisted : RecordStep (·.isSome) nodeFields
      (.object [(some "type", tag), (some "value", .null)]) (.list [tag, .null, .list [], .null]) := by
    refine .listed ?_ rfl fun i t ht => ?_
    · simp only [List.forall_mem_cons, List.not_mem_nil, false_imp_iff, implies_true, and_true]
      exact ⟨⟨0, "type", by decide, rfl⟩, ⟨1, "value", by decide, rfl⟩⟩
    · rcases i with _ | _ | _ | _ | i
      · cases ht
        exact .inl rfl
      · cases ht
        exact .inl rfl
      · cases ht
        exact .inr ⟨rfl, rfl⟩
      · cases ht
        exact .inr ⟨rfl, rfl⟩
      · cases ht
  have htype : RecordStep (·.isSome) nodeFields (.list [tag, .null, .list [], .null])
      (.list [tag, .null, .list []]) := .trim [tag, .null, .list []] rfl
  have hchildren : RecordStep (·.isSome) nodeFields (.list [tag, .null, .list []])
      (.list [tag, .null]) := .trim [tag, .null] rfl
  have hvalue : RecordStep (·.isSome) nodeFields (.list [tag, .null]) (.list [tag]) :=
    .trim [tag] rfl
  exact .head (.record hlisted) (.head (.record htype) (.head (.record hchildren) (.single (.record hvalue))))

theorem plainForm_respells : Respelled (·.isSome) plainForm.compact shortForm.compact := by
  have hchild : ∀ t u, NodeStep (·.isSome) t u →
      TreeStep (·.isSome) (.object [(some "m", .object [(some "children", .list [t])])])
        (.object [(some "m", .object [(some "children", .list [u])])]) :=
    fun t u h => .root [] [] (.child [] [] h (.member (by decide)))
  have hadd : TreeStep (·.isSome)
      (.object [(some "m", .object [(some "children", .list [.list [.number (.ofInt 4)]])])])
      (.object [(some "m", .object [(some "type", .list []),
        (some "children", .list [.list [.number (.ofInt 4)]])])]) := by
    refine .root [] [] (.record (.add rfl fun i name hn hk => ?_))
    cases hk
    cases i with
    | zero => exact absurd hn (by decide)
    | succ i => exact absurd hn List.not_mem_nil
  have hsteps := ((node_respells (.number (.ofInt 4))).lift _ hchild).tail hadd
  exact ⟨_, _, Json.Value.hasText_compact rfl, Json.Value.hasText_compact rfl, hsteps⟩

theorem ofText_of_respelled_short : Respelled (·.isSome) plainForm.compact shortForm.compact ∧
    SyntaxTree.ofText plainForm.compact = .ok ⟨[("m", ⟨[⟨.function, none, [], none⟩]⟩)]⟩ ∧
    SyntaxTree.ofText shortForm.compact = .ok ⟨[("m", ⟨[⟨.function, none, [], none⟩]⟩)]⟩ := by
  have htext : Term.HasText _ plainForm.compact := Json.Value.hasText_compact rfl
  have h4 : Numeral.ofInt 4 = ⟨false, [4], [], none⟩ := Json.ofInt_digit (by decide)
  rw [h4] at htext
  have hplain := (ofText_eq_ok_iff htext ⟨[("m", ⟨[⟨.function, none, [], none⟩]⟩)]⟩).mpr rfl
  exact ⟨plainForm_respells, hplain, (ofText_of_respelled hplain).2 _ plainForm_respells⟩

/-- The steps need a text for the keys that come. -/
theorem unpairedKey_respells : ∃ a b tree, Respelled (fun _ => True) a b ∧
    SyntaxTree.ofText a = .ok tree ∧ ∀ tree', SyntaxTree.ofText b ≠ .ok tree' := by
  have ha : Term.HasText (.object [(some "m", .object [])]) _ :=
    Json.Value.hasText_compact (v := .object [("m", .object [])]) rfl
  have hadd : RootStep (fun _ => True) (.object []) (.object [(none, .null)]) :=
    .record (.add trivial fun _ _ _ => nofun)
  have hstep : TreeStep (fun _ => True) (.object [(some "m", .object [])]) unpairedKey :=
    .root [] [] hadd
  refine ⟨_, _, ⟨[("m", ⟨[]⟩)]⟩, ⟨_, unpairedKey, ha, unpairedKey_hasText, .single hstep⟩,
    (ofText_eq_ok_iff ha _).mpr rfl, fun tree' h => ?_⟩
  cases (ofText_eq_ok_iff unpairedKey_hasText tree').mp h

end ApiReference
