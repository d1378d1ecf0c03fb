/-
# The shape of a syntax tree's dump

`IsTree` is the grammar of dumps: which terms are a tree, a root, a node, a type
or a tag. It takes the condition `Text` on the strings that are read, keys of
records included; fields of other names hold anything.

A text of the JSON grammar is read if and only if its term has this shape and all
strings that are read have a text (`exists_ofText_eq_ok_iff`). Shape alone is not enough: an
unpaired surrogate in a key is refused (`ofText_unpaired_key`).

Key definitions: `IsTag`, `IsRecord`, `IsType`, `IsNode`, `IsRoot`, `IsTree`.
Key theorems: `node?_isSome_iff`, `tree?_isSome_iff`.
-/
import ApiReference.Proofs.Json.Printing
import ApiReference.Proofs.Tree.Reading

namespace ApiReference

open Json (Term)

/-! ### The grammar -/

/-- A tag: digits alone, of a number below `2 ^ 32`. -/
inductive IsTag : Term → Prop
  | mk {whole : List Nat} (h : Numeral.ofDigits whole < UInt32.size) :
    IsTag (.number ⟨false, whole, [], none⟩)

section Shape
variable (Text : Option String → Prop)

/-- A record of one field: an object that has it at most once, or a list of at most it. -/
inductive IsRecord (name : String) (Value : Term → Prop) : Term → Prop
  | object {ms : List (Option String × Term)} (keys : ∀ m ∈ ms, Text m.1)
    (once : (named [name] ms).length ≤ 1) (value : ∀ t ∈ named [name] ms, Value t) :
    IsRecord name Value (.object ms)
  | list {ts : List Term} (once : ts.length ≤ 1) (value : ∀ t ∈ ts, Value t) :
    IsRecord name Value (.list ts)

/-- An analysis type: null, or a record of the field `_type`. -/
inductive IsType : Term → Prop
  | null : IsType .null
  | record {t : Term} (h : IsRecord Text "_type" (·.Legible Text) t) : IsType t

mutual

/-- A node: an object with exactly one tag and at most one of each other field, or a
list of one to four fields in order. -/
inductive IsNode : Term → Prop
  | object {ms : List (Option String × Term)} (keys : ∀ m ∈ ms, Text m.1)
    (tagOnce : (named ["type", "kind"] ms).length = 1)
    (tag : ∀ t ∈ named ["type", "kind"] ms, IsTag t)
    (valueOnce : (named ["value"] ms).length ≤ 1) (value : ∀ t ∈ named ["value"] ms, t.Legible Text)
    (childrenOnce : (named ["children"] ms).length ≤ 1)
    (children : ∀ t ∈ named ["children"] ms, IsNodes t)
    (typeOnce : (named ["analysisType"] ms).length ≤ 1)
    (type : ∀ t ∈ named ["analysisType"] ms, IsType Text t) : IsNode (.object ms)
  | list {ts : List Term} (least : 1 ≤ ts.length) (most : ts.length ≤ 4) (tag : ∀ t ∈ ts[0]?, IsTag t)
    (value : ∀ t ∈ ts[1]?, t.Legible Text) (children : ∀ t ∈ ts[2]?, IsNodes t)
    (type : ∀ t ∈ ts[3]?, IsType Text t) : IsNode (.list ts)

/-- A list of nodes. -/
inductive IsNodes : Term → Prop
  | list {ts : List Term} (nodes : ∀ t ∈ ts, IsNode t) : IsNodes (.list ts)

end

/-- A module root: a record of the field `children`. -/
def IsRoot (t : Term) : Prop := IsRecord Text "children" (IsNodes Text) t

/-- A syntax tree: an object of module roots. -/
inductive IsTree : Term → Prop
  | object {ms : List (Option String × Term)} (keys : ∀ m ∈ ms, Text m.1)
    (roots : ∀ m ∈ ms, IsRoot Text m.2) : IsTree (.object ms)

end Shape

/-! ### Which terms mean something -/

theorem tag?_isSome_iff (t : Term) : t.tag?.isSome ↔ IsTag t := by
  constructor
  · intro h
    unfold Term.tag? at h
    split at h
    · split at h
      · rename_i hw
        exact .mk hw
      · cases h
    · cases h
  · rintro @⟨whole, h⟩
    simp [Term.tag?, h]

theorem text?_isSome_iff (t : Term) : t.text?.isSome ↔ t.Legible (·.isSome) := by
  rw [Term.text?, Option.isSome_map, t.value?_isSome_iff]

theorem isSome_bind_map {α β γ : Type} (x : Option α) (g : α → Option β) (f : β → γ) :
    (x.bind fun a => (g a).map f).isSome = (x.bind g).isSome := by
  cases x with
  | none => rfl
  | some a => exact Option.isSome_map

/-- A record of one field is read if the terms given for the field can be. -/
theorem slot?_isSome_iff {α : Type} {read : Term → Option α} {Value : Term → Prop} (name : String)
    (hread : ∀ u, (read u).isSome ↔ Value u) (t : Term) :
    ((t.slot? name).bind (field read)).isSome ↔ IsRecord (·.isSome) name Value t := by
  cases t with
  | object ms =>
    rw [Term.slot?]
    by_cases hk : KeysLegible ms
    · rw [if_pos hk, Option.bind_some, field_isSome_iff]
      simp only [hread]
      constructor
      · exact fun h => .object hk h.1 h.2
      · rintro ⟨-, once, value⟩
        exact ⟨once, value⟩
    · rw [if_neg hk]
      refine iff_of_false (by rintro ⟨⟩) ?_
      rintro ⟨keys, -, -⟩
      exact hk keys
  | list ts =>
    rw [Term.slot?, Option.bind_some, field_isSome_iff]
    simp only [hread]
    constructor
    · exact fun h => .list h.1 h.2
    · rintro (⟨-⟩ | ⟨once, value⟩)
      exact ⟨once, value⟩
  | _ => exact iff_of_false (by rintro ⟨⟩) (by rintro ⟨⟩)

theorem type?_isSome_iff (t : Term) : t.type?.isSome ↔ IsType (·.isSome) t := by
  by_cases hnull : t = .null
  · subst hnull
    exact ⟨fun _ => .null, fun _ => rfl⟩
  · have htype : t.type?.isSome = ((t.slot? "_type").bind (field Term.text?)).isSome := by
      rw [Term.type?, isSome_bind_map]
      exact hnull
    rw [htype, slot?_isSome_iff "_type" text?_isSome_iff]
    constructor
    · exact .record
    · rintro (⟨⟩ | ⟨h⟩)
      · exact absurd rfl hnull
      · exact h

theorem field_eq_some_some {α : Type} {read : Term → Option α} {ts : List Term} {a : α}
    (h : field read ts = some (some a)) : ts.length = 1 ∧ ∀ t ∈ ts, (read t).isSome := by
  rcases ts with _ | ⟨t, _ | ⟨u, ts⟩⟩
  · cases h
  · rw [field_single] at h
    obtain ⟨b, hb, -⟩ := Option.map_eq_some_iff.mp h
    refine ⟨rfl, ?_⟩
    rw [List.forall_mem_singleton, hb, Option.isSome_some]
  · rw [field_many] at h
    cases h

/-- A term means a node if each slot is filled as it should be. -/
theorem node?_isSome_iff_slots (t : Term) : t.node?.isSome ↔ ∃ s, t.nodeSlots? = some s ∧
    (s.tag.length = 1 ∧ ∀ u ∈ s.tag, IsTag u) ∧
    (s.value.length ≤ 1 ∧ ∀ u ∈ s.value, u.Legible (·.isSome)) ∧
    (s.children.length ≤ 1 ∧ ∀ u ∈ s.children, u.nodes?.isSome) ∧
    (s.type.length ≤ 1 ∧ ∀ u ∈ s.type, IsType (·.isSome) u) := by
  simp only [← tag?_isSome_iff, ← text?_isSome_iff, ← type?_isSome_iff, ← field_isSome_iff]
  rw [Option.isSome_iff_exists]
  constructor
  · rintro ⟨n, hn⟩
    obtain ⟨s, tag, value, children, type, hs, ht, hv, hc, hy, -⟩ := Term.node?_eq_some_iff.mp hn
    refine ⟨s, hs, field_eq_some_some ht, ?_, ?_, ?_⟩
    · rw [hv, Option.isSome_some]
    · rw [hc, Option.isSome_some]
    · rw [hy, Option.isSome_some]
  · rintro ⟨s, hs, ⟨hl, ht⟩, hv, hc, hy⟩
    obtain ⟨u, hu⟩ := List.length_eq_one_iff.mp hl
    obtain ⟨tag, ht⟩ := Option.isSome_iff_exists.mp (ht u (by rw [hu]; exact List.mem_singleton_self u))
    obtain ⟨value, hv⟩ := Option.isSome_iff_exists.mp hv
    obtain ⟨children, hc⟩ := Option.isSome_iff_exists.mp hc
    obtain ⟨type, hy⟩ := Option.isSome_iff_exists.mp hy
    have htag : field Term.tag? s.tag = some (some tag) := by rw [hu, field_single, ht, Option.map_some]
    exact ⟨_, Term.node?_eq_some_iff.mpr ⟨s, tag, value, children, type, hs, htag, hv, hc, hy, rfl⟩⟩

/-- A node, too, is known by its slots. -/
theorem isNode_iff_slots (t : Term) : IsNode (·.isSome) t ↔ ∃ s, t.nodeSlots? = some s ∧
    (s.tag.length = 1 ∧ ∀ u ∈ s.tag, IsTag u) ∧
    (s.value.length ≤ 1 ∧ ∀ u ∈ s.value, u.Legible (·.isSome)) ∧
    (s.children.length ≤ 1 ∧ ∀ u ∈ s.children, IsNodes (·.isSome) u) ∧
    (s.type.length ≤ 1 ∧ ∀ u ∈ s.type, IsType (·.isSome) u) := by
  constructor
  · intro h
    cases h with
    | object keys tagOnce tag valueOnce value childrenOnce children typeOnce type =>
      exact ⟨_, if_pos keys, ⟨tagOnce, tag⟩, ⟨valueOnce, value⟩, ⟨childrenOnce, children⟩, typeOnce, type⟩
    | @list ts least most tag value children type =>
      refine ⟨_, if_pos most, ⟨?_, ?_⟩, ⟨Option.length_toList_le, ?_⟩, ⟨Option.length_toList_le, ?_⟩,
        Option.length_toList_le, ?_⟩
      · show ts[0]?.toList.length = 1
        rw [Option.length_toList_eq_one_iff, isSome_getElem?]
        exact least
      all_goals intro u hu
      · exact tag u (Option.mem_toList.mp hu)
      · exact value u (Option.mem_toList.mp hu)
      · exact children u (Option.mem_toList.mp hu)
      · exact type u (Option.mem_toList.mp hu)
  · rintro ⟨s, hs, ⟨tagOnce, tag⟩, ⟨valueOnce, value⟩, ⟨childrenOnce, children⟩, typeOnce, type⟩
    cases t with
    | object ms =>
      obtain ⟨keys, hs⟩ := Option.ite_none_right_eq_some.mp hs
      cases hs
      exact .object keys tagOnce tag valueOnce value childrenOnce children typeOnce type
    | list ts =>
      obtain ⟨most, hs⟩ := Option.ite_none_right_eq_some.mp hs
      cases hs
      simp only [Term.NodeSlots.ofItems, Option.mem_toList] at tagOnce tag value children type
      rw [Option.length_toList_eq_one_iff, isSome_getElem?] at tagOnce
      exact .list tagOnce most tag value children type
    | _ => cases hs

/-! ### Nodes at every depth -/

theorem nodeList?_isSome_iff (ts : List Term) :
    (Term.nodeList? ts).isSome ↔ ∀ t ∈ ts, t.node?.isSome := by
  induction ts with
  | nil => exact ⟨fun _ _ h => (List.not_mem_nil h).elim, fun _ => rfl⟩
  | cons t ts ih =>
    rw [List.forall_mem_cons, ← ih, Term.nodeList?]
    cases t.node? with
    | none => simp
    | some n => simp

/-- The terms given for the children of a node are smaller than the node. -/
theorem sizeOf_lt_of_mem_children {t : Term} {s : Term.NodeSlots} (hs : t.nodeSlots? = some s)
    {u : Term} (hu : u ∈ s.children) : sizeOf u < sizeOf t := by
  cases t with
  | object ms =>
    obtain ⟨-, hs⟩ := Option.ite_none_right_eq_some.mp hs
    cases hs
    obtain ⟨m, hm, rfl⟩ := List.mem_map.mp hu
    have hlt := List.sizeOf_lt_of_mem (List.mem_filter.mp hm).1
    have hm : sizeOf m = 1 + sizeOf m.1 + sizeOf m.2 := by cases m; rfl
    rw [Term.object.sizeOf_spec]
    omega
  | list ts =>
    obtain ⟨-, hs⟩ := Option.ite_none_right_eq_some.mp hs
    cases hs
    have hlt := List.sizeOf_lt_of_mem (List.mem_of_getElem? (Option.mem_toList.mp hu))
    rw [Term.list.sizeOf_spec]
    omega
  | _ => cases hs

theorem node?_isSome_iff (t : Term) : t.node?.isSome ↔ IsNode (·.isSome) t := by
  -- the nodes of a list that is smaller than the node are shaped as nodes
  have hlist : ∀ u, sizeOf u < sizeOf t → (u.nodes?.isSome ↔ IsNodes (·.isSome) u) := by
    intro u hu
    cases u with
    | list ts =>
      rw [Term.nodes?, nodeList?_isSome_iff]
      have hts : ∀ v ∈ ts, (v.node?.isSome ↔ IsNode (·.isSome) v) := fun v hv =>
        have : sizeOf v < sizeOf t := by
          have := List.sizeOf_lt_of_mem hv
          rw [Term.list.sizeOf_spec] at hu
          omega
        node?_isSome_iff v
      constructor
      · exact fun h => .list fun v hv => (hts v hv).mp (h v hv)
      · rintro ⟨nodes⟩
        exact fun v hv => (hts v hv).mpr (nodes v hv)
    | _ => exact iff_of_false (by rintro ⟨⟩) (by rintro ⟨⟩)
  rw [node?_isSome_iff_slots, isNode_iff_slots]
  have hchildren : ∀ s, t.nodeSlots? = some s →
      ((∀ u ∈ s.children, u.nodes?.isSome) ↔ ∀ u ∈ s.children, IsNodes (·.isSome) u) :=
    fun s hs => forall₂_congr fun u hu => hlist u (sizeOf_lt_of_mem_children hs hu)
  constructor
  · rintro ⟨s, hs, ht, hv, ⟨hl, hc⟩, hy⟩
    exact ⟨s, hs, ht, hv, ⟨hl, (hchildren s hs).mp hc⟩, hy⟩
  · rintro ⟨s, hs, ht, hv, ⟨hl, hc⟩, hy⟩
    exact ⟨s, hs, ht, hv, ⟨hl, (hchildren s hs).mpr hc⟩, hy⟩
termination_by sizeOf t

theorem nodes?_isSome_iff (t : Term) : t.nodes?.isSome ↔ IsNodes (·.isSome) t := by
  cases t with
  | list ts =>
    rw [Term.nodes?, nodeList?_isSome_iff]
    simp only [node?_isSome_iff]
    constructor
    · exact .list
    · rintro ⟨nodes⟩
      exact nodes
  | _ => exact iff_of_false (by rintro ⟨⟩) (by rintro ⟨⟩)

theorem root?_isSome_iff (t : Term) : t.root?.isSome ↔ IsRoot (·.isSome) t := by
  rw [Term.root?, isSome_bind_map]
  exact slot?_isSome_iff "children" nodes?_isSome_iff t

theorem roots?_isSome_iff (ms : List (Option String × Term)) : (Term.roots? ms).isSome ↔
    (∀ m ∈ ms, m.1.isSome) ∧ ∀ m ∈ ms, IsRoot (·.isSome) m.2 := by
  induction ms with
  | nil => simp [Term.roots?]
  | cons m ms ih =>
    obtain ⟨k, t⟩ := m
    rw [List.forall_mem_cons, List.forall_mem_cons, ← root?_isSome_iff, Term.roots?]
    cases k with
    | none => simp
    | some k =>
      cases t.root? with
      | none => simp
      | some r => simpa using ih

theorem tree?_isSome_iff (t : Term) : t.tree?.isSome ↔ IsTree (·.isSome) t := by
  cases t with
  | object ms =>
    rw [Term.tree?, Option.isSome_map, roots?_isSome_iff]
    constructor
    · exact fun h => .object h.1 h.2
    · rintro ⟨keys, roots⟩
      exact ⟨keys, roots⟩
  | _ => exact iff_of_false (by rintro ⟨⟩) (by rintro ⟨⟩)

/-! ### Which texts are read -/

/-- A text is read as a tree if and only if its term has the shape of a tree and every
key and string that is read has a text. -/
theorem exists_ofText_eq_ok_iff {t : Term} {text : String} (h : t.HasText text) :
    (∃ tree, SyntaxTree.ofText text = .ok tree) ↔ IsTree (·.isSome) t := by
  rw [← tree?_isSome_iff, Option.isSome_iff_exists]
  exact exists_congr fun tree => ofText_eq_ok_iff h tree

/-- A tree of one module that is given by lists, but for the inner node. -/
def mixedForms : Json.Value :=
  .object [("m", .list [.list [.list [.number (.int 4), .null, .list [.object
    [("kind", .number (.int 5)), ("", .list [.null])]]]]])]

/-- The term of `mixedForms`. -/
def mixedTerm : Term :=
  .object [(some "m", .list [.list [.list [.number (.ofInt 4), .null, .list [.object
    [(some "kind", .number (.ofInt 5)), (some "", .list [.null])]]]]])]

theorem exists_ofText_eq_ok_mixed :
    mixedTerm.HasText mixedForms.compact ∧ ∃ tree, SyntaxTree.ofText mixedForms.compact = .ok tree := by
  have h : mixedTerm.HasText mixedForms.compact := Json.Value.hasText_compact rfl
  have hsome : mixedTerm.tree?.isSome := by
    have h4 : Numeral.ofInt 4 = ⟨false, [4], [], none⟩ := Json.ofInt_digit (by decide)
    have h5 : Numeral.ofInt 5 = ⟨false, [5], [], none⟩ := Json.ofInt_digit (by decide)
    rw [mixedTerm, h4, h5]
    rfl
  exact ⟨h, (exists_ofText_eq_ok_iff h).mpr ((tree?_isSome_iff mixedTerm).mp hsome)⟩

/-! ### A key without a text -/

theorem units_ne_surrogate (cs : List Char) : cs.flatMap Json.units ≠ [0xD800] := by
  intro h
  cases cs with
  | nil => cases h
  | cons c cs =>
    rw [List.flatMap_cons, Json.units] at h
    split at h
    · rw [List.singleton_append, List.cons.injEq] at h
      have hn : c.val.toNat = 0xD800 := h.1
      rcases c.valid with hc | ⟨hc, -⟩
      · exact absurd hn (by omega)
      · exact absurd hn (by omega)
    · simp at h

/-- A tree of one module with a field whose key is half a surrogate pair. -/
def unpairedKey : Term := .object [(some "m", .object [(none, .null)])]

theorem unpairedKey_hasText : unpairedKey.HasText "\x7b\"m\":\x7b\"\\ud800\":null\x7d\x7d" := by
  have spells : Json.PartsSpell [.unit 0xD800] ['\\', 'u', 'd', '8', '0', '0'] :=
    .cons (.hex (i := 13) (j := 8) (k := 0) (l := 0) (.inl rfl) (.inl rfl) (.inl rfl) (.inl rfl)) .nil
  have key : Json.StringSpells none ['"', '\\', 'u', 'd', '8', '0', '0', '"'] := by
    refine ⟨[.unit 0xD800], _, rfl, spells, fun s => ⟨nofun, fun h => ?_⟩⟩
    exact absurd h.symm (units_ne_surrogate s.toList)
  have root := Term.Spells.object
    (.last Json.blank_nil key Json.blank_nil Json.blank_nil .null Json.blank_nil)
  have tree := Term.Spells.object
    (.last Json.blank_nil (Json.quote_spells "m") Json.blank_nil Json.blank_nil root Json.blank_nil)
  exact ⟨[], _, [], Json.blank_nil, tree, Json.blank_nil, rfl⟩

/-- Shape is not enough: a key must have a text, even that of a field which is passed over. -/
theorem ofText_unpaired_key : ∃ t text, Term.HasText t text ∧ IsTree (fun _ => True) t ∧
    ¬ ∃ tree, SyntaxTree.ofText text = .ok tree := by
  refine ⟨unpairedKey, _, unpairedKey_hasText, ?_, ?_⟩
  · refine .object (fun _ _ => trivial) ?_
    rw [List.forall_mem_singleton]
    exact .object (fun _ _ => trivial) (by decide) (by simp [named])
  · rintro ⟨tree, h⟩
    cases (ofText_eq_ok_iff unpairedKey_hasText tree).mp h

end ApiReference
