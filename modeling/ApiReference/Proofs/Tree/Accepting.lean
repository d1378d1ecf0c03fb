/-
# What is read is well formed

A reader reads all of its source, or passes over what it does not want, so a source
that is read has no gap in it (`skipFault?_of_readNode` and its companions). Nothing
may stand behind the value of a text. Hence every text that is read says a term, and
the texts that are read are those of the terms that mean a tree
(`ofText_eq_ok_iff_exists`).

Key theorems: `skipFault?_of_value`, `skipFault?_of_readNode`,
`ofText_eq_ok_iff_exists`.
-/
import ApiReference.Proofs.Except
import ApiReference.Proofs.Json.Recognizing
import ApiReference.Proofs.Tree.Reading

namespace ApiReference

open Json (Term Source Items Members Value)
open Refusal

/-! ### Readings that succeed -/

theorem eq_ok_of_fromText {α : Type} {x : Except Json.Fault α} {a : α} (h : fromText x = .ok a) :
    x = .ok a := by
  cases x with
  | ok b =>
    cases h
    rfl
  | error f => cases h

theorem skipFault?_of_passOver {v : Source} {u : Unit} (h : passOver v = .ok u) : v.skipFault? = none := by
  unfold passOver at h
  cases hf : v.skipFault? with
  | none => rfl
  | some f =>
    rw [hf] at h
    cases h

theorem mismatch_ne_ok {α : Type} (expected : Expected) (v : Source) (a : α) :
    (mismatch expected v : Reading α) ≠ .ok a := by
  intro h
  have hnone : (mismatch expected v : Reading α).toOption = none := toOption_mismatch expected v
  rw [h] at hnone
  cases hnone

theorem skipFault?_item {start : Nat} {v : Source} {rest : Items} (hv : v.skipFault? = none)
    (hr : rest.skipFault? = none) : (Items.item start v rest).skipFault? = none := by
  unfold Items.skipFault?
  rw [hv, hr]
  rfl

theorem skipFault?_member {key : Except Json.Fault String} {settled : Nat} {v : Source} {rest : Members}
    (hv : v.skipFault? = none) (hr : rest.skipFault? = none) :
    (Members.member key settled v rest).skipFault? = none := by
  unfold Members.skipFault?
  rw [hv, hr]
  rfl

/-! ### Values -/

mutual

theorem skipFault?_of_value : ∀ {v : Source} {a : Value}, v.value = .ok a → v.skipFault? = none
  | .gap _, _, h => by cases h
  | .null _, _, _ | .bool _ _, _, _ | .number _ _, _, _ | .string _ _, _, _ => rfl
  | .list _ items, _, h => by
    obtain ⟨vs, hvs⟩ := exists_of_map_eq_ok h
    exact skipFault?_of_values hvs
  | .object _ members, _, h => by
    obtain ⟨es, hes⟩ := exists_of_map_eq_ok h
    exact skipFault?_of_entries hes

theorem skipFault?_of_values : ∀ {items : Items} {vs : List Value}, items.values = .ok vs →
    items.skipFault? = none
  | .closed _, _, _ => rfl
  | .cut _ _, _, h => by cases h
  | .item _ v rest, _, h => by
    unfold Items.values at h
    obtain ⟨a, ha, h⟩ := exists_of_bind_eq_ok h
    obtain ⟨as, has, -⟩ := exists_of_bind_eq_ok h
    exact skipFault?_item (skipFault?_of_value ha) (skipFault?_of_values has)

theorem skipFault?_of_entries : ∀ {members : Members} {es : List (String × Value)},
    members.entries = .ok es → members.skipFault? = none
  | .closed _, _, _ => rfl
  | .cut _, _, h => by cases h
  | .member _ _ v rest, _, h => by
    unfold Members.entries at h
    obtain ⟨k, -, h⟩ := exists_of_bind_eq_ok h
    obtain ⟨a, ha, h⟩ := exists_of_bind_eq_ok h
    obtain ⟨later, hlater, -⟩ := exists_of_bind_eq_ok h
    exact skipFault?_member (skipFault?_of_value ha) (skipFault?_of_entries hlater)

end

/-! ### Tags, texts and types -/

theorem skipFault?_of_readTag {v : Source} {tag : UInt32} (h : readTag v = .ok tag) :
    v.skipFault? = none := by
  unfold readTag at h
  split at h
  · rfl
  · exact absurd h (mismatch_ne_ok _ _ _)

theorem skipFault?_of_readText {v : Source} {text : Option String} (h : readText v = .ok text) :
    v.skipFault? = none := by
  obtain ⟨a, ha⟩ := exists_of_map_eq_ok (eq_ok_of_fromText h)
  exact skipFault?_of_value ha

theorem skipFault?_of_readTypeMembers : ∀ {members : Members} {name : Option (Option String)}
    {text : Option String}, readTypeMembers name members = .ok text → members.skipFault? = none
  | .closed _, _, _, _ => rfl
  | .cut _, _, _, h => by cases h
  | .member key settled v rest, name, text, h => by
    unfold readTypeMembers at h
    obtain ⟨k, -, h⟩ := exists_of_bind_eq_ok h
    split at h
    · split at h
      · cases h
      · obtain ⟨a, ha, h⟩ := exists_of_bind_eq_ok h
        exact skipFault?_member (skipFault?_of_readText ha) (skipFault?_of_readTypeMembers h)
    · obtain ⟨u, hu, h⟩ := exists_of_bind_eq_ok h
      exact skipFault?_member (skipFault?_of_passOver hu) (skipFault?_of_readTypeMembers h)

theorem skipFault?_of_readTypeItems {items : Items} {text : Option String}
    (h : readTypeItems items = .ok text) : items.skipFault? = none := by
  cases items with
  | closed stop => rfl
  | cut why beyond => cases h
  | item start v rest =>
    unfold readTypeItems at h
    obtain ⟨a, ha, h⟩ := exists_of_bind_eq_ok h
    cases rest with
    | closed stop => exact skipFault?_item (skipFault?_of_readText ha) rfl
    | cut why beyond => cases h
    | item start' v' rest' => cases h

theorem skipFault?_of_readType {v : Source} {text : Option String} (h : readType v = .ok text) :
    v.skipFault? = none := by
  unfold readType at h
  split at h
  · rfl
  · next start items =>
    obtain ⟨a, ha⟩ := exists_of_map_eq_ok h
    exact skipFault?_of_readTypeItems ha
  · next start members =>
    obtain ⟨a, ha⟩ := exists_of_map_eq_ok h
    exact skipFault?_of_readTypeMembers ha
  · exact absurd h (mismatch_ne_ok _ _ _)

/-! ### Nodes -/

/-- Every field of a node reads all of its source. -/
theorem skipFault?_of_readField {fields fields' : NodeFields} {field : Refusal.Field} {v : Source}
    {children : Unit → Reading (List Node)} (h : readField fields field v children = .ok fields')
    (hf : field ≠ .typeName) (hc : ∀ nodes, children () = .ok nodes → v.skipFault? = none) :
    v.skipFault? = none := by
  cases field with
  | typeName => exact absurd rfl hf
  | tag =>
    obtain ⟨a, ha, -⟩ := exists_of_bind_eq_ok h
    exact skipFault?_of_readTag ha
  | value =>
    obtain ⟨a, ha, -⟩ := exists_of_bind_eq_ok h
    exact skipFault?_of_readText ha
  | children =>
    obtain ⟨a, ha, -⟩ := exists_of_bind_eq_ok h
    exact hc a ha
  | type =>
    obtain ⟨a, ha, -⟩ := exists_of_bind_eq_ok h
    exact skipFault?_of_readType ha

mutual

theorem skipFault?_of_readNode : ∀ {v : Source} {n : Node}, readNode v = .ok n → v.skipFault? = none
  | .list _ items, _, h => by
    unfold readNode at h
    exact skipFault?_of_readNodeItems (by decide) h
  | .object _ members, _, h => by
    unfold readNode at h
    exact skipFault?_of_readNodeMembers h
  | .gap _, _, h | .null _, _, h | .bool _ _, _, h | .number _ _, _, h | .string _ _, _, h => by
    unfold readNode at h
    exact absurd h (mismatch_ne_ok _ _ _)

theorem skipFault?_of_readNodeMembers : ∀ {members : Members} {fields : NodeFields} {n : Node},
    readNodeMembers fields members = .ok n → members.skipFault? = none
  | .closed _, _, _, _ => rfl
  | .cut _, _, _, h => by cases h
  | .member key settled v rest, fields, n, h => by
    unfold readNodeMembers at h
    obtain ⟨k, -, h⟩ := exists_of_bind_eq_ok h
    cases hk : NodeFields.ofKey? k with
    | none =>
      rw [hk] at h
      obtain ⟨u, hu, h⟩ := exists_of_bind_eq_ok h
      exact skipFault?_member (skipFault?_of_passOver hu) (skipFault?_of_readNodeMembers h)
    | some field =>
      simp only [hk] at h
      split at h
      · cases h
      · obtain ⟨fields', hf, h⟩ := exists_of_bind_eq_ok h
        have hv := skipFault?_of_readField hf (Term.ofKey?_ne_typeName hk)
          fun _ hn => skipFault?_of_readNodes hn
        exact skipFault?_member hv (skipFault?_of_readNodeMembers h)

theorem skipFault?_of_readNodeItems : ∀ {items : Items} {fields : NodeFields}
    {order : List Refusal.Field} {n : Node}, (∀ field ∈ order, field ≠ .typeName) →
      readNodeItems fields order items = .ok n → items.skipFault? = none
  | .closed _, _, _, _, _, _ => rfl
  | .cut _ _, _, _, _, _, h => by cases h
  | .item _ _ _, _, [], _, _, h => by cases h
  | .item start v rest, fields, field :: order, n, ho, h => by
    unfold readNodeItems at h
    obtain ⟨fields', hf, h⟩ := exists_of_bind_eq_ok h
    have hv := skipFault?_of_readField hf (ho field (List.mem_cons_self ..))
      fun _ hn => skipFault?_of_readNodes hn
    have hrest := skipFault?_of_readNodeItems (fun f hf => ho f (List.mem_cons_of_mem _ hf)) h
    exact skipFault?_item hv hrest

theorem skipFault?_of_readNodes : ∀ {v : Source} {ns : List Node}, readNodes v = .ok ns →
    v.skipFault? = none
  | .list _ items, _, h => by
    unfold readNodes at h
    exact skipFault?_of_readNodeList h
  | .object _ _, _, h | .gap _, _, h | .null _, _, h | .bool _ _, _, h | .number _ _, _, h
  | .string _ _, _, h => by
    unfold readNodes at h
    exact absurd h (mismatch_ne_ok _ _ _)

theorem skipFault?_of_readNodeList : ∀ {items : Items} {ns : List Node}, readNodeList items = .ok ns →
    items.skipFault? = none
  | .closed _, _, _ => rfl
  | .cut _ _, _, h => by cases h
  | .item start v rest, _, h => by
    unfold readNodeList at h
    obtain ⟨n, hn, h⟩ := exists_of_bind_eq_ok h
    obtain ⟨ns, hns, -⟩ := exists_of_bind_eq_ok h
    exact skipFault?_item (skipFault?_of_readNode hn) (skipFault?_of_readNodeList hns)

end

/-! ### Roots and the whole text -/

theorem skipFault?_of_readRootMembers : ∀ {members : Members} {children : Option (List Node)} {r : Root},
    readRootMembers children members = .ok r → members.skipFault? = none
  | .closed _, _, _, _ => rfl
  | .cut _, _, _, h => by cases h
  | .member key settled v rest, children, r, h => by
    unfold readRootMembers at h
    obtain ⟨k, -, h⟩ := exists_of_bind_eq_ok h
    split at h
    · split at h
      · cases h
      · obtain ⟨ns, hns, h⟩ := exists_of_bind_eq_ok h
        exact skipFault?_member (skipFault?_of_readNodes hns) (skipFault?_of_readRootMembers h)
    · obtain ⟨u, hu, h⟩ := exists_of_bind_eq_ok h
      exact skipFault?_member (skipFault?_of_passOver hu) (skipFault?_of_readRootMembers h)

theorem skipFault?_of_readRootItems {items : Items} {r : Root} (h : readRootItems items = .ok r) :
    items.skipFault? = none := by
  cases items with
  | closed stop => rfl
  | cut why beyond => cases h
  | item start v rest =>
    unfold readRootItems at h
    obtain ⟨ns, hns, h⟩ := exists_of_bind_eq_ok h
    cases rest with
    | closed stop => exact skipFault?_item (skipFault?_of_readNodes hns) rfl
    | cut why beyond => cases h
    | item start' v' rest' => cases h

theorem skipFault?_of_readRoot {v : Source} {r : Root} (h : readRoot v = .ok r) : v.skipFault? = none := by
  unfold readRoot at h
  split at h
  · exact skipFault?_of_readRootItems h
  · exact skipFault?_of_readRootMembers h
  · exact absurd h (mismatch_ne_ok _ _ _)

theorem skipFault?_of_readModuleMembers : ∀ {members : Members} {roots : List (String × Root)},
    readModuleMembers members = .ok roots → members.skipFault? = none
  | .closed _, _, _ => rfl
  | .cut _, _, h => by cases h
  | .member key settled v rest, _, h => by
    unfold readModuleMembers at h
    obtain ⟨name, -, h⟩ := exists_of_bind_eq_ok h
    obtain ⟨r, hr, h⟩ := exists_of_bind_eq_ok h
    obtain ⟨rs, hrs, -⟩ := exists_of_bind_eq_ok h
    exact skipFault?_member (skipFault?_of_readRoot hr) (skipFault?_of_readModuleMembers hrs)

theorem skipFault?_of_readModules {v : Source} {roots : List (String × Root)}
    (h : readModules v = .ok roots) : v.skipFault? = none := by
  unfold readModules at h
  split at h
  · exact skipFault?_of_readModuleMembers h
  · exact absurd h (mismatch_ne_ok _ _ _)

/-- A document that is read has no fault. -/
theorem not_faulty_of_ofDocument {d : Json.Document} {tree : SyntaxTree}
    (h : SyntaxTree.ofDocument d = .ok tree) : ¬ d.Faulty := by
  unfold SyntaxTree.ofDocument at h
  obtain ⟨roots, hr, h⟩ := exists_of_bind_eq_ok h
  rintro (hf | hf)
  · rw [skipFault?_of_readModules hr] at hf
    cases hf
  · obtain ⟨f, hf⟩ := Option.isSome_iff_exists.mp hf
    rw [hf] at h
    cases h

/-- The texts that are read as a tree are those of the terms that mean it. -/
theorem ofText_eq_ok_iff_exists {text : String} {tree : SyntaxTree} :
    SyntaxTree.ofText text = .ok tree ↔ ∃ t : Term, t.HasText text ∧ t.tree? = some tree := by
  constructor
  · intro h
    have hdoc : SyntaxTree.ofDocument (.ofText text) = .ok tree := by
      unfold SyntaxTree.ofText at h
      split at h
      · next hd =>
        cases h
        exact hd
      · cases h
    obtain ⟨t, ht⟩ := (Json.exists_hasText_iff text).mpr (not_faulty_of_ofDocument hdoc)
    exact ⟨t, ht, (ofText_eq_ok_iff ht tree).mp h⟩
  · rintro ⟨t, ht, hm⟩
    exact (ofText_eq_ok_iff ht tree).mpr hm

end ApiReference
