/-
# The readers read what a term means

Reading a source that says a term gives what the term means, or fails where it
means nothing: the places in the source only tell where. One induction follows
the readers of nodes (`readNode_of_says` and its companions); a text that says a
term is then read to the tree of the term (`toOption_ofText`).

Key theorems: `readNode_of_says`, `readRoot_of_says`, `toOption_ofText`.
-/
import ApiReference.Proofs.Tree.Meaning

namespace ApiReference

open Json (Term Source Items Members)
open Json.Term (NodeSlots)
open Refusal

@[simp] theorem toOption_fail {α : Type} (cause : Cause) (offset : Nat) :
    (fail cause offset : Reading α).toOption = none := rfl

@[simp] theorem toOption_failText {α : Type} (f : Json.Fault) : (failText f : Reading α).toOption = none := rfl

@[simp] theorem toOption_fromText {α : Type} (x : Except Json.Fault α) :
    (fromText x : Reading α).toOption = x.toOption := by
  cases x <;> rfl

@[simp] theorem toOption_mismatch {α : Type} (expected : Expected) (v : Source) :
    (mismatch expected v : Reading α).toOption = none := by
  unfold mismatch
  split <;> rfl

/-! ### Tags, texts and types -/

theorem passOver_of_says {v : Source} {t : Term} (h : v.Says t) : passOver v = .ok () := by
  simp [passOver, Json.skipFault?_of_says h]

theorem readText_of_says {v : Source} {t : Term} (h : v.Says t) : (readText v).toOption = t.text? := by
  simp [readText, Term.text?, Json.value_of_says h]

/-- Of the integers, those of 32 bits without a sign are tags. -/
theorem tag?_number (x : Numeral) : (Term.number x).tag? =
    x.int?.bind fun n =>
      if 0 ≤ n ∧ n.toNat < UInt32.size then some (UInt32.ofNat n.toNat) else none := by
  obtain ⟨negative, whole, fraction, exponent⟩ := x
  cases fraction with
  | cons d ds => simp [Numeral.int?, Term.tag?]
  | nil =>
    cases exponent with
    | some e => simp [Numeral.int?, Term.tag?]
    | none =>
      cases negative with
      | true =>
        simp only [Numeral.int?, Term.tag?, ne_eq, not_true_eq_false, Option.isSome_none,
          Bool.false_eq_true, or_self, if_false, if_true]
        split
        · rw [Option.bind_some, if_neg (by omega)]
        · rfl
      | false =>
        simp only [Numeral.int?, Term.tag?, ne_eq, not_true_eq_false, Option.isSome_none,
          Bool.false_eq_true, or_self, if_false]
        by_cases hn : Numeral.ofDigits whole ≤ Numeral.maxSignificand
        · simp only [hn, if_true, Option.bind_some, Int.natCast_nonneg, Int.toNat_natCast, true_and]
        · have hs : ¬ Numeral.ofDigits whole < UInt32.size := by
            simp only [Numeral.maxSignificand, UInt32.size] at hn ⊢
            omega
          simp [hn, hs]

theorem readTag_of_says {v : Source} {t : Term} (h : v.Says t) : (readTag v).toOption = t.tag? := by
  cases h with
  | @number kept x stop hk =>
    rw [tag?_number]
    cases kept with
    | error f =>
      have hx : x.int? = none := by
        cases hi : x.int? with
        | none => rfl
        | some n => simp [Numeral.value?, hi] at hk
      simp [readTag, hx]
    | ok n =>
      cases hi : x.int? with
      | some m =>
        simp only [Numeral.value?, hi, Json.toOption_ok, Option.some.injEq] at hk
        subst hk
        simp only [readTag, Option.bind_some]
        split <;> rfl
      | none =>
        simp only [Numeral.value?, hi, Json.toOption_ok] at hk
        cases n with
        | int m => cases hf : x.float? <;> simp [hf] at hk
        | float y => simp [readTag]
  | null => simp [readTag, Term.tag?]
  | bool => simp [readTag, Term.tag?]
  | string _ => simp [readTag, Term.tag?]
  | list _ => simp [readTag, Term.tag?]
  | object _ => simp [readTag, Term.tag?]

theorem readTypeMembers_of_say : ∀ {members : Members} {ms : List (Option String × Term)},
    members.Say ms → ∀ name : Option (Option String), (readTypeMembers name members).toOption =
      (memberFrom "_type" Term.text? name ms).map fun x => x.getD none
  | _, _, .closed, name => by cases name <;> rfl
  | _, _, @Members.Say.member key k v _ rest ms _ hk h hs, name => by
    rw [memberFrom_cons, ← hk]
    simp only [readTypeMembers, toOption_fromText, Json.toOption_bind]
    cases key.toOption with
    | none => rfl
    | some k =>
      simp only [Option.bind_some, Field.key]
      by_cases hn : k = "_type"
      · by_cases hf : name.isSome
        · simp [hn, hf]
        · simp only [if_pos hn, if_neg hf, Json.toOption_bind, readText_of_says h,
            readTypeMembers_of_say hs, Option.map_bind]
          rfl
      · simp only [if_neg hn, Json.toOption_bind, passOver_of_says h, Json.toOption_ok, Option.bind_some]
        exact readTypeMembers_of_say hs name

theorem readTypeItems_of_say {items : Items} {ts : List Term} (h : items.Say ts) :
    (readTypeItems items).toOption = (field Term.text? ts).map fun x => x.getD none := by
  cases h with
  | closed => rfl
  | @item v t _ _ _ h hs =>
    cases hs with
    | closed =>
      simp only [readTypeItems, field_single, Json.toOption_bind, readText_of_says h]
      cases t.text? <;> rfl
    | item _ _ =>
      simp only [readTypeItems, field_many, Json.toOption_bind, readText_of_says h]
      cases t.text? <;> rfl

theorem readType_of_says {v : Source} {t : Term} (h : v.Says t) : (readType v).toOption = t.type? := by
  cases h with
  | null => rfl
  | list h => simp [readType, Term.type?, Term.slot?, readTypeItems_of_say h, Function.comp_def]
  | object h =>
    simp only [readType, Json.toOption_fmap, readTypeMembers_of_say h, Term.type?, Term.slot?, memberFrom]
    split <;> simp [field, Function.comp_def]
  | number _ => simp [readType, Term.type?, Term.slot?]
  | bool => simp [readType, Term.type?, Term.slot?]
  | string _ => simp [readType, Term.type?, Term.slot?]

/-! ### Nodes -/

theorem readField_of_says {v : Source} {t : Term} (h : v.Says t) (fields : NodeFields)
    (field : Refusal.Field) (children : Unit → Reading (List Node)) :
    (readField fields field v children).toOption =
      Term.putField fields field t (children ()).toOption := by
  cases field with
  | typeName => rfl
  | tag =>
    simp only [readField, Term.putField, Json.toOption_bind, readTag_of_says h, Option.map_eq_bind]
    rfl
  | value =>
    simp only [readField, Term.putField, Json.toOption_bind, readText_of_says h, Option.map_eq_bind]
    rfl
  | children =>
    simp only [readField, Term.putField, Json.toOption_bind, Option.map_eq_bind]
    rfl
  | type =>
    simp only [readField, Term.putField, Json.toOption_bind, readType_of_says h, Option.map_eq_bind]
    rfl

mutual

theorem readNode_of_says : ∀ {v : Source} {t : Term}, v.Says t → (readNode v).toOption = t.node?
  | _, _, .list h => by rw [readNode, readNodeItems_of_say h, Term.node?]
  | _, _, .object h => by rw [readNode, readNodeMembers_of_say h, Term.node?]
  | _, _, .null => by simp [readNode, Term.node?]
  | _, _, .bool => by simp [readNode, Term.node?]
  | _, _, .number _ => by simp [readNode, Term.node?]
  | _, _, .string _ => by simp [readNode, Term.node?]

theorem readNodeMembers_of_say : ∀ {members : Members} {ms : List (Option String × Term)},
    members.Say ms → ∀ fields : NodeFields,
      (readNodeMembers fields members).toOption = (Term.gather fields ms).bind NodeFields.node?
  | _, _, .closed, fields => by
    simp only [readNodeMembers, Term.gather, Option.bind_some]
    cases fields.node? <;> rfl
  | _, _, @Members.Say.member key _ _ _ _ _ _ hk h hs, fields => by
    simp only [readNodeMembers, Term.gather, ← hk, Json.toOption_bind, toOption_fromText, Option.bind_assoc]
    cases key.toOption with
    | none => rfl
    | some k =>
      simp only [Option.bind_some]
      cases NodeFields.ofKey? k with
      | none =>
        simp only [Json.toOption_bind, passOver_of_says h, Json.toOption_ok, Option.bind_some]
        exact readNodeMembers_of_say hs fields
      | some field =>
        by_cases hf : fields.has field
        · simp [hf]
        · simp only [if_neg hf, Json.toOption_bind, readField_of_says h, readNodes_of_says h,
            readNodeMembers_of_say hs, Option.bind_assoc]

theorem readNodeItems_of_say : ∀ {items : Items} {ts : List Term}, items.Say ts →
    ∀ (fields : NodeFields) (order : List Refusal.Field), (readNodeItems fields order items).toOption =
      (Term.gatherItems fields order ts).bind NodeFields.node?
  | _, _, .closed, fields, order => by
    simp only [readNodeItems, Term.gatherItems, Option.bind_some]
    cases fields.node? <;> rfl
  | _, _, .item h hs, fields, [] => by simp [readNodeItems, Term.gatherItems, failSurplus]
  | _, _, .item h hs, fields, field :: order => by
    simp only [readNodeItems, Term.gatherItems, Json.toOption_bind, readField_of_says h,
      readNodes_of_says h, readNodeItems_of_say hs, Option.bind_assoc]

theorem readNodes_of_says : ∀ {v : Source} {t : Term}, v.Says t → (readNodes v).toOption = t.nodes?
  | _, _, .list h => by rw [readNodes, readNodeList_of_say h, Term.nodes?]
  | _, _, .object _ => by simp [readNodes, Term.nodes?]
  | _, _, .null => by simp [readNodes, Term.nodes?]
  | _, _, .bool => by simp [readNodes, Term.nodes?]
  | _, _, .number _ => by simp [readNodes, Term.nodes?]
  | _, _, .string _ => by simp [readNodes, Term.nodes?]

theorem readNodeList_of_say : ∀ {items : Items} {ts : List Term}, items.Say ts →
    (readNodeList items).toOption = Term.nodeList? ts
  | _, _, .closed => rfl
  | _, _, .item h hs => by
    simp only [readNodeList, Term.nodeList?, Json.toOption_bind, readNode_of_says h,
      readNodeList_of_say hs, Option.map_eq_bind]
    rfl

end

/-! ### Roots and the whole text -/

theorem readRootMembers_of_say : ∀ {members : Members} {ms : List (Option String × Term)},
    members.Say ms → ∀ children : Option (List Node), (readRootMembers children members).toOption =
      (memberFrom "children" Term.nodes? children ms).map fun x => ⟨x.getD []⟩
  | _, _, .closed, children => by cases children <;> rfl
  | _, _, @Members.Say.member key _ _ _ _ _ _ hk h hs, children => by
    rw [memberFrom_cons, ← hk]
    simp only [readRootMembers, toOption_fromText, Json.toOption_bind]
    cases key.toOption with
    | none => rfl
    | some k =>
      simp only [Option.bind_some, Field.key]
      by_cases hn : k = "children"
      · by_cases hf : children.isSome
        · simp [hn, hf]
        · simp only [if_pos hn, if_neg hf, Json.toOption_bind, readNodes_of_says h,
            readRootMembers_of_say hs, Option.map_bind]
          rfl
      · simp only [if_neg hn, Json.toOption_bind, passOver_of_says h, Json.toOption_ok, Option.bind_some]
        exact readRootMembers_of_say hs children

theorem readRootItems_of_say {items : Items} {ts : List Term} (h : items.Say ts) :
    (readRootItems items).toOption = (field Term.nodes? ts).map fun x => ⟨x.getD []⟩ := by
  cases h with
  | closed => rfl
  | @item v t _ _ _ h hs =>
    cases hs with
    | closed =>
      simp only [readRootItems, field_single, Json.toOption_bind, readNodes_of_says h]
      cases t.nodes? <;> rfl
    | item _ _ =>
      simp only [readRootItems, field_many, Json.toOption_bind, readNodes_of_says h]
      cases t.nodes? <;> rfl

theorem readRoot_of_says {v : Source} {t : Term} (h : v.Says t) : (readRoot v).toOption = t.root? := by
  cases h with
  | list h => simp [readRoot, Term.root?, Term.slot?, readRootItems_of_say h]
  | object h =>
    simp only [readRoot, readRootMembers_of_say h, Term.root?, Term.slot?, memberFrom]
    split <;> rfl
  | null => simp [readRoot, Term.root?, Term.slot?]
  | bool => simp [readRoot, Term.root?, Term.slot?]
  | number _ => simp [readRoot, Term.root?, Term.slot?]
  | string _ => simp [readRoot, Term.root?, Term.slot?]

theorem readModuleMembers_of_say {members : Members} {ms : List (Option String × Term)}
    (h : members.Say ms) : (readModuleMembers members).toOption = Term.roots? ms := by
  induction ms generalizing members with
  | nil =>
    cases h
    rfl
  | cons m ms ih =>
    cases h with
    | member hk h hs =>
      simp only [readModuleMembers, Term.roots?, ← hk, toOption_fromText, Json.toOption_bind,
        readRoot_of_says h, ih hs, Option.map_eq_bind]
      rfl

theorem readModules_of_says {v : Source} {t : Term} (h : v.Says t) :
    (readModules v).toOption.map .ofList = t.tree? := by
  cases h with
  | object h => rw [readModules, readModuleMembers_of_say h, Term.tree?]
  | null => simp [readModules, Term.tree?]
  | bool => simp [readModules, Term.tree?]
  | number _ => simp [readModules, Term.tree?]
  | string _ => simp [readModules, Term.tree?]
  | list _ => simp [readModules, Term.tree?]

/-- A text that says a term is read to the tree that the term means. -/
theorem toOption_ofText {t : Term} {text : String} (h : t.HasText text) :
    (SyntaxTree.ofText text).toOption = t.tree? := by
  obtain ⟨v, hv, hd⟩ := Json.ofText_of_hasText h
  have hdoc : (SyntaxTree.ofDocument (.ofText text)).toOption = t.tree? := by
    rw [← readModules_of_says hv, hd]
    simp only [SyntaxTree.ofDocument, Json.toOption_bind, Option.map_eq_bind]
    rfl
  rw [← hdoc, SyntaxTree.ofText]
  cases SyntaxTree.ofDocument (.ofText text) <;> rfl

/-- A text that says a term is read if and only if the term means a tree. -/
theorem ofText_eq_ok_iff {t : Term} {text : String} (h : t.HasText text) (tree : SyntaxTree) :
    SyntaxTree.ofText text = .ok tree ↔ t.tree? = some tree := by
  rw [← toOption_ofText h]
  cases SyntaxTree.ofText text <;> simp

end ApiReference
