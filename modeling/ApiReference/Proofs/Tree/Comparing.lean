/-
# Comparing syntax trees

`SyntaxTree.same` compares the sizes of two trees and looks every root of the first up in the
second. A tree that is built by inserting roots or read from a text has no name twice
(`Reached.nodup`), so a root that is found is one that is there, and the second tree, which is
not larger, has nothing else: trees are the same if and only if one has the modules of the
other in some order (`same_iff_perm`).

Of a list without repeats, the places in another order are known (`existsUnique_places`), and
a tree documents its modules place by place, so one rearrangement does for the modules and
for their documentation (`docs_places`). The order of children is not forgotten: two lists of
nodes with one list of children rearranged, at whatever depth, differ (`Node.Reordered.ne`).

Key definitions: `SyntaxTree.Reached`, `Node.Reordered`.
Key theorems: `existsUnique_places`, `Node.Reordered.ne`, `same_iff_perm`, `docs_places`,
`same_iff_rearranged`.
-/
import ApiReference.Proofs.Tree.Regrouping
import Mathlib.Data.List.NodupEquivFin
import Mathlib.Data.List.Perm.Subperm
import Mathlib.Logic.Equiv.Basic

namespace ApiReference

/-! ### The same items in other places -/

/-- A list without repeats and the same list in another order: where each item went. -/
theorem existsUnique_places {α : Type} {xs ys : List α} (hnodup : xs.Nodup) (h : ys.Perm xs) :
    ∃! σ : Fin ys.length ≃ Fin xs.length, ∀ i, ys[i] = xs[σ i] := by
  classical
  have hys : ys.Nodup := h.nodup_iff.mpr hnodup
  let σ : Fin ys.length ≃ Fin xs.length :=
    (hys.getEquiv ys).trans ((Equiv.subtypeEquivRight fun _ => h.mem_iff).trans (hnodup.getEquiv xs).symm)
  have hσ : ∀ i, ys[i] = xs[σ i] := by
    intro i
    have hitem : hnodup.getEquiv xs (σ i) = ⟨ys[i], h.mem_iff.mp (List.getElem_mem i.isLt)⟩ :=
      Equiv.apply_symm_apply _ _
    exact (congrArg Subtype.val hitem).symm
  refine ⟨σ, hσ, fun τ hτ => Equiv.ext fun i => Fin.ext ?_⟩
  have hitem : xs[τ i] = xs[σ i] := (hτ i).symm.trans (hσ i)
  exact (hnodup.getElem_inj_iff).mp hitem

/-! ### Children in another order -/

/-- The same nodes, but for one list of children that is in another order: the list itself, or
the one of a node somewhere below it. -/
inductive Node.Reordered : List Node → List Node → Prop where
  | here {cs cs' : List Node} (hperm : cs.Perm cs') (hne : cs ≠ cs') : Reordered cs cs'
  | deeper {cs cs' : List Node} (kind : Kind) (value type : Option String) (before after : List Node)
      (h : Reordered cs cs') :
      Reordered (before ++ ⟨kind, value, cs, type⟩ :: after) (before ++ ⟨kind, value, cs', type⟩ :: after)

theorem Node.Reordered.ne {cs cs' : List Node} (h : Reordered cs cs') : cs ≠ cs' := by
  induction h with
  | here hperm hne => exact hne
  | deeper kind value type before after h ih =>
    intro heq
    have htail := List.append_cancel_left heq
    have hnode := (List.cons.inj htail).1
    exact ih (Node.mk.inj hnode).2.2.1

namespace SyntaxTree

/-! ### Trees that can be had -/

/-- Trees that are built by inserting roots or read from a text. -/
inductive Reached : SyntaxTree → Prop where
  | empty : Reached empty
  | insert {t : SyntaxTree} (h : Reached t) (name : String) (root : Root) : Reached (t.insert name root)
  | read {t : SyntaxTree} (text : String) (h : ofText text = .ok t) : Reached t

theorem Reached.insertAll {t : SyntaxTree} (h : Reached t) (roots : List (String × Root)) :
    Reached (t.insertAll roots) := by
  induction roots generalizing t with
  | nil => exact h
  | cons m roots ih => exact ih (h.insert m.1 m.2)

/-- No name comes twice. -/
theorem Reached.nodup {t : SyntaxTree} (h : Reached t) : t.names.Nodup := by
  induction h with
  | empty => exact List.nodup_nil
  | insert h name root ih => exact nodup_insert ih name root
  | read text h => exact nodup_of_ofText h

/-! ### The same modules in another order -/

theorem nodup_modules {t : SyntaxTree} (h : t.names.Nodup) : t.modules.Nodup := List.Nodup.of_map _ h

theorem find?_eq_some_iff_mem {t : SyntaxTree} (h : t.names.Nodup) {name : String} {root : Root} :
    t.find? name = some root ↔ (name, root) ∈ t.modules := Keyed.lookup_eq_some_iff_mem h

/-- Of the second tree it is asked that it has every root of the first and no more roots. -/
theorem same_iff_subset {a b : SyntaxTree} (hb : b.names.Nodup) :
    a.same b = true ↔ a.size = b.size ∧ a.modules ⊆ b.modules := by
  rw [same, Bool.and_eq_true, beq_iff_eq, List.all_eq_true]
  simp only [decide_eq_true_iff, find?_eq_some_iff_mem hb]
  rfl

/-- Trees are the same if and only if they have the same modules in some order. -/
theorem same_iff_perm {a b : SyntaxTree} (ha : a.names.Nodup) (hb : b.names.Nodup) :
    a.same b = true ↔ b.modules.Perm a.modules := by
  rw [same_iff_subset hb]
  constructor
  · rintro ⟨hsize, hsubset⟩
    have hall : a.modules.Subperm b.modules := List.subperm_of_subset (nodup_modules ha) hsubset
    exact (hall.perm_of_length_le hsize.ge).symm
  · intro hperm
    exact ⟨hperm.length_eq.symm, hperm.symm.subset⟩

/-- Trees in which a name leads to different roots are not the same. -/
theorem same_eq_false_of_ne {a b : SyntaxTree} (ha : a.names.Nodup) (hb : b.names.Nodup) {name : String}
    {r r' : Root} (hr : a.find? name = some r) (hr' : b.find? name = some r') (hne : r ≠ r') :
    a.same b = false := by
  rw [Bool.eq_false_iff, ne_eq, same_iff_perm ha hb]
  intro hperm
  have hmem : (name, r) ∈ b.modules := hperm.mem_iff.mpr ((find?_eq_some_iff_mem ha).mp hr)
  have hsome : some r = some r' := ((find?_eq_some_iff_mem hb).mpr hmem).symm.trans hr'
  exact hne (Option.some.inj hsome)

/-! ### Their documentation -/

/-- What is documented in a place is the module in this place. -/
theorem getElem?_docs (t : SyntaxTree) (i : Nat) :
    t.docs[i]? = t.modules[i]?.map fun x => ModuleDoc.ofRoot x.1 x.2 := by
  rw [docs, List.getElem?_map]

/-- Documentation is rearranged as the modules are. -/
theorem docs_places {a b : SyntaxTree} {σ : Fin b.modules.length ≃ Fin a.modules.length}
    (h : ∀ i, b.modules[i] = a.modules[σ i]) (i : Fin b.modules.length) :
    b.docs[i.val]? = a.docs[(σ i).val]? := by
  have hplace : b.modules[i.val]? = a.modules[(σ i).val]? := by
    rw [List.getElem?_eq_getElem i.isLt, List.getElem?_eq_getElem (σ i).isLt]
    exact congrArg some (h i)
  rw [getElem?_docs, getElem?_docs, hplace]

/-- **Trees are the same if and only if one has the modules of the other in some order**, and
then there is one way only to rearrange the modules of the one as those of the other, which
rearranges what the one documents as what the other does. Whatever is the order of modules,
the order of children counts: with one list of children rearranged, at whatever depth below a
module, trees are not the same. -/
theorem same_iff_rearranged {a b : SyntaxTree} (ha : Reached a) (hb : Reached b) :
    (a.same b = true ↔ b.modules.Perm a.modules) ∧
    (∀ name r r', a.find? name = some r → b.find? name = some r' →
      Node.Reordered r.children r'.children → a.same b = false) ∧
    (a.same b = true → b.docs.Perm a.docs ∧ ∃! σ : Fin b.modules.length ≃ Fin a.modules.length,
      (∀ i, b.modules[i] = a.modules[σ i]) ∧ ∀ i, b.docs[i.val]? = a.docs[(σ i).val]?) := by
  have hiff : a.same b = true ↔ b.modules.Perm a.modules := same_iff_perm ha.nodup hb.nodup
  refine ⟨hiff, ?_, ?_⟩
  · intro name r r' hr hr' hreordered
    have hne : r ≠ r' := fun heq => hreordered.ne (congrArg Root.children heq)
    exact same_eq_false_of_ne ha.nodup hb.nodup hr hr' hne
  · intro hsame
    have hperm : b.modules.Perm a.modules := hiff.mp hsame
    obtain ⟨σ, hσ, hunique⟩ := existsUnique_places (nodup_modules ha.nodup) hperm
    exact ⟨hperm.map _, σ, ⟨hσ, docs_places hσ⟩, fun τ hτ => hunique τ hτ.1⟩

/-- Two functions in a module and a module without any. -/
def inserted : SyntaxTree :=
  ofList [("m", ⟨[⟨.function, some "f", [.ofKind .parameter, .ofKind .nativeMark], none⟩, .ofKind .function]⟩),
    ("n", ⟨[]⟩)]

/-- The same modules, the other one first. -/
def turned : String := "\x7b\"n\":[],\"m\":[[[4,\"f\",[[5],[9]]],[4]]]\x7d"

/-- Below the first function the mark comes first. -/
def markFirst : Root :=
  ⟨[⟨.function, some "f", [.ofKind .nativeMark, .ofKind .parameter], none⟩, .ofKind .function]⟩

theorem same_iff_rearranged_turned : ∃ t, ofText turned = .ok t ∧ inserted.same t = true ∧
    t.modules ≠ inserted.modules ∧ t.docs.Perm inserted.docs ∧
    (∃ σ : Fin t.modules.length ≃ Fin inserted.modules.length, ∀ i, t.docs[i.val]? = inserted.docs[(σ i).val]?) ∧
    inserted.same (inserted.insert "m" markFirst) = false := by
  let t : SyntaxTree := ⟨inserted.modules.reverse⟩
  have hread : ofText turned = .ok t := by decide +kernel
  have hinserted : Reached inserted := Reached.empty.insertAll _
  have hperm : t.modules.Perm inserted.modules := List.reverse_perm _
  obtain ⟨hiff, -, hdocs⟩ := same_iff_rearranged hinserted (.read turned hread)
  obtain ⟨-, hreordered, -⟩ := same_iff_rearranged hinserted (hinserted.insert "m" markFirst)
  obtain ⟨hdocsPerm, σ, ⟨-, hσ⟩, -⟩ := hdocs (hiff.mpr hperm)
  have hchildren : Node.Reordered [.ofKind .parameter, .ofKind .nativeMark] [.ofKind .nativeMark, .ofKind .parameter] :=
    .here (.swap _ _ _) (by decide)
  refine ⟨t, hread, hiff.mpr hperm, by decide, hdocsPerm, ⟨σ, hσ⟩, ?_⟩
  exact hreordered "m" _ _ rfl rfl (hchildren.deeper .function (some "f") none [] [.ofKind .function])

end SyntaxTree
end ApiReference
