/-
# The order of paths

Paths come in the order of their components: the root first, then `.`, then `..`, then names by
their characters, so that `sub/x` is before `sub-b/x`. What a path is compared by is its key
(`Path.orderKey`), and keys are in a linear order; two paths have the same key if and only if
they are the same (`same_iff_orderKey`), and one is before another if and only if its key is
(`before_iff`).

Key definitions: `Path.Component.key`, `Path.orderKey`.
Key theorems: `before_iff`, `same_iff_orderKey`, `pairwise_mergeSort_before`.
-/
import ApiReference.Proofs.File.Spelling
import Mathlib.Data.List.Sort
import Mathlib.Data.Prod.Lex
import Mathlib.Data.String.Basic

namespace ApiReference
namespace Path

namespace Component

/-- What the order of components goes by: the kind, and for names the text. -/
def key (c : Component) : ℕ ×ₗ String :=
  match c with
  | name text => toLex (c.rank, text)
  | _ => toLex (c.rank, "")

theorem key_injective : Function.Injective key := by
  intro a b h
  cases a <;> cases b <;> simp_all [key, rank]

theorem before_iff (a b : Component) : a.before b = true ↔ a.key < b.key := by
  cases a <;> cases b <;> simp [before, key, rank, Prod.Lex.toLex_lt_toLex]

end Component

/-- What the order of paths goes by. -/
def orderKey (p : Path) : List (ℕ ×ₗ String) := p.components.map Component.key

theorem componentsBefore_iff (as bs : List Component) :
    componentsBefore as bs = true ↔ as.map Component.key < bs.map Component.key := by
  induction as generalizing bs with
  | nil => cases bs <;> simp [componentsBefore]
  | cons a as ih =>
    cases bs with
    | nil => simp [componentsBefore]
    | cons b bs =>
      rw [componentsBefore, List.map_cons, List.map_cons, List.cons_lt_cons_iff]
      by_cases hab : a = b
      · simp [hab, ih]
      · simp [hab, Component.before_iff, Component.key_injective.ne hab]

theorem before_iff (p q : Path) : p.before q = true ↔ p.orderKey < q.orderKey :=
  componentsBefore_iff p.components q.components

theorem before_eq_false_iff (p q : Path) : p.before q = false ↔ q.orderKey ≤ p.orderKey := by
  rw [← Bool.not_eq_true, before_iff, not_lt]

theorem same_iff_orderKey (p q : Path) : p.same q = true ↔ p.orderKey = q.orderKey :=
  same_iff.trans (List.map_injective_iff.mpr Component.key_injective).eq_iff.symm

/-- Sorting puts no path behind one that comes after it. -/
theorem pairwise_mergeSort_before (paths : List Path) :
    (paths.mergeSort fun p q => !q.before p).Pairwise fun p q => q.before p = false := by
  have htrans : ∀ p q r : Path, (!q.before p) = true → (!r.before q) = true → (!r.before p) = true := by
    intro p q r hpq hqr
    rw [Bool.not_eq_true', before_eq_false_iff] at hpq hqr ⊢
    exact hpq.trans hqr
  have htotal : ∀ p q : Path, ((!q.before p) || (!p.before q)) = true := by
    intro p q
    rw [Bool.or_eq_true, Bool.not_eq_true', Bool.not_eq_true', before_eq_false_iff, before_eq_false_iff]
    exact le_total _ _
  refine (List.pairwise_mergeSort htrans htotal paths).imp fun h => ?_
  rwa [Bool.not_eq_true'] at h

end Path
end ApiReference
