/-
# Lists without items that repeat the one before

`List.destutter (· ≠ ·)` leaves out each item that is the same as the one before it. What is left
of a list put together from parts depends on what is left of the parts only
(`destutter_append`), and of a list in order on its items only (`destutter_eq_of_mem_iff`). An
item comes twice in what is left if and only if something else stood between
(`nodup_destutter_iff`).

Key definitions: `Stutter.Together`.
Key theorems: `destutter_append`, `destutter_flatMap`, `destutter_eq_of_mem_iff`,
`nodup_destutter_iff`.
-/
import Mathlib.Data.List.Destutter
import Mathlib.Data.List.Sort

namespace ApiReference
namespace Stutter

section Items
variable {α : Type} [DecidableEq α] {x : α} {xs : List α}

theorem destutter_cons_of_head? (h : xs.head? = some x) :
    (x :: xs).destutter (· ≠ ·) = xs.destutter (· ≠ ·) := by
  cases xs with
  | nil => cases h
  | cons y xs =>
    obtain rfl : y = x := Option.some.inj h
    rw [List.destutter_cons_cons, if_neg (not_not_intro rfl), List.destutter_cons']

theorem destutter_cons_of_ne (h : xs.head? ≠ some x) :
    (x :: xs).destutter (· ≠ ·) = x :: xs.destutter (· ≠ ·) := by
  cases xs with
  | nil => rfl
  | cons y xs =>
    have hne : x ≠ y := fun he => h (congrArg some he.symm)
    rw [List.destutter_cons_cons, if_pos hne, List.destutter_cons']

theorem head?_destutter (xs : List α) : (xs.destutter (· ≠ ·)).head? = xs.head? := by
  induction xs with
  | nil => rfl
  | cons x xs ih =>
    by_cases h : xs.head? = some x
    · rw [destutter_cons_of_head? h, ih, h, List.head?_cons]
    · rw [destutter_cons_of_ne h, List.head?_cons, List.head?_cons]

/-- Every item is left once at least. -/
theorem mem_destutter : x ∈ xs.destutter (· ≠ ·) ↔ x ∈ xs := by
  induction xs with
  | nil => exact Iff.rfl
  | cons y xs ih =>
    by_cases h : xs.head? = some y
    · have hy : y ∈ xs := List.mem_of_mem_head? h
      rw [destutter_cons_of_head? h, ih, List.mem_cons]
      exact ⟨.inr, fun hx => hx.elim (fun he => he ▸ hy) id⟩
    · rw [destutter_cons_of_ne h, List.mem_cons, List.mem_cons, ih]

/-! ### Lists put together -/

theorem destutter_append_right (xs : List α) {ys ys' : List α}
    (h : ys.destutter (· ≠ ·) = ys'.destutter (· ≠ ·)) :
    (xs ++ ys).destutter (· ≠ ·) = (xs ++ ys').destutter (· ≠ ·) := by
  induction xs with
  | nil => exact h
  | cons x xs ih =>
    have hhead : (xs ++ ys).head? = (xs ++ ys').head? := by rw [← head?_destutter, ih, head?_destutter]
    rw [List.cons_append, List.cons_append]
    by_cases hx : (xs ++ ys').head? = some x
    · rw [destutter_cons_of_head? hx, destutter_cons_of_head? (hhead.trans hx), ih]
    · rw [destutter_cons_of_ne hx, destutter_cons_of_ne (hhead ▸ hx), ih]

theorem destutter_append_left (xs ys : List α) :
    (xs.destutter (· ≠ ·) ++ ys).destutter (· ≠ ·) = (xs ++ ys).destutter (· ≠ ·) := by
  induction xs with
  | nil => rfl
  | cons x xs ih =>
    have hhead : (xs.destutter (· ≠ ·) ++ ys).head? = (xs ++ ys).head? := by
      rw [List.head?_append, head?_destutter, ← List.head?_append]
    by_cases h : xs.head? = some x
    · have hx : (xs ++ ys).head? = some x := by rw [List.head?_append, h, Option.some_or]
      rw [destutter_cons_of_head? h, ih, List.cons_append, destutter_cons_of_head? hx]
    · rw [destutter_cons_of_ne h, List.cons_append, List.cons_append]
      by_cases hx : (xs ++ ys).head? = some x
      · rw [destutter_cons_of_head? hx, destutter_cons_of_head? (hhead.trans hx), ih]
      · rw [destutter_cons_of_ne hx, destutter_cons_of_ne (hhead ▸ hx), ih]

/-- What is left of two lists decides what is left of them together. -/
theorem destutter_append {xs xs' ys ys' : List α} (hx : xs.destutter (· ≠ ·) = xs'.destutter (· ≠ ·))
    (hy : ys.destutter (· ≠ ·) = ys'.destutter (· ≠ ·)) :
    (xs ++ ys).destutter (· ≠ ·) = (xs' ++ ys').destutter (· ≠ ·) :=
  calc (xs ++ ys).destutter (· ≠ ·)
      = (xs ++ ys').destutter (· ≠ ·) := destutter_append_right xs hy
    _ = (xs' ++ ys').destutter (· ≠ ·) := by rw [← destutter_append_left, hx, destutter_append_left]

theorem destutter_flatMap {β : Type} {f g : β → List α} {parts : List β}
    (h : ∀ part ∈ parts, (f part).destutter (· ≠ ·) = (g part).destutter (· ≠ ·)) :
    (parts.flatMap f).destutter (· ≠ ·) = (parts.flatMap g).destutter (· ≠ ·) := by
  induction parts with
  | nil => rfl
  | cons part parts ih =>
    obtain ⟨hpart, hparts⟩ := List.forall_mem_cons.mp h
    rw [List.flatMap_cons, List.flatMap_cons]
    exact destutter_append hpart (ih hparts)

/-! ### Items that come twice -/

/-- What stands between two items that are equal is equal to them. -/
def Together (xs : List α) : Prop := ∀ x y, [x, y, x].Sublist xs → y = x

omit [DecidableEq α] in
theorem together_cons_of_head? (h : xs.head? = some x) : Together (x :: xs) ↔ Together xs := by
  obtain ⟨rest, rfl⟩ := List.head?_eq_some_iff.mp h
  constructor
  · exact fun ht a b hab => ht a b (hab.cons x)
  · intro ht a b hab
    cases hab with
    | cons _ hrest => exact ht a b hrest
    | cons_cons _ hrest =>
      cases hrest with
      | cons _ hrest => exact ht x b (hrest.cons_cons x)
      | cons_cons _ _ => rfl

omit [DecidableEq α] in
theorem together_cons_of_ne (h : xs.head? ≠ some x) : Together (x :: xs) ↔ x ∉ xs ∧ Together xs := by
  constructor
  · refine fun ht => ⟨fun hx => ?_, fun a b hab => ht a b (hab.cons x)⟩
    cases xs with
    | nil => cases hx
    | cons y rest =>
      have hne : y ≠ x := fun he => h (congrArg some he)
      have hlater : x ∈ rest := (List.mem_cons.mp hx).resolve_left (Ne.symm hne)
      exact hne (ht x y (((List.singleton_sublist.mpr hlater).cons_cons y).cons_cons x))
  · rintro ⟨hx, ht⟩ a b hab
    cases hab with
    | cons _ hrest => exact ht a b hrest
    | cons_cons _ hrest => exact absurd (hrest.subset (List.mem_cons_of_mem _ List.mem_cons_self)) hx

/-- No item is left twice exactly if equal items stand together. -/
theorem nodup_destutter_iff (xs : List α) : (xs.destutter (· ≠ ·)).Nodup ↔ Together xs := by
  induction xs with
  | nil => exact iff_of_true List.nodup_nil fun _ _ h => nomatch h
  | cons x xs ih =>
    by_cases h : xs.head? = some x
    · rw [destutter_cons_of_head? h, ih, together_cons_of_head? h]
    · rw [destutter_cons_of_ne h, List.nodup_cons, mem_destutter, ih, together_cons_of_ne h]

end Items

/-- Lists in order with the same items differ in how often they repeat them only. -/
theorem destutter_eq_of_mem_iff {α : Type} [LinearOrder α] [DecidableEq α] {xs ys : List α}
    (hx : xs.Pairwise (· ≤ ·)) (hy : ys.Pairwise (· ≤ ·)) (h : ∀ a, a ∈ xs ↔ a ∈ ys) :
    xs.destutter (· ≠ ·) = ys.destutter (· ≠ ·) := by
  have hperm : xs.dedup.Perm ys.dedup := by
    rw [List.perm_ext_iff_of_nodup xs.nodup_dedup ys.nodup_dedup]
    intro a
    rw [List.mem_dedup, List.mem_dedup, h]
  rw [hx.destutter_eq_dedup, hy.destutter_eq_dedup]
  exact hperm.eq_of_pairwise' (hx.sublist xs.dedup_sublist) (hy.sublist ys.dedup_sublist)

end Stutter
end ApiReference
