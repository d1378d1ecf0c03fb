/-
# Lists of pairs that are searched by key

Module roots are held by name and files by place, each in a list of pairs. Such a list is
searched from its front; a value is put in the place of the one with its key, or at the end.

Key definitions: `Keyed.put`.
Key theorems: `lookup_eq_some_iff_mem`, `lookup_put`, `keys_put`, `lookup_reverse`, `eq_of_lookup`,
`put_of_mem`.
-/
import Mathlib.Data.List.Nodup

namespace ApiReference
namespace Keyed

variable {κ α : Type}

/-- The keys, in order. -/
def keys (xs : List (κ × α)) : List κ := xs.map (·.1)

/-! ### Searching -/

section Searching
variable [BEq κ] [LawfulBEq κ]

theorem lookup_cons_of_ne {k key : κ} (h : key ≠ k) (v : α) (xs : List (κ × α)) :
    ((k, v) :: xs).lookup key = xs.lookup key := by
  have hbeq : (key == k) = false := beq_eq_false_iff_ne.mpr h
  rw [List.lookup_cons, hbeq]

theorem lookup_isSome_iff (xs : List (κ × α)) (key : κ) : (xs.lookup key).isSome ↔ key ∈ keys xs := by
  induction xs with
  | nil => simp [keys]
  | cons x xs ih =>
    obtain ⟨k, v⟩ := x
    by_cases hk : key = k
    · rw [hk, List.lookup_cons_self]
      simp [keys]
    · rw [lookup_cons_of_ne hk, ih]
      simp [keys, hk]

theorem mem_of_lookup {xs : List (κ × α)} {key : κ} {value : α} (h : xs.lookup key = some value) :
    (key, value) ∈ xs := by
  obtain ⟨before, after, rfl, -⟩ := List.lookup_eq_some_iff.mp h
  exact List.mem_append_right _ List.mem_cons_self

/-- With no key twice, every pair that is there is found. -/
theorem lookup_eq_some_iff_mem {xs : List (κ × α)} (h : (keys xs).Nodup) {key : κ} {value : α} :
    xs.lookup key = some value ↔ (key, value) ∈ xs := by
  refine ⟨mem_of_lookup, fun hmem => ?_⟩
  have hsome : (xs.lookup key).isSome := (lookup_isSome_iff xs key).mpr (List.mem_map_of_mem hmem)
  obtain ⟨found, hfound⟩ := Option.isSome_iff_exists.mp hsome
  have hpair : (key, found) = (key, value) := List.inj_on_of_nodup_map h (mem_of_lookup hfound) hmem rfl
  rw [hfound, (Prod.mk.inj hpair).2]

/-- With no key twice, it is all the same from which end the list is searched. -/
theorem lookup_reverse {xs : List (κ × α)} (h : (keys xs).Nodup) (key : κ) :
    xs.reverse.lookup key = xs.lookup key := by
  induction xs with
  | nil => rfl
  | cons x xs ih =>
    obtain ⟨k, v⟩ := x
    have hnodup : k ∉ keys xs ∧ (keys xs).Nodup := List.nodup_cons.mp h
    rw [List.reverse_cons, List.lookup_append, ih hnodup.2]
    by_cases hk : key = k
    · have hnone : xs.lookup k = none := by
        rw [← Option.not_isSome_iff_eq_none, lookup_isSome_iff]
        exact hnodup.1
      rw [hk, hnone, List.lookup_cons_self, List.lookup_cons_self, Option.none_or]
    · rw [lookup_cons_of_ne hk, lookup_cons_of_ne hk, List.lookup_nil, Option.or_none]

/-- With no key twice, a list is known by its keys in order and by what is found. -/
theorem eq_of_lookup {xs ys : List (κ × α)} (hkeys : keys xs = keys ys) (hnodup : (keys xs).Nodup)
    (hlookup : ∀ key, xs.lookup key = ys.lookup key) : xs = ys := by
  induction xs generalizing ys with
  | nil => exact (List.map_eq_nil_iff.mp hkeys.symm).symm
  | cons x xs ih =>
    obtain ⟨k, v⟩ := x
    cases ys with
    | nil => cases hkeys
    | cons y ys =>
      obtain ⟨k', v'⟩ := y
      obtain ⟨rfl, htail⟩ : k = k' ∧ keys xs = keys ys := List.cons.inj hkeys
      obtain ⟨hfresh, hrest⟩ : k ∉ keys xs ∧ (keys xs).Nodup := List.nodup_cons.mp hnodup
      have hvalue : some v = some v' := by
        have hk := hlookup k
        rwa [List.lookup_cons_self, List.lookup_cons_self] at hk
      have hothers : ∀ key, xs.lookup key = ys.lookup key := by
        intro key
        by_cases hk : key = k
        · -- neither of the rests has the first key
          have hx : xs.lookup k = none := by
            rw [← Option.not_isSome_iff_eq_none, lookup_isSome_iff]
            exact hfresh
          have hy : ys.lookup k = none := by
            rw [← Option.not_isSome_iff_eq_none, lookup_isSome_iff, ← htail]
            exact hfresh
          rw [hk, hx, hy]
        · have hcons := hlookup key
          rwa [lookup_cons_of_ne hk, lookup_cons_of_ne hk] at hcons
      rw [Option.some.inj hvalue, ih htail hrest hothers]

end Searching

/-! ### Putting -/

/-- Put a value in the place of the one with its key, or at the end. -/
def put [DecidableEq κ] (key : κ) (value : α) : List (κ × α) → List (κ × α)
  | [] => [(key, value)]
  | (k, v) :: rest => if k = key then (k, value) :: rest else (k, v) :: put key value rest

/-- The key has the new value, every other key what it had. -/
theorem lookup_put [BEq κ] [LawfulBEq κ] [DecidableEq κ] (key : κ) (value : α) (xs : List (κ × α)) (other : κ) :
    (put key value xs).lookup other = if other = key then some value else xs.lookup other := by
  induction xs with
  | nil =>
    by_cases ho : other = key
    · rw [if_pos ho, put, ho, List.lookup_cons_self]
    · rw [if_neg ho, put, lookup_cons_of_ne ho]
  | cons x xs ih =>
    obtain ⟨k, v⟩ := x
    by_cases hk : k = key
    · rw [put, if_pos hk]
      by_cases ho : other = key
      · rw [if_pos ho, ho, ← hk, List.lookup_cons_self]
      · have hne : other ≠ k := fun h => ho (h.trans hk)
        rw [if_neg ho, lookup_cons_of_ne hne, lookup_cons_of_ne hne]
    · rw [put, if_neg hk]
      by_cases ho : other = k
      · have hne : k ≠ key := hk
        rw [ho, List.lookup_cons_self, if_neg hne, List.lookup_cons_self]
      · rw [lookup_cons_of_ne ho, lookup_cons_of_ne ho, ih]

/-- The keys stay as they are, a new one is added at the end. -/
theorem keys_put [DecidableEq κ] (key : κ) (value : α) (xs : List (κ × α)) :
    keys (put key value xs) = keys xs ++ if key ∈ keys xs then [] else [key] := by
  induction xs with
  | nil => rfl
  | cons x xs ih =>
    obtain ⟨k, v⟩ := x
    by_cases hk : k = key
    · rw [put, if_pos hk, if_pos (by simp [keys, hk]), List.append_nil]
      rfl
    · have hmem : key ∈ keys ((k, v) :: xs) ↔ key ∈ keys xs := by simp [keys, Ne.symm hk]
      have hcons : keys ((k, v) :: put key value xs) = k :: keys (put key value xs) := rfl
      rw [put, if_neg hk, hcons, ih]
      by_cases hx : key ∈ keys xs
      · rw [if_pos hx, if_pos (hmem.mpr hx)]
        rfl
      · rw [if_neg hx, if_neg (mt hmem.mp hx)]
        rfl

/-- What is there has been put or was there before. -/
theorem mem_put [DecidableEq κ] {key : κ} {value : α} {xs : List (κ × α)} {x : κ × α}
    (h : x ∈ put key value xs) : x = (key, value) ∨ x ∈ xs := by
  induction xs with
  | nil => exact .inl (List.mem_singleton.mp h)
  | cons y xs ih =>
    obtain ⟨k, v⟩ := y
    by_cases hk : k = key
    · rw [put, if_pos hk, hk] at h
      exact (List.mem_cons.mp h).imp_right (List.mem_cons_of_mem _)
    · rw [put, if_neg hk] at h
      rcases List.mem_cons.mp h with rfl | hlater
      · exact .inr List.mem_cons_self
      · exact (ih hlater).imp_right (List.mem_cons_of_mem _)

theorem put_of_not_mem [DecidableEq κ] {key : κ} (value : α) {xs : List (κ × α)} (h : key ∉ keys xs) :
    put key value xs = xs ++ [(key, value)] := by
  induction xs with
  | nil => rfl
  | cons x xs ih =>
    obtain ⟨hk, hx⟩ : key ≠ x.1 ∧ key ∉ keys xs := by simpa [keys] using h
    rw [put, if_neg (Ne.symm hk), ih hx, List.cons_append]

/-- With no key twice, what is put under a key that is there takes the place of what has it. -/
theorem put_of_mem [DecidableEq κ] {key : κ} (value : α) {xs : List (κ × α)} (hnodup : (keys xs).Nodup)
    (h : key ∈ keys xs) : put key value xs = xs.map fun x => if x.1 = key then (key, value) else x := by
  induction xs with
  | nil => cases h
  | cons x xs ih =>
    obtain ⟨k, v⟩ := x
    obtain ⟨hfresh, hrest⟩ : k ∉ keys xs ∧ (keys xs).Nodup := List.nodup_cons.mp hnodup
    by_cases hk : k = key
    · have hothers : xs.map (fun x => if x.1 = key then (key, value) else x) = xs.map id := by
        refine List.map_congr_left fun x hx => if_neg ?_
        intro hkey
        exact hfresh (hk.trans hkey.symm ▸ List.mem_map_of_mem hx)
      rw [put, if_pos hk, List.map_cons, if_pos hk, hothers, List.map_id, hk]
    · have hlater : key ∈ keys xs := (List.mem_cons.mp h).resolve_left (Ne.symm hk)
      rw [put, if_neg hk, List.map_cons, if_neg hk, ih hrest hlater]

end Keyed
end ApiReference
