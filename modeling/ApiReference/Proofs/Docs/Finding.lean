/-
# Functions are found where they were added

A module is looked through for a name from its first function on, and a function is only ever
added behind those that are there. So the place found is that of the first function with the name
(`findIndex?_eq_some_iff`), there is always a function at it (`find?_of_findIndex?`), and neither is
changed by what is added later: by one function (`findIndex?_withFunction`), and so by any number of
them (`findIndex?_withFunctions`, `find?_withFunctions`). Only a name that was not found may be
found after more has been added.

Key definitions: `ModuleDoc.withFunctions`.
Key theorems: `withFunctions_eq`, `findIndex?_eq_some_iff`, `find?_of_findIndex?`,
`findIndex?_withFunction`, `find?_withFunctions`, `find?_first`.
-/
import ApiReference.Docs.Basic

namespace ApiReference
namespace ModuleDoc

/-- The module with more functions, added one after the other. -/
def withFunctions (m : ModuleDoc) (fs : List FunctionDoc) : ModuleDoc := fs.foldl withFunction m

variable {m : ModuleDoc} {name : String} {i : Nat}

/-- Functions are added behind the others, and nothing else is changed. -/
theorem withFunctions_eq (m : ModuleDoc) (fs : List FunctionDoc) :
    m.withFunctions fs = { m with functions := m.functions ++ fs } := by
  induction fs generalizing m with
  | nil => rw [withFunctions, List.foldl_nil, List.append_nil]
  | cons f fs ih =>
    have hcons : m.withFunctions (f :: fs) = (m.withFunction f).withFunctions fs := rfl
    rw [hcons, ih, withFunction, List.append_assoc, List.singleton_append]

/-! ### Places -/

/-- The place of a name is that of the first function that has it. -/
theorem findIndex?_eq_some_iff : m.findIndex? name = some i ↔
    ∃ h : i < m.functions.length, m.functions[i].name = name ∧ ∀ f ∈ m.functions.take i, f.name ≠ name := by
  have hbefore : ∀ h : i < m.functions.length, (∀ f ∈ m.functions.take i, f.name ≠ name) ↔
      ∀ j (hj : j < i), m.functions[j].name ≠ name := by
    intro h
    constructor
    · intro hall j hj
      exact hall _ (List.mem_take_iff_getElem.mpr ⟨j, by omega, rfl⟩)
    · intro hall f hf
      obtain ⟨j, hj, rfl⟩ := List.mem_take_iff_getElem.mp hf
      exact hall j (by omega)
  rw [findIndex?, List.findIdx?_eq_some_iff_getElem]
  simp only [decide_eq_true_eq]
  exact exists_congr fun h => and_congr_right fun _ => (hbefore h).symm

/-- At a place that is found there is a function, and it is what is found. -/
theorem find?_of_findIndex? (h : m.findIndex? name = some i) :
    ∃ hi : i < m.functions.length, m.find? name = some m.functions[i] := by
  obtain ⟨hi, -, -⟩ := findIndex?_eq_some_iff.mp h
  refine ⟨hi, ?_⟩
  rw [find?, h, Option.bind_some, List.getElem?_eq_getElem hi]

theorem find?_eq_none_iff : m.find? name = none ↔ m.findIndex? name = none := by
  cases h : m.findIndex? name with
  | none =>
    rw [find?, h, Option.bind_none]
    exact iff_of_true rfl rfl
  | some i =>
    obtain ⟨hi, hfind⟩ := find?_of_findIndex? h
    rw [hfind]
    exact iff_of_false (Option.some_ne_none _) (Option.some_ne_none _)

theorem exists_of_find? {f : FunctionDoc} (h : m.find? name = some f) :
    ∃ i, m.findIndex? name = some i ∧ m.functions[i]? = some f := Option.bind_eq_some_iff.mp h

/-! ### More functions -/

/-- One more function has the place behind the others, if its name was not found before. -/
theorem findIndex?_withFunction (m : ModuleDoc) (f : FunctionDoc) (name : String) :
    (m.withFunction f).findIndex? name =
      (m.findIndex? name).or (if f.name = name then some m.functions.length else none) := by
  rw [findIndex?, findIndex?, withFunction, List.findIdx?_append, List.findIdx?_singleton]
  by_cases hf : f.name = name
  · simp [hf]
  · simp [hf]

/-- A place that has been found stays. -/
theorem findIndex?_withFunctions (h : m.findIndex? name = some i) (fs : List FunctionDoc) :
    (m.withFunctions fs).findIndex? name = some i := by
  induction fs generalizing m with
  | nil => exact h
  | cons f fs ih =>
    have hstep : (m.withFunction f).findIndex? name = some i := by
      rw [findIndex?_withFunction, h, Option.some_or]
    exact ih hstep

/-- A function that has been found stays what is found. -/
theorem find?_withFunctions {f : FunctionDoc} (h : m.find? name = some f) (fs : List FunctionDoc) :
    (m.withFunctions fs).find? name = some f := by
  obtain ⟨i, hi, hf⟩ := exists_of_find? h
  have hlt : i < m.functions.length := (List.getElem?_eq_some_iff.mp hf).1
  rw [find?, findIndex?_withFunctions hi, Option.bind_some, withFunctions_eq,
    List.getElem?_append_left hlt, hf]

/-- However a module has been put together, a name is found at the first function that has it;
there is a function at the place, which is what is found, and nothing is found if and only if
there is no place; and what has been found stays, whatever is added. -/
theorem find?_first (title description name : String) (fs gs : List FunctionDoc) :
    let m := (ofName title description).withFunctions fs
    m = ⟨title, description, fs⟩ ∧
    (∀ i, m.findIndex? name = some i ↔
      ∃ h : i < m.functions.length, m.functions[i].name = name ∧ ∀ f ∈ m.functions.take i, f.name ≠ name) ∧
    (∀ i, m.findIndex? name = some i → ∃ h : i < m.functions.length, m.find? name = some m.functions[i]) ∧
    (m.find? name = none ↔ m.findIndex? name = none) ∧
    (∀ i, m.findIndex? name = some i → (m.withFunctions gs).findIndex? name = some i) ∧
    (∀ f, m.find? name = some f → (m.withFunctions gs).find? name = some f) := by
  intro m
  have hbuilt : m = ⟨title, description, fs⟩ := by
    rw [show m = _ from withFunctions_eq _ _, ofName, List.nil_append]
  exact ⟨hbuilt, fun _ => findIndex?_eq_some_iff, fun _ => find?_of_findIndex?, find?_eq_none_iff,
    fun _ h => findIndex?_withFunctions h gs, fun _ h => find?_withFunctions h gs⟩

/-- The first of two functions of one name is found, also when there is a third one. -/
theorem find?_first_repeated :
    let m := (ofName "m" "").withFunctions [.ofName "a" "", .ofName "b" "first", .ofName "b" "second"]
    m.findIndex? "b" = some 1 ∧ m.find? "b" = some (.ofName "b" "first") ∧
    (m.withFunctions [.ofName "b" "third"]).findIndex? "b" = some 1 ∧
    (m.withFunctions [.ofName "b" "third"]).find? "b" = some (.ofName "b" "first") := by
  obtain ⟨-, hplace, -, -, hindex, hfind⟩ := find?_first "m" "" "b"
    [.ofName "a" "", .ofName "b" "first", .ofName "b" "second"] [.ofName "b" "third"]
  have hfound := (hplace 1).mpr ⟨by decide, by decide, by decide⟩
  exact ⟨hfound, by decide, hindex 1 hfound, hfind _ (by decide)⟩

end ModuleDoc
end ApiReference
