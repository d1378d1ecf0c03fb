/-
# What is written line by line is read back line by line

Console text and Markdown pages are lines, each with its line feed. A text is split at its line
feeds (`linesOf`), and lines that have no line feed in them are read back from their text
(`linesOf_unlines`). So no two such lists of lines have the same text (`unlines_inj`).

A signature is a line if the strings that it is put together from are (`oneLine_signature`).

Key definitions: `linesOf`, `OneLine`, `FunctionDoc.strings`, `ModuleDoc.strings`.
Key theorems: `linesOf_unlines`, `unlines_inj`, `oneLine_signature`.
-/
import ApiReference.Docs.Basic
import ApiReference.Text.Lines
import Mathlib.Data.List.Basic

namespace ApiReference

/-! ### Lines of a text -/

/-- The lines of a text: what stands between line feeds, and what stands behind the last one, if
there is anything. -/
def linesOf (text : String) : List String :=
  let pieces := (text.split '\n').toList.map String.Slice.copy
  if pieces.getLast? = some "" then pieces.dropLast else pieces

/-- A string without a line feed. -/
def OneLine (s : String) : Prop := '\n' ∉ s.toList

instance (s : String) : Decidable (OneLine s) := inferInstanceAs (Decidable (¬ _))

theorem unlines_eq_intercalate (ls : List String) : unlines ls = "\n".intercalate (ls ++ [""]) := by
  induction ls with
  | nil => rfl
  | cons l ls ih =>
    have hcons : unlines (l :: ls) = l ++ "\n" ++ unlines ls := String.join_cons
    have hne : ls ++ [""] ≠ [] := by simp
    rw [hcons, ih, List.cons_append, String.intercalate_cons_of_ne_nil hne]

/-- Lines are read back from their text. -/
theorem linesOf_unlines {ls : List String} (h : ∀ l ∈ ls, OneLine l) : linesOf (unlines ls) = ls := by
  have hpieces : ((unlines ls).split '\n').toList.map String.Slice.copy = ls ++ [""] := by
    have hall : ∀ l ∈ ls ++ [""], '\n' ∉ l.toList :=
      List.forall_mem_append.mpr ⟨h, List.forall_mem_singleton.mpr (by decide)⟩
    have hne : ls ++ [""] ≠ [] := by simp
    have hsplit := String.toList_split_intercalate hall
    rw [if_neg hne] at hsplit
    rw [unlines_eq_intercalate]
    exact hsplit
  have hlast : (ls ++ [""]).getLast? = some "" := by simp
  simp only [linesOf, hpieces, if_pos hlast, List.dropLast_concat]

theorem unlines_inj {ls ls' : List String} (h : ∀ l ∈ ls, OneLine l) (h' : ∀ l ∈ ls', OneLine l) :
    unlines ls = unlines ls' ↔ ls = ls' := by
  constructor
  · intro heq
    rw [← linesOf_unlines h, ← linesOf_unlines h', heq]
  · rintro rfl
    rfl

/-! ### Strings without line feeds -/

theorem OneLine.append {s t : String} (hs : OneLine s) (ht : OneLine t) : OneLine (s ++ t) := by
  simp only [OneLine, String.toList_append, List.mem_append, not_or]
  exact ⟨hs, ht⟩

theorem OneLine.intercalate {sep : String} {ss : List String} (hsep : OneLine sep) (hs : ∀ s ∈ ss, OneLine s) :
    OneLine (sep.intercalate ss) := by
  induction ss with
  | nil => simp [OneLine]
  | cons s ss ih =>
    rw [List.forall_mem_cons] at hs
    by_cases hne : ss = []
    · rw [hne, String.intercalate_singleton]
      exact hs.1
    · rw [String.intercalate_cons_of_ne_nil hne]
      exact (hs.1.append hsep).append (ih hs.2)

/-! ### The strings of documentation -/

/-- The strings of a parameter. -/
def ParameterDoc.strings (p : ParameterDoc) : List String := p.name :: p.description :: p.type.toList

/-- The strings of a function. -/
def FunctionDoc.strings (f : FunctionDoc) : List String :=
  f.name :: f.description :: f.returns.toList ++ f.parameters.flatMap ParameterDoc.strings

/-- The strings of a module. -/
def ModuleDoc.strings (m : ModuleDoc) : List String :=
  m.name :: m.description :: m.functions.flatMap FunctionDoc.strings

theorem ParameterDoc.oneLine_shownType {p : ParameterDoc} (h : ∀ s ∈ p.strings, OneLine s) :
    OneLine p.shownType := by
  rw [shownType]
  cases htype : p.type with
  | none => exact (by decide : OneLine "?")
  | some type => exact h type (by simp [strings, htype])

theorem ParameterDoc.oneLine_signature {p : ParameterDoc} (h : ∀ s ∈ p.strings, OneLine s) :
    OneLine p.signature := by
  have hname : OneLine p.name := h p.name (by simp [strings])
  exact (hname.append (by decide)).append (oneLine_shownType h)

theorem FunctionDoc.oneLine_of_parameter {f : FunctionDoc} (h : ∀ s ∈ f.strings, OneLine s) {p : ParameterDoc}
    (hp : p ∈ f.parameters) : ∀ s ∈ p.strings, OneLine s := by
  intro s hs
  have hmem : s ∈ f.parameters.flatMap ParameterDoc.strings := List.mem_flatMap.mpr ⟨p, hp, hs⟩
  exact h s (by simp [strings, hmem])

theorem FunctionDoc.oneLine_signature {f : FunctionDoc} (h : ∀ s ∈ f.strings, OneLine s) :
    OneLine f.signature := by
  have hname : OneLine f.name := h f.name (by simp [strings])
  have hparameters : ∀ s ∈ f.parameters.map ParameterDoc.signature, OneLine s := by
    rw [List.forall_mem_map]
    exact fun p hp => ParameterDoc.oneLine_signature (oneLine_of_parameter h hp)
  have hlist : OneLine (", ".intercalate (f.parameters.map ParameterDoc.signature)) :=
    OneLine.intercalate (by decide) hparameters
  have hcall := ((hname.append (t := "(") (by decide)).append hlist).append (t := ")") (by decide)
  refine hcall.append ?_
  cases hreturns : f.returns with
  | none => exact (by decide : OneLine "")
  | some type =>
    have htype : OneLine type := h type (by simp [strings, hreturns])
    exact OneLine.append (by decide) htype

theorem ModuleDoc.oneLine_of_function {m : ModuleDoc} (h : ∀ s ∈ m.strings, OneLine s) {f : FunctionDoc}
    (hf : f ∈ m.functions) : ∀ s ∈ f.strings, OneLine s := by
  intro s hs
  have hmem : s ∈ m.functions.flatMap FunctionDoc.strings := List.mem_flatMap.mpr ⟨f, hf, hs⟩
  exact h s (by simp [strings, hmem])

end ApiReference
