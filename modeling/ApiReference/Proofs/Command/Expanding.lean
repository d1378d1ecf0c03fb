/-
# What the arguments expand to

An argument that is no pattern, or that names a file as it stands, cannot fail to expand; a
pattern fails if it cannot be read (`Malformed`). Arguments are expanded from the left, so the
first malformed pattern is the one that is reported, and without one the paths of the arguments
follow each other (`result_expand_eq_error_iff`, `result_expand_of_readable`). What is in the
files does not matter (`inputs_outline`).

Key definitions: `Malformed`, `Readable`, `FirstMalformed`, `pathsOf`, `expandedPaths`.
Key theorems: `result_expand_of_readable`, `result_expand_eq_error_iff`, `result_inputs_eq_ok_iff`,
`result_inputs_eq_error_iff`, `inputs_outline`.
-/
import ApiReference.Command.Inputs
import ApiReference.Proofs.Except
import ApiReference.Proofs.File.Outline

namespace ApiReference
namespace Command

variable {fs : FileSystem}

/-! ### Malformed patterns -/

/-- An argument that has wildcards and names no file as it stands cannot be read as a pattern. -/
structure Malformed (fs : FileSystem) (argument : String) (e : Glob.Error) : Prop where
  pattern : Glob.isPattern argument = true
  noFile : fs.isFile ⟨argument⟩ = false
  error : Glob.parts argument = .error e

/-- None of the arguments is a malformed pattern. -/
def Readable (fs : FileSystem) (arguments : List String) : Prop :=
  ∀ argument ∈ arguments, ∀ e, ¬Malformed fs argument e

/-- The first of the arguments that is a malformed pattern. -/
def FirstMalformed (fs : FileSystem) (arguments : List String) (argument : String) (e : Glob.Error) : Prop :=
  ∃ before after, arguments = before ++ argument :: after ∧ Readable fs before ∧ Malformed fs argument e

theorem readable_cons {argument : String} {rest : List String} :
    Readable fs (argument :: rest) ↔ (∀ e, ¬Malformed fs argument e) ∧ Readable fs rest := List.forall_mem_cons

theorem FirstMalformed.not_readable {arguments : List String} {argument : String} {e : Glob.Error}
    (h : FirstMalformed fs arguments argument e) : ¬Readable fs arguments := by
  obtain ⟨before, after, rfl, -, hmalformed⟩ := h
  exact fun hall => hall argument (List.mem_append_right _ List.mem_cons_self) e hmalformed

/-! ### One argument -/

/-- The paths of an argument that is no malformed pattern. -/
def pathsOf (fs : FileSystem) (argument : String) : List Path :=
  if isLiteral fs argument then [⟨argument⟩] else (Glob.files fs argument).toOption.getD []

/-- A pattern that can be read has its matches, if only none. -/
theorem files_eq_error_iff {pattern : String} {e : Glob.Error} :
    Glob.files fs pattern = .error e ↔ Glob.parts pattern = .error e := by
  unfold Glob.files Glob.matching
  cases Glob.parts pattern with
  | error other =>
    show Except.error other = .error e ↔ Except.error other = .error e
    rw [Except.error.injEq, Except.error.injEq]
  | ok parts => exact iff_of_false nofun nofun

theorem malformed_iff {argument : String} {e : Glob.Error} :
    Malformed fs argument e ↔ isLiteral fs argument = false ∧ Glob.files fs argument = .error e := by
  rw [isLiteral, Bool.or_eq_false_iff, Bool.not_eq_false', files_eq_error_iff]
  exact ⟨fun h => ⟨⟨h.noFile, h.pattern⟩, h.error⟩, fun h => ⟨h.1.2, h.1.1, h.2⟩⟩

theorem inputsOf_of_malformed {argument : String} {e : Glob.Error} (h : Malformed fs argument e) :
    inputsOf fs argument = .error (.badPattern argument e) := by
  obtain ⟨hliteral, hfiles⟩ := malformed_iff.mp h
  rw [inputsOf, hliteral, hfiles]
  rfl

theorem inputsOf_of_readable {argument : String} (h : ∀ e, ¬Malformed fs argument e) :
    inputsOf fs argument = .ok (pathsOf fs argument) := by
  unfold inputsOf pathsOf
  cases hliteral : isLiteral fs argument with
  | true => rfl
  | false =>
    cases hfiles : Glob.files fs argument with
    | error e => exact absurd (malformed_iff.mpr ⟨hliteral, hfiles⟩) (h e)
    | ok paths => rfl

theorem exists_malformed {argument : String} {error : InputError} (h : inputsOf fs argument = .error error) :
    ∃ e, Malformed fs argument e := by
  unfold inputsOf at h
  split at h
  · cases h
  next hliteral =>
  split at h
  · cases h
  next e hfiles => exact ⟨e, malformed_iff.mpr ⟨Bool.eq_false_iff.mpr hliteral, hfiles⟩⟩

/-! ### All arguments -/

theorem readable_of_ok {arguments : List String} (h : ∀ a ∈ arguments, ∃ paths, inputsOf fs a = .ok paths) :
    Readable fs arguments := by
  intro argument hmem e hmalformed
  obtain ⟨paths, hpaths⟩ := h argument hmem
  rw [inputsOf_of_malformed hmalformed] at hpaths
  cases hpaths

/-- If there are malformed patterns one of them is the first. -/
theorem readable_or_firstMalformed (fs : FileSystem) (arguments : List String) :
    Readable fs arguments ∨ ∃ argument e, FirstMalformed fs arguments argument e := by
  rcases forall_ok_or_exists_first (inputsOf fs) arguments with hall | ⟨before, argument, after, _, hsplit, hbefore, herror⟩
  · exact .inl (readable_of_ok hall)
  · obtain ⟨e, hmalformed⟩ := exists_malformed herror
    exact .inr ⟨argument, e, before, after, hsplit, readable_of_ok hbefore, hmalformed⟩

theorem result_expand_of_readable {arguments : List String} (h : Readable fs arguments) :
    (expand fs arguments).result = .ok (arguments.flatMap (pathsOf fs)) := by
  induction arguments with
  | nil => rfl
  | cons argument rest ih =>
    obtain ⟨hargument, hrest⟩ := readable_cons.mp h
    rw [expand, inputsOf_of_readable hargument]
    dsimp only
    rw [ih hrest]
    rfl

theorem result_expand_of_firstMalformed {arguments : List String} {argument : String} {e : Glob.Error}
    (h : FirstMalformed fs arguments argument e) :
    (expand fs arguments).result = .error (.badPattern argument e) := by
  obtain ⟨before, after, rfl, hbefore, hmalformed⟩ := h
  induction before with
  | nil => rw [List.nil_append, expand, inputsOf_of_malformed hmalformed]
  | cons other before ih =>
    obtain ⟨hother, hbefore⟩ := readable_cons.mp hbefore
    rw [List.cons_append, expand, inputsOf_of_readable hother]
    dsimp only
    rw [ih hbefore]
    rfl

theorem result_expand_eq_error_iff {arguments : List String} {error : InputError} :
    (expand fs arguments).result = .error error ↔
      ∃ argument e, FirstMalformed fs arguments argument e ∧ error = .badPattern argument e := by
  constructor
  · intro h
    rcases readable_or_firstMalformed fs arguments with hreadable | ⟨argument, e, hfirst⟩
    · rw [result_expand_of_readable hreadable] at h
      cases h
    · rw [result_expand_of_firstMalformed hfirst] at h
      exact ⟨argument, e, hfirst, (Except.error.inj h).symm⟩
  · rintro ⟨argument, e, hfirst, rfl⟩
    exact result_expand_of_firstMalformed hfirst

/-! ### The files to load -/

/-- The paths of all arguments in order, without repeats. -/
def expandedPaths (fs : FileSystem) (arguments : List String) : List Path :=
  dropRepeats (arguments.flatMap (pathsOf fs))

theorem dropRepeats_eq_nil_iff {paths : List Path} : dropRepeats paths = [] ↔ paths = [] := by
  cases paths with
  | nil => exact Iff.rfl
  | cons p rest => exact iff_of_false nofun nofun

theorem expandedPaths_eq_nil_iff {arguments : List String} :
    expandedPaths fs arguments = [] ↔ ∀ argument ∈ arguments, pathsOf fs argument = [] := by
  rw [expandedPaths, dropRepeats_eq_nil_iff, List.flatMap_eq_nil_iff]

theorem result_inputs_of_ok {arguments : List String} {paths : List Path}
    (h : (expand fs arguments).result = .ok paths) :
    (inputs fs arguments).result = if paths = [] then .error .noFiles else .ok (dropRepeats paths) := by
  unfold inputs
  dsimp only
  rw [h]
  rfl

theorem result_inputs_of_error {arguments : List String} {error : InputError}
    (h : (expand fs arguments).result = .error error) : (inputs fs arguments).result = .error error := by
  unfold inputs
  dsimp only
  rw [h]
  rfl

theorem result_inputs_of_readable {arguments : List String} (h : Readable fs arguments) :
    (inputs fs arguments).result =
      if expandedPaths fs arguments = [] then .error .noFiles else .ok (expandedPaths fs arguments) := by
  rw [result_inputs_of_ok (result_expand_of_readable h)]
  simp only [expandedPaths, dropRepeats_eq_nil_iff]

/-- The files to load are the paths of the arguments, if there are any. -/
theorem result_inputs_eq_ok_iff {arguments : List String} {paths : List Path} :
    (inputs fs arguments).result = .ok paths ↔
      Readable fs arguments ∧ paths = expandedPaths fs arguments ∧ paths ≠ [] := by
  rcases readable_or_firstMalformed fs arguments with hreadable | ⟨argument, e, hfirst⟩
  · rw [result_inputs_of_readable hreadable, and_iff_right hreadable]
    by_cases hnone : expandedPaths fs arguments = []
    · rw [if_pos hnone, hnone]
      exact iff_of_false nofun fun h => h.2 h.1
    · rw [if_neg hnone, Except.ok.injEq, eq_comm, iff_self_and]
      rintro rfl
      exact hnone
  · rw [result_inputs_of_error (result_expand_of_firstMalformed hfirst)]
    exact iff_of_false nofun fun h => hfirst.not_readable h.1

/-- There is nothing to load if a pattern is malformed or no argument has a path. -/
theorem result_inputs_eq_error_iff {arguments : List String} {error : InputError} :
    (inputs fs arguments).result = .error error ↔
      (∃ argument e, FirstMalformed fs arguments argument e ∧ error = .badPattern argument e) ∨
      Readable fs arguments ∧ (∀ argument ∈ arguments, pathsOf fs argument = []) ∧ error = .noFiles := by
  rcases readable_or_firstMalformed fs arguments with hreadable | ⟨argument, e, hfirst⟩
  · rw [or_iff_right (by rintro ⟨_, _, hfirst, -⟩; exact hfirst.not_readable hreadable), and_iff_right hreadable,
      ← expandedPaths_eq_nil_iff, result_inputs_of_readable hreadable]
    by_cases hnone : expandedPaths fs arguments = []
    · rw [if_pos hnone, Except.error.injEq, and_iff_right hnone, eq_comm]
    · rw [if_neg hnone]
      exact iff_of_false nofun fun h => hnone h.1
  · have hresult := result_expand_of_firstMalformed hfirst
    rw [or_iff_left fun h => hfirst.not_readable h.1, ← result_expand_eq_error_iff, hresult,
      result_inputs_of_error hresult]

/-! ### Contents do not matter -/

theorem isLiteral_outline (fs : FileSystem) (argument : String) :
    isLiteral fs.outline argument = isLiteral fs argument := by
  rw [isLiteral, isLiteral, FileSystem.isFile_outline]

theorem inputsOf_outline (fs : FileSystem) (argument : String) :
    inputsOf fs.outline argument = inputsOf fs argument := by
  rw [inputsOf, inputsOf, isLiteral_outline, Glob.files_outline]

theorem expand_outline (fs : FileSystem) (arguments : List String) :
    expand fs.outline arguments = expand fs arguments := by
  induction arguments with
  | nil => rfl
  | cons argument rest ih => rw [expand, expand, inputsOf_outline, ih]

/-- The files to load are a matter of the outline, and so is what is reported on the way. -/
theorem inputs_outline (fs : FileSystem) (arguments : List String) :
    inputs fs.outline arguments = inputs fs arguments := by
  rw [inputs, inputs, expand_outline]

theorem inputs_congr {other : FileSystem} (h : other.outline = fs.outline) (arguments : List String) :
    inputs other arguments = inputs fs arguments := by
  rw [← inputs_outline other, h, inputs_outline]

end Command
end ApiReference
