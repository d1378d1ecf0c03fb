/-
# Loading ends at the first file that is refused

Files are loaded one after the other. All of them give a tree, or there is a first that does
not, and then its refusal is the answer whatever comes behind it (`mergeFiles_of_refused`). So
the answer depends on the files up to there only (`mergeFiles_congr`).

Key definitions: `SyntaxTree.Loads`.
Key theorems: `mergeFiles_congr`, `mergeFiles_of_refused`, `result_ofFiles_eq_error_iff`,
`exists_ofFiles_iff`.
-/
import ApiReference.Proofs.Tree.Merging

namespace ApiReference
namespace SyntaxTree

/-- Each of the files gives a tree. -/
def Loads (fs : FileSystem) (paths : List Path) : Prop := ∀ p ∈ paths, ∃ t, ofFile fs p = .ok t

theorem ofFile_congr {fs other : FileSystem} {p : Path} (h : other.read p = fs.read p) :
    ofFile other p = ofFile fs p := by rw [ofFile, ofFile, h]

/-- What is merged depends on what each of the files gives. -/
theorem mergeFiles_congr {fs other : FileSystem} {paths : List Path}
    (h : ∀ p ∈ paths, ofFile other p = ofFile fs p) (t : SyntaxTree) :
    mergeFiles other t paths = mergeFiles fs t paths := by
  induction paths generalizing t with
  | nil => rfl
  | cons path paths ih =>
    obtain ⟨hpath, hpaths⟩ := List.forall_mem_cons.mp h
    rw [mergeFiles, mergeFiles, hpath]
    cases ofFile fs path with
    | error e => rfl
    | ok more =>
      dsimp only
      rw [ih hpaths]

theorem exists_mergeFiles {fs : FileSystem} {paths : List Path} (h : Loads fs paths) (t : SyntaxTree) :
    ∃ u, (mergeFiles fs t paths).result = .ok u := by
  induction paths generalizing t with
  | nil => exact ⟨t, rfl⟩
  | cons path paths ih =>
    obtain ⟨⟨more, hpath⟩, hpaths⟩ := List.forall_mem_cons.mp h
    rw [mergeFiles, hpath]
    exact ih hpaths (t.merge more)

/-- What is behind a file that is refused is not looked at. -/
theorem mergeFiles_of_refused {fs : FileSystem} {before : List Path} {path : Path} {e : FileRefusal}
    (hbefore : Loads fs before) (h : ofFile fs path = .error e) (t : SyntaxTree) (after : List Path) :
    mergeFiles fs t (before ++ path :: after) = ⟨(mergeFiles fs t before).events, .error e⟩ := by
  obtain ⟨u, hu⟩ := exists_mergeFiles hbefore t
  rw [mergeFiles_append, hu]
  dsimp only
  rw [mergeFiles, h, Reported.after, List.append_nil]

/-- The files all give trees if and only if they can be merged. -/
theorem exists_ofFiles_iff {fs : FileSystem} {paths : List Path} :
    (∃ t, (ofFiles fs paths).result = .ok t) ↔ Loads fs paths := by
  refine ⟨?_, fun h => exists_mergeFiles h empty⟩
  rintro ⟨t, ht⟩
  -- a first file that is refused would have been the answer
  rcases forall_ok_or_exists_first (ofFile fs) paths with hall | ⟨before, path, after, e, rfl, hbefore, he⟩
  · exact hall
  · rw [ofFiles, mergeFiles_of_refused hbefore he] at ht
    cases ht

/-- The refusal of several files is that of the first that is refused. -/
theorem result_ofFiles_eq_error_iff {fs : FileSystem} {paths : List Path} {e : FileRefusal} :
    (ofFiles fs paths).result = .error e ↔
      ∃ before path after, paths = before ++ path :: after ∧ Loads fs before ∧ ofFile fs path = .error e := by
  constructor
  · intro h
    rcases forall_ok_or_exists_first (ofFile fs) paths with hall | ⟨before, path, after, e', rfl, hbefore, he⟩
    · obtain ⟨t, ht⟩ := exists_ofFiles_iff.mpr hall
      rw [ht] at h
      cases h
    · rw [ofFiles, mergeFiles_of_refused hbefore he] at h
      cases h
      exact ⟨before, path, after, rfl, hbefore, he⟩
  · rintro ⟨before, path, after, rfl, hbefore, he⟩
    rw [ofFiles, mergeFiles_of_refused hbefore he]

end SyntaxTree
end ApiReference
