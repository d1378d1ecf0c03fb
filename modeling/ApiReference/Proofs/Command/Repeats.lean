/-
# Paths that are left out as repeats

A path is left out if it is the same as the one before it. What is the same leads to the same
file, and merging a tree a second time adds nothing; so leaving a repeat out does not show, as
long as it may name a file at all (`ofFiles_dropRepeats`). A repeat that may not, because of a
slash or a dot at its end or because of its length, would have been refused, and leaving it out
hides that (`ofFiles_slashed`).

Key definitions: `RepeatsName`.
Key theorems: `dropRepeatsAfter_congr`, `mergeFiles_dropRepeatsAfter`, `ofFiles_dropRepeats`.
-/
import ApiReference.Proofs.Command.Expanding
import ApiReference.Proofs.Command.Running
import ApiReference.Proofs.File.Spelling
import ApiReference.Proofs.Tree.Loading
import ApiReference.Proofs.Tree.Regrouping

namespace ApiReference
namespace SyntaxTree

variable {fs : FileSystem} {p q : Path}

theorem isFile_of_ofFile {m : SyntaxTree} (h : ofFile fs p = .ok m) : fs.isFile p = true := by
  unfold ofFile FileSystem.read at h
  unfold FileSystem.isFile
  cases hfind : fs.find p with
  | error e =>
    rw [hfind] at h
    cases e <;> cases h
  | ok entry =>
    cases entry with
    | directory =>
      rw [hfind] at h
      cases h
    | file content => rfl

/-- A tree is that of what is read, whatever the path. -/
theorem ofFile_of_read {m : SyntaxTree} (hread : fs.read q = fs.read p) (h : ofFile fs p = .ok m) :
    ofFile fs q = .ok m := by
  unfold ofFile at h ⊢
  rw [hread]
  split at h
  · cases h
  · cases h
  next text htext =>
  split at h
  · cases h
  · exact h

/-- A repeat of a file that gives a tree gives it, too, if it may name a file. -/
theorem ofFile_of_same {m : SyntaxTree} (hsame : p.same q = true) (hq : q.mayNameFile = true)
    (h : ofFile fs p = .ok m) : ofFile fs q = .ok m :=
  ofFile_of_read ((FileSystem.read_eq_read_iff hsame (isFile_of_ofFile h)).mpr hq) h

/-- Otherwise it is refused. -/
theorem ofFile_of_not_mayNameFile (hsame : p.same q = true) (hq : q.mayNameFile = false)
    (h : fs.isFile p = true) : ∃ e, ofFile fs q = .error (.unreadable q e) := by
  unfold ofFile
  rcases FileSystem.read_of_not_mayNameFile hsame h hq with hread | hread
  · exact ⟨.nameTooLong, by rw [hread]⟩
  · exact ⟨.notDirectory, by rw [hread]⟩

end SyntaxTree

namespace Command

open SyntaxTree (Loads ofFile ofFiles mergeFiles)

variable {fs : FileSystem}

/-- It does not matter with which of two paths that are the same a path is compared. -/
theorem dropRepeatsAfter_congr {p q : Path} (h : p.same q = true) (paths : List Path) :
    dropRepeatsAfter p paths = dropRepeatsAfter q paths := by
  have hsame : ∀ r : Path, r.same p = r.same q := by
    intro r
    rw [Path.same, Path.same, Path.same_iff.mp h]
  induction paths with
  | nil => rfl
  | cons r paths ih => rw [dropRepeatsAfter, dropRepeatsAfter, hsame, ih]

/-- Each path that is the same as the one before it may name a file, if all before it load. -/
def RepeatsName (fs : FileSystem) (paths : List Path) : Prop :=
  ∀ before p q after, paths = before ++ p :: q :: after → Loads fs (before ++ [p]) → p.same q = true →
    q.mayNameFile = true

theorem RepeatsName.tail {p : Path} {paths : List Path} {m : SyntaxTree} (h : RepeatsName fs (p :: paths))
    (hp : ofFile fs p = .ok m) : RepeatsName fs paths := by
  intro before r q after hpaths hloads
  refine h (p :: before) r q after (by rw [hpaths, List.cons_append]) ?_
  exact List.forall_mem_cons.mpr ⟨⟨m, hp⟩, hloads⟩

/-- Merging a file a second time adds nothing. -/
theorem mergeFiles_twice {t m : SyntaxTree} {p q : Path} (ht : t.names.Nodup) (hp : ofFile fs p = .ok m)
    (hq : ofFile fs q = .ok m) (paths : List Path) :
    (mergeFiles fs t (p :: q :: paths)).result = (mergeFiles fs t (q :: paths)).result := by
  have hm := SyntaxTree.nodup_of_ofFile hp
  have htwice : (t.merge m).merge m = t.merge m := by
    rw [SyntaxTree.merge_assoc ht hm hm, SyntaxTree.merge_self hm]
  simp only [mergeFiles, hp, hq, Reported.after, htwice]

/-- Leaving out the repeats behind a path does not change what is loaded. -/
theorem mergeFiles_dropRepeatsAfter {p : Path} {paths : List Path} (h : RepeatsName fs (p :: paths))
    {t : SyntaxTree} (ht : t.names.Nodup) :
    (mergeFiles fs t (p :: dropRepeatsAfter p paths)).result = (mergeFiles fs t (p :: paths)).result := by
  induction paths generalizing p t with
  | nil => rfl
  | cons q paths ih =>
    cases hp : ofFile fs p with
    | error e => simp only [mergeFiles, hp]
    | ok m =>
      rw [dropRepeatsAfter]
      by_cases hsame : q.same p = true
      · -- the repeat is left out; had it stayed it would have been merged to no effect
        have hsame' : p.same q = true := Path.same_iff.mpr (Path.same_iff.mp hsame).symm
        have hname : q.mayNameFile = true := h [] p q paths rfl (List.forall_mem_singleton.mpr ⟨m, hp⟩) hsame'
        have hq : ofFile fs q = .ok m := SyntaxTree.ofFile_of_same hsame' hname hp
        calc (mergeFiles fs t (p :: if q.same p = true then dropRepeatsAfter p paths else _)).result
            = (mergeFiles fs t (p :: dropRepeatsAfter q paths)).result := by
              rw [if_pos hsame, dropRepeatsAfter_congr hsame']
          _ = (mergeFiles fs t (q :: dropRepeatsAfter q paths)).result := by
              simp only [mergeFiles, hp, hq, Reported.after]
          _ = (mergeFiles fs t (q :: paths)).result := ih (h.tail hp) ht
          _ = (mergeFiles fs t (p :: q :: paths)).result := (mergeFiles_twice ht hp hq paths).symm
      · rw [if_neg hsame, mergeFiles, mergeFiles, hp]
        exact ih (h.tail hp) (SyntaxTree.nodup_merge ht m)

/-- Leaving out repeats does not change what is loaded. -/
theorem result_ofFiles_dropRepeats {paths : List Path} (h : RepeatsName fs paths) :
    (ofFiles fs (dropRepeats paths)).result = (ofFiles fs paths).result := by
  cases paths with
  | nil => rfl
  | cons p paths => exact mergeFiles_dropRepeatsAfter h List.nodup_nil

/-- A repeat that may not name a file is refused where it stands. -/
theorem result_ofFiles_of_repeat {before after : List Path} {p q : Path} (hloads : Loads fs (before ++ [p]))
    (hsame : p.same q = true) (hq : q.mayNameFile = false) :
    ∃ e, (ofFiles fs (before ++ p :: q :: after)).result = .error (.unreadable q e) := by
  obtain ⟨m, hp⟩ := hloads p (List.mem_append_right _ List.mem_cons_self)
  obtain ⟨e, he⟩ := SyntaxTree.ofFile_of_not_mayNameFile hsame hq (SyntaxTree.isFile_of_ofFile hp)
  refine ⟨e, SyntaxTree.result_ofFiles_eq_error_iff.mpr ⟨before ++ [p], q, after, ?_, hloads, he⟩⟩
  rw [List.append_assoc, List.singleton_append]

/-- Of the paths of all arguments those are loaded that are not the same as the one before. The
answer is that of loading all of them, if each that is the same as the one before it may name a
file; one that may not, all before it being loaded, would have been refused. -/
theorem ofFiles_dropRepeats {arguments : List String} {paths : List Path}
    (h : (expand fs arguments).result = .ok paths) :
    (inputs fs arguments).result = (if paths = [] then .error .noFiles else .ok (dropRepeats paths)) ∧
    (RepeatsName fs paths → (ofFiles fs (dropRepeats paths)).result = (ofFiles fs paths).result) ∧
    ∀ before p q after, paths = before ++ p :: q :: after → Loads fs (before ++ [p]) → p.same q = true →
      q.mayNameFile = false → ∃ e, (ofFiles fs paths).result = .error (.unreadable q e) := by
  refine ⟨result_inputs_of_ok h, result_ofFiles_dropRepeats, ?_⟩
  rintro before p q after rfl hloads hsame hq
  exact result_ofFiles_of_repeat hloads hsame hq

theorem ofFiles_dropRepeats_dotted :
    (expand lone ["./a.json", ".//./a.json"]).result = .ok [⟨"./a.json"⟩, ⟨".//./a.json"⟩] ∧
      (inputs lone ["./a.json", ".//./a.json"]).result = .ok [⟨"./a.json"⟩] ∧
      (ofFiles lone [⟨"./a.json"⟩]).result = (ofFiles lone [⟨"./a.json"⟩, ⟨".//./a.json"⟩]).result := by
  have hexpand : (expand lone ["./a.json", ".//./a.json"]).result = .ok [⟨"./a.json"⟩, ⟨".//./a.json"⟩] := rfl
  obtain ⟨hinputs, hload, -⟩ := ofFiles_dropRepeats hexpand
  refine ⟨hexpand, hinputs, hload ?_⟩
  intro before p q after hpaths _ _
  obtain ⟨rfl, hrest⟩ | ⟨_, rfl, hrest⟩ := List.cons_eq_append_iff.mp hpaths
  · cases hrest
    rfl
  · have hlength := congrArg List.length hrest
    simp only [List.length_append, List.length_cons, List.length_nil] at hlength
    omega

/-- A slash at the end asks for a directory, and the path is left out all the same: what should be
refused is not. -/
theorem ofFiles_slashed :
    (expand lone ["a.json", "a.json/"]).result = .ok [⟨"a.json"⟩, ⟨"a.json/"⟩] ∧
      (inputs lone ["a.json", "a.json/"]).result = .ok [⟨"a.json"⟩] ∧
      (ofFiles lone [⟨"a.json"⟩]).result = .ok ⟨[]⟩ ∧
      (ofFiles lone [⟨"a.json"⟩, ⟨"a.json/"⟩]).result = .error (.unreadable ⟨"a.json/"⟩ .notDirectory) := by
  have hslashed : ofFile lone ⟨"a.json/"⟩ = .error (.unreadable ⟨"a.json/"⟩ .notDirectory) := rfl
  have hloads : Loads lone [⟨"a.json"⟩] := List.forall_mem_singleton.mpr ⟨_, ofFile_lone⟩
  refine ⟨rfl, rfl, ?_, SyntaxTree.result_ofFiles_eq_error_iff.mpr ⟨[_], _, [], rfl, hloads, hslashed⟩⟩
  rw [ofFiles, mergeFiles, ofFile_lone]
  rfl

end Command
end ApiReference
