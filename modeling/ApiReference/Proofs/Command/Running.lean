/-
# A run changes one file or none

All that can fail comes before the first change, but for making a directory and writing:
so a run that fails leaves every file as it is, and one that succeeds has written what it
would have printed, to one file (`run_cases`). The files are read before anything is
changed, so it does not matter whether the file that is written has been read as well.

Key theorems: `deliver_cases`, `document_eq_ok_iff`, `run_cases`, `run_allOrNothing`.
-/
import ApiReference.Command.Run
import ApiReference.Proofs.Tree.Merging

namespace ApiReference
namespace Command

open FileSystem (Grows)

/-! ### Writing the output -/

theorem writeFile_cases (fs : FileSystem) (path : Path) (text : String) :
    (∃ after, fs.write path text = .ok after ∧ writeFile fs path text = (after, none)) ∨
      ∃ e, writeFile fs path text = (fs, some e) := by
  unfold writeFile
  cases fs.write path text with
  | ok after => exact .inl ⟨after, rfl, rfl⟩
  | error e => exact .inr ⟨.write path e, rfl⟩

/-- Either the text is written once its directory is there, or at most directories are made. -/
theorem deliver_cases (fs : FileSystem) (path : Path) (text : String) :
    (∃ middle after, Grows fs middle ∧ middle.write path text = .ok after ∧
      deliver fs path text = (after, none)) ∨
    ∃ after e, Grows fs after ∧ deliver fs path text = (after, some e) := by
  have hdirectory : (∃ middle, Grows fs middle ∧ deliver fs path text = writeFile middle path text) ∨
      ∃ after e, Grows fs after ∧ deliver fs path text = (after, some e) := by
    unfold deliver
    cases directoryOf? path with
    | none => exact .inl ⟨fs, .refl fs, rfl⟩
    | some directory =>
      have hgrows := FileSystem.grows_makeDirectories fs directory
      dsimp only
      cases (fs.makeDirectories directory).error with
      | none => exact .inl ⟨_, hgrows, rfl⟩
      | some e => exact .inr ⟨_, .createDirectory directory e, hgrows, rfl⟩
  rcases hdirectory with ⟨middle, hgrows, hdeliver⟩ | hfailed
  · rcases writeFile_cases middle path text with ⟨after, hwrite, hfile⟩ | ⟨e, hfile⟩
    · exact .inl ⟨middle, after, hgrows, hwrite, hdeliver.trans hfile⟩
    · exact .inr ⟨middle, e, hgrows, hdeliver.trans hfile⟩
  · exact .inr hfailed

/-! ### Running -/

/-- Documentation is that of the files that are expanded, loaded and merged. -/
theorem document_eq_ok_iff {fs : FileSystem} {s : Settings} {format : Format} {text : String} :
    (document fs s format).result = .ok text ↔
      ∃ paths tree, (inputs fs s.files).result = .ok paths ∧ (SyntaxTree.ofFiles fs paths).result = .ok tree ∧
        text = format.document s.project tree.docs := by
  unfold document
  dsimp only
  cases (inputs fs s.files).result with
  | error e => simp
  | ok paths =>
    dsimp only
    cases ht : (SyntaxTree.ofFiles fs paths).result with
    | error e => simp [ht]
    | ok tree => simp [ht, eq_comm]

/-- All that can come of a run. -/
theorem run_cases (fs : FileSystem) (s : Settings) :
    (∃ e, (run fs s).result = .error e ∧ Grows fs (run fs s).after) ∨
    ∃ format text, Format.ofName? s.format = some format ∧ (document fs s format).result = .ok text ∧
      (s.output = none ∧ (run fs s).result = .ok text ∧ (run fs s).after = fs ∨
        ∃ output middle, s.output = some output ∧ (run fs s).result = .ok "" ∧ Grows fs middle ∧
          middle.write (outputPath fs format ⟨output⟩) text = .ok (run fs s).after) := by
  unfold run
  cases Format.ofName? s.format with
  | none => exact .inl ⟨_, rfl, .refl fs⟩
  | some format =>
    dsimp only
    cases hr : (document fs s format).result with
    | error e => exact .inl ⟨e, rfl, .refl fs⟩
    | ok text =>
      refine Or.imp_right (fun h => ⟨format, text, rfl, hr, h⟩) ?_
      cases s.output with
      | none => exact .inr (.inl ⟨rfl, rfl, rfl⟩)
      | some output =>
        dsimp only
        rcases deliver_cases fs (outputPath fs format ⟨output⟩) text with
          ⟨middle, after, hgrows, hwrite, hdeliver⟩ | ⟨after, e, hgrows, hdeliver⟩
        · rw [hdeliver]
          exact .inr (.inr ⟨output, middle, rfl, rfl, hgrows, hwrite⟩)
        · rw [hdeliver]
          exact .inl ⟨e, rfl, hgrows⟩

/-- Without an output the documentation is what is printed. -/
theorem run_console {fs : FileSystem} {s : Settings} {format : Format} {text : String}
    (hf : Format.ofName? s.format = some format) (hd : (document fs s format).result = .ok text)
    (ho : s.output = none) : (run fs s).result = .ok text := by
  unfold run
  rw [hf, ho]
  dsimp only
  rw [hd]

theorem code_error {o : Outcome} {e : Failure} (h : o.result = .error e) : o.code = 1 ∧ o.printed = "" := by
  unfold Outcome.code Outcome.printed
  rw [h]
  exact ⟨rfl, rfl⟩

theorem code_ok {o : Outcome} {text : String} (h : o.result = .ok text) : o.code = 0 ∧ o.printed = text := by
  unfold Outcome.code Outcome.printed
  rw [h]
  exact ⟨rfl, rfl⟩

/-- A run without an output that succeeds prints the documentation of its files and changes
nothing. One with an output that succeeds prints nothing, leaves in the file that the output
names what it would print without, and changes no other file. One that fails prints nothing
and changes no file. -/
theorem run_allOrNothing (fs : FileSystem) (s : Settings) :
    (s.output = none → (run fs s).code = 0 →
      (run fs s).after = fs ∧
        ∃ format paths tree, Format.ofName? s.format = some format ∧ (inputs fs s.files).result = .ok paths ∧
          (SyntaxTree.ofFiles fs paths).result = .ok tree ∧
          (run fs s).printed = format.document s.project tree.docs) ∧
    (∀ output, s.output = some output → (run fs s).code = 0 →
      (run fs s).printed = "" ∧ (run fs { s with output := none }).code = 0 ∧
        ∃ format place, Format.ofName? s.format = some format ∧
          (run fs s).after.locate (outputPath fs format ⟨output⟩) = .ok place ∧
          (run fs s).after.file? place = some (run fs { s with output := none }).printed.toUTF8 ∧
          ∀ other, other ≠ place → (run fs s).after.file? other = fs.file? other) ∧
    ((run fs s).code ≠ 0 →
      (run fs s).code = 1 ∧ (run fs s).printed = "" ∧
        ∀ place, (run fs s).after.file? place = fs.file? place) := by
  rcases run_cases fs s with ⟨e, herror, hgrows⟩ | ⟨format, text, hformat, htext, hrun⟩
  · obtain ⟨hcode, hprinted⟩ := code_error herror
    have hfailed : (run fs s).code ≠ 0 := by
      rw [hcode]
      decide
    exact ⟨fun _ h => absurd h hfailed, fun _ _ h => absurd h hfailed, fun _ => ⟨hcode, hprinted, hgrows.file?⟩⟩
  rcases hrun with ⟨hnone, hresult, hafter⟩ | ⟨output, middle, hsome, hresult, hgrows, hwrite⟩
  · obtain ⟨hcode, hprinted⟩ := code_ok hresult
    obtain ⟨paths, tree, hpaths, htree, hdocument⟩ := document_eq_ok_iff.mp htext
    refine ⟨fun _ _ => ⟨hafter, format, paths, tree, hformat, hpaths, htree, hprinted.trans hdocument⟩, ?_,
      fun h => absurd hcode h⟩
    intro output hsome
    rw [hnone] at hsome
    cases hsome
  · obtain ⟨hcode, hprinted⟩ := code_ok hresult
    have hconsole : (run fs { s with output := none }).result = .ok text := run_console hformat htext rfl
    obtain ⟨hcode', hprinted'⟩ := code_ok hconsole
    obtain ⟨place, hplace, -, hset, hlocate⟩ := FileSystem.exists_set_of_write hwrite
    refine ⟨fun hnone => ?_, ?_, fun h => absurd hcode h⟩
    · rw [hsome] at hnone
      cases hnone
    · intro output' hsome' _
      obtain rfl : output = output' := Option.some.inj (hsome.symm.trans hsome')
      refine ⟨hprinted, hcode', format, place, hformat, hlocate, ?_, fun other hother => ?_⟩
      · rw [hprinted', hset, FileSystem.file?_set hplace, if_pos rfl]
      · rw [hset, FileSystem.file?_set hplace, if_neg hother]
        exact hgrows.file? other

/-- A file without modules. -/
def lone : FileSystem := ⟨[(["a.json"], .file "\x7b\x7d".toUTF8)], []⟩

/-- The file is documented in its own place. -/
def loneSettings : Settings := ⟨["a.json"], "json", some "a.json", "P", 0⟩

theorem ofFile_lone : SyntaxTree.ofFile lone ⟨"a.json"⟩ = .ok ⟨[]⟩ :=
  SyntaxTree.ofFile_of_find rfl (by decide +kernel)

theorem run_lone :
    (run lone loneSettings).code = 0 ∧ (run lone loneSettings).printed = "" ∧
      ∃ place, (run lone loneSettings).after.file? place =
        some (run lone { loneSettings with output := none }).printed.toUTF8 := by
  have htree : (SyntaxTree.ofFiles lone [⟨"a.json"⟩]).result = .ok ⟨[]⟩ := by
    rw [SyntaxTree.ofFiles, SyntaxTree.mergeFiles, ofFile_lone]
    rfl
  have hinputs : (inputs lone loneSettings.files).result = .ok [⟨"a.json"⟩] := rfl
  have htext : (document lone loneSettings .json).result = .ok (Format.json.document "P" []) :=
    document_eq_ok_iff.mpr ⟨_, _, hinputs, htree, rfl⟩
  have hcode : (run lone loneSettings).code = 0 := by
    rw [run, show Format.ofName? loneSettings.format = some .json by decide]
    dsimp only
    rw [htext]
    rfl
  obtain ⟨-, houtput, -⟩ := run_allOrNothing lone loneSettings
  obtain ⟨hprinted, -, format, place, -, -, hcontent, -⟩ := houtput "a.json" rfl hcode
  exact ⟨hcode, hprinted, place, hcontent⟩

end Command
end ApiReference
