/-
# Running once more

A run that succeeds leaves the output where a second run looks for it: directories stay, the
path that has been written to is none, and a slash at the end is a matter of the text
(`outputPath_of_deliver`). The directory of the output is there by then, and writing the same
text again changes nothing (`deliver_of_deliver`). So if the second run has the same files to
load, and none of them is the output, it leaves the file system as it is (`run_run`).

Key definitions: `Delivered`.
Key theorems: `outputPath_of_deliver`, `deliver_of_deliver`, `Delivered.find`, `run_run`.
-/
import ApiReference.Proofs.Command.Failing
import ApiReference.Proofs.Command.Repeats
import ApiReference.Proofs.File.Repeating

namespace ApiReference
namespace Command

open FileSystem (Extends Grows)
open SyntaxTree (Loads ofFile ofFiles)

variable {fs after later : FileSystem} {s : Settings} {path p : Path} {text : String}

/-! ### Delivering -/

theorem deliver_eq_ok_iff : deliver fs path text = (after, none) ↔
    (prepare fs path).error = none ∧ (prepare fs path).after.write path text = .ok after := by
  have hwriteFile : ∀ middle : FileSystem, writeFile middle path text = (after, none) ↔
      middle.write path text = .ok after := by
    intro middle
    unfold writeFile
    cases middle.write path text <;> simp
  unfold deliver prepare
  cases directoryOf? path with
  | none => simp [hwriteFile]
  | some directory =>
    dsimp only
    cases herror : (fs.makeDirectories directory).error with
    | none => simp [hwriteFile]
    | some e => simp

theorem grows_prepare (fs : FileSystem) (path : Path) : Grows fs (prepare fs path).after := by
  unfold prepare
  split
  · exact .refl fs
  · exact FileSystem.grows_makeDirectories fs _

/-- The directory of a path is made once. -/
theorem prepare_of_prepare (h : (prepare fs path).error = none) (hlater : Extends (prepare fs path).after later) :
    prepare later path = ⟨later, none⟩ := by
  unfold prepare at *
  cases hdirectory : directoryOf? path with
  | none => rfl
  | some directory =>
    rw [hdirectory] at h hlater
    refine FileSystem.makeDirectories_of_isDirectory ?_
    exact (FileSystem.isDirectory_of_makeDirectories h).imp_right (FileSystem.isDirectory_of_extends hlater)

/-- What has been delivered is in a file, where no directory was; nothing else has changed but for
directories that are new. -/
structure Delivered (fs : FileSystem) (path : Path) (text : String) (after : FileSystem) (place : Place) : Prop where
  grows : Grows fs (prepare fs path).after
  notRoot : place ≠ []
  free : (prepare fs path).after.entry? place ≠ some .directory
  set : after = (prepare fs path).after.set place (.file text.toUTF8)
  locate : after.locate path = .ok place

theorem exists_delivered (h : deliver fs path text = (after, none)) : ∃ place, Delivered fs path text after place := by
  obtain ⟨-, hwrite⟩ := deliver_eq_ok_iff.mp h
  obtain ⟨place, hroot, hfree, hset, hlocate⟩ := FileSystem.exists_set_of_write hwrite
  exact ⟨place, grows_prepare fs path, hroot, hfree, hset, hlocate⟩

namespace Delivered

variable {place : Place}

theorem entry? (h : Delivered fs path text after place) (other : Place) : after.entry? other =
    if other = place then some (.file text.toUTF8) else (prepare fs path).after.entry? other := by
  rw [h.set, FileSystem.entryAt_set _ h.notRoot]

theorem extends_prepared (h : Delivered fs path text after place) : Extends (prepare fs path).after after := by
  rw [h.set]
  exact FileSystem.extends_set h.notRoot h.free _

theorem extends_first (h : Delivered fs path text after place) : Extends fs after :=
  h.grows.extends.trans h.extends_prepared

/-- The output is no directory. -/
theorem isDirectory (h : Delivered fs path text after place) : after.isDirectory path = false := by
  rw [Bool.eq_false_iff, ne_eq, FileSystem.isDirectory_iff, h.locate]
  rintro ⟨other, hother, hdirectory⟩
  cases hother
  rw [FileSystem.hasDirectory_iff, h.entry?, if_pos rfl] at hdirectory
  cases hdirectory

/-- A file that is not the output is as it was. -/
theorem find {content : ByteArray} (h : Delivered fs path text after place)
    (hp : fs.find p = .ok (.file content)) (hother : after.locate p ≠ .ok place) :
    after.find p = .ok (.file content) := by
  obtain ⟨first, last, hstart, hfollow, hentry⟩ := FileSystem.find_eq_ok_iff.mp hp
  have hlocate : after.locate p = .ok last := by
    refine FileSystem.locate_of_extends h.extends_first ?_
    rw [FileSystem.locate, hstart]
    exact hfollow
  have hne : last ≠ place := by
    rintro rfl
    exact hother hlocate
  refine FileSystem.find_eq_ok_iff.mpr ⟨first, last, ?_, FileSystem.follow_of_extends h.extends_first hfollow, ?_⟩
  · rw [FileSystem.start_of_extends h.extends_first, hstart]
  · rw [h.entry?, if_neg hne]
    rcases h.grows.entry last with hsame | ⟨hnone, -⟩
    · exact hsame.trans hentry
    · rw [hentry] at hnone
      cases hnone

end Delivered

/-- The same text is delivered to the same path once more, and nothing changes. -/
theorem deliver_of_deliver (h : deliver fs path text = (after, none)) : deliver after path text = (after, none) := by
  obtain ⟨place, hdelivered⟩ := exists_delivered h
  obtain ⟨herror, hwrite⟩ := deliver_eq_ok_iff.mp h
  have hprepare := prepare_of_prepare herror hdelivered.extends_prepared
  refine deliver_eq_ok_iff.mpr ⟨by rw [hprepare], ?_⟩
  rw [hprepare]
  exact FileSystem.write_of_write hwrite

/-- Where the output goes stays the same, once it is there. -/
theorem outputPath_of_deliver {format : Format} {output : Path}
    (h : deliver fs (outputPath fs format output) text = (after, none)) (other : Format) :
    outputPath after other output = outputPath fs other output := by
  obtain ⟨place, hdelivered⟩ := exists_delivered h
  unfold outputPath
  cases hslash : output.endsInSlash with
  | true => rfl
  | false =>
    cases hdirectory : fs.isDirectory output with
    | true => rw [FileSystem.isDirectory_of_extends hdelivered.extends_first hdirectory]
    | false =>
      -- it has been written to, so it is a file now
      have hpath : outputPath fs format output = output := by
        rw [outputPath, hslash, hdirectory]
        rfl
      have hfile := hdelivered.isDirectory
      rw [hpath] at hfile
      rw [hfile]

/-! ### Running -/

/-- With an output, a run succeeds exactly if there is documentation and it can be delivered. -/
theorem code_eq_zero_iff {output : String} (houtput : s.output = some output) : (run fs s).code = 0 ↔
    ∃ format text, Format.ofName? s.format = some format ∧ (document fs s format).result = .ok text ∧
      deliver fs (outputPath fs format ⟨output⟩) text = ((run fs s).after, none) := by
  unfold run
  cases Format.ofName? s.format with
  | none => simp [Outcome.code]
  | some format =>
    dsimp only
    cases hdocument : (document fs s format).result with
    | error e => simp [Outcome.code, hdocument]
    | ok text =>
      rw [houtput]
      dsimp only
      rcases hdeliver : deliver fs (outputPath fs format ⟨output⟩) text with ⟨after, _ | e⟩
      · simp [Outcome.code, hdocument, hdeliver]
      · simp [Outcome.code, hdocument, hdeliver]

/-- The files are loaded as before if none of them is the output. -/
theorem document_of_deliver {format : Format} {paths : List Path} (h : deliver fs path text = (after, none))
    (hdocument : (document fs s format).result = .ok text) (hinputs : (inputs fs s.files).result = .ok paths)
    (hagain : (inputs after s.files).result = .ok paths)
    (hother : ∀ p ∈ paths, after.locate p ≠ after.locate path) : (document after s format).result = .ok text := by
  obtain ⟨place, hdelivered⟩ := exists_delivered h
  obtain ⟨paths', tree, hpaths, htree, htext⟩ := document_eq_ok_iff.mp hdocument
  obtain rfl : paths' = paths := Except.ok.inj (hpaths.symm.trans hinputs)
  have hfiles : ∀ p ∈ paths', ofFile after p = ofFile fs p := by
    intro p hp
    obtain ⟨t, ht⟩ := SyntaxTree.exists_ofFiles_iff.mp ⟨tree, htree⟩ p hp
    obtain ⟨content, hfind⟩ := FileSystem.isFile_iff.mp (SyntaxTree.isFile_of_ofFile ht)
    have hnot : after.locate p ≠ .ok place := by
      rw [← hdelivered.locate]
      exact hother p hp
    refine SyntaxTree.ofFile_congr ?_
    rw [FileSystem.read, FileSystem.read, hdelivered.find hfind hnot, hfind]
  refine document_eq_ok_iff.mpr ⟨paths', tree, hagain, ?_, htext⟩
  rw [ofFiles, SyntaxTree.mergeFiles_congr hfiles]
  exact htree

/-- After a run that succeeds, an output goes where it went, in every format. If a second run has
the same files to load, and none of them is the output, it succeeds, too, and the file system
stays as the first has left it. -/
theorem run_run {output : String} (houtput : s.output = some output) (h : (run fs s).code = 0) :
    (∀ format, outputPath (run fs s).after format ⟨output⟩ = outputPath fs format ⟨output⟩) ∧
    ((inputs (run fs s).after s.files).result = (inputs fs s.files).result →
      (∀ format paths, Format.ofName? s.format = some format → (inputs fs s.files).result = .ok paths →
        ∀ p ∈ paths, (run fs s).after.locate p ≠ (run fs s).after.locate (outputPath fs format ⟨output⟩)) →
      (run (run fs s).after s).code = 0 ∧ (run (run fs s).after s).after = (run fs s).after) := by
  obtain ⟨format, text, hformat, hdocument, hdeliver⟩ := (code_eq_zero_iff houtput).mp h
  have hpath := outputPath_of_deliver hdeliver
  refine ⟨hpath, fun hinputs hother => ?_⟩
  obtain ⟨paths, -, hpaths, -⟩ := document_eq_ok_iff.mp hdocument
  have hagain := document_of_deliver hdeliver hdocument hpaths (hinputs.trans hpaths)
    (hother format paths hformat hpaths)
  have hdeliver' := deliver_of_deliver hdeliver
  rw [← hpath format] at hdeliver'
  have hafter : (run (run fs s).after s).after = (run fs s).after := by
    rw [run, hformat]
    dsimp only
    rw [hagain, houtput]
    dsimp only
    rw [hdeliver']
  refine ⟨(code_eq_zero_iff houtput).mpr ⟨format, text, hformat, hagain, ?_⟩, hafter⟩
  rw [hafter]
  exact hdeliver'

/-- The file is documented in a directory that is not there yet, nor is the one above it. -/
def nested : Settings := ⟨["a.json"], "json", some "d/e/", "P", 0⟩

/-- The file, the two directories, and the documentation. -/
def nestedAfter : FileSystem :=
  ⟨lone.entries ++ [(["d"], .directory), (["d", "e"], .directory),
    (["d", "e", "index.json"], .file (Format.json.document "P" []).toUTF8)], []⟩

theorem run_run_nested :
    (run lone nested).code = 0 ∧ (run lone nested).after = nestedAfter ∧
      outputPath nestedAfter .markdown ⟨"d/e/"⟩ = ⟨"d/e/index.md"⟩ ∧
      (run nestedAfter nested).code = 0 ∧ (run nestedAfter nested).after = nestedAfter := by
  have htree : (ofFiles lone [⟨"a.json"⟩]).result = .ok ⟨[]⟩ := by
    rw [ofFiles, SyntaxTree.mergeFiles, ofFile_lone]
    rfl
  have hdocument : (document lone nested .json).result = .ok (Format.json.document "P" []) :=
    document_eq_ok_iff.mpr ⟨[⟨"a.json"⟩], _, rfl, htree, rfl⟩
  have hpath : outputPath lone .json ⟨"d/e/"⟩ = ⟨"d/e/index.json"⟩ := rfl
  have hdeliver : deliver lone ⟨"d/e/index.json"⟩ (Format.json.document "P" []) = (nestedAfter, none) := rfl
  have hafter : (run lone nested).after = nestedAfter := by
    rw [run, show Format.ofName? nested.format = some .json by decide]
    dsimp only
    rw [hdocument, show nested.output = some "d/e/" from rfl]
    dsimp only
    rw [hpath, hdeliver]
  have hcode : (run lone nested).code = 0 := by
    refine (code_eq_zero_iff rfl).mpr ⟨.json, _, by decide, hdocument, ?_⟩
    rw [hafter, hpath, hdeliver]
  obtain ⟨houtput, hagain⟩ := run_run (s := nested) rfl hcode
  rw [hafter] at houtput hagain
  refine ⟨hcode, hafter, ?_, hagain rfl ?_⟩
  · exact houtput .markdown
  · intro format paths hformat hpaths p hp
    obtain rfl : .json = format := Option.some.inj hformat
    obtain rfl : [⟨"a.json"⟩] = paths := Except.ok.inj hpaths
    obtain rfl : p = ⟨"a.json"⟩ := List.mem_singleton.mp hp
    have hinput : nestedAfter.locate ⟨"a.json"⟩ = .ok ["a.json"] := rfl
    have hplace : nestedAfter.locate (outputPath lone .json ⟨"d/e/"⟩) = .ok ["d", "e", "index.json"] := rfl
    rw [hinput, hplace]
    decide

end Command
end ApiReference
