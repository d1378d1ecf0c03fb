/-
# Which failure a run reports

The stages of a run come one after the other: the format, the patterns, what is left to load,
loading, the directory of the output, writing. A run fails with the first failure in this order
(`FirstFailure`); all that a later stage would look at does not matter to it.

Key definitions: `prepare`, `Documented`, `FirstFailure`.
Key theorems: `deliver_eq_some_iff`, `document_eq_error_iff`, `result_run_eq_error_iff`,
`run_firstFailure`.
-/
import ApiReference.Proofs.Command.Expanding
import ApiReference.Proofs.Command.Running
import ApiReference.Proofs.Tree.Loading

namespace ApiReference
namespace Command

open SyntaxTree (Loads ofFile ofFiles)

variable {fs : FileSystem} {s : Settings}

/-! ### Failures of the stages -/

/-- Make the directory of a path, if it has one. -/
def prepare (fs : FileSystem) (path : Path) : FileSystem.Attempt :=
  match directoryOf? path with
  | none => ⟨fs, none⟩
  | some directory => fs.makeDirectories directory

theorem writeFile_eq_some_iff {path : Path} {text : String} {e : Failure} :
    (writeFile fs path text).2 = some e ↔ ∃ error, fs.write path text = .error error ∧ e = .write path error := by
  unfold writeFile
  cases fs.write path text with
  | ok after => simp
  | error error => simp [eq_comm]

/-- An output is not delivered because its directory cannot be made, or else because it cannot be
written there. -/
theorem deliver_eq_some_iff {path : Path} {text : String} {e : Failure} :
    (deliver fs path text).2 = some e ↔
      (∃ directory error, directoryOf? path = some directory ∧
        (fs.makeDirectories directory).error = some error ∧ e = .createDirectory directory error) ∨
      (prepare fs path).error = none ∧
        ∃ error, (prepare fs path).after.write path text = .error error ∧ e = .write path error := by
  unfold deliver prepare
  cases directoryOf? path with
  | none => simp [writeFile_eq_some_iff]
  | some directory =>
    dsimp only
    cases herror : (fs.makeDirectories directory).error with
    | none => simp [herror, writeFile_eq_some_iff]
    | some error => simp [herror, eq_comm]

theorem document_of_error {error : InputError} (h : (inputs fs s.files).result = .error error) (format : Format) :
    document fs s format = ⟨(inputs fs s.files).events, .error (.input error)⟩ := by
  unfold document
  dsimp only
  rw [h]

theorem document_of_refused {paths : List Path} {e : FileRefusal} (h : (inputs fs s.files).result = .ok paths)
    (he : (ofFiles fs paths).result = .error e) (format : Format) :
    document fs s format =
      ⟨(inputs fs s.files).events ++ (ofFiles fs paths).events, .error (.load e)⟩ := by
  unfold document
  dsimp only
  rw [h]
  dsimp only
  rw [he]

/-- There is no documentation if there is nothing to load or if loading fails. -/
theorem document_eq_error_iff {format : Format} {e : Failure} :
    (document fs s format).result = .error e ↔
      (∃ error, (inputs fs s.files).result = .error error ∧ e = .input error) ∨
      ∃ paths refusal, (inputs fs s.files).result = .ok paths ∧ (ofFiles fs paths).result = .error refusal ∧
        e = .load refusal := by
  unfold document
  dsimp only
  cases (inputs fs s.files).result with
  | error error => simp [eq_comm]
  | ok paths =>
    dsimp only
    cases hloaded : (ofFiles fs paths).result with
    | error refusal => simp [hloaded, eq_comm]
    | ok tree => simp [hloaded]

theorem run_of_unknown (h : Format.ofName? s.format = none) (fs : FileSystem) :
    run fs s = ⟨[], .error (.unknownFormat s.format), fs⟩ := by
  unfold run
  rw [h]

theorem run_of_document_error {format : Format} {e : Failure} (hf : Format.ofName? s.format = some format)
    (h : (document fs s format).result = .error e) : run fs s = ⟨(document fs s format).events, .error e, fs⟩ := by
  unfold run
  rw [hf]
  dsimp only
  rw [h]

/-- A run fails because the format is unknown, because there is no documentation, or because it
cannot be delivered. -/
theorem result_run_eq_error_iff {e : Failure} :
    (run fs s).result = .error e ↔
      Format.ofName? s.format = none ∧ e = .unknownFormat s.format ∨
      ∃ format, Format.ofName? s.format = some format ∧ ((document fs s format).result = .error e ∨
        ∃ text output, (document fs s format).result = .ok text ∧ s.output = some output ∧
          (deliver fs (outputPath fs format ⟨output⟩) text).2 = some e) := by
  unfold run
  cases Format.ofName? s.format with
  | none => simp [eq_comm]
  | some format =>
    dsimp only
    cases hdocument : (document fs s format).result with
    | error error => simp [hdocument]
    | ok text =>
      cases s.output with
      | none => simp [hdocument]
      | some output =>
        rcases hdeliver : deliver fs (outputPath fs format ⟨output⟩) text with ⟨after, _ | error⟩
        · simp [hdocument, hdeliver]
        · simp [hdocument, hdeliver]

/-! ### The first failure -/

/-- The documentation that settings ask for is a text. -/
structure Documented (fs : FileSystem) (s : Settings) (format : Format) (text : String) : Prop where
  known : Format.ofName? s.format = some format
  readable : Readable fs s.files
  found : ∃ argument ∈ s.files, pathsOf fs argument ≠ []
  loaded : ∃ tree, (ofFiles fs (expandedPaths fs s.files)).result = .ok tree ∧
    text = format.document s.project tree.docs

/-- The first failure of a run, by its stages. -/
inductive FirstFailure (fs : FileSystem) (s : Settings) : Failure → Prop where
  | unknown (h : Format.ofName? s.format = none) : FirstFailure fs s (.unknownFormat s.format)
  | pattern {format : Format} {argument : String} {e : Glob.Error} (hformat : Format.ofName? s.format = some format)
      (h : FirstMalformed fs s.files argument e) : FirstFailure fs s (.input (.badPattern argument e))
  | noFiles {format : Format} (hformat : Format.ofName? s.format = some format) (hreadable : Readable fs s.files)
      (h : ∀ argument ∈ s.files, pathsOf fs argument = []) : FirstFailure fs s (.input .noFiles)
  | load {format : Format} {before : List Path} {path : Path} {after : List Path} {e : FileRefusal}
      (hformat : Format.ofName? s.format = some format) (hreadable : Readable fs s.files)
      (hpaths : expandedPaths fs s.files = before ++ path :: after) (hbefore : Loads fs before)
      (h : ofFile fs path = .error e) : FirstFailure fs s (.load e)
  | directory {format : Format} {text output : String} {directory : Path} {e : FileError}
      (hdocumented : Documented fs s format text) (houtput : s.output = some output)
      (hdirectory : directoryOf? (outputPath fs format ⟨output⟩) = some directory)
      (h : (fs.makeDirectories directory).error = some e) : FirstFailure fs s (.createDirectory directory e)
  | write {format : Format} {text output : String} {path : Path} {e : FileError}
      (hdocumented : Documented fs s format text) (houtput : s.output = some output)
      (hpath : path = outputPath fs format ⟨output⟩) (hprepare : (prepare fs path).error = none)
      (h : (prepare fs path).after.write path text = .error e) : FirstFailure fs s (.write path e)

theorem documented_iff {format : Format} {text : String} (hformat : Format.ofName? s.format = some format) :
    Documented fs s format text ↔ (document fs s format).result = .ok text := by
  have hfound : (∃ argument ∈ s.files, pathsOf fs argument ≠ []) ↔ expandedPaths fs s.files ≠ [] := by
    rw [ne_eq, expandedPaths_eq_nil_iff]
    simp
  rw [document_eq_ok_iff]
  constructor
  · rintro ⟨-, hreadable, hargument, tree, htree, htext⟩
    exact ⟨_, tree, result_inputs_eq_ok_iff.mpr ⟨hreadable, rfl, hfound.mp hargument⟩, htree, htext⟩
  · rintro ⟨paths, tree, hpaths, htree, htext⟩
    obtain ⟨hreadable, rfl, hsome⟩ := result_inputs_eq_ok_iff.mp hpaths
    exact ⟨hformat, hreadable, hfound.mpr hsome, tree, htree, htext⟩

/-- Without documentation the failure is one of expanding or loading. -/
theorem firstFailure_of_document {format : Format} {e : Failure} (hformat : Format.ofName? s.format = some format)
    (h : (document fs s format).result = .error e) : FirstFailure fs s e := by
  rcases document_eq_error_iff.mp h with ⟨error, herror, rfl⟩ | ⟨paths, refusal, hpaths, hrefusal, rfl⟩
  · rcases result_inputs_eq_error_iff.mp herror with ⟨argument, e, hfirst, rfl⟩ | ⟨hreadable, hnone, rfl⟩
    · exact .pattern hformat hfirst
    · exact .noFiles hformat hreadable hnone
  · obtain ⟨hreadable, rfl, -⟩ := result_inputs_eq_ok_iff.mp hpaths
    obtain ⟨before, path, after, hsplit, hbefore, he⟩ := SyntaxTree.result_ofFiles_eq_error_iff.mp hrefusal
    exact .load hformat hreadable hsplit hbefore he

theorem firstFailure_of_result {e : Failure} (h : (run fs s).result = .error e) : FirstFailure fs s e := by
  rcases result_run_eq_error_iff.mp h with ⟨hunknown, rfl⟩ | ⟨format, hformat, hdocument | hdeliver⟩
  · exact .unknown hunknown
  · exact firstFailure_of_document hformat hdocument
  · obtain ⟨text, output, hdocument, houtput, hdeliver⟩ := hdeliver
    have hdocumented := (documented_iff hformat).mpr hdocument
    rcases deliver_eq_some_iff.mp hdeliver with ⟨directory, error, hdirectory, herror, rfl⟩ | ⟨hprepare, error, herror, rfl⟩
    · exact .directory hdocumented houtput hdirectory herror
    · exact .write hdocumented houtput rfl hprepare herror

theorem FirstFailure.result {e : Failure} (h : FirstFailure fs s e) : (run fs s).result = .error e := by
  rw [result_run_eq_error_iff]
  cases h with
  | unknown hunknown => exact .inl ⟨hunknown, rfl⟩
  | pattern hformat hfirst =>
    have hinputs := result_inputs_eq_error_iff.mpr (.inl ⟨_, _, hfirst, rfl⟩)
    exact .inr ⟨_, hformat, .inl (document_eq_error_iff.mpr (.inl ⟨_, hinputs, rfl⟩))⟩
  | noFiles hformat hreadable hnone =>
    have hinputs := result_inputs_eq_error_iff.mpr (.inr ⟨hreadable, hnone, rfl⟩)
    exact .inr ⟨_, hformat, .inl (document_eq_error_iff.mpr (.inl ⟨_, hinputs, rfl⟩))⟩
  | load hformat hreadable hpaths hbefore he =>
    have hsome : expandedPaths fs s.files ≠ [] := by simp [hpaths]
    have hinputs := result_inputs_eq_ok_iff.mpr ⟨hreadable, rfl, hsome⟩
    have hrefused := SyntaxTree.result_ofFiles_eq_error_iff.mpr ⟨_, _, _, hpaths, hbefore, he⟩
    exact .inr ⟨_, hformat, .inl (document_eq_error_iff.mpr (.inr ⟨_, _, hinputs, hrefused, rfl⟩))⟩
  | directory hdocumented houtput hdirectory he =>
    have hdocument := (documented_iff hdocumented.known).mp hdocumented
    refine .inr ⟨_, hdocumented.known, .inr ⟨_, _, hdocument, houtput, ?_⟩⟩
    exact deliver_eq_some_iff.mpr (.inl ⟨_, _, hdirectory, he, rfl⟩)
  | write hdocumented houtput hpath hprepare he =>
    subst hpath
    have hdocument := (documented_iff hdocumented.known).mp hdocumented
    refine .inr ⟨_, hdocumented.known, .inr ⟨_, _, hdocument, houtput, ?_⟩⟩
    exact deliver_eq_some_iff.mpr (.inr ⟨hprepare, _, he, rfl⟩)

/-! ### What a failure does not depend on -/

variable {other : FileSystem} {s' : Settings}

theorem run_of_firstMalformed {format : Format} {argument : String} {e : Glob.Error}
    (h : FirstMalformed fs s.files argument e) (houtline : other.outline = fs.outline)
    (hfiles : s'.files = s.files) (hformat : Format.ofName? s'.format = some format) :
    run other s' = ⟨(inputs fs s.files).events, .error (.input (.badPattern argument e)), other⟩ := by
  have hsame : inputs other s'.files = inputs fs s.files := by rw [hfiles, inputs_congr houtline]
  have hinputs : (inputs other s'.files).result = .error (.badPattern argument e) := by
    rw [hsame]
    exact result_inputs_eq_error_iff.mpr (.inl ⟨argument, e, h, rfl⟩)
  have hdocument := document_of_error hinputs format
  rw [run_of_document_error hformat (by rw [hdocument]), hdocument, hsame]

theorem run_of_refused {format : Format} {before after : List Path} {path : Path} {e : FileRefusal}
    (hreadable : Readable fs s.files) (hpaths : expandedPaths fs s.files = before ++ path :: after)
    (hbefore : Loads fs before) (he : ofFile fs path = .error e) (houtline : other.outline = fs.outline)
    (hread : ∀ p ∈ before ++ [path], other.read p = fs.read p) (hfiles : s'.files = s.files)
    (hformat : Format.ofName? s'.format = some format) :
    run other s' = ⟨(inputs fs s.files).events ++ (ofFiles fs before).events, .error (.load e), other⟩ := by
  have hsame : inputs other s'.files = inputs fs s.files := by rw [hfiles, inputs_congr houtline]
  have hinputs : (inputs other s'.files).result = .ok (before ++ path :: after) := by
    rw [hsame]
    exact result_inputs_eq_ok_iff.mpr ⟨hreadable, hpaths.symm, by simp⟩
  have hfile : ∀ p ∈ before ++ [path], ofFile other p = ofFile fs p :=
    fun p hp => SyntaxTree.ofFile_congr (hread p hp)
  rw [List.forall_mem_append, List.forall_mem_singleton] at hfile
  have hloads : Loads other before := by
    intro p hp
    rw [hfile.1 p hp]
    exact hbefore p hp
  have hrefused : ofFiles other (before ++ path :: after) = ⟨(ofFiles fs before).events, .error e⟩ := by
    rw [ofFiles, SyntaxTree.mergeFiles_of_refused hloads (hfile.2.trans he), SyntaxTree.mergeFiles_congr hfile.1]
    rfl
  have hdocument := document_of_refused hinputs (by rw [hrefused]) format
  rw [run_of_document_error hformat (by rw [hdocument]), hdocument, hrefused, hsame]

/-- A run fails with the first failure of its stages. An unknown format is reported whatever else
is asked for, and whatever files there are. Otherwise, the first malformed pattern is reported,
whatever the arguments before it name and whatever the files contain. Otherwise, the first file
that is refused is, whatever the files behind it contain; the project and the output do not
matter. -/
theorem run_firstFailure (fs : FileSystem) (s : Settings) :
    (∀ e, (run fs s).result = .error e ↔ FirstFailure fs s e) ∧
    (Format.ofName? s.format = none → ∀ other s', s'.format = s.format →
      (run other s').result = .error (.unknownFormat s.format) ∧ run other s' = { run fs s with after := other }) ∧
    (∀ argument e, Format.ofName? s.format ≠ none → FirstMalformed fs s.files argument e →
      ∀ other s', other.outline = fs.outline → s'.files = s.files → Format.ofName? s'.format ≠ none →
        (run other s').result = .error (.input (.badPattern argument e)) ∧
          run other s' = { run fs s with after := other }) ∧
    (∀ before path after e, Format.ofName? s.format ≠ none → Readable fs s.files →
      expandedPaths fs s.files = before ++ path :: after → Loads fs before → ofFile fs path = .error e →
      ∀ other s', other.outline = fs.outline → (∀ p ∈ before ++ [path], other.read p = fs.read p) →
        s'.files = s.files → Format.ofName? s'.format ≠ none →
        (run other s').result = .error (.load e) ∧ run other s' = { run fs s with after := other }) := by
  refine ⟨fun e => ⟨firstFailure_of_result, FirstFailure.result⟩, ?_, ?_, ?_⟩
  -- each run comes to an outcome that only the first file system and settings decide
  · intro hunknown other s' hformat
    rw [run_of_unknown hunknown, run_of_unknown (hformat ▸ hunknown), hformat]
    exact ⟨rfl, rfl⟩
  · intro argument e hformat hfirst other s' houtline hfiles hformat'
    obtain ⟨format, hformat⟩ := Option.ne_none_iff_exists'.mp hformat
    obtain ⟨format', hformat'⟩ := Option.ne_none_iff_exists'.mp hformat'
    rw [run_of_firstMalformed hfirst houtline hfiles hformat', run_of_firstMalformed hfirst rfl rfl hformat]
    exact ⟨rfl, rfl⟩
  · intro before path after e hformat hreadable hpaths hbefore he other s' houtline hread hfiles hformat'
    obtain ⟨format, hformat⟩ := Option.ne_none_iff_exists'.mp hformat
    obtain ⟨format', hformat'⟩ := Option.ne_none_iff_exists'.mp hformat'
    rw [run_of_refused hreadable hpaths hbefore he houtline hread hfiles hformat',
      run_of_refused hreadable hpaths hbefore he rfl (fun _ _ => rfl) rfl hformat]
    exact ⟨rfl, rfl⟩

/-- The file of `lone` is no syntax tree any more. -/
def spoiled : FileSystem := ⟨[(["a.json"], .file "[".toUTF8)], []⟩

/-- The format is unknown, the first file is missing, and there is a pattern that cannot be read. -/
def troubled : Settings := ⟨["b.json", "a.json", "["], "pdf", some "c/", "P", 0⟩

/-- The format is known; the first file is missing. -/
def lessTroubled : Settings := ⟨["b.json", "a.json"], "json", none, "Q", 0⟩

theorem run_firstFailure_troubled :
    run spoiled troubled = { run lone troubled with after := spoiled } ∧
    (run spoiled { troubled with format := "json" }).result = .error (.input (.badPattern "[" ⟨.badClass, 0⟩)) ∧
    run spoiled { lessTroubled with output := some "d", project := "R" } =
      { run lone lessTroubled with after := spoiled } := by
  have houtline : spoiled.outline = lone.outline := rfl
  have hplain : Readable lone ["b.json", "a.json"] := by
    intro argument hmem e hmalformed
    have hpattern := hmalformed.pattern
    rcases List.mem_pair.mp hmem with rfl | rfl <;> exact Bool.false_ne_true hpattern
  have hmalformed : Malformed lone "[" ⟨.badClass, 0⟩ := ⟨by decide, rfl, by cbv⟩
  have hmissing : ofFile lone ⟨"b.json"⟩ = .error (.missing ⟨"b.json"⟩) := SyntaxTree.ofFile_of_notFound rfl
  refine ⟨?_, ?_, ?_⟩
  · exact ((run_firstFailure lone troubled).2.1 (by decide) spoiled troubled rfl).2
  · exact ((run_firstFailure lone { troubled with format := "json" }).2.2.1 "[" ⟨.badClass, 0⟩ (by decide)
      ⟨["b.json", "a.json"], [], rfl, hplain, hmalformed⟩ spoiled _ houtline rfl (by decide)).1
  · refine ((run_firstFailure lone lessTroubled).2.2.2 [] ⟨"b.json"⟩ [⟨"a.json"⟩] _ (by decide) hplain rfl
      (List.forall_mem_nil _) hmissing spoiled _ houtline ?_ rfl (by decide)).2
    rw [List.nil_append, List.forall_mem_singleton]
    rfl

end Command
end ApiReference
