/-
# Which files are loaded twice

A path is left out as a repeat only behind one that is the same. So no path is loaded twice if
and only if paths that are the same stand together among those of all arguments
(`pairwise_dropRepeats_iff`), as the paths of a single argument do, which are in order; a path
between two that are the same keeps both (`inputs_interrupted`). What is reported of the files
that are loaded is each module of a file that one before it defines (`mem_events_ofFiles_iff`),
so of a file that is loaded twice every module is reported, whether another file defines it or
not.

Key definitions: `StandTogether`, `SyntaxTree.Defines`.
Key theorems: `pairwise_dropRepeats_iff`, `mem_redefinitions_iff`, `mem_events_ofFiles_iff`,
`mem_events_run_iff`, `inputs_distinct_iff`.
-/
import ApiReference.Proofs.Command.Enumerating
import ApiReference.Proofs.Command.Repeats

namespace ApiReference

/-! ### Modules that are defined again -/

namespace SyntaxTree

variable {fs : FileSystem} {paths : List Path} {name file : String}

/-- A file gives a tree with a module of that name. -/
def Defines (fs : FileSystem) (p : Path) (name : String) : Prop := ∃ t, ofFile fs p = .ok t ∧ name ∈ t.names

/-- Of two items in a list the second is the last item, or both come before it. -/
theorem pair_sublist_concat_iff {α : Type} {a b x : α} {xs : List α} :
    [a, b].Sublist (xs ++ [x]) ↔ [a, b].Sublist xs ∨ a ∈ xs ∧ b = x := by
  have hreverse : ∀ ys : List α, [a, b].Sublist ys ↔ [b, a].Sublist ys.reverse := fun ys => List.reverse_sublist.symm
  rw [hreverse, hreverse, List.reverse_concat, List.sublist_cons_iff]
  refine or_congr_right ⟨?_, ?_⟩
  · rintro ⟨rest, heq, hrest⟩
    cases heq
    exact ⟨List.mem_reverse.mp (List.singleton_sublist.mp hrest), rfl⟩
  · rintro ⟨ha, rfl⟩
    exact ⟨[a], rfl, List.singleton_sublist.mpr (List.mem_reverse.mpr ha)⟩

/-- A module is reported of a file exactly if a file before it has the module, too. -/
theorem mem_redefinitions_iff {files : List (Path × SyntaxTree)} :
    .redefined name file ∈ redefinitions files ↔
      ∃ f g, [f, g].Sublist files ∧ g.1.text = file ∧ name ∈ f.2.names ∧ name ∈ g.2.names := by
  induction files using List.reverseRecOn with
  | nil =>
    refine iff_of_false List.not_mem_nil ?_
    rintro ⟨f, g, hfg, -⟩
    cases hfg
  | append_singleton files last ih =>
    rw [redefinitions_concat, List.mem_append, ih]
    simp only [pair_sublist_concat_iff, or_and_right, exists_or]
    refine or_congr_right ?_
    simp only [List.mem_map, List.mem_filter, List.any_eq_true, decide_eq_true_eq, Event.redefined.injEq]
    constructor
    · rintro ⟨_, ⟨hlast, f, hf, hname⟩, rfl, rfl⟩
      exact ⟨f, last, ⟨hf, rfl⟩, rfl, hname, hlast⟩
    · rintro ⟨f, _, ⟨hf, rfl⟩, rfl, hname, hlast⟩
      exact ⟨name, ⟨hlast, f, hf, hname⟩, rfl, rfl⟩

/-- If all files can be loaded, exactly the modules that a file before has as well are reported. -/
theorem mem_events_ofFiles_iff (h : Loads fs paths) : .redefined name file ∈ (ofFiles fs paths).events ↔
    ∃ p q, [p, q].Sublist paths ∧ q.text = file ∧ Defines fs p name ∧ Defines fs q name := by
  obtain ⟨t, ht⟩ := exists_ofFiles_iff.mpr h
  obtain ⟨files, rfl, hfiles⟩ := exists_decoded ht
  rw [ofFiles_of_decoded hfiles, mem_redefinitions_iff]
  constructor
  · rintro ⟨f, g, hfg, rfl, hf, hg⟩
    obtain ⟨hfmem, hgmem⟩ : f ∈ files ∧ g ∈ files := by simpa using hfg.subset
    exact ⟨f.1, g.1, hfg.map Prod.fst, rfl, ⟨f.2, hfiles f hfmem, hf⟩, ⟨g.2, hfiles g hgmem, hg⟩⟩
  · rintro ⟨p, q, hpq, rfl, ⟨t, ht, hnamet⟩, ⟨u, hu, hnameu⟩⟩
    obtain ⟨pair, hpair, heq⟩ := List.sublist_map_iff.mp hpq
    obtain ⟨f, g, rfl⟩ : ∃ f g, pair = [f, g] := List.length_eq_two.mp (by simpa using (congrArg List.length heq).symm)
    obtain ⟨hfmem, hgmem⟩ : f ∈ files ∧ g ∈ files := by simpa using hpair.subset
    cases heq
    obtain rfl : f.2 = t := Except.ok.inj ((hfiles f hfmem).symm.trans ht)
    obtain rfl : g.2 = u := Except.ok.inj ((hfiles g hgmem).symm.trans hu)
    exact ⟨f, g, hpair, rfl, hnamet, hnameu⟩

/-- Whether or not all files can be loaded, no other module is reported. -/
theorem exists_of_mem_events (h : .redefined name file ∈ (ofFiles fs paths).events) :
    ∃ p q, [p, q].Sublist paths ∧ q.text = file ∧ Defines fs p name ∧ Defines fs q name := by
  rcases forall_ok_or_exists_first (ofFile fs) paths with hall | ⟨before, path, after, e, rfl, hbefore, he⟩
  · exact (mem_events_ofFiles_iff hall).mp h
  · rw [ofFiles, mergeFiles_of_refused hbefore he] at h
    obtain ⟨p, q, hpq, hboth⟩ := (mem_events_ofFiles_iff hbefore).mp h
    exact ⟨p, q, List.sublist_append_of_sublist_left hpq, hboth⟩

end SyntaxTree

namespace Command

open ApiReference.Path (orderKey)
open SyntaxTree (Defines Loads ofFile ofFiles)

variable {fs : FileSystem} {paths : List Path} {s : Settings} {name file : String}

/-! ### Paths that stand together -/

/-- What stands between two paths that are the same is the same as they. -/
def StandTogether (paths : List Path) : Prop :=
  ∀ p q r, [p, q, r].Sublist paths → p.same r = true → q.same p = true

theorem standTogether_iff : StandTogether paths ↔ Stutter.Together (paths.map orderKey) := by
  constructor
  · intro h x y hxy
    obtain ⟨triple, htriple, heq⟩ := List.sublist_map_iff.mp hxy
    obtain ⟨p, q, r, rfl⟩ : ∃ p q r, triple = [p, q, r] :=
      List.length_eq_three.mp (by simpa using (congrArg List.length heq).symm)
    injection heq with hp heq
    injection heq with hq heq
    injection heq with hr _
    rw [hp, hq]
    exact (Path.same_iff_orderKey q p).mp (h p q r htriple ((Path.same_iff_orderKey p r).mpr (hp.symm.trans hr)))
  · intro h p q r hpqr hsame
    have hkeys : [p.orderKey, q.orderKey, p.orderKey].Sublist (paths.map orderKey) := by
      have hmap := hpqr.map orderKey
      rwa [List.map_cons, List.map_cons, List.map_singleton, ← (Path.same_iff_orderKey p r).mp hsame] at hmap
    exact (Path.same_iff_orderKey q p).mpr (h _ _ hkeys)

/-- Leaving out repeats leaves no path twice exactly if paths that are the same stand together. -/
theorem pairwise_dropRepeats_iff :
    (dropRepeats paths).Pairwise (fun p q => p.same q = false) ↔ StandTogether paths := by
  rw [standTogether_iff, ← Stutter.nodup_destutter_iff, ← map_dropRepeats, List.Nodup, List.pairwise_map]
  simp only [← Bool.not_eq_true, Path.same_iff_orderKey, ne_eq]

/-- Paths in order stand together. -/
theorem standTogether_of_pairwise (h : paths.Pairwise fun p q => q.before p = false) : StandTogether paths := by
  intro p q r hpqr hsame
  have hordered := h.sublist hpqr
  simp only [List.pairwise_cons, List.mem_cons, List.not_mem_nil, or_false, forall_eq_or_imp, forall_eq,
    Path.before_eq_false_iff] at hordered
  obtain ⟨⟨hpq, -⟩, hqr, -⟩ := hordered
  rw [Path.same_iff_orderKey] at hsame ⊢
  exact le_antisymm (hsame ▸ hqr) hpq

theorem standTogether_pathsOf (fs : FileSystem) (argument : String) : StandTogether (pathsOf fs argument) :=
  standTogether_of_pairwise (pairwise_pathsOf fs argument)

/-! ### What a run reports -/

theorem not_mem_events_inputs (arguments : List String) :
    .redefined name file ∉ (inputs fs arguments).events := by
  show .redefined name file ∉ (expand fs arguments).events
  induction arguments with
  | nil => exact List.not_mem_nil
  | cons argument rest ih =>
    rw [expand]
    cases inputsOf fs argument with
    | error e => exact List.not_mem_nil
    | ok paths =>
      refine fun h => (List.mem_append.mp h).elim (fun hnone => ?_) ih
      split at hnone <;> simp at hnone

theorem not_mem_events (t : SyntaxTree) : .redefined name file ∉ t.events := by
  have hname : ∀ (module : String) (n : Node), .redefined name file ∉ n.nameEvents module := by
    intro module n
    unfold Node.nameEvents
    split <;> simp
  have hchild : ∀ (module function : String) (n : Node), .redefined name file ∉ n.childEvents module function := by
    intro module function n
    unfold Node.childEvents
    split <;> simp [hname]
  simp [SyntaxTree.events, Root.events, Node.functionEvents, hname, hchild]

theorem mem_events_document_iff (format : Format) : .redefined name file ∈ (document fs s format).events ↔
    ∃ paths, (inputs fs s.files).result = .ok paths ∧ .redefined name file ∈ (ofFiles fs paths).events := by
  unfold document
  dsimp only
  cases (inputs fs s.files).result with
  | error e => simp [not_mem_events_inputs]
  | ok paths =>
    dsimp only
    cases (ofFiles fs paths).result <;> simp [not_mem_events_inputs, not_mem_events]

/-- A run reports what merging its files replaces. -/
theorem mem_events_run_iff : .redefined name file ∈ (run fs s).events ↔ (Format.ofName? s.format).isSome ∧
    ∃ paths, (inputs fs s.files).result = .ok paths ∧ .redefined name file ∈ (ofFiles fs paths).events := by
  unfold run
  cases Format.ofName? s.format with
  | none => simp
  | some format =>
    rw [← mem_events_document_iff format, Option.isSome_some, and_iff_right rfl]
    dsimp only
    cases (document fs s format).result with
    | error e => exact Iff.rfl
    | ok text =>
      cases s.output with
      | none => exact Iff.rfl
      | some output =>
        dsimp only
        split
        · exact Iff.rfl
        · simp

/-- No path is loaded twice if and only if paths that are the same stand together among those of
all arguments, as they do if there is one argument only. Then a module is reported as defined
again only if two paths that are not the same define it. In any case, when all files can be
loaded, the modules reported are exactly those that a path before in the list defines as well, so
every module of a file that is loaded twice is reported. -/
theorem inputs_distinct_iff (h : (inputs fs s.files).result = .ok paths) :
    (paths.Pairwise (fun p q => p.same q = false) ↔ StandTogether (s.files.flatMap (pathsOf fs))) ∧
    (∀ argument, s.files = [argument] → StandTogether (s.files.flatMap (pathsOf fs))) ∧
    (StandTogether (s.files.flatMap (pathsOf fs)) → ∀ name file, .redefined name file ∈ (run fs s).events →
      ∃ p ∈ paths, ∃ q ∈ paths, p.same q = false ∧ q.text = file ∧ Defines fs p name ∧ Defines fs q name) ∧
    ((Format.ofName? s.format).isSome → Loads fs paths → ∀ name file, .redefined name file ∈ (run fs s).events ↔
      ∃ p q, [p, q].Sublist paths ∧ q.text = file ∧ Defines fs p name ∧ Defines fs q name) := by
  obtain ⟨-, rfl, -⟩ := result_inputs_eq_ok_iff.mp h
  refine ⟨pairwise_dropRepeats_iff, ?_, ?_, ?_⟩
  · intro argument hargument
    rw [hargument, List.flatMap_singleton]
    exact standTogether_pathsOf fs argument
  · intro htogether name file hevent
    obtain ⟨-, paths, hpaths, hloading⟩ := mem_events_run_iff.mp hevent
    obtain rfl : expandedPaths fs s.files = paths := Except.ok.inj (h.symm.trans hpaths)
    obtain ⟨p, q, hpq, htext, hp, hq⟩ := SyntaxTree.exists_of_mem_events hloading
    obtain ⟨hpmem, hqmem⟩ : p ∈ expandedPaths fs s.files ∧ q ∈ expandedPaths fs s.files := by simpa using hpq.subset
    have hdistinct := List.pairwise_iff_forall_sublist.mp (pairwise_dropRepeats_iff.mpr htogether) hpq
    exact ⟨p, hpmem, q, hqmem, hdistinct, htext, hp, hq⟩
  · intro hformat hloads name file
    rw [mem_events_run_iff, ← SyntaxTree.mem_events_ofFiles_iff hloads]
    constructor
    · rintro ⟨-, paths, hpaths, hevent⟩
      rwa [Except.ok.inj (h.symm.trans hpaths)]
    · exact fun hevent => ⟨hformat, _, h, hevent⟩

theorem ofFile_pair : ofFile pair ⟨"a"⟩ = .ok ⟨[("m", ⟨[]⟩)]⟩ ∧ ofFile pair ⟨"b"⟩ = .ok ⟨[]⟩ :=
  ⟨SyntaxTree.ofFile_of_find rfl (by decide +kernel), SyntaxTree.ofFile_of_find rfl (by decide +kernel)⟩

/-- The file at the end of the matches is the one that is named behind them. -/
theorem inputs_distinct_iff_overlapping :
    (inputs pair ["*", "b"]).result = .ok [⟨"a"⟩, ⟨"b"⟩] ∧ StandTogether (["*", "b"].flatMap (pathsOf pair)) := by
  have hinputs : (inputs pair ["*", "b"]).result = .ok [⟨"a"⟩, ⟨"b"⟩] := by
    simp only [inputs, expand, inputsOf, files_pair]
    rfl
  obtain ⟨hdistinct, -⟩ := inputs_distinct_iff (s := ⟨["*", "b"], "text", none, "P", 0⟩) hinputs
  exact ⟨hinputs, hdistinct.mp (by decide)⟩

/-- A file that is named again behind another is loaded twice, and its module is reported though
no other file defines it. -/
theorem inputs_interrupted :
    (inputs pair ["a", "b", "a"]).result = .ok [⟨"a"⟩, ⟨"b"⟩, ⟨"a"⟩] ∧
      .redefined "m" "a" ∈ (run pair ⟨["a", "b", "a"], "text", none, "P", 0⟩).events ∧
      ¬Defines pair ⟨"b"⟩ "m" := by
  have hinputs : (inputs pair ["a", "b", "a"]).result = .ok [⟨"a"⟩, ⟨"b"⟩, ⟨"a"⟩] := by decide +kernel
  obtain ⟨ha, hb⟩ := ofFile_pair
  have hdefines : Defines pair ⟨"a"⟩ "m" := ⟨_, ha, List.mem_singleton.mpr rfl⟩
  have hloads : Loads pair [⟨"a"⟩, ⟨"b"⟩, ⟨"a"⟩] := by
    simp only [Loads, List.forall_mem_cons, List.not_mem_nil, false_imp_iff, implies_true, and_true]
    exact ⟨⟨_, ha⟩, ⟨_, hb⟩, ⟨_, ha⟩⟩
  have hevent : .redefined "m" "a" ∈ (ofFiles pair [⟨"a"⟩, ⟨"b"⟩, ⟨"a"⟩]).events :=
    (SyntaxTree.mem_events_ofFiles_iff hloads).mpr ⟨⟨"a"⟩, ⟨"a"⟩, by decide, rfl, hdefines, hdefines⟩
  refine ⟨hinputs, mem_events_run_iff.mpr ⟨by decide, _, hinputs, hevent⟩, ?_⟩
  rintro ⟨t, ht, hname⟩
  obtain rfl : ⟨[]⟩ = t := Except.ok.inj (hb.symm.trans ht)
  cases hname

end Command
end ApiReference
