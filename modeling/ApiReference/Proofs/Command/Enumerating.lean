/-
# The order in which matches are found does not matter

The files to load are the paths of the arguments one after the other, each that is the same as
the one before it left out. An argument that is no pattern, or that names a file as it stands,
gives itself; any other gives the files it matches, in the order of paths (`pathsOf_literal`,
`mem_pathsOf`, `pairwise_pathsOf`). Matches that come in another order, or more than once, are in
the same order once they are sorted and their repeats left out, so the files to load are the same
(`sameAll_dropRepeats_pathsFrom`).

Key definitions: `Glob.Matches`, `Enumerates`, `pathsFrom`, `Path.sameAll`.
Key theorems: `map_dropRepeats`, `isChain_dropRepeats`, `mem_pathsOf`, `pairwise_pathsOf`,
`sameAll_dropRepeats_pathsFrom`, `inputs_enumerated`.
-/
import ApiReference.Proofs.Command.Expanding
import ApiReference.Proofs.File.Ordering
import ApiReference.Proofs.Stutter
import Mathlib.Data.List.Forall2

namespace ApiReference

/-- A path is one of those that a pattern matches. -/
def Glob.Matches (fs : FileSystem) (pattern : String) (p : Path) : Prop :=
  ∃ found, Glob.matching fs pattern = .ok found ∧ p ∈ found

/-- Two lists of paths have the same paths in the same places. -/
def Path.sameAll (ps qs : List Path) : Prop := List.Forall₂ (fun p q => p.same q = true) ps qs

theorem Path.sameAll_iff (ps qs : List Path) : Path.sameAll ps qs ↔ ps.map Path.orderKey = qs.map Path.orderKey := by
  unfold Path.sameAll
  rw [← List.forall₂_eq_eq_eq, List.forall₂_map_left_iff, List.forall₂_map_right_iff]
  simp only [Path.same_iff_orderKey]

/-- Where paths are spelled in one way only, lists with the same paths are equal. -/
theorem Path.eq_of_sameAll {ps qs : List Path} (h : Path.sameAll ps qs)
    (hspelled : ∀ p ∈ ps, ∀ q ∈ qs, p.same q = true → p = q) : ps = qs := by
  induction h with
  | nil => rfl
  | cons hpq _ ih =>
    obtain ⟨hp, hps⟩ := List.forall_mem_cons.mp hspelled
    rw [hp _ List.mem_cons_self hpq, ih fun p hp q hq => hps p hp q (List.mem_cons_of_mem _ hq)]

namespace Command

open ApiReference.Path (orderKey sameAll)

variable {fs : FileSystem}

/-! ### Leaving out repeats -/

theorem map_dropRepeatsAfter (p : Path) (paths : List Path) :
    (p :: dropRepeatsAfter p paths).map orderKey = (paths.map orderKey).destutter' (· ≠ ·) p.orderKey := by
  induction paths generalizing p with
  | nil => rfl
  | cons q paths ih =>
    have hsame : q.same p = true ↔ ¬p.orderKey ≠ q.orderKey := by
      rw [Path.same_iff_orderKey, not_not, eq_comm]
    rw [dropRepeatsAfter, List.map_cons, List.map_cons, List.destutter'_cons]
    by_cases hq : q.same p = true
    · rw [if_pos hq, if_neg (hsame.mp hq), ← ih p, List.map_cons]
    · rw [if_neg hq, if_pos (not_not.mp (mt hsame.mpr hq)), ← ih q]

/-- Leaving out repeats leaves out the repeated keys. -/
theorem map_dropRepeats (paths : List Path) :
    (dropRepeats paths).map orderKey = (paths.map orderKey).destutter (· ≠ ·) := by
  cases paths with
  | nil => rfl
  | cons p paths => exact map_dropRepeatsAfter p paths

theorem sublist_dropRepeatsAfter (p : Path) (paths : List Path) : (dropRepeatsAfter p paths).Sublist paths := by
  induction paths generalizing p with
  | nil => exact List.Sublist.slnil
  | cons q paths ih =>
    rw [dropRepeatsAfter]
    split
    · exact (ih p).cons q
    · exact (ih q).cons_cons q

theorem sublist_dropRepeats (paths : List Path) : (dropRepeats paths).Sublist paths := by
  cases paths with
  | nil => exact List.Sublist.slnil
  | cons p paths => exact (sublist_dropRepeatsAfter p paths).cons_cons p

/-- No path that is left is the same as the one before it. -/
theorem isChain_dropRepeats (paths : List Path) :
    (dropRepeats paths).IsChain fun p q => p.same q = false := by
  have hkeys : ((dropRepeats paths).map orderKey).IsChain (· ≠ ·) := by
    rw [map_dropRepeats]
    exact List.isChain_destutter _ _
  refine ((List.isChain_map _).mp hkeys).imp fun p q hne => ?_
  rwa [← Bool.not_eq_true, Path.same_iff_orderKey]

/-- Of each path one that is the same is left. -/
theorem exists_mem_dropRepeats {p : Path} {paths : List Path} (h : p ∈ paths) :
    ∃ q ∈ dropRepeats paths, q.same p = true := by
  have hkey : p.orderKey ∈ (dropRepeats paths).map orderKey := by
    rw [map_dropRepeats, Stutter.mem_destutter]
    exact List.mem_map_of_mem h
  obtain ⟨q, hq, hsame⟩ := List.mem_map.mp hkey
  exact ⟨q, hq, (Path.same_iff_orderKey q p).mpr hsame⟩

/-! ### The paths of an argument -/

theorem pathsOf_literal {argument : String} (h : isLiteral fs argument = true) :
    pathsOf fs argument = [⟨argument⟩] := by rw [pathsOf, if_pos h]

/-- Lists of what each pattern matches, in any order and as often as it may be. -/
def Enumerates (fs : FileSystem) (found : String → List Path) : Prop :=
  ∀ pattern p, p ∈ found pattern ↔ Glob.Matches fs pattern p

/-- The paths of an argument, if what a pattern matches is found as listed. -/
def pathsFrom (fs : FileSystem) (found : String → List Path) (argument : String) : List Path :=
  if isLiteral fs argument then [⟨argument⟩]
  else ((found argument).filter fs.isFile).mergeSort fun p q => !q.before p

theorem mem_pathsFrom {found : String → List Path} {argument : String} (h : isLiteral fs argument = false)
    (p : Path) : p ∈ pathsFrom fs found argument ↔ p ∈ found argument ∧ fs.isFile p = true := by
  rw [pathsFrom, h, if_neg Bool.false_ne_true, List.mem_mergeSort, List.mem_filter]

theorem pairwise_pathsFrom (fs : FileSystem) (found : String → List Path) (argument : String) :
    (pathsFrom fs found argument).Pairwise fun p q => q.before p = false := by
  unfold pathsFrom
  split
  · exact List.pairwise_singleton _ _
  · exact Path.pairwise_mergeSort_before _

/-- The list in which the matches of a pattern are found. -/
def foundBy (fs : FileSystem) (pattern : String) : List Path := (Glob.matching fs pattern).toOption.getD []

theorem enumerates_foundBy (fs : FileSystem) : Enumerates fs (foundBy fs) := by
  intro pattern p
  unfold foundBy Glob.Matches
  cases Glob.matching fs pattern with
  | error e => exact iff_of_false List.not_mem_nil fun ⟨_, h, _⟩ => nomatch h
  | ok found => exact ⟨fun h => ⟨found, rfl, h⟩, fun ⟨_, h, hp⟩ => Except.ok.inj h ▸ hp⟩

theorem pathsOf_eq (fs : FileSystem) (argument : String) : pathsOf fs argument = pathsFrom fs (foundBy fs) argument := by
  unfold pathsOf pathsFrom foundBy Glob.files
  cases isLiteral fs argument with
  | true => rfl
  | false =>
    cases Glob.matching fs argument with
    | error e => exact (List.mergeSort_nil ..).symm
    | ok found => rfl

/-- An argument that is a pattern has the files it matches. -/
theorem mem_pathsOf {argument : String} (h : isLiteral fs argument = false) (p : Path) :
    p ∈ pathsOf fs argument ↔ Glob.Matches fs argument p ∧ fs.isFile p = true := by
  rw [pathsOf_eq, mem_pathsFrom h, enumerates_foundBy]

theorem pairwise_pathsOf (fs : FileSystem) (argument : String) :
    (pathsOf fs argument).Pairwise fun p q => q.before p = false := by
  rw [pathsOf_eq]
  exact pairwise_pathsFrom fs _ argument

/-! ### Any order of matches -/

section Found
variable {found found' : String → List Path}

theorem mem_pathsFrom_iff (h : Enumerates fs found) (h' : Enumerates fs found') (argument : String) (p : Path) :
    p ∈ pathsFrom fs found argument ↔ p ∈ pathsFrom fs found' argument := by
  cases hliteral : isLiteral fs argument with
  | true => rw [pathsFrom, pathsFrom, if_pos hliteral, if_pos hliteral]
  | false => rw [mem_pathsFrom hliteral, mem_pathsFrom hliteral, h argument, h' argument]

theorem destutter_pathsFrom (h : Enumerates fs found) (h' : Enumerates fs found') (argument : String) :
    ((pathsFrom fs found argument).map orderKey).destutter (· ≠ ·) =
      ((pathsFrom fs found' argument).map orderKey).destutter (· ≠ ·) := by
  have hsorted : ∀ found, ((pathsFrom fs found argument).map orderKey).Pairwise (· ≤ ·) := by
    intro found
    refine List.pairwise_map.mpr ((pairwise_pathsFrom fs found argument).imp fun hpq => ?_)
    rwa [← Path.before_eq_false_iff]
  refine Stutter.destutter_eq_of_mem_iff (hsorted found) (hsorted found') fun key => ?_
  simp only [List.mem_map, mem_pathsFrom_iff h h']

/-- In whichever order matches are found, the paths that are left are the same. -/
theorem sameAll_dropRepeats_pathsFrom (h : Enumerates fs found) (h' : Enumerates fs found')
    (arguments : List String) :
    sameAll (dropRepeats (arguments.flatMap (pathsFrom fs found)))
      (dropRepeats (arguments.flatMap (pathsFrom fs found'))) := by
  rw [Path.sameAll_iff, map_dropRepeats, map_dropRepeats, List.map_flatMap, List.map_flatMap]
  exact Stutter.destutter_flatMap fun argument _ => destutter_pathsFrom h h' argument

/-- Where no path is spelled in two ways, the very same paths are left. -/
theorem dropRepeats_pathsFrom (h : Enumerates fs found) (h' : Enumerates fs found') {arguments : List String}
    (hspelled : ∀ p ∈ arguments.flatMap (pathsFrom fs found), ∀ q ∈ arguments.flatMap (pathsFrom fs found),
      p.same q = true → p = q) :
    dropRepeats (arguments.flatMap (pathsFrom fs found)) = dropRepeats (arguments.flatMap (pathsFrom fs found')) := by
  refine Path.eq_of_sameAll (sameAll_dropRepeats_pathsFrom h h' arguments) fun p hp q hq => ?_
  refine hspelled p ((sublist_dropRepeats _).subset hp) q ?_
  obtain ⟨argument, hargument, hq⟩ := List.mem_flatMap.mp ((sublist_dropRepeats _).subset hq)
  exact List.mem_flatMap.mpr ⟨argument, hargument, (mem_pathsFrom_iff h h' argument q).mpr hq⟩

end Found

theorem pathsOf_eq_nil_iff {argument : String} : pathsOf fs argument = [] ↔
    isLiteral fs argument = false ∧ ∀ p, Glob.Matches fs argument p → fs.isFile p = false := by
  cases hliteral : isLiteral fs argument with
  | true =>
    rw [pathsOf_literal hliteral]
    exact iff_of_false (List.cons_ne_nil _ _) fun h => nomatch h.1
  | false =>
    rw [List.eq_nil_iff_forall_not_mem]
    simp only [mem_pathsOf hliteral, not_and, Bool.not_eq_true, true_and]

/-- Without a malformed pattern, the files to load are the paths of the arguments in their order,
each that is the same as the one before it left out: of an argument that is used as it stands the
argument itself, of any other the files it matches, in the order of paths. They are the same in
whichever order, and however often, the matches of a pattern are found. Every argument that is
used as it stands is among them, no two neighbours are the same, and there are none if and only
if every argument is a pattern that matches no file. -/
theorem inputs_enumerated {arguments : List String} (h : Readable fs arguments) :
    (inputs fs arguments).result =
      (if arguments.flatMap (pathsOf fs) = [] then .error .noFiles
        else .ok (dropRepeats (arguments.flatMap (pathsOf fs)))) ∧
    (∀ argument, (isLiteral fs argument = true → pathsOf fs argument = [⟨argument⟩]) ∧
      (isLiteral fs argument = false →
        (∀ p, p ∈ pathsOf fs argument ↔ Glob.Matches fs argument p ∧ fs.isFile p = true) ∧
          (pathsOf fs argument).Pairwise fun p q => q.before p = false)) ∧
    (∀ found, Enumerates fs found →
      (arguments.flatMap (pathsFrom fs found) = [] → (inputs fs arguments).result = .error .noFiles) ∧
      (arguments.flatMap (pathsFrom fs found) ≠ [] → ∃ paths, (inputs fs arguments).result = .ok paths ∧
        sameAll paths (dropRepeats (arguments.flatMap (pathsFrom fs found))) ∧
        ((∀ p ∈ arguments.flatMap (pathsOf fs), ∀ q ∈ arguments.flatMap (pathsOf fs), p.same q = true → p = q) →
          paths = dropRepeats (arguments.flatMap (pathsFrom fs found))))) ∧
    (∀ paths, (inputs fs arguments).result = .ok paths →
      (∀ argument ∈ arguments, isLiteral fs argument = true → ∃ p ∈ paths, p.same ⟨argument⟩ = true) ∧
      paths.IsChain fun p q => p.same q = false) ∧
    ((inputs fs arguments).result = .error .noFiles ↔ ∀ argument ∈ arguments,
      isLiteral fs argument = false ∧ ∀ p, Glob.Matches fs argument p → fs.isFile p = false) := by
  have hresult := result_inputs_of_ok (result_expand_of_readable h)
  have hfound : arguments.flatMap (pathsOf fs) = arguments.flatMap (pathsFrom fs (foundBy fs)) :=
    List.flatMap_congr fun argument _ => pathsOf_eq fs argument
  refine ⟨hresult, fun argument => ⟨pathsOf_literal, fun hliteral => ⟨mem_pathsOf hliteral, pairwise_pathsOf fs argument⟩⟩,
    fun found henum => ?_, fun paths hpaths => ?_, ?_⟩
  · have hsame := sameAll_dropRepeats_pathsFrom (enumerates_foundBy fs) henum arguments
    have hnone : arguments.flatMap (pathsOf fs) = [] ↔ arguments.flatMap (pathsFrom fs found) = [] := by
      have hlength : ∀ paths, paths = [] ↔ (dropRepeats paths).length = 0 := fun paths =>
        dropRepeats_eq_nil_iff.symm.trans List.length_eq_zero_iff.symm
      rw [hfound, hlength, hlength (arguments.flatMap (pathsFrom fs found)), hsame.length_eq]
    refine ⟨fun hnil => by rw [hresult, if_pos (hnone.mpr hnil)], fun hne => ?_⟩
    refine ⟨_, by rw [hresult, if_neg (mt hnone.mp hne)], ?_⟩
    rw [hfound]
    exact ⟨hsame, dropRepeats_pathsFrom (enumerates_foundBy fs) henum⟩
  · obtain ⟨-, rfl, -⟩ := result_inputs_eq_ok_iff.mp hpaths
    refine ⟨fun argument hargument hliteral => exists_mem_dropRepeats ?_, isChain_dropRepeats _⟩
    exact List.mem_flatMap.mpr ⟨argument, hargument, by rw [pathsOf_literal hliteral, List.mem_singleton]⟩
  · rw [hresult, ← forall₂_congr fun argument _ => pathsOf_eq_nil_iff, ← List.flatMap_eq_nil_iff]
    split
    · next hnil => exact iff_of_true rfl hnil
    · next hne => exact iff_of_false nofun hne

/-- A file without modules and one with a module. -/
def pair : FileSystem :=
  ⟨[(["b"], .file "\x7b\x7d".toUTF8), (["a"], .file "\x7b\"m\":\x7b\x7d\x7d".toUTF8)], []⟩

theorem mergeSort_pair {α : Type} {le : α → α → Bool} {a b : α} (h : le a b = false) :
    [a, b].mergeSort le = [b, a] := by
  simp [List.mergeSort, h]

/-- A star matches the names in the working directory, in their order. -/
theorem files_pair : Glob.files pair "*" = .ok [⟨"a"⟩, ⟨"b"⟩] := by
  have hparts : Glob.parts "*" = .ok [.wild [.anyText]] := by decide +kernel
  have hchildren : Glob.children pair ⟨"."⟩ = [⟨"a"⟩, ⟨"b"⟩] := by
    have hplace : pair.locate ⟨"."⟩ = .ok [] := rfl
    have hnames : pair.namesIn [] = ["b", "a"] := rfl
    have hsorted : (["b", "a"].mergeSort fun a b => !decide (b < a)) = ["a", "b"] := mergeSort_pair rfl
    simp only [Glob.children, hplace, hnames, hsorted]
    rfl
  have hfollow : Glob.follow pair [.wild [.anyText]] ⟨"."⟩ = [⟨"a"⟩, ⟨"b"⟩] := by
    rw [Glob.follow, hchildren]
    rfl
  have hmatching : Glob.matching pair "*" = .ok [⟨"a"⟩, ⟨"b"⟩] := by
    rw [Glob.matching, hparts]
    exact congrArg Except.ok hfollow
  rw [Glob.files, hmatching]
  exact congrArg Except.ok (List.mergeSort_of_pairwise (by decide +kernel))

/-- All matches twice, first from the back. -/
def backwards (pattern : String) : List Path := (foundBy pair pattern).reverse ++ foundBy pair pattern

theorem inputs_enumerated_backwards :
    Readable pair ["b", "*", "c"] ∧ Enumerates pair backwards ∧
      (inputs pair ["b", "*", "c"]).result = .ok [⟨"b"⟩, ⟨"a"⟩, ⟨"b"⟩, ⟨"c"⟩] ∧
      dropRepeats (["b", "*", "c"].flatMap (pathsFrom pair backwards)) = [⟨"b"⟩, ⟨"a"⟩, ⟨"b"⟩, ⟨"c"⟩] := by
  have hinputs : (inputs pair ["b", "*", "c"]).result = .ok [⟨"b"⟩, ⟨"a"⟩, ⟨"b"⟩, ⟨"c"⟩] := by
    simp only [inputs, expand, inputsOf, files_pair]
    rfl
  have hpaths : ["b", "*", "c"].flatMap (pathsOf pair) = [⟨"b"⟩, ⟨"a"⟩, ⟨"b"⟩, ⟨"c"⟩] := by
    simp only [List.flatMap_cons, pathsOf, files_pair]
    rfl
  have hreadable : Readable pair ["b", "*", "c"] := (result_inputs_eq_ok_iff.mp hinputs).1
  have henum : Enumerates pair backwards := by
    intro pattern p
    rw [backwards, List.mem_append, List.mem_reverse, or_self, enumerates_foundBy]
  refine ⟨hreadable, henum, hinputs, ?_⟩
  obtain ⟨hnone, hsome⟩ := (inputs_enumerated hreadable).2.2.1 backwards henum
  rw [hinputs] at hnone hsome
  obtain ⟨paths, hok, -, heq⟩ := hsome fun h => absurd (hnone h) (by simp)
  rw [hpaths] at heq
  rw [← heq (by decide), Except.ok.inj hok]

end Command
end ApiReference
