/-
# Files are merged in order

`SyntaxTree.insert` keeps the place of a name and changes its root, so a tree that
roots are inserted into has the names in the order in which they first come
(`names_insertAll`), each with its last root (`find?_insertAll`), and what is replaced is
what was there (`replaced_eq`).

Files are merged one after the other (`mergeFiles_append`), so the same holds of a list of
files, with a report of every module that a file before it has as well
(`ofFiles_decoded`). The first file that cannot be loaded decides the answer.

Key definitions: `SyntaxTree.mergeAll`, `SyntaxTree.redefinitions`.
Key theorems: `names_insertAll`, `find?_insertAll`, `replaced_eq`, `mergeFiles_append`,
`ofFiles_of_decoded`, `ofFiles_decoded`.
-/
import ApiReference.Proofs.File.Changing
import ApiReference.Proofs.Tree.Accepting
import ApiReference.Proofs.Tree.RoundTrip
import ApiReference.Tree.OfFiles
import Mathlib.Algebra.GroupWithZero.Nat
import Mathlib.Data.List.Induction
import Mathlib.Data.List.Nodup

namespace ApiReference
namespace SyntaxTree

/-! ### Inserting a root -/

theorem find?_insert (t : SyntaxTree) (name : String) (root : Root) (key : String) :
    (t.insert name root).find? key = if key = name then some root else t.find? key := by
  rw [insert, find?, put_eq, Keyed.lookup_put, find?]

theorem names_insert (t : SyntaxTree) (name : String) (root : Root) :
    (t.insert name root).names = t.names ++ if name ∈ t.names then [] else [name] := by
  rw [insert, put_eq]
  exact Keyed.keys_put name root t.modules

theorem find?_isSome_iff (t : SyntaxTree) (name : String) : (t.find? name).isSome ↔ name ∈ t.names :=
  Keyed.lookup_isSome_iff t.modules name

theorem nodup_insert {t : SyntaxTree} (h : t.names.Nodup) (name : String) (root : Root) :
    (t.insert name root).names.Nodup := by
  rw [names_insert]
  by_cases hn : name ∈ t.names
  · rwa [if_pos hn, List.append_nil]
  · rw [if_neg hn]
    exact List.nodup_append_comm.mp (List.nodup_cons.mpr ⟨hn, h⟩)

/-! ### Inserting roots -/

theorem insertAll_cons (t : SyntaxTree) (m : String × Root) (roots : List (String × Root)) :
    t.insertAll (m :: roots) = (t.insert m.1 m.2).insertAll roots := rfl

theorem nodup_insertAll {t : SyntaxTree} (h : t.names.Nodup) (roots : List (String × Root)) :
    (t.insertAll roots).names.Nodup := by
  induction roots generalizing t with
  | nil => exact h
  | cons m roots ih => exact ih (nodup_insert h m.1 m.2)

/-- The names of a tree stay, and new ones are added behind them as they first come. -/
theorem names_insertAll (t : SyntaxTree) (roots : List (String × Root)) :
    (t.insertAll roots).names = t.names ++ ((roots.map (·.1)).filter (· ∉ t.names)).eraseDups := by
  induction roots generalizing t with
  | nil => simp [insertAll]
  | cons m roots ih =>
    rw [insertAll_cons, ih, names_insert, List.map_cons]
    by_cases hm : m.1 ∈ t.names
    · rw [if_pos hm, List.append_nil, List.filter_cons_of_neg (by simpa using hm)]
    · rw [if_neg hm, List.filter_cons_of_pos (by simpa using hm), List.eraseDups_cons, List.filter_filter]
      -- what is new to the tree with the first root is what is new to the tree and is not this root
      have hnew : ∀ n, decide (n ∉ t.names ++ [m.1]) = (!n == m.1 && decide (n ∉ t.names)) := by
        intro n
        by_cases hn : n = m.1 <;> simp [hn]
      simp only [hnew, List.append_assoc, List.singleton_append]

/-- A name has the last root inserted under it, or the one it had. -/
theorem find?_insertAll (t : SyntaxTree) (roots : List (String × Root)) (name : String) :
    (t.insertAll roots).find? name = (roots.reverse.lookup name).or (t.find? name) := by
  induction roots generalizing t with
  | nil => rfl
  | cons m roots ih =>
    obtain ⟨n, root⟩ := m
    rw [insertAll_cons, ih, find?_insert, List.reverse_cons, List.lookup_append, Option.or_assoc]
    by_cases hn : name = n
    · rw [if_pos hn, hn, List.lookup_cons_self, Option.some_or]
    · rw [if_neg hn, Keyed.lookup_cons_of_ne hn, List.lookup_nil, Option.none_or]

/-- What is replaced is what was there, if no name comes twice. -/
theorem replaced_eq (t : SyntaxTree) {roots : List (String × Root)} (h : (roots.map (·.1)).Nodup) :
    t.replaced roots = (roots.map (·.1)).filter (· ∈ t.names) := by
  induction roots generalizing t with
  | nil => rfl
  | cons m roots ih =>
    obtain ⟨name, root⟩ := m
    rw [List.map_cons, List.nodup_cons] at h
    have hlater : (t.insert name root).replaced roots = (roots.map (·.1)).filter (· ∈ t.names) := by
      rw [ih _ h.2]
      refine List.filter_congr fun n hn => ?_
      have hne : n ≠ name := fun he => h.1 (he ▸ hn)
      rw [names_insert]
      by_cases ht : name ∈ t.names <;> simp [ht, hne]
    rw [replaced, hlater, List.map_cons]
    simp only [find?_isSome_iff]
    by_cases ht : name ∈ t.names
    · rw [if_pos ht, List.filter_cons_of_pos (by simpa using ht)]
    · rw [if_neg ht, List.filter_cons_of_neg (by simpa using ht)]

/-! ### Merging two trees -/

theorem eraseDups_of_nodup {α : Type} [BEq α] [LawfulBEq α] {xs : List α} (h : xs.Nodup) :
    xs.eraseDups = xs := by
  induction xs with
  | nil => rfl
  | cons x xs ih =>
    rw [List.nodup_cons] at h
    have hall : xs.filter (fun y => !y == x) = xs := by
      refine List.filter_eq_self.mpr fun y hy => ?_
      have hne : y ≠ x := fun he => h.1 (he ▸ hy)
      simpa using hne
    rw [List.eraseDups_cons, hall, ih h.2]

theorem names_merge (a : SyntaxTree) {b : SyntaxTree} (h : b.names.Nodup) :
    (a.merge b).names = a.names ++ b.names.filter (· ∉ a.names) := by
  have hnew := eraseDups_of_nodup (h.filter (fun n => decide (n ∉ a.names)))
  rw [merge, names_insertAll]
  exact congrArg (a.names ++ ·) hnew

theorem find?_merge (a : SyntaxTree) {b : SyntaxTree} (h : b.names.Nodup) (name : String) :
    (a.merge b).find? name = (b.find? name).or (a.find? name) := by
  rw [merge, find?_insertAll, Keyed.lookup_reverse h, ← find?]

/-- Every module of the second tree is either new or replaces one of the first. -/
theorem size_merge (a : SyntaxTree) {b : SyntaxTree} (h : b.names.Nodup) :
    (b.names.filter (· ∈ a.names)).length + (a.merge b).size = a.size + b.size := by
  have hsize : ∀ t : SyntaxTree, t.size = t.names.length := fun t => (List.length_map ..).symm
  have hsplit := List.length_eq_countP_add_countP (· ∈ a.names) (l := b.names)
  rw [hsize, hsize, hsize, names_merge a h, List.length_append, ← List.countP_eq_length_filter,
    ← List.countP_eq_length_filter]
  simp only [decide_not, Bool.decide_eq_true] at hsplit ⊢
  omega

/-! ### Merging trees in order -/

/-- Trees merged in order. -/
def mergeAll (trees : List SyntaxTree) : SyntaxTree := trees.foldl merge empty

theorem mergeAll_concat (trees : List SyntaxTree) (t : SyntaxTree) :
    mergeAll (trees ++ [t]) = (mergeAll trees).merge t := by
  rw [mergeAll, List.foldl_append]
  rfl

/-- The names are those of the trees, as they first come. -/
theorem names_mergeAll {trees : List SyntaxTree} (h : ∀ t ∈ trees, t.names.Nodup) :
    (mergeAll trees).names = (trees.flatMap names).eraseDups := by
  induction trees using List.reverseRecOn with
  | nil => rfl
  | append_singleton trees t ih =>
    rw [List.forall_mem_append, List.forall_mem_singleton] at h
    have hnew : t.names.filter (· ∉ (trees.flatMap names).eraseDups) = t.names.removeAll (trees.flatMap names) := by
      refine List.filter_congr fun n _ => ?_
      rw [List.elem_eq_mem, decide_not, decide_eq_decide.mpr List.mem_eraseDups]
    have hdups : (t.names.removeAll (trees.flatMap names)).eraseDups = t.names.removeAll (trees.flatMap names) :=
      eraseDups_of_nodup (h.2.filter _)
    rw [mergeAll_concat, names_merge _ h.2, ih h.1, List.flatMap_append, List.flatMap_singleton,
      List.eraseDups_append, hnew, hdups]

/-- A name has the root of the last tree that has the name. -/
theorem find?_mergeAll {trees : List SyntaxTree} (h : ∀ t ∈ trees, t.names.Nodup) (name : String) :
    (mergeAll trees).find? name = trees.reverse.findSome? (·.find? name) := by
  induction trees using List.reverseRecOn with
  | nil => rfl
  | append_singleton trees t ih =>
    rw [List.forall_mem_append, List.forall_mem_singleton] at h
    rw [mergeAll_concat, find?_merge _ h.2, ih h.1, List.reverse_append, List.reverse_singleton,
      List.singleton_append, List.findSome?_cons]
    cases t.find? name <;> rfl

/-! ### Merging files -/

/-- No tree that is read from a text has a name twice. -/
theorem nodup_of_ofText {text : String} {t : SyntaxTree} (h : ofText text = .ok t) : t.names.Nodup := by
  obtain ⟨u, -, hu⟩ := ofText_eq_ok_iff_exists.mp h
  unfold Json.Term.tree? at hu
  split at hu
  · obtain ⟨roots, -, rfl⟩ := Option.map_eq_some_iff.mp hu
    exact nodup_insertAll (t := empty) List.nodup_nil roots
  · cases hu

theorem nodup_of_ofFile {fs : FileSystem} {path : Path} {t : SyntaxTree} (h : ofFile fs path = .ok t) :
    t.names.Nodup := by
  unfold ofFile at h
  split at h
  · cases h
  · cases h
  · next text _ =>
    split at h
    · cases h
    · next tree ht =>
      cases h
      exact nodup_of_ofText ht

/-- A file that holds a text gives the tree of the text. -/
theorem ofFile_of_find {fs : FileSystem} {path : Path} {text : String} {t : SyntaxTree}
    (hf : fs.find path = .ok (.file text.toUTF8)) (ht : ofText text = .ok t) : ofFile fs path = .ok t := by
  unfold ofFile
  rw [FileSystem.read_of_find hf]
  dsimp only
  rw [ht]

theorem ofFile_of_notFound {fs : FileSystem} {path : Path} (h : fs.find path = .error .notFound) :
    ofFile fs path = .error (.missing path) := by
  unfold ofFile FileSystem.read
  rw [h]
  rfl

/-- Files are merged one after the other, up to the first that cannot be loaded. -/
theorem mergeFiles_append (fs : FileSystem) (t : SyntaxTree) (paths rest : List Path) :
    mergeFiles fs t (paths ++ rest) =
      match (mergeFiles fs t paths).result with
      | .ok u => (mergeFiles fs u rest).after (mergeFiles fs t paths).events
      | .error e => ⟨(mergeFiles fs t paths).events, .error e⟩ := by
  induction paths generalizing t with
  | nil => rfl
  | cons path paths ih =>
    rw [List.cons_append, mergeFiles, mergeFiles]
    cases ofFile fs path with
    | error e => rfl
    | ok more =>
      simp only [Reported.after]
      rw [ih]
      cases (mergeFiles fs (t.merge more) paths).result with
      | error e => rfl
      | ok u => simp only [Reported.after, List.append_assoc]

/-- The reports on files with their trees: in the order of the files, each module of a file
that a file before it has, too. -/
def redefinitions (files : List (Path × SyntaxTree)) : List Event :=
  files.zipIdx.flatMap fun x =>
    (x.1.2.names.filter fun name => (files.take x.2).any fun f => name ∈ f.2.names).map fun name =>
      .redefined name x.1.1.text

theorem redefinitions_concat (files : List (Path × SyntaxTree)) (f : Path × SyntaxTree) :
    redefinitions (files ++ [f]) = redefinitions files ++
      (f.2.names.filter fun name => files.any fun g => name ∈ g.2.names).map fun name =>
        .redefined name f.1.text := by
  have hbefore : ∀ x ∈ files.zipIdx, (files ++ [f]).take x.2 = files.take x.2 := by
    intro x hx
    have hlt : x.2 < 0 + files.length := List.snd_lt_add_of_mem_zipIdx hx
    exact List.take_append_of_le_length (by omega)
  have hlast : (files ++ [f]).take (0 + files.length) = files := by
    rw [Nat.zero_add]
    exact List.take_left
  rw [redefinitions, List.zipIdx_append, List.flatMap_append]
  congr 1
  · refine List.flatMap_congr fun x hx => ?_
    rw [hbefore x hx]
  · simp only [List.zipIdx_singleton, List.flatMap_singleton, hlast]

/-- What is reported of a file is what merging it replaces. -/
theorem filter_known {files : List (Path × SyntaxTree)} (h : ∀ f ∈ files, f.2.names.Nodup) (ns : List String) :
    (ns.filter fun name => files.any fun f => name ∈ f.2.names) =
      ns.filter (· ∈ (mergeAll (files.map (·.2))).names) := by
  refine List.filter_congr fun name _ => ?_
  have hnames := names_mergeAll (List.forall_mem_map.mpr h)
  rw [Bool.eq_iff_iff, decide_eq_true_iff, hnames, List.mem_eraseDups, List.flatMap_map, List.mem_flatMap,
    List.any_eq_true]
  simp only [decide_eq_true_iff]

/-- Files that can all be loaded are merged, with their reports. -/
theorem ofFiles_of_decoded {fs : FileSystem} {files : List (Path × SyntaxTree)}
    (h : ∀ f ∈ files, ofFile fs f.1 = .ok f.2) :
    ofFiles fs (files.map (·.1)) = ⟨redefinitions files, .ok (mergeAll (files.map (·.2)))⟩ := by
  induction files using List.reverseRecOn with
  | nil => rfl
  | append_singleton files f ih =>
    rw [List.forall_mem_append, List.forall_mem_singleton] at h
    have hreplaced : (mergeAll (files.map (·.2))).replaced f.2.modules =
        f.2.names.filter fun name => files.any fun g => name ∈ g.2.names :=
      (replaced_eq _ (nodup_of_ofFile h.2)).trans
        (filter_known (fun g hg => nodup_of_ofFile (h.1 g hg)) f.2.names).symm
    have hfiles := ih h.1
    unfold ofFiles at hfiles ⊢
    rw [List.map_append, mergeFiles_append, hfiles, List.map_append, List.map_singleton, List.map_singleton,
      mergeAll_concat, redefinitions_concat, ← hreplaced]
    simp only [mergeFiles, h.2, Reported.after, List.append_nil]

/-- Every module of the files is in the result or has been replaced in it. -/
theorem size_mergeAll {files : List (Path × SyntaxTree)} (h : ∀ f ∈ files, f.2.names.Nodup) :
    (redefinitions files).length + (mergeAll (files.map (·.2))).size = (files.map (·.2.size)).sum := by
  induction files using List.reverseRecOn with
  | nil => rfl
  | append_singleton files f ih =>
    rw [List.forall_mem_append, List.forall_mem_singleton] at h
    have hmerge := size_merge (mergeAll (files.map (·.2))) h.2
    have hbefore := ih h.1
    rw [redefinitions_concat, List.length_append, List.length_map, filter_known h.1, List.map_append,
      List.map_singleton, mergeAll_concat, List.map_append, List.sum_append, List.map_singleton,
      List.sum_singleton]
    omega

/-- Files that can all be loaded give the modules of all, each name where it first comes and
with the root that it has last, and a report of each module that a file before has, too; so
each module of a file is either in the result or reported. A file that cannot be loaded ends
this with its error, whatever comes behind it. -/
theorem ofFiles_decoded {fs : FileSystem} {files : List (Path × SyntaxTree)}
    (h : ∀ f ∈ files, ofFile fs f.1 = .ok f.2) :
    (∃ t, ofFiles fs (files.map (·.1)) = ⟨redefinitions files, .ok t⟩ ∧
      t.names = (files.flatMap (·.2.names)).eraseDups ∧
      (∀ name, t.find? name = files.reverse.findSome? (·.2.find? name)) ∧
      (redefinitions files).length + t.size = (files.map (·.2.size)).sum) ∧
    ∀ path e rest, ofFile fs path = .error e →
      ofFiles fs (files.map (·.1) ++ path :: rest) = ⟨redefinitions files, .error e⟩ := by
  have hnodup : ∀ f ∈ files, f.2.names.Nodup := fun f hf => nodup_of_ofFile (h f hf)
  have htrees : ∀ t ∈ files.map (·.2), t.names.Nodup := List.forall_mem_map.mpr hnodup
  have hfiles := ofFiles_of_decoded h
  refine ⟨⟨mergeAll (files.map (·.2)), hfiles, ?_, ?_, size_mergeAll hnodup⟩, ?_⟩
  · rw [names_mergeAll htrees, List.flatMap_map]
  · intro name
    rw [find?_mergeAll htrees, ← List.map_reverse, List.findSome?_map]
    rfl
  · intro path e rest he
    unfold ofFiles at hfiles ⊢
    rw [mergeFiles_append, hfiles]
    simp only [mergeFiles, he, Reported.after, List.append_nil]

/-- Two files with a module in common. -/
def overlapping : FileSystem :=
  ⟨[(["a.json"], .file "\x7b\"m\":\x7b\x7d,\"n\":\x7b\x7d\x7d".toUTF8),
    (["b.json"], .file "\x7b\"k\":\x7b\x7d,\"n\":[[\x7b\"type\":4\x7d]]\x7d".toUTF8)], []⟩

/-- The first file, the second, and the first again. -/
def overlappingFiles : List (Path × SyntaxTree) :=
  [(⟨"a.json"⟩, ⟨[("m", ⟨[]⟩), ("n", ⟨[]⟩)]⟩), (⟨"b.json"⟩, ⟨[("k", ⟨[]⟩), ("n", ⟨[.ofKind .function]⟩)]⟩),
    (⟨"a.json"⟩, ⟨[("m", ⟨[]⟩), ("n", ⟨[]⟩)]⟩)]

theorem ofFile_overlapping :
    ofFile overlapping ⟨"a.json"⟩ = .ok ⟨[("m", ⟨[]⟩), ("n", ⟨[]⟩)]⟩ ∧
      ofFile overlapping ⟨"b.json"⟩ = .ok ⟨[("k", ⟨[]⟩), ("n", ⟨[.ofKind .function]⟩)]⟩ :=
  ⟨ofFile_of_find rfl (by decide +kernel), ofFile_of_find rfl (by decide +kernel)⟩

theorem ofFiles_overlapping :
    (∀ f ∈ overlappingFiles, ofFile overlapping f.1 = .ok f.2) ∧
      (∃ t, ofFiles overlapping (overlappingFiles.map (·.1)) = ⟨redefinitions overlappingFiles, .ok t⟩ ∧
        t.names = ["m", "n", "k"]) ∧
      redefinitions overlappingFiles =
        [.redefined "n" "b.json", .redefined "m" "a.json", .redefined "n" "a.json"] ∧
      ofFiles overlapping (overlappingFiles.map (·.1) ++ [⟨"c.json"⟩, ⟨"b.json"⟩]) =
        ⟨redefinitions overlappingFiles, .error (.missing ⟨"c.json"⟩)⟩ := by
  obtain ⟨ha, hb⟩ := ofFile_overlapping
  have hc : ofFile overlapping ⟨"c.json"⟩ = .error (.missing ⟨"c.json"⟩) := ofFile_of_notFound rfl
  have h : ∀ f ∈ overlappingFiles, ofFile overlapping f.1 = .ok f.2 := by
    simp only [overlappingFiles, List.forall_mem_cons, List.not_mem_nil, false_imp_iff, implies_true, and_true]
    exact ⟨ha, hb, ha⟩
  obtain ⟨⟨t, ht, hnames, -⟩, hstop⟩ := ofFiles_decoded h
  exact ⟨h, ⟨t, ht, hnames.trans (by decide)⟩, by decide, hstop _ _ _ hc⟩

end SyntaxTree
end ApiReference
