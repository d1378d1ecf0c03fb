/-
# Files may be merged in groups

A tree is known by its names in order and by the root of each (`eq_of_find?`), and of these
`names_merge` and `find?_merge` say what merging does to them. So it does not matter how
trees are grouped when they are merged (`merge_assoc`, `mergeAll_append`), and files may be
loaded in two parts and the parts merged (`result_ofFiles_append`).

Documentation can be merged in place of the trees. A module takes the place of the one with
its name or goes to the end (`ModuleDoc.put`), as a root does (`docs_insert`). So the
documentation of merged trees is theirs, put together in order (`docs_mergeAll`), and each of
its modules is whole as the last tree has it (`exists_last_of_mem_docs`).

Key definitions: `ModuleDoc.put`, `ModuleDoc.putAll`.
Key theorems: `eq_of_find?`, `merge_assoc`, `mergeAll_append`, `docs_mergeAll`,
`exists_last_of_mem_docs`, `ofFiles_grouped`.
-/
import ApiReference.Proofs.Tree.Merging

namespace ApiReference

/-! ### Documentation in place of earlier documentation -/

namespace ModuleDoc

/-- A module takes the place of the one with its name, or goes to the end if there is none. -/
def put (modules : List ModuleDoc) (m : ModuleDoc) : List ModuleDoc :=
  if modules.any (·.name = m.name) then modules.map fun n => if n.name = m.name then m else n
  else modules ++ [m]

/-- Modules are put one after the other. -/
def putAll (modules more : List ModuleDoc) : List ModuleDoc := more.foldl put modules

/-- What is there is the module that was put and the modules with other names. -/
theorem mem_put {modules : List ModuleDoc} {m n : ModuleDoc} :
    n ∈ put modules m ↔ n = m ∨ n ∈ modules ∧ n.name ≠ m.name := by
  unfold put
  split
  · next hany =>
    obtain ⟨k, hk, hname⟩ := List.any_eq_true.mp hany
    rw [decide_eq_true_eq] at hname
    rw [List.mem_map]
    constructor
    · rintro ⟨l, hl, rfl⟩
      by_cases hln : l.name = m.name
      · rw [if_pos hln]
        exact .inl rfl
      · rw [if_neg hln]
        exact .inr ⟨hl, hln⟩
    · rintro (rfl | ⟨hn, hne⟩)
      · exact ⟨k, hk, if_pos hname⟩
      · exact ⟨n, hn, if_neg hne⟩
  · next hnone =>
    have hother : ∀ n ∈ modules, n.name ≠ m.name := by
      intro n hn hname
      exact hnone (List.any_eq_true.mpr ⟨n, hn, decide_eq_true hname⟩)
    rw [List.mem_append, List.mem_singleton]
    constructor
    · rintro (hn | rfl)
      · exact .inr ⟨hn, hother n hn⟩
      · exact .inl rfl
    · rintro (rfl | ⟨hn, -⟩)
      · exact .inr rfl
      · exact .inl hn

/-- What is there has been put last under its name, or was there and has not been replaced. -/
theorem mem_putAll {modules more : List ModuleDoc} {n : ModuleDoc} (h : n ∈ putAll modules more) :
    n ∈ more ∨ n ∈ modules ∧ ∀ m ∈ more, n.name ≠ m.name := by
  induction more generalizing modules with
  | nil => exact .inr ⟨h, fun _ hm => absurd hm List.not_mem_nil⟩
  | cons m more ih =>
    rcases ih h with hmore | ⟨hput, hlater⟩
    · exact .inl (List.mem_cons_of_mem _ hmore)
    · rcases mem_put.mp hput with rfl | ⟨hn, hne⟩
      · exact .inl List.mem_cons_self
      · exact .inr ⟨hn, List.forall_mem_cons.mpr ⟨hne, hlater⟩⟩

end ModuleDoc

namespace SyntaxTree

/-! ### Trees in groups -/

/-- Trees with the same names in order, each with the same root, are the same. -/
theorem eq_of_find? {a b : SyntaxTree} (hnames : a.names = b.names) (hnodup : a.names.Nodup)
    (hfind : ∀ name, a.find? name = b.find? name) : a = b := by
  have hmodules : a.modules = b.modules := Keyed.eq_of_lookup hnames hnodup hfind
  exact congrArg SyntaxTree.mk hmodules

theorem nodup_merge {a : SyntaxTree} (h : a.names.Nodup) (b : SyntaxTree) : (a.merge b).names.Nodup :=
  nodup_insertAll h b.modules

theorem merge_assoc {a b c : SyntaxTree} (ha : a.names.Nodup) (hb : b.names.Nodup) (hc : c.names.Nodup) :
    (a.merge b).merge c = a.merge (b.merge c) := by
  have hbc : (b.merge c).names.Nodup := nodup_merge hb c
  have hnew : ∀ n, decide (n ∉ a.names ++ b.names.filter (· ∉ a.names)) =
      (decide (n ∉ a.names) && decide (n ∉ b.names)) := by
    intro n
    by_cases hna : n ∈ a.names <;> simp [hna]
  apply eq_of_find?
  · calc ((a.merge b).merge c).names
        = a.names ++ b.names.filter (· ∉ a.names) ++
            c.names.filter (fun n => decide (n ∉ a.names ++ b.names.filter (· ∉ a.names))) := by
          rw [names_merge _ hc, names_merge a hb]
      _ = a.names ++ (b.names.filter (· ∉ a.names) ++
            (c.names.filter (· ∉ b.names)).filter (· ∉ a.names)) := by
          simp only [hnew, List.filter_filter, List.append_assoc]
      _ = (a.merge (b.merge c)).names := by
          rw [names_merge a hbc, names_merge b hc, List.filter_append]
  · exact nodup_merge (nodup_merge ha b) c
  · intro name
    rw [find?_merge _ hc, find?_merge a hb, find?_merge a hbc, find?_merge b hc, Option.or_assoc]

theorem empty_merge {a : SyntaxTree} (h : a.names.Nodup) : empty.merge a = a := ofList_of_nodup h

theorem merge_empty (a : SyntaxTree) : a.merge empty = a := rfl

theorem merge_self {a : SyntaxTree} (h : a.names.Nodup) : a.merge a = a := by
  apply eq_of_find?
  · have hnone : a.names.filter (· ∉ a.names) = [] :=
      List.filter_eq_nil_iff.mpr fun n hn => by simpa using hn
    rw [names_merge a h, hnone, List.append_nil]
  · exact nodup_merge h a
  · intro name
    rw [find?_merge a h, Option.or_self]

theorem nodup_mergeAll (trees : List SyntaxTree) : (mergeAll trees).names.Nodup := by
  induction trees using List.reverseRecOn with
  | nil => exact List.nodup_nil
  | append_singleton trees t ih =>
    rw [mergeAll_concat]
    exact nodup_merge ih t

/-- Trees merged in two parts. -/
theorem mergeAll_append (trees : List SyntaxTree) {more : List SyntaxTree} (h : ∀ t ∈ more, t.names.Nodup) :
    mergeAll (trees ++ more) = (mergeAll trees).merge (mergeAll more) := by
  induction more using List.reverseRecOn with
  | nil => rw [List.append_nil, mergeAll, mergeAll, List.foldl_nil, merge_empty]
  | append_singleton more t ih =>
    rw [List.forall_mem_append, List.forall_mem_singleton] at h
    rw [← List.append_assoc, mergeAll_concat, ih h.1, mergeAll_concat,
      merge_assoc (nodup_mergeAll trees) (nodup_mergeAll more) h.2]

/-! ### Files in groups -/

/-- Files that are merged without an error can all be loaded. -/
theorem exists_decoded {fs : FileSystem} {t u : SyntaxTree} {paths : List Path}
    (h : (mergeFiles fs t paths).result = .ok u) :
    ∃ files : List (Path × SyntaxTree), files.map (·.1) = paths ∧ ∀ f ∈ files, ofFile fs f.1 = .ok f.2 := by
  induction paths generalizing t with
  | nil => exact ⟨[], rfl, fun _ hf => absurd hf List.not_mem_nil⟩
  | cons path paths ih =>
    rw [mergeFiles] at h
    cases hpath : ofFile fs path with
    | error e =>
      rw [hpath] at h
      cases h
    | ok more =>
      rw [hpath] at h
      obtain ⟨files, hfiles, hdecoded⟩ := ih h
      refine ⟨(path, more) :: files, ?_, List.forall_mem_cons.mpr ⟨hpath, hdecoded⟩⟩
      rw [List.map_cons, hfiles]

/-- Files that are loaded without an error give trees, and these merged are the result. -/
theorem exists_mergeAll {fs : FileSystem} {paths : List Path} {t : SyntaxTree}
    (h : (ofFiles fs paths).result = .ok t) : ∃ files : List (Path × SyntaxTree), files.map (·.1) = paths ∧
      (∀ f ∈ files, ofFile fs f.1 = .ok f.2) ∧ t = mergeAll (files.map (·.2)) := by
  obtain ⟨files, rfl, hdecoded⟩ := exists_decoded h
  refine ⟨files, rfl, hdecoded, ?_⟩
  rw [ofFiles_of_decoded hdecoded] at h
  exact (Except.ok.inj h).symm

theorem nodup_of_decoded {fs : FileSystem} {files : List (Path × SyntaxTree)}
    (h : ∀ f ∈ files, ofFile fs f.1 = .ok f.2) : ∀ t ∈ files.map (·.2), t.names.Nodup := by
  intro t ht
  obtain ⟨f, hf, rfl⟩ := List.mem_map.mp ht
  exact nodup_of_ofFile (h f hf)

/-- Files loaded in two parts. -/
theorem result_ofFiles_append {fs : FileSystem} {ps qs : List Path} {t u : SyntaxTree}
    (ht : (ofFiles fs ps).result = .ok t) (hu : (ofFiles fs qs).result = .ok u) :
    (ofFiles fs (ps ++ qs)).result = .ok (t.merge u) := by
  obtain ⟨files, rfl, hfiles, rfl⟩ := exists_mergeAll ht
  obtain ⟨more, rfl, hmore, rfl⟩ := exists_mergeAll hu
  have hall : ∀ f ∈ files ++ more, ofFile fs f.1 = .ok f.2 := List.forall_mem_append.mpr ⟨hfiles, hmore⟩
  rw [← List.map_append, ofFiles_of_decoded hall, List.map_append, mergeAll_append _ (nodup_of_decoded hmore)]

/-! ### Documentation of merged trees -/

theorem names_docs (t : SyntaxTree) : t.docs.map (·.name) = t.names := by
  rw [docs, List.map_map]
  rfl

/-- Inserting a root documents its module in the place of the one with its name. -/
theorem docs_insert {t : SyntaxTree} (h : t.names.Nodup) (name : String) (root : Root) :
    (t.insert name root).docs = ModuleDoc.put t.docs (.ofRoot name root) := by
  have hany : t.docs.any (·.name = name) = true ↔ name ∈ t.names := by
    rw [← names_docs, List.any_eq_true, List.mem_map]
    simp only [decide_eq_true_eq]
  have hput : ModuleDoc.put t.docs (.ofRoot name root) = if t.docs.any (·.name = name) then
      t.docs.map fun n => if n.name = name then .ofRoot name root else n
    else t.docs ++ [.ofRoot name root] := rfl
  have hdocs : (t.insert name root).docs = (Keyed.put name root t.modules).map fun x => .ofRoot x.1 x.2 := by
    rw [docs, insert, put_eq]
  rw [hput, hdocs]
  by_cases hname : name ∈ t.names
  · rw [if_pos (hany.mpr hname), Keyed.put_of_mem root h hname, docs, List.map_map, List.map_map]
    refine List.map_congr_left fun x _ => ?_
    by_cases hx : x.1 = name <;> simp [ModuleDoc.ofRoot, hx]
  · rw [if_neg (mt hany.mp hname), Keyed.put_of_not_mem root hname, List.map_append]
    rfl

theorem docs_insertAll {t : SyntaxTree} (h : t.names.Nodup) (roots : List (String × Root)) :
    (t.insertAll roots).docs = ModuleDoc.putAll t.docs (docs ⟨roots⟩) := by
  induction roots generalizing t with
  | nil => rfl
  | cons m roots ih =>
    rw [insertAll_cons, ih (nodup_insert h m.1 m.2), docs_insert h]
    rfl

theorem docs_merge {a : SyntaxTree} (h : a.names.Nodup) (b : SyntaxTree) :
    (a.merge b).docs = ModuleDoc.putAll a.docs b.docs := docs_insertAll h b.modules

/-- The documentation of merged trees is that of each, put together in order. -/
theorem docs_mergeAll (trees : List SyntaxTree) :
    (mergeAll trees).docs = trees.foldl (fun modules t => ModuleDoc.putAll modules t.docs) [] := by
  induction trees using List.reverseRecOn with
  | nil => rfl
  | append_singleton trees t ih =>
    rw [mergeAll_concat, docs_merge (nodup_mergeAll trees), ih, List.foldl_append]
    rfl

/-- Every module of merged trees is documented as by the last tree that has its name. -/
theorem exists_last_of_mem_docs {trees : List SyntaxTree} {m : ModuleDoc} (h : m ∈ (mergeAll trees).docs) :
    ∃ before t after, trees = before ++ t :: after ∧ m ∈ t.docs ∧ ∀ u ∈ after, m.name ∉ u.names := by
  induction trees using List.reverseRecOn with
  | nil => cases h
  | append_singleton trees t ih =>
    rw [mergeAll_concat, docs_merge (nodup_mergeAll trees)] at h
    rcases ModuleDoc.mem_putAll h with hlast | ⟨hm, hother⟩
    · exact ⟨trees, t, [], rfl, hlast, fun _ hu => absurd hu List.not_mem_nil⟩
    · obtain ⟨before, u, after, rfl, hu, hafter⟩ := ih hm
      have hname : m.name ∉ t.names := by
        rw [← names_docs, List.mem_map]
        rintro ⟨n, hn, hnm⟩
        exact hother n hn hnm.symm
      refine ⟨before, u, after ++ [t], ?_, hu, ?_⟩
      · rw [List.append_assoc, List.cons_append]
      · exact List.forall_mem_append.mpr ⟨hafter, List.forall_mem_singleton.mpr hname⟩

/-- Files loaded in two parts give the parts merged. Merging may be grouped in any way, the
empty tree adds nothing, and a tree adds nothing to itself. The documentation of files is that
of each file, put together in order, and a module that several files have is wholly that of
the last. -/
theorem ofFiles_grouped {fs : FileSystem} {ps qs : List Path} {t u : SyntaxTree}
    (ht : (ofFiles fs ps).result = .ok t) (hu : (ofFiles fs qs).result = .ok u) :
    (ofFiles fs (ps ++ qs)).result = .ok (t.merge u) ∧
    (∀ a b c : SyntaxTree, a.names.Nodup → b.names.Nodup → c.names.Nodup →
      (a.merge b).merge c = a.merge (b.merge c) ∧ empty.merge a = a ∧ a.merge empty = a ∧ a.merge a = a) ∧
    ∃ trees, List.Forall₂ (fun path a => ofFile fs path = .ok a) ps trees ∧
      t.docs = trees.foldl (fun modules a => ModuleDoc.putAll modules a.docs) [] ∧
      ∀ m ∈ t.docs, ∃ before a after, trees = before ++ a :: after ∧ m ∈ a.docs ∧
        ∀ b ∈ after, m.name ∉ b.names := by
  refine ⟨result_ofFiles_append ht hu, ?_, ?_⟩
  · intro a b c ha hb hc
    exact ⟨merge_assoc ha hb hc, empty_merge ha, merge_empty a, merge_self ha⟩
  · obtain ⟨files, rfl, hfiles, rfl⟩ := exists_mergeAll ht
    have hloaded : List.Forall₂ (fun path a => ofFile fs path = .ok a) (files.map (·.1)) (files.map (·.2)) := by
      rw [List.forall₂_map_left_iff, List.forall₂_map_right_iff, List.forall₂_same]
      exact hfiles
    exact ⟨files.map (·.2), hloaded, docs_mergeAll _, fun m hm => exists_last_of_mem_docs hm⟩

/-- The tree of the first of the overlapping files. -/
def firstTree : SyntaxTree := ⟨[("m", ⟨[]⟩), ("n", ⟨[]⟩)]⟩

/-- The tree of both overlapping files: the function that the second has comes in the place
that the first gives. -/
def bothTrees : SyntaxTree := ⟨[("m", ⟨[]⟩), ("n", ⟨[.ofKind .function]⟩), ("k", ⟨[]⟩)]⟩

theorem ofFiles_grouped_overlapping :
    (ofFiles overlapping [⟨"a.json"⟩, ⟨"b.json"⟩]).result = .ok bothTrees ∧
      (ofFiles overlapping [⟨"a.json"⟩]).result = .ok firstTree ∧
      (ofFiles overlapping [⟨"a.json"⟩, ⟨"b.json"⟩, ⟨"a.json"⟩]).result =
        .ok ⟨[("m", ⟨[]⟩), ("n", ⟨[]⟩), ("k", ⟨[]⟩)]⟩ ∧
      firstTree.merge (bothTrees.merge firstTree) = (firstTree.merge bothTrees).merge firstTree ∧
      ∃ trees : List SyntaxTree, trees.length = 2 ∧
        bothTrees.docs = trees.foldl (fun modules a => ModuleDoc.putAll modules a.docs) [] := by
  obtain ⟨ha, hb⟩ := ofFile_overlapping
  have hfirst : (ofFiles overlapping [⟨"a.json"⟩]).result = .ok firstTree := by
    simp only [ofFiles, mergeFiles, ha, Reported.after]
    rfl
  have hboth : (ofFiles overlapping [⟨"a.json"⟩, ⟨"b.json"⟩]).result = .ok bothTrees := by
    simp only [ofFiles, mergeFiles, ha, hb, Reported.after]
    rfl
  obtain ⟨happend, hmerge, trees, hloaded, hdocs, -⟩ := ofFiles_grouped hboth hfirst
  have hassoc := (hmerge firstTree bothTrees firstTree (by decide) (by decide) (by decide)).1
  exact ⟨hboth, hfirst, happend, hassoc.symm, trees, hloaded.length_eq.symm, hdocs⟩

end SyntaxTree
end ApiReference
