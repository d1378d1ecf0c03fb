/-
# However modules are put together, the tree is the same

Inserting a root gives back the one that had its name. `SyntaxTree.Holds` says what a history
of insertions leaves: the names as they first came, each with the root that came last. One
insertion takes a history a step further (`Holds.insert`), so a run of insertions leaves what
its roots say and each gives back the last root before it with its name (`insertEach_given`).

There is one tree that holds a history (`Holds.unique`). A tree that is collected from a list of
roots, or read from an object with these roots as its members, keys compared by what they say,
holds the list, too (`ofList_gathered`).

Key definitions: `SyntaxTree.insertEach`, `SyntaxTree.Holds`.
Key theorems: `Holds.insert`, `Holds.unique`, `insertEach_given`, `ofText_of_members`,
`ofList_gathered`.
-/
import ApiReference.Proofs.Tree.Decoded
import ApiReference.Proofs.Tree.Regrouping
import Mathlib.Data.Finset.Card

namespace ApiReference

open Json (Term)

namespace SyntaxTree

/-! ### Histories of insertions -/

/-- A tree is what a history of insertions leaves. -/
structure Holds (t : SyntaxTree) (history : List (String × Root)) : Prop where
  names : t.names = (history.map (·.1)).eraseDups
  nodup : t.names.Nodup
  root : ∀ name, t.find? name = history.reverse.lookup name

theorem Holds.empty : empty.Holds [] := ⟨rfl, List.nodup_nil, fun _ => rfl⟩

/-- Inserting a root takes the history a step further. -/
theorem Holds.insert {t : SyntaxTree} {history : List (String × Root)} (h : t.Holds history) (name : String)
    (root : Root) : (t.insert name root).Holds (history ++ [(name, root)]) where
  names := by
    have hmem : name ∈ t.names ↔ name ∈ history.map (·.1) := by rw [h.names, List.mem_eraseDups]
    rw [names_insert, List.map_append, List.eraseDups_append, ← h.names]
    -- a name that is there stays in its place, a new one goes to the end
    by_cases hn : name ∈ t.names
    · have hold : [name].removeAll (history.map (·.1)) = [] := by
        simpa [List.removeAll] using hmem.mp hn
      rw [if_pos hn, List.map_singleton, hold, List.eraseDups_nil]
    · have hnew : [name].removeAll (history.map (·.1)) = [name] := by
        simpa [List.removeAll] using mt hmem.mpr hn
      rw [if_neg hn, List.map_singleton, hnew, List.eraseDups_cons, List.filter_nil, List.eraseDups_nil]
  nodup := nodup_insert h.nodup name root
  root other := by
    rw [find?_insert, List.reverse_append, List.reverse_singleton, List.singleton_append]
    by_cases ho : other = name
    · rw [if_pos ho, ho, List.lookup_cons_self]
    · rw [if_neg ho, Keyed.lookup_cons_of_ne ho, h.root]

theorem Holds.insertAll {t : SyntaxTree} {history : List (String × Root)} (h : t.Holds history)
    (roots : List (String × Root)) : (t.insertAll roots).Holds (history ++ roots) := by
  induction roots generalizing t history with
  | nil => rwa [List.append_nil]
  | cons x roots ih =>
    rw [insertAll_cons, List.append_cons]
    exact ih (h.insert x.1 x.2)

theorem holds_ofList (roots : List (String × Root)) : (ofList roots).Holds roots :=
  Holds.empty.insertAll roots

/-- A history leaves one tree. -/
theorem Holds.unique {t u : SyntaxTree} {history : List (String × Root)} (ht : t.Holds history)
    (hu : u.Holds history) : t = u :=
  eq_of_find? (ht.names.trans hu.names.symm) ht.nodup fun name => (ht.root name).trans (hu.root name).symm

/-- There are as many modules as there have been names. -/
theorem Holds.size {t : SyntaxTree} {history : List (String × Root)} (h : t.Holds history) :
    t.size = (history.map (·.1)).toFinset.card := by
  have hnames : t.names.toFinset = (history.map (·.1)).toFinset := by
    ext name
    rw [List.mem_toFinset, List.mem_toFinset, h.names, List.mem_eraseDups]
  calc t.size = t.names.length := (List.length_map ..).symm
    _ = t.names.toFinset.card := (List.toFinset_card_of_nodup h.nodup).symm
    _ = (history.map (·.1)).toFinset.card := by rw [hnames]

/-! ### Inserting one at a time -/

/-- Roots are inserted one at a time: what each insertion gives back, which is the root that had
the name, and the tree in the end. -/
def insertEach (t : SyntaxTree) : List (String × Root) → List (Option Root) × SyntaxTree
  | [] => ([], t)
  | (name, root) :: rest =>
    let later := (t.insert name root).insertEach rest
    (t.find? name :: later.1, later.2)

theorem Holds.insertEach {t : SyntaxTree} {history : List (String × Root)} (h : t.Holds history)
    (roots : List (String × Root)) : (t.insertEach roots).2.Holds (history ++ roots) := by
  induction roots generalizing t history with
  | nil => rwa [List.append_nil]
  | cons x roots ih =>
    rw [List.append_cons]
    exact ih (h.insert x.1 x.2)

theorem insertEach_length (t : SyntaxTree) (roots : List (String × Root)) :
    (t.insertEach roots).1.length = roots.length := by
  induction roots generalizing t with
  | nil => rfl
  | cons x roots ih => exact congrArg (· + 1) (ih (t.insert x.1 x.2))

/-- Each insertion gives back the last root before it with its name. -/
theorem insertEach_given {t : SyntaxTree} {history : List (String × Root)} (h : t.Holds history)
    (before : List (String × Root)) (name : String) (root : Root) (after : List (String × Root)) :
    (t.insertEach (before ++ (name, root) :: after)).1[before.length]? =
      some ((history ++ before).reverse.lookup name) := by
  induction before generalizing t history with
  | nil =>
    rw [List.append_nil, ← h.root]
    rfl
  | cons x before ih =>
    rw [List.append_cons history x before]
    exact ih (h.insert x.1 x.2)

/-! ### Reading the members of an object -/

/-- The members of an object: names and what is written for their roots. -/
def MembersSay (ms : List (Option String × Term)) (roots : List (String × Root)) : Prop :=
  List.Forall₂ (fun m x => m.1 = some x.1 ∧ m.2.root? = some x.2) ms roots

theorem roots?_eq_some_iff {ms : List (Option String × Term)} {roots : List (String × Root)} :
    Term.roots? ms = some roots ↔ MembersSay ms roots := by
  induction ms generalizing roots with
  | nil =>
    unfold MembersSay
    rw [List.forall₂_nil_left_iff]
    exact ⟨fun h => (Option.some.inj h).symm, fun h => congrArg some h.symm⟩
  | cons m ms ih =>
    obtain ⟨key, t⟩ := m
    unfold MembersSay
    rw [Term.roots?, List.forall₂_cons_left_iff]
    constructor
    · intro h
      obtain ⟨name, hkey, h⟩ := Option.bind_eq_some_iff.mp h
      obtain ⟨root, hroot, h⟩ := Option.bind_eq_some_iff.mp h
      obtain ⟨later, hlater, rfl⟩ := Option.map_eq_some_iff.mp h
      exact ⟨(name, root), later, ⟨hkey, hroot⟩, ih.mp hlater, rfl⟩
    · rintro ⟨⟨name, root⟩, later, ⟨hkey, hroot⟩, hlater, rfl⟩
      rw [show key = some name from hkey, Option.bind_some, show t.root? = some root from hroot,
        Option.bind_some, ih.mpr hlater, Option.map_some]

/-- An object is read as its members collected, in whatever way it is written. -/
theorem ofText_of_members {ms : List (Option String × Term)} {roots : List (String × Root)}
    (h : MembersSay ms roots) {text : String} (htext : (Term.object ms).HasText text) :
    ofText text = .ok (ofList roots) := by
  refine (ofText_eq_ok_iff htext _).mpr ?_
  rw [Term.tree?, roots?_eq_some_iff.mpr h, Option.map_some]

/-- Roots that a text can give are the members of an object, in order, names repeated or not:
their dump. -/
theorem exists_membersSay {roots : List (String × Root)} (h : ∀ x ∈ roots, ∃ t : Term, t.root? = some x.2) :
    ∃ ms, MembersSay ms roots ∧ (Term.object ms).HasText (dump ⟨roots⟩) := by
  obtain ⟨ms, hms, hroots⟩ := roots?_of_wellFormed fun x hx => (exists_root?_iff x.2).mp (h x hx)
  have hterm : (json ⟨roots⟩).term? = some (.object ms) := by
    rw [json, Json.Value.term?, hms, Option.map_some]
  exact ⟨ms, roots?_eq_some_iff.mp hroots, Json.Value.hasText_compact hterm⟩

/-! ### All ways -/

/-- Roots that are inserted one at a time, that are collected, and that are read from an object
with them as its members, names repeated or not, give one tree. After any of the insertions no
name is there twice, the names stand as they first came, each has the root that came last, and
there are as many modules as names; each insertion gives back the last root before it with its
name. -/
theorem ofList_gathered (roots : List (String × Root)) :
    ((empty.insertEach roots).2 = ofList roots ∧
      (∀ ms text, MembersSay ms roots → (Term.object ms).HasText text → ofText text = .ok (ofList roots)) ∧
      ((∀ x ∈ roots, ∃ t : Term, t.root? = some x.2) → ofText (dump ⟨roots⟩) = .ok (ofList roots))) ∧
    (∀ before after, roots = before ++ after →
      (empty.insertEach before).2.names.Nodup ∧
        (empty.insertEach before).2.names = (before.map (·.1)).eraseDups ∧
        (∀ name, (empty.insertEach before).2.find? name = before.reverse.lookup name) ∧
        (empty.insertEach before).2.size = (before.map (·.1)).toFinset.card) ∧
    (empty.insertEach roots).1.length = roots.length ∧
    ∀ before name root after, roots = before ++ (name, root) :: after →
      (empty.insertEach roots).1[before.length]? = some (before.reverse.lookup name) := by
  refine ⟨⟨?_, fun ms text hms => ofText_of_members hms, ?_⟩, ?_, insertEach_length empty roots, ?_⟩
  · exact (Holds.empty.insertEach roots).unique (holds_ofList roots)
  · intro h
    obtain ⟨ms, hms, htext⟩ := exists_membersSay h
    exact ofText_of_members hms htext
  · rintro before after rfl
    have hholds : (empty.insertEach before).2.Holds before := Holds.empty.insertEach before
    exact ⟨hholds.nodup, hholds.names, hholds.root, hholds.size⟩
  · rintro before name root after rfl
    exact insertEach_given Holds.empty before name root after

/-- A name, another one, and the first again. -/
def repeatedRoots : List (String × Root) := [("a", ⟨[.ofKind .function]⟩), ("b", ⟨[]⟩), ("a", ⟨[]⟩)]

/-- An object with these roots, the first of them given by lists. -/
def repeatedMembers : List (Option String × Term) :=
  [(some "a", .list [.list [.list [.number (.ofInt 4)]]]), (some "b", .object []), (some "a", .object [])]

/-- The same name is written in two ways. -/
def repeatedText : String := "\x7b\"a\":[[[4]]],\"b\":\x7b\x7d,\"\\u0061\":\x7b\x7d\x7d"

theorem repeatedText_says : (Term.object repeatedMembers).HasText repeatedText := by
  have escaped : Json.StringSpells (some "a") ['"', '\\', 'u', '0', '0', '6', '1', '"'] := by
    have spells : Json.PartsSpell [.unit 0x61] ['\\', 'u', '0', '0', '6', '1'] :=
      .cons (.hex (i := 0) (j := 0) (k := 6) (l := 1) (.inl rfl) (.inl rfl) (.inl rfl) (.inl rfl)) .nil
    refine ⟨[.unit 0x61], _, rfl, spells, fun s => ⟨?_, fun h => ?_⟩⟩
    · rintro ⟨rfl⟩
      rfl
    · have hchars : "a".toList = s.toList := Json.flatMap_units_inj h
      exact congrArg some (String.toList_inj.mp hchars)
  have function : Term.Spells (.list [.list [.list [.number (.ofInt 4)]]]) "[[[4]]]".toList :=
    .list (.last Json.blank_nil (.list (.last Json.blank_nil (.list (.last Json.blank_nil
      (.number (Json.numeralSpells_ofInt 4)) Json.blank_nil)) Json.blank_nil)) Json.blank_nil)
  have bare : Term.Spells (.object []) "\x7b\x7d".toList := .emptyObject Json.blank_nil
  have members := Term.MembersSpell.more Json.blank_nil (Json.quote_spells "a") Json.blank_nil Json.blank_nil
    function Json.blank_nil (.more Json.blank_nil (Json.quote_spells "b") Json.blank_nil Json.blank_nil bare
      Json.blank_nil (.last Json.blank_nil escaped Json.blank_nil Json.blank_nil bare Json.blank_nil))
  exact ⟨[], _, [], Json.blank_nil, .object members, Json.blank_nil, rfl⟩

theorem ofList_gathered_repeated :
    MembersSay repeatedMembers repeatedRoots ∧ ofText repeatedText = .ok (ofList repeatedRoots) ∧
      (empty.insertEach repeatedRoots).1 = [none, none, some ⟨[.ofKind .function]⟩] ∧
      (ofList repeatedRoots).names = ["a", "b"] ∧ (ofList repeatedRoots).size = 2 := by
  have hsay : MembersSay repeatedMembers repeatedRoots := by
    have h4 : Numeral.ofInt 4 = ⟨false, [4], [], none⟩ := Json.ofInt_digit (by decide)
    rw [← roots?_eq_some_iff, repeatedMembers, h4]
    rfl
  obtain ⟨⟨hinsert, hread, -⟩, hprefix, -, -⟩ := ofList_gathered repeatedRoots
  obtain ⟨-, hnames, -, hsize⟩ := hprefix repeatedRoots [] (List.append_nil _).symm
  rw [hinsert] at hnames hsize
  exact ⟨hsay, hread _ _ hsay repeatedText_says, by decide, hnames.trans (by decide), hsize.trans (by decide)⟩

end SyntaxTree
end ApiReference
