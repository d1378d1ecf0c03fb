/-
# A syntax tree is read back from its dump

`SyntaxTree.dump` writes a tree the way a compiler dumps it. A tree that can come
of a dump at all (`SyntaxTree.WellFormed`) is read back from it, and from every
other text that says the same (`ofText_of_written`): no depth, tag or character is
too much.

Key definitions: `Node.WellFormed`, `SyntaxTree.WellFormed`, `Node.json`,
`SyntaxTree.json`, `SyntaxTree.dump`.
Key theorems: `node?_of_wellFormed`, `ofList_of_nodup`.
-/
import ApiReference.Proofs.Json.Printing
import ApiReference.Proofs.Keyed
import ApiReference.Proofs.Tree.Reading

namespace ApiReference

open Json (Term Value)

/-! ### Dumps -/

/-- The kind is that of a tag and the type is not empty, throughout the node. -/
inductive Node.WellFormed : Node → Prop
  | mk {kind : Kind} {value : Option String} {children : List Node} {type : Option String}
    (hk : ∃ tag, kind = .ofTag tag) (ht : type ≠ some "") (hc : ∀ n ∈ children, n.WellFormed) :
    Node.WellFormed ⟨kind, value, children, type⟩

/-- No two modules have one name, and all nodes are well formed. -/
structure SyntaxTree.WellFormed (t : SyntaxTree) : Prop where
  nodup : t.names.Nodup
  nodes : ∀ m ∈ t.modules, ∀ n ∈ m.2.children, n.WellFormed

mutual

/-- The JSON of a node; text and type are left out if they are missing. -/
def Node.json : Node → Value
  | ⟨kind, value, children, type⟩ => .object <|
    ("type", .number (.int kind.tag.toNat)) :: (value.map fun s => ("value", .string s)).toList ++
      ("children", .list (Node.jsons children)) ::
        (type.map fun s => ("analysisType", .object [("_type", .string s)])).toList

/-- The JSON of nodes. -/
def Node.jsons : List Node → List Value
  | [] => []
  | n :: ns => Node.json n :: Node.jsons ns

end

namespace SyntaxTree

/-- The JSON of a tree: an object of its modules, in order. -/
def json (t : SyntaxTree) : Value :=
  .object (t.modules.map fun m => (m.1, .object [("children", .list (Node.jsons m.2.children))]))

/-- The tree as a compiler dumps it. -/
def dump (t : SyntaxTree) : String := t.json.compact

end SyntaxTree

/-! ### Nodes -/

theorem tag?_ofInt (tag : UInt32) : (Term.number (.ofInt tag.toNat)).tag? = some tag := by
  have h := tag.toNat_lt
  have hint : -Numeral.maxNegative ≤ (tag.toNat : Int) ∧ (tag.toNat : Int) ≤ Numeral.maxSignificand := by
    unfold Numeral.maxNegative Numeral.maxSignificand
    omega
  rw [tag?_number, Json.int?_ofInt hint, Option.bind_some]
  rw [if_pos ⟨by omega, by simpa using h⟩]
  simp

theorem ofTag_tag {kind : Kind} (h : ∃ tag, kind = .ofTag tag) : Kind.ofTag kind.tag = kind := by
  obtain ⟨tag, rfl⟩ := h
  rw [Kind.tag_ofTag]

theorem nonempty?_of_ne {type : Option String} (h : type ≠ some "") : nonempty? type = type := by
  unfold nonempty?
  split
  · exact absurd rfl h
  · rfl

mutual

/-- A well-formed node is what its JSON means. -/
theorem node?_of_wellFormed : ∀ {n : Node}, n.WellFormed →
    ∃ t, n.json.term? = some t ∧ t.node? = some n
  | ⟨kind, value, children, type⟩, .mk hk ht hc => by
    obtain ⟨ts, hts, hns⟩ := nodeList?_of_wellFormed hc
    have hkind := ofTag_tag hk
    have htype := nonempty?_of_ne ht
    have htag : field Term.tag? [.number (.ofInt kind.tag.toNat)] = some (some kind.tag) := by
      rw [field_single, tag?_ofInt, Option.map_some]
    have hnodes : field Term.nodes? [.list ts] = some (some children) := by
      rw [field_single, Term.nodes?, hns, Option.map_some]
    cases value <;> cases type <;>
      refine ⟨_, by simp [Node.json, Value.term?, Value.memberTerms?, hts]; rfl,
        Term.node?_eq_some_iff.mpr ⟨_, kind.tag, _, some children, _, rfl, htag, rfl, hnodes, rfl, ?_⟩⟩
    all_goals simp [hkind, textOf?, htype]

theorem nodeList?_of_wellFormed : ∀ {ns : List Node}, (∀ n ∈ ns, n.WellFormed) →
    ∃ ts, Value.terms? (Node.jsons ns) = some ts ∧ Term.nodeList? ts = some ns
  | [], _ => ⟨[], rfl, rfl⟩
  | n :: ns, h => by
    obtain ⟨t, ht, hn⟩ := node?_of_wellFormed (h n (List.mem_cons_self ..))
    obtain ⟨ts, hts, hns⟩ := nodeList?_of_wellFormed fun m hm => h m (List.mem_cons_of_mem _ hm)
    exact ⟨t :: ts, by simp [Node.jsons, Value.terms?, ht, hts], by simp [Term.nodeList?, hn, hns]⟩

end

/-! ### Trees -/

/-- A root is what the JSON of its children means. -/
theorem root?_of_nodeList? {vs : List Value} {ts : List Term} {children : List Node}
    (hts : Value.terms? vs = some ts) (hns : Term.nodeList? ts = some children) :
    ∃ t, (Value.object [("children", .list vs)]).term? = some t ∧ t.root? = some ⟨children⟩ := by
  refine ⟨.object [(some "children", .list ts)], by simp [Value.term?, Value.memberTerms?, hts], ?_⟩
  have hnodes : field Term.nodes? [.list ts] = some (some children) := by
    rw [field_single, Term.nodes?, hns, Option.map_some]
  have hslot : (Term.object [(some "children", .list ts)]).slot? "children" = some [.list ts] := rfl
  rw [Term.root?, hslot, Option.bind_some, hnodes]
  rfl

/-- Roots are what the JSON of each of them means. -/
theorem roots?_of_forall {α : Type} (json : α → Value) (root : α → Root) : ∀ {modules : List (String × α)},
    (∀ m ∈ modules, ∃ t, (json m.2).term? = some t ∧ t.root? = some (root m.2)) →
      ∃ ms, Value.memberTerms? (modules.map fun m => (m.1, json m.2)) = some ms ∧
        Term.roots? ms = some (modules.map fun m => (m.1, root m.2))
  | [], _ => ⟨[], rfl, rfl⟩
  | (name, a) :: modules, h => by
    obtain ⟨hfirst, hlater⟩ := List.forall_mem_cons.mp h
    obtain ⟨t, ht, hr⟩ := hfirst
    obtain ⟨ms, hms, hrs⟩ := roots?_of_forall json root hlater
    exact ⟨(some name, t) :: ms, by simp [Value.memberTerms?, ht, hms], by simp [Term.roots?, hr, hrs]⟩

theorem root?_of_wellFormed {children : List Node} (h : ∀ n ∈ children, n.WellFormed) :
    ∃ t, (Value.object [("children", .list (Node.jsons children))]).term? = some t ∧
      t.root? = some ⟨children⟩ := by
  obtain ⟨ts, hts, hns⟩ := nodeList?_of_wellFormed h
  exact root?_of_nodeList? hts hns

theorem roots?_of_wellFormed {modules : List (String × Root)}
    (h : ∀ m ∈ modules, ∀ n ∈ m.2.children, n.WellFormed) :
    ∃ ms, Value.memberTerms? (modules.map fun m =>
        (m.1, .object [("children", .list (Node.jsons m.2.children))])) = some ms ∧
      Term.roots? ms = some modules := by
  obtain ⟨ms, hms, hroots⟩ := roots?_of_forall
    (fun root : Root => Value.object [("children", .list (Node.jsons root.children))]) id
    fun m hm => root?_of_wellFormed (h m hm)
  exact ⟨ms, hms, by simpa using hroots⟩

namespace SyntaxTree

theorem put_eq (name : String) (root : Root) (modules : List (String × Root)) :
    put name root modules = Keyed.put name root modules := by
  induction modules with
  | nil => rfl
  | cons m modules ih => rw [put, Keyed.put, ih]

/-- Roots with names of their own are kept as they come. -/
theorem insertAll_of_nodup (t : SyntaxTree) (roots : List (String × Root))
    (h : ((t.modules ++ roots).map (·.1)).Nodup) : t.insertAll roots = ⟨t.modules ++ roots⟩ := by
  induction roots generalizing t with
  | nil => simp [insertAll]
  | cons m roots ih =>
    have hm : m.1 ∉ t.modules.map (·.1) := by
      rw [List.map_append, List.map_cons, List.nodup_append] at h
      exact fun hm => h.2.2 _ hm _ (List.mem_cons_self ..) rfl
    have hi : t.insert m.1 m.2 = ⟨t.modules ++ [m]⟩ := by
      rw [insert, put_eq, Keyed.put_of_not_mem m.2 hm]
    have := ih (t.insert m.1 m.2) (by rw [hi]; simpa using h)
    rw [hi] at this
    simpa [insertAll, hi] using this

theorem ofList_of_nodup {roots : List (String × Root)} (h : (roots.map (·.1)).Nodup) :
    ofList roots = ⟨roots⟩ := insertAll_of_nodup empty roots h

/-- A well-formed tree is what its JSON means. -/
theorem tree?_of_wellFormed {t : SyntaxTree} (h : t.WellFormed) :
    ∃ u, t.json.term? = some u ∧ u.tree? = some t := by
  obtain ⟨ms, hms, hr⟩ := roots?_of_wellFormed h.nodes
  refine ⟨.object ms, by simp [json, Value.term?, hms], ?_⟩
  rw [Term.tree?, hr, Option.map_some, ofList_of_nodup h.nodup]

/-- A well-formed tree is read from its dump, and from every other text that
writes the same JSON. -/
theorem ofText_of_written (t : SyntaxTree) (h : t.WellFormed) :
    ofText t.dump = .ok t ∧ ∀ text, t.json.WrittenAs text → ofText text = .ok t := by
  have all : ∀ text, t.json.WrittenAs text → ofText text = .ok t := by
    rintro text ⟨u, hu, htext⟩
    obtain ⟨u', hu', ht⟩ := tree?_of_wellFormed h
    rw [hu] at hu'
    cases hu'
    exact (ofText_eq_ok_iff htext t).mpr ht
  obtain ⟨u, hu, -⟩ := tree?_of_wellFormed h
  exact ⟨all _ ⟨u, hu, Value.hasText_compact hu⟩, all⟩

/-- A tree with a module of an awkward name, the largest tag, and a type of one
control character. -/
def awkward : SyntaxTree :=
  ⟨[("", ⟨[]⟩),
    ("a\"\\\n", ⟨[⟨.function, some "\x00/😀", [⟨.other 4294967295, none, [], some "\x1f"⟩], none⟩]⟩)]⟩

theorem ofText_of_written_awkward : awkward.WellFormed ∧ ofText awkward.dump = .ok awkward := by
  have leaf : (⟨.other 4294967295, none, [], some "\x1f"⟩ : Node).WellFormed :=
    .mk ⟨4294967295, rfl⟩ (by decide) (by simp)
  have h : awkward.WellFormed := by
    refine ⟨by decide, ?_⟩
    simp only [awkward, List.forall_mem_cons, List.not_mem_nil, false_imp_iff, implies_true, and_true,
      true_and]
    exact .mk ⟨4, rfl⟩ (by decide) (by simpa using leaf)
  exact ⟨h, (ofText_of_written awkward h).1⟩

end SyntaxTree
end ApiReference
