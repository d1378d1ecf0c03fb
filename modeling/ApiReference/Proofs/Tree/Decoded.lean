/-
# What every decoded tree guarantees

A reader makes the kind of a node from its tag and drops an empty type, in whatever form the
node is written (`wellFormed_of_node?`). So a tree that is read from a text is well formed
(`wellFormed_of_ofText`), and well-formed roots are just those that a text can give
(`exists_root?_iff`). Trees that are built otherwise need not be.

Documentation takes types over as they are. So of a tree that is read, no parameter and no
result has an empty type, and no signature breaks off where a type is to come
(`ofText_decoded`).

Key definitions: `Node.Within`, `FunctionDoc.NamesTypes`.
Key theorems: `wellFormed_of_node?`, `exists_root?_iff`, `wellFormed_of_ofText`,
`FunctionDoc.namesTypes_of_ne`, `ofText_decoded`.
-/
import ApiReference.Docs.OfTree
import ApiReference.Proofs.Tree.Merging
import ApiReference.Proofs.Tree.Shape
import Mathlib.Algebra.Group.Nat.Defs

namespace ApiReference

open Json (Term)

/-! ### Nodes that are read -/

theorem nonempty?_ne (name : Option String) : nonempty? name ≠ some "" := by
  unfold nonempty?
  split
  · nofun
  · next h => exact h

/-- An empty type is none, whether it is written as such, left out, or no record at all. -/
theorem type?_ne {t : Term} {type : Option String} (h : t.type? = some type) : type ≠ some "" := by
  unfold Term.type? at h
  split at h
  · cases h
    nofun
  · obtain ⟨ts, -, h⟩ := Option.bind_eq_some_iff.mp h
    obtain ⟨x, -, rfl⟩ := Option.map_eq_some_iff.mp h
    exact nonempty?_ne _

theorem mem_of_field {α : Type} {read : Term → Option α} {ts : List Term} {a : α}
    (h : field read ts = some (some a)) : ∃ t ∈ ts, read t = some a := by
  rcases ts with _ | ⟨t, _ | ⟨u, ts⟩⟩
  · cases h
  · rw [field_single] at h
    obtain ⟨b, hb, he⟩ := Option.map_eq_some_iff.mp h
    exact ⟨t, List.mem_cons_self, hb.trans he⟩
  · rw [field_many] at h
    cases h

theorem mem_of_nodeList? {ts : List Term} {ns : List Node} (h : Term.nodeList? ts = some ns) :
    ∀ n ∈ ns, ∃ t ∈ ts, t.node? = some n := by
  induction ts generalizing ns with
  | nil =>
    cases h
    exact fun _ hn => absurd hn List.not_mem_nil
  | cons t ts ih =>
    rw [Term.nodeList?] at h
    obtain ⟨n, hn, h⟩ := Option.bind_eq_some_iff.mp h
    obtain ⟨later, hlater, rfl⟩ := Option.map_eq_some_iff.mp h
    rw [List.forall_mem_cons]
    refine ⟨⟨t, List.mem_cons_self, hn⟩, fun m hm => ?_⟩
    obtain ⟨u, hu, hum⟩ := ih hlater m hm
    exact ⟨u, List.mem_cons_of_mem t hu, hum⟩

/-- The nodes that a term lists are read from smaller terms. -/
theorem mem_of_nodes? {t : Term} {ns : List Node} (h : t.nodes? = some ns) :
    ∀ n ∈ ns, ∃ u : Term, sizeOf u < sizeOf t ∧ u.node? = some n := by
  cases t with
  | list ts =>
    rw [Term.nodes?] at h
    intro n hn
    obtain ⟨u, hu, hun⟩ := mem_of_nodeList? h n hn
    have hlt := List.sizeOf_lt_of_mem hu
    refine ⟨u, ?_, hun⟩
    rw [Term.list.sizeOf_spec]
    omega
  | _ => cases h

/-- A node that is read is well formed, as are all below it. -/
theorem wellFormed_of_node? (t : Term) {n : Node} (h : t.node? = some n) : n.WellFormed := by
  obtain ⟨s, tag, value, children, type, hs, -, -, hchildren, htype, rfl⟩ := Term.node?_eq_some_iff.mp h
  have hbelow : ∀ m ∈ children.getD [], m.WellFormed := by
    cases children with
    | none => exact fun _ hm => absurd hm List.not_mem_nil
    | some ns =>
      intro m hm
      obtain ⟨u, hu, hns⟩ := mem_of_field hchildren
      obtain ⟨v, hv, hvm⟩ := mem_of_nodes? hns m hm
      -- the term of the child is smaller, whether the node is an object or a list
      have hsmaller : sizeOf v < sizeOf t := Nat.lt_trans hv (sizeOf_lt_of_mem_children hs hu)
      exact wellFormed_of_node? v hvm
  have hnonempty : type.getD none ≠ some "" := by
    cases type with
    | none => nofun
    | some type =>
      obtain ⟨u, -, hu⟩ := mem_of_field htype
      exact type?_ne hu
  exact .mk ⟨tag, rfl⟩ hnonempty hbelow
termination_by sizeOf t

/-! ### Roots and trees that are read -/

theorem wellFormed_of_root? {t : Term} {r : Root} (h : t.root? = some r) : ∀ n ∈ r.children, n.WellFormed := by
  unfold Term.root? at h
  obtain ⟨ts, -, h⟩ := Option.bind_eq_some_iff.mp h
  obtain ⟨children, hchildren, rfl⟩ := Option.map_eq_some_iff.mp h
  cases children with
  | none => exact fun _ hn => absurd hn List.not_mem_nil
  | some ns =>
    intro n hn
    obtain ⟨u, -, hu⟩ := mem_of_field hchildren
    obtain ⟨v, -, hv⟩ := mem_of_nodes? hu n hn
    exact wellFormed_of_node? v hv

/-- The roots that a term can mean are those whose nodes are well formed. -/
theorem exists_root?_iff (r : Root) : (∃ t : Term, t.root? = some r) ↔ ∀ n ∈ r.children, n.WellFormed := by
  constructor
  · rintro ⟨t, ht⟩
    exact wellFormed_of_root? ht
  · intro h
    obtain ⟨t, -, ht⟩ := root?_of_wellFormed h
    exact ⟨t, ht⟩

theorem mem_of_roots? {ms : List (Option String × Term)} {roots : List (String × Root)}
    (h : Term.roots? ms = some roots) : ∀ x ∈ roots, ∃ t : Term, t.root? = some x.2 := by
  induction ms generalizing roots with
  | nil =>
    cases h
    exact fun _ hx => absurd hx List.not_mem_nil
  | cons m ms ih =>
    obtain ⟨k, t⟩ := m
    rw [Term.roots?] at h
    obtain ⟨name, -, h⟩ := Option.bind_eq_some_iff.mp h
    obtain ⟨root, hroot, h⟩ := Option.bind_eq_some_iff.mp h
    obtain ⟨later, hlater, rfl⟩ := Option.map_eq_some_iff.mp h
    exact List.forall_mem_cons.mpr ⟨⟨t, hroot⟩, ih hlater⟩

namespace SyntaxTree

/-- Every module of a tree is one of those inserted or was there. -/
theorem mem_insertAll {t : SyntaxTree} {roots : List (String × Root)} {x : String × Root}
    (h : x ∈ (t.insertAll roots).modules) : x ∈ roots ∨ x ∈ t.modules := by
  induction roots generalizing t with
  | nil => exact .inr h
  | cons m roots ih =>
    rw [insertAll_cons] at h
    rcases ih h with hlater | hput
    · exact .inl (List.mem_cons_of_mem m hlater)
    · rw [insert, put_eq] at hput
      rcases Keyed.mem_put hput with rfl | hthere
      · exact .inl List.mem_cons_self
      · exact .inr hthere

/-- A tree that is read is well formed. -/
theorem wellFormed_of_ofText {text : String} {t : SyntaxTree} (h : ofText text = .ok t) : t.WellFormed := by
  refine ⟨nodup_of_ofText h, ?_⟩
  obtain ⟨u, -, hu⟩ := ofText_eq_ok_iff_exists.mp h
  unfold Term.tree? at hu
  split at hu
  · obtain ⟨roots, hroots, rfl⟩ := Option.map_eq_some_iff.mp hu
    intro x hx
    rcases mem_insertAll hx with hmem | hnone
    · obtain ⟨v, hv⟩ := mem_of_roots? hroots x hmem
      exact wellFormed_of_root? hv
    · cases hnone
  · cases hu

end SyntaxTree

/-! ### Nodes at every depth -/

/-- A node is another one or stands below it, at whatever depth. -/
inductive Node.Within : Node → Node → Prop
  | self (n : Node) : Within n n
  | lower {n m child : Node} (hm : child ∈ m.children) (h : Within n child) : Within n m

theorem Node.WellFormed.within {n m : Node} (h : m.WellFormed) (hn : n.Within m) : n.WellFormed := by
  induction hn with
  | self => exact h
  | lower hm _ ih =>
    obtain ⟨-, -, hc⟩ := h
    exact ih (hc _ hm)

/-- A tag with a kind of its own never shows as a tag of another kind. -/
theorem Kind.ofTag_eq_other {tag other : UInt32} (h : Kind.ofTag tag = .other other) :
    other ≠ 4 ∧ other ≠ 5 ∧ other ≠ 9 ∧ other ≠ 10 := by
  unfold Kind.ofTag at h
  split at h
  · cases h
  split at h
  · cases h
  split at h
  · cases h
  split at h
  · cases h
  next h4 h5 h9 h10 =>
  obtain rfl : tag = other := Kind.other.inj h
  exact ⟨h4, h5, h9, h10⟩

/-! ### Documentation -/

/-- A type that is missing is shown, too. -/
theorem ParameterDoc.shownType_ne {p : ParameterDoc} (h : p.type ≠ some "") : p.shownType ≠ "" := by
  unfold shownType
  cases htype : p.type with
  | none => exact (by decide : "?" ≠ "")
  | some type => exact fun hempty => h (htype.trans (congrArg some hempty))

namespace FunctionDoc

/-- The signature is the name, the parameters with a type each, and the type of the result if
there is one; none of these types is empty. -/
def NamesTypes (f : FunctionDoc) : Prop :=
  ∃ (shown : List (String × String)) (result : String),
    shown.map (·.1) = f.parameters.map (·.name) ∧ (∀ x ∈ shown, x.2 ≠ "") ∧
      (result = "" ∨ ∃ type, type ≠ "" ∧ result = ": " ++ type) ∧
      f.signature = f.name ++ "(" ++ ", ".intercalate (shown.map fun x => x.1 ++ ": " ++ x.2) ++ ")" ++ result

theorem namesTypes_of_ne {f : FunctionDoc} (hp : ∀ p ∈ f.parameters, p.type ≠ some "")
    (hr : f.returns ≠ some "") : f.NamesTypes := by
  have hshown : ∀ x ∈ f.parameters.map fun p => (p.name, p.shownType), x.2 ≠ "" := by
    rw [List.forall_mem_map]
    exact fun p hmem => ParameterDoc.shownType_ne (hp p hmem)
  have hnames : (f.parameters.map fun p => (p.name, p.shownType)).map (·.1) = f.parameters.map (·.name) := by
    rw [List.map_map]
    rfl
  have hsignatures : (f.parameters.map fun p => (p.name, p.shownType)).map (fun x => x.1 ++ ": " ++ x.2) =
      f.parameters.map ParameterDoc.signature := by
    rw [List.map_map]
    rfl
  cases hreturns : f.returns with
  | none =>
    refine ⟨_, "", hnames, hshown, .inl rfl, ?_⟩
    rw [signature, hreturns, hsignatures]
  | some type =>
    have htype : type ≠ "" := fun h => hr (hreturns.trans (congrArg some h))
    refine ⟨_, ": " ++ type, hnames, hshown, .inr ⟨type, htype, rfl⟩, ?_⟩
    rw [signature, hreturns, hsignatures]

end FunctionDoc

theorem mem_functions_docs {t : SyntaxTree} {m : ModuleDoc} {f : FunctionDoc} (hm : m ∈ t.docs)
    (hf : f ∈ m.functions) : ∃ x ∈ t.modules, ∃ n ∈ x.2.children, f = .ofNode n := by
  obtain ⟨x, hx, rfl⟩ := List.mem_map.mp hm
  obtain ⟨n, hn, rfl⟩ := List.mem_map.mp hf
  exact ⟨x, hx, n, (List.mem_filter.mp hn).1, rfl⟩

/-- The documentation of a well-formed node has no empty type. -/
theorem FunctionDoc.types_ofNode {n : Node} (h : n.WellFormed) :
    (ofNode n).returns ≠ some "" ∧ ∀ p ∈ (ofNode n).parameters, p.type ≠ some "" := by
  obtain ⟨-, ht, hc⟩ := h
  refine ⟨ht, fun p hp => ?_⟩
  obtain ⟨c, hmem, rfl⟩ := List.mem_map.mp hp
  obtain ⟨-, htype, -⟩ := hc c (List.mem_filter.mp hmem).1
  exact htype

namespace SyntaxTree

/-- In a tree that is read, no two modules have one name, and every node, at whatever depth, has
the kind that its tag names, of 32 bits, and no empty type. So its documentation has no empty
type, and no signature shows one. -/
theorem ofText_decoded {text : String} {t : SyntaxTree} (h : ofText text = .ok t) :
    t.names.Nodup ∧
    (∀ x ∈ t.modules, ∀ child ∈ x.2.children, ∀ n : Node, n.Within child →
      n.kind.tag.toNat < 2 ^ 32 ∧ n.kind = .ofTag n.kind.tag ∧
        (∀ tag, n.kind = .other tag → tag ≠ 4 ∧ tag ≠ 5 ∧ tag ≠ 9 ∧ tag ≠ 10) ∧ n.type ≠ some "") ∧
    ∀ m ∈ t.docs, ∀ f ∈ m.functions,
      f.returns ≠ some "" ∧ (∀ p ∈ f.parameters, p.type ≠ some "") ∧ f.NamesTypes := by
  obtain ⟨hnodup, hnodes⟩ := wellFormed_of_ofText h
  refine ⟨hnodup, ?_, ?_⟩
  · intro x hx child hchild n hn
    obtain ⟨hkind, htype, -⟩ := (hnodes x hx child hchild).within hn
    refine ⟨UInt32.toNat_lt _, (ofTag_tag hkind).symm, ?_, htype⟩
    rintro tag rfl
    obtain ⟨original, horiginal⟩ := hkind
    exact Kind.ofTag_eq_other horiginal.symm
  · intro m hm f hf
    obtain ⟨x, hx, n, hn, rfl⟩ := mem_functions_docs hm hf
    obtain ⟨hreturns, hparameters⟩ := FunctionDoc.types_ofNode (hnodes x hx n hn)
    exact ⟨hreturns, hparameters, FunctionDoc.namesTypes_of_ne hparameters hreturns⟩

/-- A function that is given as a list, with a type that is a number, and its parameter, whose
type is empty. -/
def looselyTyped : String :=
  "\x7b\"m\":[[[4,\"f\",[\x7b\"kind\":5,\"value\":\"x\",\"analysisType\":[\"\"]\x7d],\x7b\"_type\":7\x7d]]]\x7d"

/-- The tree of that function. -/
def looselyTypedTree : SyntaxTree :=
  ⟨[("m", ⟨[⟨.function, some "f", [⟨.parameter, some "x", [], none⟩], some "7"⟩]⟩)]⟩

theorem ofText_decoded_looselyTyped :
    ofText looselyTyped = .ok looselyTypedTree ∧ looselyTypedTree.names.Nodup ∧
      (∀ m ∈ looselyTypedTree.docs, ∀ f ∈ m.functions, f.signature = "f(x: ?): 7" ∧ f.NamesTypes) := by
  have h : ofText looselyTyped = .ok looselyTypedTree := by decide +kernel
  obtain ⟨hnodup, -, hdocs⟩ := ofText_decoded h
  refine ⟨h, hnodup, fun m hm f hf => ⟨?_, (hdocs m hm f hf).2.2⟩⟩
  obtain rfl : m = .ofRoot "m" ⟨[⟨.function, some "f", [⟨.parameter, some "x", [], none⟩], some "7"⟩]⟩ :=
    List.mem_singleton.mp hm
  obtain rfl : f = .ofNode ⟨.function, some "f", [⟨.parameter, some "x", [], none⟩], some "7"⟩ :=
    List.mem_singleton.mp hf
  decide

end SyntaxTree
end ApiReference
