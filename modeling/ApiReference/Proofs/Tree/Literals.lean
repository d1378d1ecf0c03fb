/-
# The texts of literal values

A node keeps of its value the text: none for null, a string itself, and of anything else the
compact text of the ordered value (`Value.literal?`). This text is JSON for the same value, and
written in the place of the value it gives itself again (`literal?_of_writtenAs`); an integer has
the digits it is written with (`literal?_of_spells`). Two values have one text if and only if
they are the same (`literal?_eq_iff`).

Key definitions: `Value.literal?`, `Value.Printed`, `Written`, `Written.json`, `Written.node`.
Key theorems: `literal?_of_writtenAs`, `literal?_of_spells`, `literal?_eq_iff`,
`node?_of_integral`, `ofText_of_literals`.
-/
import ApiReference.Proofs.Json.Canonical
import ApiReference.Proofs.Json.Sameness
import ApiReference.Proofs.Tree.RoundTrip

namespace ApiReference

open Json (NumeralSpells Term Tight Value)

/-! ### Literals -/

namespace Json.Value

/-- The text that a node keeps of its value. -/
def literal? (v : Value) : Option String := textOf? v.ordered

/-- Neither null nor a string: a value that is kept as its JSON text. -/
def Printed : Value → Prop
  | .null | .string _ => False
  | _ => True

theorem literal?_of_printed {v : Value} (h : v.Printed) : v.literal? = some v.ordered.compact := by
  cases v with
  | null | string => exact h.elim
  | bool | number | list | object => rfl

/-- The text of a literal, read once more, is its own literal. -/
theorem literal?_of_writtenAs {v w : Value} (hv : v.Integral) (hprinted : v.Printed) (hw : w.Integral)
    (h : w.WrittenAs v.ordered.compact) : w.literal? = some v.ordered.compact := by
  have hread := ofText?_of_writtenAs hw h
  rw [ofText?_compact_ordered hv] at hread
  rw [literal?, ← Option.some.inj hread]
  exact literal?_of_printed hprinted

/-- A numeral of an integer is the only one, and the integer has its digits. -/
theorem literal?_of_spells {x : Numeral} {cs : List Char} {n : Int} (hx : NumeralSpells x cs)
    (hn : x.int? = some n) : (Value.number (.int n)).Integral ∧
      (Value.number (.int n)).term? = some (.number x) ∧ (Value.number (.int n)).literal? = some (String.ofList cs) := by
  refine ⟨.int (bounds_of_int? hn), ?_, ?_⟩
  · rw [eq_ofInt hx hn]
    rfl
  · rw [spelling_eq hx hn, String.ofList_toList]
    rfl

theorem literal?_eq_iff {v w : Value} (hv : v.Integral) (hw : w.Integral) (hvp : v.Printed) (hwp : w.Printed) :
    v.literal? = w.literal? ↔ v.Same w := by
  rw [literal?_of_printed hvp, literal?_of_printed hwp, Option.some.injEq, compact_ordered_inj hv hw, same_iff]

end Json.Value

/-! ### Nodes with values -/

/-- A node as it is written: its tag, its value, which can be any JSON, its children and its type,
which can be left out. -/
inductive Written where
  | mk (tag : UInt32) (value : Value) (children : List Written) (type : Option String)

namespace Written

mutual

/-- The JSON of a node. -/
def json : Written → Value
  | ⟨tag, value, children, type⟩ => .object <|
    ("type", .number (.int tag.toNat)) :: ("value", value) :: ("children", .list (jsons children)) ::
      (type.map fun s => ("analysisType", .object [("_type", .string s)])).toList

/-- The JSON of nodes. -/
def jsons : List Written → List Value
  | [] => []
  | n :: ns => n.json :: jsons ns

end

mutual

/-- The node that is written. -/
def node : Written → Node
  | ⟨tag, value, children, type⟩ => ⟨.ofTag tag, value.literal?, nodes children, nonempty? type⟩

/-- The nodes that are written. -/
def nodes : List Written → List Node
  | [] => []
  | n :: ns => n.node :: nodes ns

end

/-- All values are without doubles, and their integers have 64 bits. -/
inductive Integral : Written → Prop
  | mk {tag : UInt32} {value : Value} {children : List Written} {type : Option String} (hv : value.Integral)
    (hc : ∀ n ∈ children, n.Integral) : Integral ⟨tag, value, children, type⟩

mutual

/-- The JSON of a node means the node, its value by its literal. -/
theorem node?_of_integral : ∀ {n : Written}, n.Integral → ∃ t, n.json.term? = some t ∧ t.node? = some n.node
  | ⟨tag, value, children, type⟩, .mk hv hc => by
    obtain ⟨u, hu, hread⟩ := Value.exists_term hv
    obtain ⟨ts, hts, hns⟩ := nodeList?_of_integral hc
    have htag : field Term.tag? [.number (.ofInt tag.toNat)] = some (some tag) := by
      rw [field_single, tag?_ofInt, Option.map_some]
    have hvalue : field Term.text? [u] = some (some value.literal?) := by
      rw [field_single, Term.text?, hread]
      rfl
    have hnodes : field Term.nodes? [.list ts] = some (some (nodes children)) := by
      rw [field_single, Term.nodes?, hns, Option.map_some]
    cases type <;>
      refine ⟨_, by simp [json, Value.term?, Value.memberTerms?, hu, hts]; rfl,
        Term.node?_eq_some_iff.mpr ⟨_, tag, _, _, _, rfl, htag, hvalue, hnodes, rfl, ?_⟩⟩
    all_goals rfl

theorem nodeList?_of_integral : ∀ {ns : List Written}, (∀ n ∈ ns, n.Integral) →
    ∃ ts, Value.terms? (jsons ns) = some ts ∧ Term.nodeList? ts = some (nodes ns)
  | [], _ => ⟨[], rfl, rfl⟩
  | n :: ns, h => by
    obtain ⟨hn, hns⟩ := List.forall_mem_cons.mp h
    obtain ⟨t, ht, hnode⟩ := node?_of_integral hn
    obtain ⟨ts, hts, hnodes⟩ := nodeList?_of_integral hns
    exact ⟨t :: ts, by simp [jsons, Value.terms?, ht, hts], by simp [Term.nodeList?, hnode, hnodes, nodes]⟩

end

/-- The JSON of the root of a module. -/
def rootJson (children : List Written) : Value := .object [("children", .list (jsons children))]

/-- The JSON of modules. -/
def treeJson (modules : List (String × List Written)) : Value := .object (modules.map fun m => (m.1, rootJson m.2))

/-- The modules that are written. -/
def tree (modules : List (String × List Written)) : SyntaxTree :=
  .ofList (modules.map fun m => (m.1, ⟨nodes m.2⟩))

theorem tree?_of_integral {modules : List (String × List Written)}
    (h : ∀ m ∈ modules, ∀ n ∈ m.2, n.Integral) :
    ∃ t, (treeJson modules).term? = some t ∧ t.tree? = some (tree modules) := by
  have hroot : ∀ m ∈ modules, ∃ t, (rootJson m.2).term? = some t ∧ t.root? = some ⟨nodes m.2⟩ := by
    intro m hm
    obtain ⟨ts, hts, hns⟩ := nodeList?_of_integral (h m hm)
    exact root?_of_nodeList? hts hns
  obtain ⟨ms, hms, hroots⟩ := roots?_of_forall rootJson (fun children => ⟨nodes children⟩) hroot
  refine ⟨.object ms, by rw [treeJson, Value.term?, hms]; rfl, ?_⟩
  rw [Term.tree?, hroots]
  rfl

/-- Modules are read from every text for their JSON. -/
theorem ofText_of_writtenAs {modules : List (String × List Written)}
    (h : ∀ m ∈ modules, ∀ n ∈ m.2, n.Integral) {text : String} (htext : (treeJson modules).WrittenAs text) :
    SyntaxTree.ofText text = .ok (tree modules) := by
  obtain ⟨t, ht, htext⟩ := htext
  obtain ⟨t', ht', htree⟩ := tree?_of_integral h
  obtain rfl : t = t' := Option.some.inj (ht.symm.trans ht')
  exact (ofText_eq_ok_iff htext _).mpr htree

end Written

/-- In every text of a tree each node keeps the literal of its value. Null has none, a string is
its own. The literal of any other value has no blanks but in strings, is JSON for the same value,
and is the literal of whatever value it is JSON for; that of an integer is each of the numerals
for it. Two values that are neither null nor strings have one literal if and only if they are the
same. -/
theorem ofText_of_literals {modules : List (String × List Written)} (h : ∀ m ∈ modules, ∀ n ∈ m.2, n.Integral) :
    (∀ text, (Written.treeJson modules).WrittenAs text → SyntaxTree.ofText text = .ok (Written.tree modules)) ∧
    Value.null.literal? = none ∧ (∀ s, (Value.string s).literal? = some s) ∧
    (∀ v : Value, v.Integral → v.Printed → ∃ literal, v.literal? = some literal ∧ Tight literal.toList ∧
      (∃ w : Value, w.Integral ∧ v.Same w ∧ w.WrittenAs literal) ∧
      ∀ w : Value, w.Integral → w.WrittenAs literal → w.literal? = some literal) ∧
    (∀ x cs n, NumeralSpells x cs → x.int? = some n → (Value.number (.int n)).Integral ∧
      (Value.number (.int n)).term? = some (.number x) ∧ (Value.number (.int n)).literal? = some (String.ofList cs)) ∧
    ∀ v w : Value, v.Integral → w.Integral → v.Printed → w.Printed → (v.literal? = w.literal? ↔ v.Same w) := by
  refine ⟨fun text => Written.ofText_of_writtenAs h, rfl, fun s => rfl, fun v hv hprinted => ?_,
    fun x cs n => Value.literal?_of_spells, fun v w => Value.literal?_eq_iff⟩
  have hordered := Value.integral_ordered hv
  have hsame : v.Same v.ordered := Value.same_iff.mpr (Value.ordered_ordered v).symm
  exact ⟨v.ordered.compact, Value.literal?_of_printed hprinted, Value.tight_compact hordered,
    ⟨v.ordered, hordered, hsame, Value.writtenAs_compact hordered⟩,
    fun w hw => Value.literal?_of_writtenAs hv hprinted hw⟩

/-- A node whose value has a key twice, the other key behind it, and an integer that is as small as
can be; below it a node without a value. -/
def assorted : List (String × List Written) :=
  [("m", [⟨9, .object [("b", .bool true), ("b", .number (.int (-9223372036854775808))),
    ("a", .list [.null, .string "\""])], [⟨4, .null, [], some ""⟩], none⟩])]

theorem ofText_of_literals_assorted :
    (∀ m ∈ assorted, ∀ n ∈ m.2, n.Integral) ∧
      SyntaxTree.ofText (Written.treeJson assorted).compact = .ok ⟨[("m", ⟨[⟨.nativeMark,
        some "\x7b\"a\":[null,\"\\\"\"],\"b\":-9223372036854775808\x7d", [⟨.function, none, [], none⟩], none⟩]⟩)]⟩ := by
  have hvalue : (Value.object [("b", .bool true), ("b", .number (.int (-9223372036854775808))),
      ("a", .list [.null, .string "\""])]).Integral := by
    have hitems : ∀ v ∈ [Value.null, Value.string "\""], v.Integral := by
      simp only [List.forall_mem_cons, List.not_mem_nil, false_imp_iff, implies_true, and_true]
      exact ⟨.null, .string⟩
    refine .object ?_
    simp only [List.forall_mem_cons, List.not_mem_nil, false_imp_iff, implies_true, and_true]
    exact ⟨.bool, .int (by decide), .list hitems⟩
  have hnodes : ∀ m ∈ assorted, ∀ n ∈ m.2, n.Integral := by
    simp only [assorted, List.forall_mem_cons, List.not_mem_nil, false_imp_iff, implies_true, and_true]
    exact .mk hvalue (by simpa using .mk .null (List.forall_mem_nil _))
  refine ⟨hnodes, ?_⟩
  obtain ⟨t, ht, -⟩ := Written.tree?_of_integral hnodes
  have hread := (ofText_of_literals hnodes).1 _ ⟨t, ht, Value.hasText_compact ht⟩
  rw [hread]
  rfl

end ApiReference
