/-
# What documentation does not see of a syntax tree

The documentation of a tree is put together from its names and, for every function directly
below a root, its name and type, the names and types of its parameters, and whether there is
a mark below it (`docs_eq_map`), and none of this is lost.

Everything else may be changed. `Unseen` has the single changes: a node of another kind comes
or goes, or a further mark, whatever is below a parameter is replaced, a missing text becomes
the empty one. By such changes every tree is brought to the one that says no more than its
documentation (`eqvGen_ofDocs`). So two trees have the same documentation if and only if the
one comes from the other by them (`docs_eq_docs_iff`).

Key definitions: `SeenFunction`, `Node.seen`, `SyntaxTree.seen`, `UnseenBelow`,
`UnseenInRoot`, `SyntaxTree.Unseen`, `SyntaxTree.ofDocs`.
Key theorems: `docs_eq_map`, `ofNode_of_unseenBelow`, `docs_of_unseen`, `eqvGen_ofDocs`,
`docs_eq_docs_iff`.
-/
import ApiReference.Docs.OfTree
import Mathlib.Data.List.Basic
import Mathlib.Logic.Relation

namespace ApiReference

open Relation (EqvGen)

/-! ### What is seen -/

/-- A function node as documentation sees it. -/
structure SeenFunction where
  name : String
  type : Option String
  parameters : List (String × Option String)
  isMarked : Bool
  deriving DecidableEq

namespace Node

/-- What is seen of a function node: its text and type, the text and type of each of its
parameters in order, and whether any of its children is a mark. -/
def seen (n : Node) : SeenFunction where
  name := n.value.getD ""
  type := n.type
  parameters := (n.children.filter (·.kind = .parameter)).map fun p => (p.value.getD "", p.type)
  isMarked := decide (∃ c ∈ n.children, c.kind = .nativeMark ∨ c.kind = .externalMark)

end Node

/-- What is seen of a tree: the names in order, each with the functions directly below its root. -/
def SyntaxTree.seen (t : SyntaxTree) : List (String × List SeenFunction) :=
  t.modules.map fun x => (x.1, (x.2.children.filter (·.kind = .function)).map Node.seen)

/-- The documentation of what is seen of a function. -/
def SeenFunction.doc (s : SeenFunction) : FunctionDoc where
  name := s.name
  description := ""
  parameters := s.parameters.map fun p => ⟨p.1, p.2, ""⟩
  isNative := s.isMarked
  returns := s.type

/-- Nothing that is seen is lost. -/
theorem SeenFunction.doc_injective : Function.Injective SeenFunction.doc := by
  rintro ⟨n, t, ps, m⟩ ⟨n', t', ps', m'⟩ h
  have hparameter : Function.Injective fun p : String × Option String => (⟨p.1, p.2, ""⟩ : ParameterDoc) := by
    rintro ⟨a, b⟩ ⟨a', b'⟩ hp
    cases hp
    rfl
  unfold doc at h
  rw [FunctionDoc.mk.injEq] at h
  obtain ⟨rfl, -, hps, rfl, rfl⟩ := h
  obtain rfl : ps = ps' := List.map_injective_iff.mpr hparameter hps
  rfl

theorem FunctionDoc.ofNode_eq (n : Node) : FunctionDoc.ofNode n = n.seen.doc := by
  have hmark : n.children.any Node.isMark =
      decide (∃ c ∈ n.children, c.kind = .nativeMark ∨ c.kind = .externalMark) := by
    rw [Bool.eq_iff_iff, List.any_eq_true, decide_eq_true_iff]
    simp only [Node.isMark, Bool.or_eq_true, decide_eq_true_iff]
  unfold ofNode SeenFunction.doc Node.seen
  rw [hmark, List.map_map]
  rfl

namespace SyntaxTree

theorem docs_eq_map (t : SyntaxTree) :
    t.docs = t.seen.map fun x => ⟨x.1, "", x.2.map SeenFunction.doc⟩ := by
  have hdoc : FunctionDoc.ofNode = SeenFunction.doc ∘ Node.seen := funext FunctionDoc.ofNode_eq
  unfold docs seen ModuleDoc.ofRoot Root.functions
  rw [List.map_map, hdoc]
  refine List.map_congr_left fun x _ => ?_
  rw [Function.comp_apply, List.map_map]

/-- Documentation is the same if and only if what is seen is. -/
theorem docs_eq_docs_iff_seen (a b : SyntaxTree) : a.docs = b.docs ↔ a.seen = b.seen := by
  have hmodule : Function.Injective fun x : String × List SeenFunction =>
      (⟨x.1, "", x.2.map SeenFunction.doc⟩ : ModuleDoc) := by
    rintro ⟨n, fs⟩ ⟨n', fs'⟩ h
    obtain ⟨rfl, -, hfs⟩ := ModuleDoc.mk.inj h
    obtain rfl : fs = fs' := List.map_injective_iff.mpr SeenFunction.doc_injective hfs
    rfl
  rw [docs_eq_map, docs_eq_map]
  exact (List.map_injective_iff.mpr hmodule).eq_iff

end SyntaxTree

/-! ### Changes that are not seen -/

/-- A change to the children of a function that is not seen. -/
inductive UnseenBelow : List Node → List Node → Prop
  | skipped (before after : List Node) {n : Node} (hp : n.kind ≠ .parameter) (hm : n.isMark = false) :
    UnseenBelow (before ++ n :: after) (before ++ after)
  | mark (before after : List Node) {n : Node} (h : n.isMark = true) (ho : ∃ m ∈ before ++ after, m.isMark = true) :
    UnseenBelow (before ++ n :: after) (before ++ after)
  | parameter (before after : List Node) {n n' : Node} (h : n.kind = .parameter) (h' : n'.kind = .parameter)
    (hname : n.name = n'.name) (htype : n.type = n'.type) :
    UnseenBelow (before ++ n :: after) (before ++ n' :: after)

/-- A change to the children of a root that is not seen. -/
inductive UnseenInRoot : List Node → List Node → Prop
  | skipped (before after : List Node) {n : Node} (h : n.kind ≠ .function) :
    UnseenInRoot (before ++ n :: after) (before ++ after)
  | nameless (before after : List Node) {n : Node} (h : n.kind = .function) (hv : n.value = none) :
    UnseenInRoot (before ++ n :: after) (before ++ { n with value := some "" } :: after)
  | below (before after : List Node) {n : Node} {children : List Node} (h : n.kind = .function)
    (hc : UnseenBelow n.children children) :
    UnseenInRoot (before ++ n :: after) (before ++ { n with children := children } :: after)

/-- A change to a tree that is not seen. -/
inductive SyntaxTree.Unseen : SyntaxTree → SyntaxTree → Prop
  | root (before after : List (String × Root)) (name : String) {r r' : Root}
    (h : UnseenInRoot r.children r'.children) :
    SyntaxTree.Unseen ⟨before ++ (name, r) :: after⟩ ⟨before ++ (name, r') :: after⟩

theorem Node.isMark_of_parameter {n : Node} (h : n.kind = .parameter) : n.isMark = false := by
  rw [isMark, h]
  rfl

/-- What is below a function is documented as before. -/
theorem ofNode_of_unseenBelow {cs cs' : List Node} (h : UnseenBelow cs cs') :
    (cs.filter (·.kind = .parameter)).map ParameterDoc.ofNode =
        (cs'.filter (·.kind = .parameter)).map ParameterDoc.ofNode ∧
      cs.any Node.isMark = cs'.any Node.isMark := by
  cases h with
  | skipped before after hp hm => simp [hp, hm]
  | @mark before after n hn ho =>
    have hp : n.kind ≠ .parameter := by
      intro hk
      rw [Node.isMark_of_parameter hk] at hn
      cases hn
    have hany : (before ++ after).any Node.isMark = true := List.any_eq_true.mpr ho
    rw [List.any_append] at hany
    refine ⟨by simp [hp], ?_⟩
    rw [List.any_append, List.any_append, List.any_cons, hn, hany, Bool.true_or, Bool.or_true]
  | parameter before after hk hk' hname htype =>
    have hdoc : ∀ {n n' : Node}, n.name = n'.name → n.type = n'.type → ParameterDoc.ofNode n = .ofNode n' := by
      intro n n' hname htype
      rw [ParameterDoc.ofNode, ParameterDoc.ofNode, hname, htype]
    simp [hk, hk', hdoc hname htype, Node.isMark_of_parameter hk, Node.isMark_of_parameter hk']

theorem map_filter_function {n n' : Node} (h : n.kind = .function) (h' : n'.kind = .function)
    (hdoc : FunctionDoc.ofNode n = .ofNode n') (before after : List Node) :
    ((before ++ n :: after).filter (·.kind = .function)).map FunctionDoc.ofNode =
      ((before ++ n' :: after).filter (·.kind = .function)).map FunctionDoc.ofNode := by
  rw [List.filter_append, List.filter_append, List.filter_cons_of_pos (by simpa using h),
    List.filter_cons_of_pos (by simpa using h'), List.map_append, List.map_append, List.map_cons, List.map_cons, hdoc]

theorem functions_of_unseenInRoot {cs cs' : List Node} (h : UnseenInRoot cs cs') :
    (cs.filter (·.kind = .function)).map FunctionDoc.ofNode =
      (cs'.filter (·.kind = .function)).map FunctionDoc.ofNode := by
  cases h with
  | skipped before after hk => simp [hk]
  | @nameless before after n hk hv =>
    have hk' : { n with value := some "" }.kind = .function := hk
    have hdoc : FunctionDoc.ofNode n = .ofNode { n with value := some "" } := by
      simp only [FunctionDoc.ofNode, Node.name, hv]
      rfl
    exact map_filter_function hk hk' hdoc before after
  | @below before after n children hk hc =>
    obtain ⟨hparameters, hmark⟩ := ofNode_of_unseenBelow hc
    have hk' : { n with children := children }.kind = .function := hk
    have hdoc : FunctionDoc.ofNode n = .ofNode { n with children := children } := by
      simp only [FunctionDoc.ofNode, Node.childrenOf, hparameters, hmark]
      rfl
    exact map_filter_function hk hk' hdoc before after

namespace SyntaxTree

/-- A change that is not seen leaves the documentation as it is. -/
theorem docs_of_unseen {a b : SyntaxTree} (h : Unseen a b) : a.docs = b.docs := by
  obtain ⟨before, after, name, hroot⟩ := h
  have hfunctions := functions_of_unseenInRoot hroot
  simp [docs, ModuleDoc.ofRoot, Root.functions, hfunctions]

theorem docs_of_eqvGen {a b : SyntaxTree} (h : EqvGen Unseen a b) : a.docs = b.docs := by
  induction h with
  | rel a b h => exact docs_of_unseen h
  | refl a => rfl
  | symm a b _ ih => exact ih.symm
  | trans a b c _ _ ih ih' => exact ih.trans ih'

end SyntaxTree

/-! ### The tree of a documentation -/

/-- A node that says what the documentation of a parameter does. -/
def ParameterDoc.node (p : ParameterDoc) : Node := ⟨.parameter, some p.name, [], p.type⟩

/-- The children of a function: parameters, and a mark behind them if there is to be one. -/
def childNodes (parameters : List ParameterDoc) (isNative : Bool) : List Node :=
  parameters.map ParameterDoc.node ++ if isNative then [.ofKind .nativeMark] else []

/-- A node that says what the documentation of a function does. -/
def FunctionDoc.node (f : FunctionDoc) : Node :=
  ⟨.function, some f.name, childNodes f.parameters f.isNative, f.returns⟩

/-- A tree that says what documentation does, descriptions apart. -/
def SyntaxTree.ofDocs (modules : List ModuleDoc) : SyntaxTree :=
  ⟨modules.map fun m => (m.name, ⟨m.functions.map FunctionDoc.node⟩)⟩

/-- Changes can be made within something larger. -/
theorem eqvGen_lift {α β : Type} {r : α → α → Prop} {s : β → β → Prop} (f : α → β)
    (hf : ∀ a b, r a b → s (f a) (f b)) {a b : α} (h : EqvGen r a b) : EqvGen s (f a) (f b) := by
  induction h with
  | rel a b h => exact .rel _ _ (hf a b h)
  | refl a => exact .refl _
  | symm a b _ ih => exact .symm _ _ ih
  | trans a b c _ _ ih ih' => exact .trans _ _ _ ih ih'

theorem UnseenBelow.cons (c : Node) {cs cs' : List Node} (h : UnseenBelow cs cs') :
    UnseenBelow (c :: cs) (c :: cs') := by
  cases h with
  | skipped before after hp hm => exact .skipped (c :: before) after hp hm
  | mark before after hn ho =>
    obtain ⟨m, hm, hmark⟩ := ho
    exact .mark (c :: before) after hn ⟨m, List.mem_cons_of_mem c hm, hmark⟩
  | parameter before after hk hk' hname htype => exact .parameter (c :: before) after hk hk' hname htype

theorem UnseenInRoot.cons (c : Node) {cs cs' : List Node} (h : UnseenInRoot cs cs') :
    UnseenInRoot (c :: cs) (c :: cs') := by
  cases h with
  | skipped before after hk => exact .skipped (c :: before) after hk
  | nameless before after hk hv => exact .nameless (c :: before) after hk hv
  | below before after hk hc => exact .below (c :: before) after hk hc

/-- A mark in front of parameters and perhaps another mark is as good as a mark behind them. -/
theorem eqvGen_mark {c : Node} (h : c.isMark = true) (parameters : List ParameterDoc) (isNative : Bool) :
    EqvGen UnseenBelow (c :: childNodes parameters isNative) (childNodes parameters true) := by
  have hfront : EqvGen UnseenBelow (c :: childNodes parameters true) (childNodes parameters true) := by
    have hlast : Node.ofKind .nativeMark ∈ childNodes parameters true :=
      List.mem_append_right _ (List.mem_singleton_self _)
    exact .rel _ _ (.mark [] _ h ⟨.ofKind .nativeMark, hlast, rfl⟩)
  cases isNative with
  | true => exact hfront
  | false =>
    have hback : UnseenBelow (c :: childNodes parameters true) (c :: childNodes parameters false) :=
      .mark (c :: parameters.map ParameterDoc.node) [] rfl ⟨c, List.mem_cons_self, h⟩
    exact .trans _ _ _ (.symm _ _ (.rel _ _ hback)) hfront

/-- The children of a function are brought to what is documented of them. -/
theorem eqvGen_childNodes (cs : List Node) : EqvGen UnseenBelow cs
    (childNodes ((cs.filter (·.kind = .parameter)).map .ofNode) (cs.any Node.isMark)) := by
  induction cs with
  | nil => exact .refl _
  | cons c cs ih =>
    have hcons := eqvGen_lift (c :: ·) (fun _ _ => UnseenBelow.cons c) ih
    refine .trans _ _ _ hcons ?_
    by_cases hk : c.kind = .parameter
    · let seen := childNodes ((cs.filter (·.kind = .parameter)).map .ofNode) (cs.any Node.isMark)
      have hstep : UnseenBelow (c :: seen) ((ParameterDoc.ofNode c).node :: seen) :=
        .parameter [] seen hk rfl rfl rfl
      rw [List.filter_cons_of_pos (by simpa using hk), List.any_cons, Node.isMark_of_parameter hk, Bool.false_or]
      exact .rel _ _ hstep
    · rw [List.filter_cons_of_neg (by simpa using hk), List.any_cons]
      cases hm : c.isMark with
      | true => exact eqvGen_mark hm _ _
      | false => exact .rel _ _ (.skipped [] _ hk hm)

/-- A function is brought to what is documented of it. -/
theorem eqvGen_node {c : Node} (h : c.kind = .function) (after : List Node) :
    EqvGen UnseenInRoot (c :: after) ((FunctionDoc.ofNode c).node :: after) := by
  obtain ⟨kind, value, children, type⟩ := c
  obtain rfl : kind = .function := h
  have hbelow : ∀ value, EqvGen UnseenInRoot (⟨.function, value, children, type⟩ :: after)
      (⟨.function, value, childNodes ((children.filter (·.kind = .parameter)).map .ofNode)
        (children.any Node.isMark), type⟩ :: after) := by
    intro value
    exact eqvGen_lift (fun cs => (⟨.function, value, cs, type⟩ : Node) :: after)
      (fun cs cs' hc => .below (n := ⟨.function, value, cs, type⟩) [] after rfl hc) (eqvGen_childNodes children)
  cases value with
  | some value => exact hbelow (some value)
  | none =>
    have hnamed := UnseenInRoot.nameless (n := ⟨.function, none, children, type⟩) [] after rfl rfl
    exact .trans _ _ _ (.rel _ _ hnamed) (hbelow (some ""))

/-- The children of a root are brought to what is documented of them. -/
theorem eqvGen_functions (cs : List Node) :
    EqvGen UnseenInRoot cs ((cs.filter (·.kind = .function)).map fun c => (FunctionDoc.ofNode c).node) := by
  induction cs with
  | nil => exact .refl _
  | cons c cs ih =>
    have hcons := eqvGen_lift (c :: ·) (fun _ _ => UnseenInRoot.cons c) ih
    refine .trans _ _ _ hcons ?_
    by_cases hk : c.kind = .function
    · rw [List.filter_cons_of_pos (by simpa using hk)]
      exact eqvGen_node hk _
    · rw [List.filter_cons_of_neg (by simpa using hk)]
      exact .rel _ _ (.skipped [] _ hk)

namespace SyntaxTree

/-- Every tree is brought to the one that says what is documented of it. -/
theorem eqvGen_ofDocs (t : SyntaxTree) : EqvGen Unseen t (ofDocs t.docs) := by
  have hmodules : ∀ before after : List (String × Root), EqvGen Unseen ⟨before ++ after⟩
      ⟨before ++ (ofDocs (docs ⟨after⟩)).modules⟩ := by
    intro before after
    induction after generalizing before with
    | nil => exact .refl _
    | cons m after ih =>
      obtain ⟨name, r⟩ := m
      have hchange : ∀ cs cs', UnseenInRoot cs cs' →
          Unseen ⟨before ++ (name, ⟨cs⟩) :: after⟩ ⟨before ++ (name, ⟨cs'⟩) :: after⟩ :=
        fun _ _ hc => .root before after name hc
      have hroot := eqvGen_lift (fun cs => (⟨before ++ (name, ⟨cs⟩) :: after⟩ : SyntaxTree)) hchange
        (eqvGen_functions r.children)
      have hafter := ih (before ++ [(name, ⟨(r.children.filter (·.kind = .function)).map
        fun c => (FunctionDoc.ofNode c).node⟩)])
      have hdocs : (ofDocs (docs ⟨(name, r) :: after⟩)).modules =
          (name, ⟨(r.children.filter (·.kind = .function)).map fun c => (FunctionDoc.ofNode c).node⟩) ::
            (ofDocs (docs ⟨after⟩)).modules := by
        simp [docs, ofDocs, ModuleDoc.ofRoot, Root.functions]
      rw [List.append_assoc, List.singleton_append, List.append_assoc, List.singleton_append] at hafter
      rw [hdocs]
      exact .trans _ _ _ hroot hafter
  exact hmodules [] t.modules

/-- Two trees have the same documentation if and only if the same is seen of both: the names
in order, and of the functions directly below each root, in order, the name, the type, the
names and types of the parameters and whether there is a mark. And they have it if and only
if the one comes from the other by changes to all else. -/
theorem docs_eq_docs_iff (a b : SyntaxTree) :
    (a.docs = b.docs ↔ a.seen = b.seen) ∧ (a.docs = b.docs ↔ EqvGen Unseen a b) := by
  refine ⟨docs_eq_docs_iff_seen a b, ?_, docs_of_eqvGen⟩
  intro h
  have hb : EqvGen Unseen (ofDocs a.docs) b := h ▸ (eqvGen_ofDocs b).symm
  exact (eqvGen_ofDocs a).trans _ _ _ hb

end SyntaxTree
end ApiReference
