/-
# What is reported while a tree is documented

Documenting a tree looks at the children of each root, below a function at its children, and then
counts the functions of the module. These are its visits (`SyntaxTree.visits`), and every visit
reports at most one event, so that the events stand in the order of the visits
(`events_eq_filterMap`).

The events account for what is documented. Every child of a function is a parameter, a mark or
neither (`count_children`), and it is reported as skipped just if it is neither
(`eventsOf_trace_function`, `count_function`). A node that gives a name to the documentation is
reported as nameless just if it has no text (`eventsOf_warn_events`), an empty text is a name. Each
module is reported once with the number of its functions, behind all that is reported of them
(`eventsOf_debug_events`). `events_account` puts this together.

Key definitions: `Visit`, `Visit.event?`, `SyntaxTree.visits`, `eventsOf`, `Node.isSkipped`,
`SyntaxTree.namedNodes`.
Key theorems: `events_eq_filterMap`, `count_children`, `count_function`, `eventsOf_trace_function`,
`eventsOf_warn_events`, `eventsOf_debug_events`, `events_account`.
-/
import ApiReference.Log
import Mathlib.Data.List.Basic

namespace ApiReference

/-! ### Visits -/

/-- What is looked at while a tree is documented: a function, a child of a function, a child of a
root that is no function, and in the end the root of a module. -/
inductive Visit where
  | function (module : String) (n : Node)
  | child (module : String) (f n : Node)
  | stray (n : Node)
  | finished (module : String) (r : Root)

/-- What a visit reports. -/
def Visit.event? : Visit → Option Event
  | function module n => if n.value = none then some (.nameless module n.kind.tag) else none
  | child module f n =>
    if n.kind = .parameter then if n.value = none then some (.nameless module n.kind.tag) else none
    else if n.isMark then none
    else some (.skipped module f.name n.kind.tag)
  | stray _ => none
  | finished module r => some (.documented module r.functions.length)

/-- The visits of a child of a root: if it is a function, the children of it come behind it. -/
def Node.visits (module : String) (n : Node) : List Visit :=
  if n.kind = .function then .function module n :: n.children.map (.child module n) else [.stray n]

/-- The visits of a root. -/
def Root.visits (module : String) (r : Root) : List Visit :=
  r.children.flatMap (Node.visits module) ++ [.finished module r]

/-- The visits of a tree, module by module. -/
def SyntaxTree.visits (t : SyntaxTree) : List Visit := t.modules.flatMap fun x => x.2.visits x.1

namespace Node

/-- A child of a function that is neither a parameter nor a mark. -/
def isSkipped (n : Node) : Bool := n.kind ≠ .parameter ∧ n.isMark = false

variable (module : String) (f n : Node)

theorem nameEvents_eq : n.nameEvents module = (Visit.function module n).event?.toList := by
  rw [nameEvents, Visit.event?]
  split <;> rfl

theorem childEvents_eq_ite (function : String) : n.childEvents module function =
    if n.kind = .parameter then n.nameEvents module
    else if n.isMark then [] else [.skipped module function n.kind.tag] := by
  rw [childEvents]
  cases hk : n.kind <;> simp [isMark, hk]

/-- A child reports at most one event. -/
theorem childEvents_eq : n.childEvents module f.name = (Visit.child module f n).event?.toList := by
  rw [childEvents_eq_ite, Visit.event?]
  by_cases hp : n.kind = .parameter
  · rw [if_pos hp, if_pos hp]
    exact n.nameEvents_eq module
  · rw [if_neg hp, if_neg hp]
    split <;> rfl

/-- A function reports first what it reports itself, and then what its children do. -/
theorem functionEvents_eq : n.functionEvents module =
    (Visit.function module n).event?.toList ++ n.children.filterMap fun c => (Visit.child module n c).event? := by
  have hchildren : n.children.flatMap (childEvents module n.name) =
      n.children.filterMap fun c => (Visit.child module n c).event? := by
    rw [List.filterMap_eq_flatMap_toList]
    exact List.flatMap_congr fun c _ => childEvents_eq module n c
  rw [functionEvents, nameEvents_eq, hchildren]

theorem filterMap_visits : (n.visits module).filterMap Visit.event? =
    if n.kind = .function then n.functionEvents module else [] := by
  rw [visits]
  split
  · rw [functionEvents_eq, List.filterMap_cons, List.filterMap_map]
    cases (Visit.function module n).event? <;> rfl
  · rfl

end Node

theorem Root.events_eq_filterMap (module : String) (r : Root) :
    r.events module = (r.visits module).filterMap Visit.event? := by
  have hfunctions : ∀ cs : List Node, (cs.filter (·.kind = .function)).flatMap (Node.functionEvents module) =
      (cs.flatMap (Node.visits module)).filterMap Visit.event? := by
    intro cs
    induction cs with
    | nil => rfl
    | cons c cs ih =>
      rw [List.flatMap_cons, List.filterMap_append, Node.filterMap_visits, ← ih]
      by_cases hk : c.kind = .function <;> simp [hk]
  rw [events, visits, List.filterMap_append, ← hfunctions]
  rfl

/-- The events are what the visits report, in their order. -/
theorem SyntaxTree.events_eq_filterMap (t : SyntaxTree) : t.events = t.visits.filterMap Visit.event? := by
  rw [events, visits, List.filterMap_flatMap]
  exact List.flatMap_congr fun x _ => x.2.events_eq_filterMap x.1

/-! ### Events of a level -/

/-- The events of a level. -/
def eventsOf (level : Level) (events : List Event) : List Event := events.filter (·.level = level)

theorem eventsOf_append (level : Level) (es es' : List Event) :
    eventsOf level (es ++ es') = eventsOf level es ++ eventsOf level es' := List.filter_append es es'

theorem eventsOf_flatMap {α : Type} (level : Level) (as : List α) (f : α → List Event) :
    eventsOf level (as.flatMap f) = as.flatMap fun a => eventsOf level (f a) := List.filter_flatMap

/-- A name that is missing is a warning. -/
theorem eventsOf_nameEvents (level : Level) (module : String) (n : Node) :
    eventsOf level (n.nameEvents module) = if level = .warn then n.nameEvents module else [] := by
  rw [Node.nameEvents]
  split
  · cases level <;> rfl
  · simp [eventsOf]

theorem eventsOf_childEvents (level : Level) (module function : String) (n : Node) :
    eventsOf level (n.childEvents module function) =
      if n.kind = .parameter then if level = .warn then n.nameEvents module else []
      else if n.isMark then [] else if level = .trace then [.skipped module function n.kind.tag] else [] := by
  rw [Node.childEvents_eq_ite]
  split
  · exact eventsOf_nameEvents level module n
  split
  · rfl
  · cases level <;> rfl

section Children
variable (module function : String) (cs : List Node)

/-- Reported as skipped are the children that are, in order. -/
theorem eventsOf_trace_children : eventsOf .trace (cs.flatMap (Node.childEvents module function)) =
    (cs.filter Node.isSkipped).map fun c => .skipped module function c.kind.tag := by
  rw [eventsOf_flatMap]
  induction cs with
  | nil => rfl
  | cons c cs ih =>
    rw [List.flatMap_cons, ih, eventsOf_childEvents]
    by_cases hp : c.kind = .parameter
    · simp [Node.isSkipped, hp]
    · cases hm : c.isMark <;> simp [Node.isSkipped, hp, hm]

/-- Warned of are the parameters without a name, in order. -/
theorem eventsOf_warn_children : eventsOf .warn (cs.flatMap (Node.childEvents module function)) =
    (cs.filter (·.kind = .parameter)).flatMap (Node.nameEvents module) := by
  rw [eventsOf_flatMap]
  induction cs with
  | nil => rfl
  | cons c cs ih =>
    rw [List.flatMap_cons, ih, eventsOf_childEvents]
    by_cases hp : c.kind = .parameter
    · simp [hp]
    · cases hm : c.isMark <;> simp [hp]

theorem eventsOf_debug_children : eventsOf .debug (cs.flatMap (Node.childEvents module function)) = [] := by
  rw [eventsOf_flatMap, List.flatMap_eq_nil_iff]
  intro c _
  rw [eventsOf_childEvents]
  simp

/-- Every child is a parameter, a mark or skipped, and only one of them. -/
theorem count_children :
    (cs.filter (·.kind = .parameter)).length + cs.countP Node.isMark + (cs.filter Node.isSkipped).length = cs.length := by
  induction cs with
  | nil => rfl
  | cons c cs ih =>
    rw [List.countP_cons, List.length_cons]
    by_cases hp : c.kind = .parameter
    · have hm : c.isMark = false := by simp [Node.isMark, hp]
      simp [Node.isSkipped, hp, hm]
      omega
    · cases hm : c.isMark <;> simp [Node.isSkipped, hp, hm] <;> omega

end Children

section Functions
variable (module : String) (n : Node)

theorem eventsOf_trace_function : eventsOf .trace (n.functionEvents module) =
    (n.children.filter Node.isSkipped).map fun c => .skipped module n.name c.kind.tag := by
  rw [Node.functionEvents, eventsOf_append, eventsOf_nameEvents, eventsOf_trace_children]
  rfl

theorem eventsOf_warn_function : eventsOf .warn (n.functionEvents module) =
    (n :: n.childrenOf .parameter).flatMap (Node.nameEvents module) := by
  rw [Node.functionEvents, eventsOf_append, eventsOf_nameEvents, eventsOf_warn_children]
  rfl

theorem eventsOf_debug_function : eventsOf .debug (n.functionEvents module) = [] := by
  rw [Node.functionEvents, eventsOf_append, eventsOf_nameEvents, eventsOf_debug_children]
  rfl

/-- The children of a function are its parameters, marks, and what is reported as skipped. -/
theorem count_function : (FunctionDoc.ofNode n).parameters.length + n.children.countP Node.isMark +
    (eventsOf .trace (n.functionEvents module)).length = n.children.length := by
  have hparameters : (FunctionDoc.ofNode n).parameters.length = (n.children.filter (·.kind = .parameter)).length := by
    simp [FunctionDoc.ofNode, Node.childrenOf]
  rw [hparameters, eventsOf_trace_function, List.length_map]
  exact count_children n.children

end Functions

/-! ### The events of a tree -/

namespace SyntaxTree

/-- The nodes that give documentation its names, with their modules: each function and behind it
its parameters. -/
def namedNodes (t : SyntaxTree) : List (String × Node) :=
  t.modules.flatMap fun x => x.2.functions.flatMap fun n => (n :: n.childrenOf .parameter).map (x.1, ·)

theorem map_name_namedNodes (t : SyntaxTree) : t.namedNodes.map (·.2.name) =
    t.docs.flatMap fun m => m.functions.flatMap fun f => f.name :: f.parameters.map (·.name) := by
  simp only [namedNodes, docs, List.map_flatMap, List.flatMap_map, ModuleDoc.ofRoot, FunctionDoc.ofNode,
    List.map_cons, List.map_map]
  rfl

/-- Warned of is every name that is missing, in order. -/
theorem eventsOf_warn_events (t : SyntaxTree) : eventsOf .warn t.events =
    (t.namedNodes.filter (·.2.value = none)).map fun x => .nameless x.1 x.2.kind.tag := by
  have hname : ∀ (module : String) (ns : List Node), ns.flatMap (Node.nameEvents module) =
      ((ns.map (module, ·)).filter (·.2.value = none)).map fun x => .nameless x.1 x.2.kind.tag := by
    intro module ns
    induction ns with
    | nil => rfl
    | cons n ns ih =>
      rw [List.flatMap_cons, ih, Node.nameEvents]
      by_cases hv : n.value = none <;> simp [hv]
  have hroot : ∀ (module : String) (r : Root), eventsOf .warn (r.events module) =
      ((r.functions.flatMap fun n => (n :: n.childrenOf .parameter).map (module, ·)).filter (·.2.value = none)).map
        fun x => .nameless x.1 x.2.kind.tag := by
    intro module r
    have hlast : eventsOf .warn [.documented module r.functions.length] = [] := rfl
    rw [Root.events, eventsOf_append, eventsOf_flatMap, hlast, List.append_nil, List.filter_flatMap, List.map_flatMap]
    refine List.flatMap_congr fun n _ => ?_
    rw [eventsOf_warn_function, hname]
  rw [events, eventsOf_flatMap, namedNodes, List.filter_flatMap, List.map_flatMap]
  exact List.flatMap_congr fun x _ => hroot x.1 x.2

/-- Every module is reported once with the number of its functions, in order. -/
theorem eventsOf_debug_events (t : SyntaxTree) : eventsOf .debug t.events =
    t.docs.map fun m => .documented m.name m.functions.length := by
  have hroot : ∀ (module : String) (r : Root), eventsOf .debug (r.events module) =
      [.documented module (ModuleDoc.ofRoot module r).functions.length] := by
    intro module r
    have hfunctions : (r.functions.flatMap fun n => eventsOf .debug (n.functionEvents module)) = [] := by
      rw [List.flatMap_eq_nil_iff]
      exact fun n _ => eventsOf_debug_function module n
    rw [Root.events, eventsOf_append, eventsOf_flatMap, hfunctions, ModuleDoc.ofRoot, List.length_map]
    rfl
  rw [events, eventsOf_flatMap, docs, List.map_map, List.map_eq_flatMap]
  exact List.flatMap_congr fun x _ => hroot x.1 x.2

/-- The events of a tree stand in the order of its visits, none of which reports more than one.
Those of a module are those of its functions and, behind them, the only report of the module, with
the number of its functions. A function reports first what it reports itself. Its children are as
many as its parameters, its marks and the reports of skipped nodes, which have its name and the
tags of the children that are neither, in order. And just those names of the documentation are
warned of whose nodes have no text. -/
theorem events_account (t : SyntaxTree) :
    t.events = t.visits.filterMap Visit.event? ∧
    (∀ before module r after, t.modules = before ++ (module, r) :: after →
      t.events = events ⟨before⟩ ++ (r.functions.flatMap (Node.functionEvents module) ++
        [.documented module (ModuleDoc.ofRoot module r).functions.length]) ++ events ⟨after⟩) ∧
    (t.events.filter (·.level = .debug) = t.docs.map fun m => .documented m.name m.functions.length) ∧
    (∀ module r, (module, r) ∈ t.modules → ∀ n ∈ r.functions,
      n.functionEvents module = (Visit.function module n).event?.toList ++
        n.children.filterMap (fun c => (Visit.child module n c).event?) ∧
      (FunctionDoc.ofNode n).parameters.length + n.children.countP Node.isMark +
        ((n.functionEvents module).filter (·.level = .trace)).length = n.children.length ∧
      (n.functionEvents module).filter (·.level = .trace) =
        (n.children.filter fun c => c.kind ≠ .parameter ∧ c.isMark = false).map
          fun c => .skipped module (FunctionDoc.ofNode n).name c.kind.tag) ∧
    (t.events.filter (·.level = .warn) =
      (t.namedNodes.filter (·.2.value = none)).map fun x => .nameless x.1 x.2.kind.tag) ∧
    t.namedNodes.map (·.2.name) =
      t.docs.flatMap fun m => m.functions.flatMap fun f => f.name :: f.parameters.map (·.name) := by
  refine ⟨t.events_eq_filterMap, ?_, t.eventsOf_debug_events, ?_, t.eventsOf_warn_events, t.map_name_namedNodes⟩
  · intro before module r after hsplit
    rw [events, hsplit, List.flatMap_append, List.flatMap_cons, Root.events, ModuleDoc.ofRoot, List.length_map,
      ← List.append_assoc]
    rfl
  · intro module r _ n _
    exact ⟨n.functionEvents_eq module, count_function module n, eventsOf_trace_function module n⟩

/-- A function without a name, below which there are a node that is skipped, a parameter without a
name, a mark and a parameter whose name is empty. -/
example : events ⟨[("m", ⟨[⟨.function, none, [.ofKind (.other 7), .ofKind .parameter, .ofKind .nativeMark,
      ⟨.parameter, some "", [], none⟩], none⟩, .ofKind .parameter]⟩), ("n", ⟨[]⟩)]⟩ =
    [.nameless "m" 4, .skipped "m" "" 7, .nameless "m" 5, .documented "m" 1, .documented "n" 0] := by
  decide

end SyntaxTree
end ApiReference
