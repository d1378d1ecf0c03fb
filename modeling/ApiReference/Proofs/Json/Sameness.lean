/-
# Values that are the same but for the order of members

Objects that differ in the order of their members, or in members that a later one with the same
key replaces, are the same value (`Value.Same`). Values are the same if and only if they are equal
when they are ordered (`same_iff`). Ordering an ordered value does nothing (`ordered_ordered`), so
what is written for it is read as it is, and its text tells it from all others
(`compact_ordered_inj`).

Key definitions: `Value.Same`.
Key theorems: `eq_of_sorted`, `ordered_ordered`, `same_iff`, `ofText?_of_writtenAs`,
`compact_ordered_inj`.
-/
import ApiReference.Proofs.Json.Ordered
import Mathlib.Data.List.Sort
import Mathlib.Data.String.Basic

namespace ApiReference
namespace Json

/-! ### Sorted members -/

theorem nodup_of_sorted {ms : List (String × Value)} (h : Sorted ms) : (Keyed.keys ms).Nodup :=
  List.Pairwise.imp ne_of_lt h

/-- Members by key are known by what each key leads to. -/
theorem eq_of_sorted {ms ns : List (String × Value)} (hm : Sorted ms) (hn : Sorted ns)
    (h : ∀ key, ms.lookup key = ns.lookup key) : ms = ns := by
  have hmem : ∀ key, key ∈ Keyed.keys ms ↔ key ∈ Keyed.keys ns := by
    intro key
    rw [← Keyed.lookup_isSome_iff, ← Keyed.lookup_isSome_iff, h]
  have hperm : (Keyed.keys ms).Perm (Keyed.keys ns) :=
    (List.perm_ext_iff_of_nodup (nodup_of_sorted hm) (nodup_of_sorted hn)).mpr hmem
  have hkeys : Keyed.keys ms = Keyed.keys ns := List.Perm.eq_of_pairwise' hm hn hperm
  exact Keyed.eq_of_lookup hkeys (nodup_of_sorted hm) h

theorem mem_insertEarlier {k : String} {v : Value} {ms : List (String × Value)} {m : String × Value}
    (h : m ∈ insertEarlier k v ms) : m = (k, v) ∨ m ∈ ms := by
  induction ms with
  | nil => exact .inl (List.mem_singleton.mp h)
  | cons n ms ih =>
    obtain ⟨k', v'⟩ := n
    unfold insertEarlier at h
    split at h
    · exact List.mem_cons.mp h
    split at h
    · exact .inr h
    · rcases List.mem_cons.mp h with rfl | hrest
      · exact .inr List.mem_cons_self
      · exact (ih hrest).imp_right (List.mem_cons_of_mem _)

namespace Value

theorem sizeOf_lt_of_mem {ms : List (String × Value)} {m : String × Value} (h : m ∈ ms) : sizeOf m.2 < sizeOf ms := by
  have hpair : sizeOf m = 1 + sizeOf m.1 + sizeOf m.2 := rfl
  have hmember := List.sizeOf_lt_of_mem h
  omega

/-- What holds of a list if it holds of its items, of an object if it holds of its members, and of
everything else, holds of every value. -/
@[elab_as_elim]
theorem inductionOn {motive : Value → Prop} (v : Value) (null : motive .null) (bool : ∀ b, motive (.bool b))
    (number : ∀ x, motive (.number x)) (string : ∀ s, motive (.string s))
    (list : ∀ vs, (∀ v ∈ vs, motive v) → motive (.list vs))
    (object : ∀ ms, (∀ m ∈ ms, motive m.2) → motive (.object ms)) : motive v := by
  match v with
  | .null => exact null
  | .bool b => exact bool b
  | .number x => exact number x
  | .string s => exact string s
  | .list vs => exact list vs fun v hv => inductionOn v null bool number string list object
  | .object ms => exact object ms fun m hm => inductionOn m.2 null bool number string list object
termination_by sizeOf v
decreasing_by
  · have hitem := List.sizeOf_lt_of_mem hv
    rw [Value.list.sizeOf_spec]
    omega
  · have hmember := sizeOf_lt_of_mem hm
    rw [Value.object.sizeOf_spec]
    omega

/-! ### Ordered values -/

/-- The members of an ordered object have been there, not yet ordered. -/
theorem exists_mem_of_mem_orderedMembers {ms : List (String × Value)} {m : String × Value}
    (h : m ∈ orderedMembers ms) : ∃ n ∈ ms, m.2 = n.2.ordered := by
  induction ms with
  | nil => cases h
  | cons n ms ih =>
    obtain ⟨k, v⟩ := n
    rw [orderedMembers] at h
    rcases mem_insertEarlier h with rfl | hrest
    · exact ⟨(k, v), List.mem_cons_self, rfl⟩
    · obtain ⟨n, hn, hm⟩ := ih hrest
      exact ⟨n, List.mem_cons_of_mem _ hn, hm⟩

theorem integral_ordered {v : Value} (h : v.Integral) : v.ordered.Integral := by
  induction h with
  | null => exact .null
  | bool => exact .bool
  | int h => exact .int h
  | string => exact .string
  | list _ ih =>
    rw [ordered, orderedItems_eq]
    refine .list fun w hw => ?_
    obtain ⟨v, hv, rfl⟩ := List.mem_map.mp hw
    exact ih v hv
  | object _ ih =>
    rw [ordered]
    refine .object fun m hm => ?_
    obtain ⟨n, hn, heq⟩ := exists_mem_of_mem_orderedMembers hm
    rw [heq]
    exact ih n hn

theorem ordered_ordered (v : Value) : v.ordered.ordered = v.ordered := by
  induction v using inductionOn with
  | null => rfl
  | bool b => rfl
  | number x => rfl
  | string s => rfl
  | list vs ih =>
    simp only [ordered, orderedItems_eq, List.map_map]
    exact congrArg Value.list (List.map_congr_left ih)
  | object ms ih =>
    rw [ordered, ordered]
    refine congrArg Value.object (eq_of_sorted (sorted_orderedMembers _) (sorted_orderedMembers _) fun key => ?_)
    have hnodup : (Keyed.keys (orderedMembers ms)).Nodup := nodup_of_sorted (sorted_orderedMembers ms)
    rw [lookup_orderedMembers, Keyed.lookup_reverse hnodup, lookup_orderedMembers]
    cases hlookup : ms.reverse.lookup key with
    | none => rfl
    | some v =>
      have hmem : (key, v) ∈ ms := List.mem_reverse.mp (Keyed.mem_of_lookup hlookup)
      exact congrArg some (ih (key, v) hmem)

/-! ### The same value -/

/-- Two values are the same: lists item by item, objects key by key, where the last member with a
key is the one that counts. -/
inductive Same : Value → Value → Prop
  | null : Same .null .null
  | bool {b : Bool} : Same (.bool b) (.bool b)
  | number {x : Number} : Same (.number x) (.number x)
  | string {s : String} : Same (.string s) (.string s)
  | list {vs ws : List Value} (hlength : vs.length = ws.length)
    (h : ∀ (i : Nat) v w, vs[i]? = some v → ws[i]? = some w → Same v w) : Same (.list vs) (.list ws)
  | object {ms ns : List (String × Value)} (hkeys : ∀ key, key ∈ Keyed.keys ms ↔ key ∈ Keyed.keys ns)
    (h : ∀ key v w, ms.reverse.lookup key = some v → ns.reverse.lookup key = some w → Same v w) :
    Same (.object ms) (.object ns)

theorem isSome_lookup_reverse (ms : List (String × Value)) (key : String) :
    (ms.reverse.lookup key).isSome ↔ key ∈ Keyed.keys ms := by
  rw [Keyed.lookup_isSome_iff, Keyed.keys, List.map_reverse, List.mem_reverse, Keyed.keys]

/-- What two lookups find is the same if both find nothing or the same. -/
theorem map_ordered_eq {o o' : Option Value} (hsome : o.isSome ↔ o'.isSome)
    (h : ∀ v w, o = some v → o' = some w → v.ordered = w.ordered) : o.map ordered = o'.map ordered := by
  cases o with
  | none =>
    cases o' with
    | none => rfl
    | some w => exact absurd (hsome.mpr rfl) Bool.false_ne_true
  | some v =>
    cases o' with
    | none => exact absurd (hsome.mp rfl) Bool.false_ne_true
    | some w => exact congrArg some (h v w rfl rfl)

theorem ordered_eq_of_same {v w : Value} (h : Same v w) : v.ordered = w.ordered := by
  induction h with
  | null | bool | number | string => rfl
  | @list vs ws hlength _ ih =>
    rw [ordered, ordered, orderedItems_eq, orderedItems_eq]
    refine congrArg Value.list (List.ext_getElem? fun i => ?_)
    rw [List.getElem?_map, List.getElem?_map]
    exact map_ordered_eq (by simp [hlength]) (ih i)
  | @object ms ns hkeys _ ih =>
    rw [ordered, ordered]
    refine congrArg Value.object (eq_of_sorted (sorted_orderedMembers ms) (sorted_orderedMembers ns) fun key => ?_)
    rw [lookup_orderedMembers, lookup_orderedMembers]
    refine map_ordered_eq ?_ (ih key)
    rw [isSome_lookup_reverse, isSome_lookup_reverse, hkeys]

theorem same_of_ordered_eq {v w : Value} (h : v.ordered = w.ordered) : Same v w := by
  induction v using inductionOn generalizing w with
  | null => cases w <;> cases h; exact .null
  | bool b => cases w <;> cases h; exact .bool
  | number x => cases w <;> cases h; exact .number
  | string s => cases w <;> cases h; exact .string
  | list vs ih =>
    cases w with
    | list ws =>
      rw [ordered, ordered, orderedItems_eq, orderedItems_eq, list.injEq] at h
      refine .list ?_ fun i v w hv hw => ?_
      · have hlength := congrArg List.length h
        rwa [List.length_map, List.length_map] at hlength
      · have hitem := congrArg (·[i]?) h
        simp only [List.getElem?_map, hv, hw, Option.map_some, Option.some.injEq] at hitem
        exact ih v (List.mem_of_getElem? hv) hitem
    | _ => cases h
  | object ms ih =>
    cases w with
    | object ns =>
      rw [ordered, ordered, object.injEq] at h
      have hlookup : ∀ key, (ms.reverse.lookup key).map ordered = (ns.reverse.lookup key).map ordered := by
        intro key
        rw [← lookup_orderedMembers, ← lookup_orderedMembers, h]
      refine .object (fun key => ?_) fun key v w hv hw => ?_
      · have hsome := congrArg Option.isSome (hlookup key)
        rw [Option.isSome_map, Option.isSome_map] at hsome
        rw [← isSome_lookup_reverse, ← isSome_lookup_reverse, hsome]
      · have hmember := hlookup key
        rw [hv, hw, Option.map_some, Option.map_some, Option.some.injEq] at hmember
        exact ih (key, v) (List.mem_reverse.mp (Keyed.mem_of_lookup hv)) hmember
    | _ => cases h

/-- Values are the same if and only if they are equal once they are ordered. -/
theorem same_iff {v w : Value} : Same v w ↔ v.ordered = w.ordered := ⟨ordered_eq_of_same, same_of_ordered_eq⟩

/-! ### Texts of ordered values -/

/-- What is written for a value is read as the ordered value. -/
theorem ofText?_of_writtenAs {v : Value} {text : String} (hv : v.Integral) (h : v.WrittenAs text) :
    ofText? text = some v.ordered := by
  obtain ⟨t, ht, htext⟩ := h
  obtain ⟨t', ht', hvalue⟩ := exists_term hv
  obtain rfl : t = t' := Option.some.inj (ht.symm.trans ht')
  rw [ofText?_of_hasText htext, hvalue]

theorem writtenAs_compact {v : Value} (hv : v.Integral) : v.WrittenAs v.compact := by
  obtain ⟨t, ht, -⟩ := exists_term hv
  exact ⟨t, ht, hasText_compact ht⟩

theorem ofText?_compact_ordered {v : Value} (hv : v.Integral) : ofText? v.ordered.compact = some v.ordered := by
  have hordered := integral_ordered hv
  rw [ofText?_of_writtenAs hordered (writtenAs_compact hordered), ordered_ordered]

/-- Ordered values with one text are equal. -/
theorem compact_ordered_inj {v w : Value} (hv : v.Integral) (hw : w.Integral) :
    v.ordered.compact = w.ordered.compact ↔ v.ordered = w.ordered := by
  refine ⟨fun h => ?_, congrArg compact⟩
  have hread := ofText?_compact_ordered hv
  rw [h, ofText?_compact_ordered hw] at hread
  exact (Option.some.inj hread).symm

end Value
end Json
end ApiReference
