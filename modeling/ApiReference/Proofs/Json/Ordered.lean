/-
# Values with their members by key

Reading orders the members of an object by key, and of those with one key it keeps the last.
`Value.ordered` is the value with all its objects treated like this: a key leads to what it
led to from the back (`lookup_orderedMembers`). What is written for a value without doubles
and with integers of 64 bits is read as the ordered value (`exists_term`).

Key definitions: `Value.ordered`, `Value.member?`, `Value.ofText?`, `Value.Integral`.
Key theorems: `lookup_insertEarlier`, `lookup_orderedMembers`, `member?_ordered`,
`ofText?_of_hasText`, `exists_term`.
-/
import ApiReference.Proofs.Json.Meaning
import ApiReference.Proofs.Json.Printing
import ApiReference.Proofs.Keyed

namespace ApiReference
namespace Json

/-! ### Members by key -/

/-- Each key comes before those behind it. -/
def Sorted (ms : List (String × Value)) : Prop := (Keyed.keys ms).Pairwise (· < ·)

theorem mem_keys_insertEarlier {k : String} {v : Value} {ms : List (String × Value)} {key : String}
    (h : key ∈ Keyed.keys (insertEarlier k v ms)) : key = k ∨ key ∈ Keyed.keys ms := by
  induction ms with
  | nil => exact .inl (List.mem_singleton.mp h)
  | cons m ms ih =>
    obtain ⟨k', v'⟩ := m
    unfold insertEarlier at h
    split at h
    · exact List.mem_cons.mp h
    · split at h
      · exact .inr h
      · rcases List.mem_cons.mp h with rfl | hrest
        · exact .inr List.mem_cons_self
        · exact (ih hrest).imp_right (List.mem_cons_of_mem _)

theorem sorted_insertEarlier (k : String) (v : Value) {ms : List (String × Value)} (h : Sorted ms) :
    Sorted (insertEarlier k v ms) := by
  induction ms with
  | nil => exact List.pairwise_singleton _ _
  | cons m ms ih =>
    obtain ⟨k', v'⟩ := m
    obtain ⟨hfirst, hrest⟩ := List.pairwise_cons.mp h
    unfold insertEarlier
    split
    · next hlt =>
      refine List.pairwise_cons.mpr ⟨fun key hkey => ?_, h⟩
      rcases List.mem_cons.mp hkey with rfl | hkey
      · exact hlt
      · exact String.lt_trans hlt (hfirst key hkey)
    next hlt =>
    split
    · exact h
    next hne =>
    have hgt : k' < k := by
      apply String.not_le.mp
      intro hle
      exact hne (String.le_antisymm hle (String.not_lt.mp hlt))
    refine List.pairwise_cons.mpr ⟨fun key hkey => ?_, ih hrest⟩
    rcases mem_keys_insertEarlier hkey with rfl | hkey
    · exact hgt
    · exact hfirst key hkey

/-- Of two members with a key the later one counts. -/
theorem lookup_insertEarlier (k : String) (v : Value) {ms : List (String × Value)} (h : Sorted ms) (key : String) :
    (insertEarlier k v ms).lookup key = (ms.lookup key).or ([(k, v)].lookup key) := by
  induction ms with
  | nil => rfl
  | cons m ms ih =>
    obtain ⟨k', v'⟩ := m
    obtain ⟨hfirst, hrest⟩ := List.pairwise_cons.mp h
    unfold insertEarlier
    split
    · next hlt =>
      by_cases hk : key = k
      -- the key goes before all others, so it is none of them
      · have hbefore : key ∉ Keyed.keys ((k', v') :: ms) := by
          intro hkey
          rw [hk] at hkey
          rcases List.mem_cons.mp hkey with he | hkey
          · exact String.lt_irrefl _ (he ▸ hlt)
          · exact String.lt_irrefl _ (String.lt_trans hlt (hfirst k hkey))
        have hnone : ((k', v') :: ms).lookup key = none := by
          rw [← Option.not_isSome_iff_eq_none, Keyed.lookup_isSome_iff]
          exact hbefore
        rw [hnone, hk, List.lookup_cons_self, Option.none_or, List.lookup_cons_self]
      · rw [Keyed.lookup_cons_of_ne hk, Keyed.lookup_cons_of_ne hk, List.lookup_nil, Option.or_none]
    next hlt =>
    split
    · next he =>
      by_cases hk : key = k
      · rw [hk, he, List.lookup_cons_self, Option.some_or]
      · rw [Keyed.lookup_cons_of_ne hk, List.lookup_nil, Option.or_none]
    next hne =>
    by_cases hk : key = k'
    · rw [hk, List.lookup_cons_self, List.lookup_cons_self, Option.some_or]
    · rw [Keyed.lookup_cons_of_ne hk, Keyed.lookup_cons_of_ne hk, ih hrest]

/-! ### Ordering all members -/

namespace Value

mutual

/-- The value with the members of every object by key, the last of those with one key. -/
def ordered : Value → Value
  | .null => .null
  | .bool b => .bool b
  | .number x => .number x
  | .string s => .string s
  | .list vs => .list (orderedItems vs)
  | .object ms => .object (orderedMembers ms)

/-- The items, each ordered. -/
def orderedItems : List Value → List Value
  | [] => []
  | v :: vs => v.ordered :: orderedItems vs

/-- The members by key, each ordered. -/
def orderedMembers : List (String × Value) → List (String × Value)
  | [] => []
  | (k, v) :: ms => insertEarlier k v.ordered (orderedMembers ms)

end

theorem orderedItems_eq (vs : List Value) : orderedItems vs = vs.map ordered := by
  induction vs with
  | nil => rfl
  | cons v vs ih => rw [orderedItems, ih, List.map_cons]

theorem sorted_orderedMembers (ms : List (String × Value)) : Sorted (orderedMembers ms) := by
  induction ms with
  | nil => exact List.Pairwise.nil
  | cons m ms ih => exact sorted_insertEarlier _ _ ih

/-- A key leads to what it led to from the back. -/
theorem lookup_orderedMembers (ms : List (String × Value)) (key : String) :
    (orderedMembers ms).lookup key = (ms.reverse.lookup key).map ordered := by
  induction ms with
  | nil => rfl
  | cons m ms ih =>
    obtain ⟨k, v⟩ := m
    have hsingle : [(k, v.ordered)].lookup key = ([(k, v)].lookup key).map ordered := by
      by_cases hk : key = k
      · rw [hk, List.lookup_cons_self, List.lookup_cons_self, Option.map_some]
      · rw [Keyed.lookup_cons_of_ne hk, Keyed.lookup_cons_of_ne hk]
        rfl
    rw [orderedMembers, lookup_insertEarlier _ _ (sorted_orderedMembers ms), ih, hsingle, List.reverse_cons,
      List.lookup_append, Option.map_or]

/-- The member of an object with a key. -/
def member? (key : String) : Value → Option Value
  | .object ms => ms.lookup key
  | _ => none

/-- An object in which no key comes twice. -/
def Distinct (v : Value) : Prop := ∃ ms, v = .object ms ∧ (Keyed.keys ms).Nodup

/-- With no key twice, each key leads to the same member as before, ordered. -/
theorem member?_ordered {v : Value} (h : v.Distinct) (key : String) :
    v.ordered.member? key = (v.member? key).map ordered := by
  obtain ⟨ms, rfl, hkeys⟩ := h
  rw [ordered, member?, member?, lookup_orderedMembers, Keyed.lookup_reverse hkeys]

/-! ### What is written is read in order -/

/-- The value of a text with nothing but blanks behind it. -/
def ofText? (text : String) : Option Value :=
  let d := Document.ofText text
  if d.trailing.isNone then d.value.value.toOption else none

theorem ofText?_of_hasText {t : Term} {text : String} (h : t.HasText text) : ofText? text = t.value? := by
  obtain ⟨v, hv, hd⟩ := ofText_of_hasText h
  rw [ofText?, hd]
  exact value_of_says hv

/-- No doubles, and integers of 64 bits only. -/
inductive Integral : Value → Prop
  | null : Integral .null
  | bool {b : Bool} : Integral (.bool b)
  | int {n : Int} (h : -Numeral.maxNegative ≤ n ∧ n ≤ Numeral.maxSignificand) : Integral (.number (.int n))
  | string {s : String} : Integral (.string s)
  | list {vs : List Value} (h : ∀ v ∈ vs, Integral v) : Integral (.list vs)
  | object {ms : List (String × Value)} (h : ∀ m ∈ ms, Integral m.2) : Integral (.object ms)

mutual

/-- The term of a value is read as the value, ordered. -/
theorem exists_term : ∀ {v : Value}, v.Integral → ∃ t, v.term? = some t ∧ t.value? = some v.ordered
  | .null, _ => ⟨.null, rfl, rfl⟩
  | .bool b, _ => ⟨.bool b, rfl, rfl⟩
  | .number (.int n), .int h => by
    refine ⟨.number (.ofInt n), rfl, ?_⟩
    rw [Term.value?, Numeral.value?, int?_ofInt h]
    rfl
  | .string s, _ => ⟨.string (some s), rfl, rfl⟩
  | .list vs, .list h => by
    obtain ⟨ts, hts, hvs⟩ := exists_terms h
    exact ⟨.list ts, by rw [term?, hts]; rfl, by rw [Term.value?, hvs]; rfl⟩
  | .object ms, .object h => by
    obtain ⟨ts, hts, hes⟩ := exists_memberTerms h
    exact ⟨.object ts, by rw [term?, hts]; rfl, by rw [Term.value?, hes]; rfl⟩

theorem exists_terms : ∀ {vs : List Value}, (∀ v ∈ vs, v.Integral) →
    ∃ ts, terms? vs = some ts ∧ Term.values? ts = some (orderedItems vs)
  | [], _ => ⟨[], rfl, rfl⟩
  | v :: vs, h => by
    obtain ⟨hv, hvs⟩ := List.forall_mem_cons.mp h
    obtain ⟨t, ht, hread⟩ := exists_term hv
    obtain ⟨ts, hts, hreads⟩ := exists_terms hvs
    refine ⟨t :: ts, ?_, ?_⟩
    · rw [terms?, ht, hts]
      rfl
    · rw [Term.values?, hread, hreads]
      rfl

theorem exists_memberTerms : ∀ {ms : List (String × Value)}, (∀ m ∈ ms, m.2.Integral) →
    ∃ ts, memberTerms? ms = some ts ∧ Term.entries? ts = some (orderedMembers ms)
  | [], _ => ⟨[], rfl, rfl⟩
  | (k, v) :: ms, h => by
    obtain ⟨hv, hms⟩ := List.forall_mem_cons.mp h
    obtain ⟨t, ht, hread⟩ := exists_term hv
    obtain ⟨ts, hts, hreads⟩ := exists_memberTerms hms
    refine ⟨(some k, t) :: ts, ?_, ?_⟩
    · rw [memberTerms?, ht, hts]
      rfl
    · rw [Term.entries?, hread, hreads]
      rfl

end

end Value
end Json
end ApiReference
