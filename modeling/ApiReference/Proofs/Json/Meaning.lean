/-
# The value of a term

A term has a value if all its strings have a text and all its numerals a number
(`value?_isSome_iff`). A tree that says a term is read to the value of the term
(`value_of_says`), and to pass over such a tree meets no fault
(`skipFault?_of_says`), whatever its strings and numerals are.

Key definitions: `Term.value?`, `Term.Legible`.
-/
import ApiReference.Json.Reading
import ApiReference.Proofs.Json.Building

namespace ApiReference
namespace Json

/-! ### Readings without their faults -/

section Except
variable {ε α β : Type}

@[simp] theorem toOption_ok (a : α) : (Except.ok a : Except ε α).toOption = some a := rfl

@[simp] theorem toOption_error (e : ε) : (Except.error e : Except ε α).toOption = none := rfl

@[simp] theorem toOption_map (f : α → β) (x : Except ε α) : (x.map f).toOption = x.toOption.map f := by
  cases x <;> rfl

@[simp] theorem toOption_fmap (f : α → β) (x : Except ε α) : (f <$> x).toOption = x.toOption.map f := by
  cases x <;> rfl

@[simp] theorem toOption_bind (x : Except ε α) (f : α → Except ε β) :
    (x >>= f).toOption = x.toOption.bind fun a => (f a).toOption := by
  cases x <;> rfl

end Except

/-! ### Values -/

namespace Term

mutual

/-- The value of a term. -/
def value? : Term → Option Value
  | .null => some .null
  | .bool b => some (.bool b)
  | .number x => x.value?.map .number
  | .string text => text.map .string
  | .list ts => (values? ts).map .list
  | .object ms => (entries? ms).map .object

/-- The values of terms. -/
def values? : List Term → Option (List Value)
  | [] => some []
  | t :: ts => (value? t).bind fun v => (values? ts).map (v :: ·)

/-- The members with their values, by key; of members with one key the last counts. -/
def entries? : List (Option String × Term) → Option (List (String × Value))
  | [] => some []
  | (k, t) :: ms =>
    k.bind fun k => (value? t).bind fun v => (entries? ms).map (insertEarlier k v)

end

/-- Every number in a term can be read, and every string and key has a text. `Text`
says when a string has one. -/
inductive Legible (Text : Option String → Prop) : Term → Prop
  | null : Legible Text .null
  | bool {b : Bool} : Legible Text (.bool b)
  | number {x : Numeral} (h : x.value?.isSome) : Legible Text (.number x)
  | string {text : Option String} (h : Text text) : Legible Text (.string text)
  | list {ts : List Term} (h : ∀ t ∈ ts, Legible Text t) : Legible Text (.list ts)
  | object {ms : List (Option String × Term)} (hk : ∀ m ∈ ms, Text m.1)
    (h : ∀ m ∈ ms, Legible Text m.2) : Legible Text (.object ms)

mutual

/-- The terms with a value. -/
theorem value?_isSome_iff : ∀ t : Term, t.value?.isSome ↔ t.Legible (·.isSome)
  | .null => by simp [value?, Legible.null]
  | .bool b => by simp [value?, Legible.bool]
  | .number x => by
    simp only [value?, Option.isSome_map]
    exact ⟨.number, fun | .number h => h⟩
  | .string text => by
    simp only [value?, Option.isSome_map]
    exact ⟨fun h => .string h, fun | .string h => h⟩
  | .list ts => by
    simp only [value?, Option.isSome_map]
    exact (values?_isSome_iff ts).trans ⟨.list, fun | .list h => h⟩
  | .object ms => by
    simp only [value?, Option.isSome_map]
    exact (entries?_isSome_iff ms).trans ⟨fun h => .object (fun m hm => (h m hm).1) fun m hm => (h m hm).2,
      fun | .object hk h => fun m hm => ⟨hk m hm, h m hm⟩⟩

theorem values?_isSome_iff : ∀ ts : List Term, (values? ts).isSome ↔ ∀ t ∈ ts, t.Legible (·.isSome)
  | [] => by simp [values?]
  | t :: ts => by
    simp only [values?, Option.isSome_bind, List.forall_mem_cons, ← value?_isSome_iff t,
      ← values?_isSome_iff ts]
    cases t.value? <;> simp

theorem entries?_isSome_iff : ∀ ms : List (Option String × Term),
    (entries? ms).isSome ↔ ∀ m ∈ ms, m.1.isSome ∧ m.2.Legible (·.isSome)
  | [] => by simp [entries?]
  | (k, t) :: ms => by
    simp only [entries?, List.forall_mem_cons, ← value?_isSome_iff t, ← entries?_isSome_iff ms]
    cases k <;> cases t.value? <;> simp

end

end Term

/-! ### Reading a tree that says a term -/

mutual

theorem value_of_says : ∀ {v : Source} {t : Term}, v.Says t → v.value.toOption = t.value?
  | _, _, .null => rfl
  | _, _, .bool => rfl
  | _, _, .number h => by simp [Source.value, Term.value?, h]
  | _, _, .string h => by simp [Source.value, Term.value?, h]
  | _, _, .list h => by simp [Source.value, Term.value?, values_of_say h]
  | _, _, .object h => by simp [Source.value, Term.value?, entries_of_say h]

theorem values_of_say : ∀ {items : Items} {ts : List Term}, items.Say ts →
    items.values.toOption = Term.values? ts
  | _, _, .closed => rfl
  | _, _, .item h hs => by
    simp [Items.values, Term.values?, value_of_says h, values_of_say hs, Option.map_eq_bind]

theorem entries_of_say : ∀ {members : Members} {ms : List (Option String × Term)}, members.Say ms →
    members.entries.toOption = Term.entries? ms
  | _, _, .closed => rfl
  | _, _, .member hk h hs => by
    simp [Members.entries, Term.entries?, ← hk, value_of_says h, entries_of_say hs, Option.map_eq_bind]

end

mutual

theorem skipFault?_of_says : ∀ {v : Source} {t : Term}, v.Says t → v.skipFault? = none
  | _, _, .null | _, _, .bool | _, _, .number _ | _, _, .string _ => rfl
  | _, _, .list h => itemsSkipFault?_of_say h
  | _, _, .object h => membersSkipFault?_of_say h

theorem itemsSkipFault?_of_say : ∀ {items : Items} {ts : List Term}, items.Say ts →
    items.skipFault? = none
  | _, _, .closed => rfl
  | _, _, .item h hs => by simp [Items.skipFault?, skipFault?_of_says h, itemsSkipFault?_of_say hs]

theorem membersSkipFault?_of_say : ∀ {members : Members} {ms : List (Option String × Term)},
    members.Say ms → members.skipFault? = none
  | _, _, .closed => rfl
  | _, _, .member _ h hs => by
    simp [Members.skipFault?, skipFault?_of_says h, membersSkipFault?_of_say hs]

end

end Json
end ApiReference
