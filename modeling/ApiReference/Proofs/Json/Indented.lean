/-
# A text over several lines is a text of the grammar

With each item on a line of its own a value is written as without white space, but for line
feeds and indentation before the items and behind the last one, and a blank behind each
colon. So it spells the same term (`spells_pretty`), with no blank around.

Key theorems: `spells_prettyAt`, `spells_pretty`.
-/
import ApiReference.Proofs.Json.Printing
import ApiReference.Proofs.Json.Recognizing

namespace ApiReference
namespace Json

open Value (newline prettyAt prettyItems prettyMembers)

theorem blank_newline (level : Nat) : Blank (newline level).toList := by
  intro c hc
  have hlist : (newline level).toList = '\n' :: List.replicate (2 * level) ' ' := by simp [newline]
  rw [hlist, List.mem_cons, List.mem_replicate] at hc
  rcases hc with rfl | ⟨-, rfl⟩
  · exact .inr (.inr (.inl rfl))
  · exact .inl rfl

theorem blank_space : Blank [' '] := by
  intro c hc
  exact .inl (List.mem_singleton.mp hc)

mutual

/-- The text of a value at any level of indentation spells its term. -/
theorem spells_prettyAt : ∀ {v : Value} {t : Term} (level : Nat), v.term? = some t →
    t.Spells (prettyAt level v).toList
  | .null, _, _, h => by cases h; exact .null
  | .bool true, _, _, h => by cases h; exact .true
  | .bool false, _, _, h => by cases h; exact .false
  | .number (.int n), _, _, h => by cases h; exact .number (numeralSpells_ofInt n)
  | .string s, _, _, h => by cases h; exact .string (quote_spells s)
  | .list [], _, _, h => by
    cases h
    rw [prettyAt]
    exact .emptyList (w := []) blank_nil
  | .list (v :: vs), _, level, h => by
    obtain ⟨ts, hts, rfl⟩ := Option.map_eq_some_iff.mp h
    have hitems := spells_prettyItems (level + 1) hts
    have hlist := Term.Spells.list (hitems.blank (blank_newline level))
    simpa [prettyAt] using hlist
  | .object [], _, _, h => by
    cases h
    rw [prettyAt]
    exact .emptyObject (w := []) blank_nil
  | .object (m :: ms), _, level, h => by
    obtain ⟨ts, hts, rfl⟩ := Option.map_eq_some_iff.mp h
    have hmembers := spells_prettyMembers (level + 1) hts
    have hobject := Term.Spells.object (hmembers.blank (blank_newline level))
    simpa [prettyAt] using hobject

theorem spells_prettyItems : ∀ {v : Value} {vs : List Value} {ts : List Term} (level : Nat),
    Value.terms? (v :: vs) = some ts → Term.ItemsSpell ts (prettyItems level (v :: vs)).toList
  | v, [], ts, level, h => by
    simp only [Value.terms?, Option.map_some, Option.bind_eq_some_iff, Option.some.injEq] at h
    obtain ⟨t, ht, rfl⟩ := h
    have hlast := Term.ItemsSpell.last (blank_newline level) (spells_prettyAt level ht) blank_nil
    simpa [prettyItems] using hlast
  | v, w :: vs, ts, level, h => by
    rw [Value.terms?] at h
    obtain ⟨t, ht, h⟩ := Option.bind_eq_some_iff.mp h
    obtain ⟨us, hus, rfl⟩ := Option.map_eq_some_iff.mp h
    have hrest := spells_prettyItems level hus
    have hmore := Term.ItemsSpell.more (blank_newline level) (spells_prettyAt level ht) blank_nil hrest
    simpa [prettyItems] using hmore

theorem spells_prettyMembers : ∀ {m : String × Value} {ms : List (String × Value)}
    {ts : List (Option String × Term)} (level : Nat), Value.memberTerms? (m :: ms) = some ts →
      Term.MembersSpell ts (prettyMembers level (m :: ms)).toList
  | (k, v), [], ts, level, h => by
    simp only [Value.memberTerms?, Option.map_some, Option.bind_eq_some_iff, Option.some.injEq] at h
    obtain ⟨t, ht, rfl⟩ := h
    have hlast := Term.MembersSpell.last (blank_newline level) (quote_spells k) blank_nil blank_space
      (spells_prettyAt level ht) blank_nil
    simpa [prettyMembers] using hlast
  | (k, v), w :: ms, ts, level, h => by
    rw [Value.memberTerms?] at h
    obtain ⟨t, ht, h⟩ := Option.bind_eq_some_iff.mp h
    obtain ⟨us, hus, rfl⟩ := Option.map_eq_some_iff.mp h
    have hrest := spells_prettyMembers level hus
    have hmore := Term.MembersSpell.more (blank_newline level) (quote_spells k) blank_nil blank_space
      (spells_prettyAt level ht) blank_nil hrest
    simpa [prettyMembers] using hmore

end

theorem spells_pretty {v : Value} {t : Term} (h : v.term? = some t) : t.Spells v.pretty.toList :=
  spells_prettyAt 0 h

end Json
end ApiReference
