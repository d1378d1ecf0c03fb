/-
# What is printed is a text of the grammar

`Value.term?` is the term of a value without doubles, its members in the order in
which it holds them. The text without white space of such a value says this term
(`spells_compact`): each character of a string is written as a part with its
units, and an integer by its decimal digits.

Key definitions: `Numeral.ofInt`, `Value.term?`, `Value.WrittenAs`.
Key theorems: `quote_spells`, `spells_compact`.
-/
import ApiReference.Json.Value
import ApiReference.Proofs.Json.Strings
import ApiReference.Proofs.Json.Grammar

namespace ApiReference

/-! ### Integers -/

/-- The decimal digits of a number. -/
def Numeral.decimal (n : Nat) : List Nat :=
  if n < 10 then [n] else decimal (n / 10) ++ [n % 10]

/-- The numeral of an integer. -/
def Numeral.ofInt (n : Int) : Numeral := ⟨n < 0, decimal n.natAbs, [], none⟩

namespace Json

open Numeral (decimal)

theorem isDigits_decimal (n : Nat) : IsDigits (decimal n) := by
  fun_induction decimal n with
  | case1 n h => exact ⟨by simp, by simpa using h⟩
  | case2 n h ih =>
    refine ⟨by simp, fun d hd => ?_⟩
    rcases List.mem_append.mp hd with hd | hd
    · exact ih.2 d hd
    · rw [List.mem_singleton.mp hd]
      omega

theorem head?_decimal (n : Nat) (h : (decimal n).head? = some 0) : decimal n = [0] := by
  have all : ∀ n, (decimal n).head? = some 0 → n = 0 := by
    intro n
    fun_induction decimal n with
    | case1 n h => simp
    | case2 n h ih =>
      intro h0
      have hd : (decimal (n / 10)).head? = some 0 := by
        cases he : decimal (n / 10) with
        | nil => exact absurd he (isDigits_decimal _).1
        | cons d ds => simpa [he] using h0
      have := ih hd
      omega
  rw [all n h]
  simp [decimal]

theorem digits_decimal (n : Nat) : digits (decimal n) = Nat.toDigits 10 n := by
  fun_induction decimal n with
  | case1 n h => rw [Nat.toDigits_of_lt_base h]; rfl
  | case2 n h ih =>
    rw [Nat.toDigits_of_base_le (by decide) (by omega), ← ih]
    simp [digits]

theorem ofDigits_decimal (n : Nat) : Numeral.ofDigits (decimal n) = n := by
  fun_induction decimal n with
  | case1 n h => simp [Numeral.ofDigits]
  | case2 n h ih =>
    simp only [Numeral.ofDigits, List.foldl_append, List.foldl_cons, List.foldl_nil] at ih ⊢
    rw [ih]
    omega

/-- The text of an integer is its numeral. -/
theorem numeralSpells_ofInt (n : Int) : NumeralSpells (.ofInt n) (toString n).toList := by
  have h := @NumeralSpells.mk (decide (n < 0)) _ _ _ _ _ (isDigits_decimal n.natAbs)
    (head?_decimal n.natAbs) .absent .absent
  rw [digits_decimal, List.append_nil, List.append_nil, ← Nat.toList_repr] at h
  cases n with
  | ofNat n => exact h
  | negSucc n =>
    have ht : (toString (Int.negSucc n)).toList = ['-'] ++ (Nat.repr (n + 1)).toList :=
      String.toList_append
    have hn : decide (Int.negSucc n < 0) = true := decide_eq_true (Int.negSucc_lt_zero n)
    rw [hn, if_pos rfl] at h
    rw [ht, Numeral.ofInt, hn]
    exact h

theorem ofInt_digit {d : Nat} (h : d < 10) : Numeral.ofInt d = ⟨false, [d], [], none⟩ := by
  simp [Numeral.ofInt, decimal, h]

/-- The numeral of an integer of 64 bits is read as the integer. -/
theorem int?_ofInt {n : Int} (h : -Numeral.maxNegative ≤ n ∧ n ≤ Numeral.maxSignificand) :
    (Numeral.ofInt n).int? = some n := by
  simp only [Numeral.ofInt, Numeral.int?, ofDigits_decimal, ne_eq, not_true_eq_false,
    Option.isSome_none, Bool.false_eq_true, or_self, if_false, decide_eq_true_eq]
  by_cases hn : n < 0
  · rw [if_pos hn, if_pos (by omega)]
    congr 1
    omega
  · rw [if_neg hn, if_pos (by omega)]
    congr 1
    omega

/-! ### Strings -/

theorem isHexDigit_hexDigit {n : Nat} (h : n < 16) : IsHexDigit (hexDigit n) n := by
  have all : ∀ n : Fin 16, "0123456789abcdef".toList[n.1]? = some (hexDigit n) := by decide
  exact .inl (all ⟨n, h⟩)

/-- A character is written as a part that has its units. -/
theorem escape_spells (c : Char) : ∃ p : Part, p.Spells (escape c) ∧ p.units = units c := by
  unfold escape
  by_cases hq : c = '"'
  · exact ⟨.char c, by rw [if_pos hq, hq]; exact .letter (by decide), rfl⟩
  rw [if_neg hq]
  by_cases hb : c = '\\'
  · exact ⟨.char c, by rw [if_pos hb, hb]; exact .letter (by decide), rfl⟩
  rw [if_neg hb]
  by_cases h8 : c = '\x08'
  · exact ⟨.char c, by rw [if_pos h8, h8]; exact .letter (by decide), rfl⟩
  rw [if_neg h8]
  by_cases hc : c = '\x0c'
  · exact ⟨.char c, by rw [if_pos hc, hc]; exact .letter (by decide), rfl⟩
  rw [if_neg hc]
  by_cases hn : c = '\n'
  · exact ⟨.char c, by rw [if_pos hn, hn]; exact .letter (by decide), rfl⟩
  rw [if_neg hn]
  by_cases hr : c = '\r'
  · exact ⟨.char c, by rw [if_pos hr, hr]; exact .letter (by decide), rfl⟩
  rw [if_neg hr]
  by_cases ht : c = '\t'
  · exact ⟨.char c, by rw [if_pos ht, ht]; exact .letter (by decide), rfl⟩
  rw [if_neg ht]
  by_cases hl : c.toNat < 0x20
  · rw [if_pos hl]
    have hd : ((0 * 16 + 0) * 16 + c.toNat / 16) * 16 + c.toNat % 16 = c.toNat := by omega
    refine ⟨.unit (((0 * 16 + 0) * 16 + c.toNat / 16) * 16 + c.toNat % 16), ?_, ?_⟩
    · exact .hex (.inl rfl) (.inl rfl) (isHexDigit_hexDigit (by omega)) (isHexDigit_hexDigit (by omega))
    · rw [hd, Part.units, units, if_pos (by omega)]
  · rw [if_neg hl]
    exact ⟨.char c, .plain hq hb (by omega), rfl⟩

/-- A quoted string is a string with its text. -/
theorem quote_spells (s : String) : StringSpells (some s) (quote s).toList := by
  have parts : ∀ cs : List Char, ∃ ps : List Part, PartsSpell ps (cs.flatMap escape) ∧
      ps.flatMap Part.units = cs.flatMap units := by
    intro cs
    induction cs with
    | nil => exact ⟨[], .nil, rfl⟩
    | cons c cs ih =>
      obtain ⟨p, hp, hu⟩ := escape_spells c
      obtain ⟨ps, hps, hus⟩ := ih
      exact ⟨p :: ps, .cons hp hps, by simp [hu, hus]⟩
  obtain ⟨ps, hps, hu⟩ := parts s.toList
  refine ⟨ps, s.toList.flatMap escape, by simp [quote], hps, fun t => ?_⟩
  rw [hu, Option.some.injEq]
  exact ⟨fun h => h ▸ rfl, fun h => String.toList_inj.mp (flatMap_units_inj h)⟩

/-! ### Values -/

namespace Value

mutual

/-- The term of a value without doubles. -/
def term? : Value → Option Term
  | .null => some .null
  | .bool b => some (.bool b)
  | .number (.int n) => some (.number (.ofInt n))
  | .number (.float _) => none
  | .string s => some (.string (some s))
  | .list vs => (terms? vs).map .list
  | .object ms => (memberTerms? ms).map .object

/-- The terms of values without doubles. -/
def terms? : List Value → Option (List Term)
  | [] => some []
  | v :: vs => (term? v).bind fun t => (terms? vs).map (t :: ·)

/-- The terms of members without doubles, in order. -/
def memberTerms? : List (String × Value) → Option (List (Option String × Term))
  | [] => some []
  | (k, v) :: ms => (term? v).bind fun t => (memberTerms? ms).map ((some k, t) :: ·)

end

/-- `text` is JSON for the value, its members in order. -/
def WrittenAs (v : Value) (text : String) : Prop := ∃ t, v.term? = some t ∧ t.HasText text

end Value

mutual

/-- The text of a value without white space spells its term. -/
theorem spells_compact : ∀ {v : Value} {t : Term}, v.term? = some t → t.Spells v.compact.toList
  | .null, _, h => by cases h; exact .null
  | .bool true, _, h => by cases h; exact .true
  | .bool false, _, h => by cases h; exact .false
  | .number (.int n), _, h => by cases h; exact .number (numeralSpells_ofInt n)
  | .string s, _, h => by cases h; exact .string (quote_spells s)
  | .list [], _, h => by cases h; exact .emptyList (w := []) blank_nil
  | .list (v :: vs), _, h => by
    obtain ⟨ts, hts, rfl⟩ := Option.map_eq_some_iff.mp h
    have := Term.Spells.list (spells_compactItems hts)
    simpa [Value.compact] using this
  | .object [], _, h => by cases h; exact .emptyObject (w := []) blank_nil
  | .object (m :: ms), _, h => by
    obtain ⟨ts, hts, rfl⟩ := Option.map_eq_some_iff.mp h
    have := Term.Spells.object (spells_compactMembers hts)
    simpa [Value.compact] using this

theorem spells_compactItems : ∀ {v : Value} {vs : List Value} {ts : List Term},
    Value.terms? (v :: vs) = some ts → Term.ItemsSpell ts (Value.compactItems (v :: vs)).toList
  | v, [], ts, h => by
    simp only [Value.terms?, Option.map_some, Option.bind_eq_some_iff, Option.some.injEq] at h
    obtain ⟨t, ht, rfl⟩ := h
    simpa [Value.compactItems] using Term.ItemsSpell.last blank_nil (spells_compact ht) blank_nil
  | v, w :: vs, ts, h => by
    rw [Value.terms?] at h
    obtain ⟨t, ht, h⟩ := Option.bind_eq_some_iff.mp h
    obtain ⟨us, hus, rfl⟩ := Option.map_eq_some_iff.mp h
    simpa [Value.compactItems] using
      Term.ItemsSpell.more blank_nil (spells_compact ht) blank_nil (spells_compactItems hus)

theorem spells_compactMembers : ∀ {m : String × Value} {ms : List (String × Value)}
    {ts : List (Option String × Term)}, Value.memberTerms? (m :: ms) = some ts →
      Term.MembersSpell ts (Value.compactMembers (m :: ms)).toList
  | (k, v), [], ts, h => by
    simp only [Value.memberTerms?, Option.map_some, Option.bind_eq_some_iff, Option.some.injEq] at h
    obtain ⟨t, ht, rfl⟩ := h
    simpa [Value.compactMembers] using Term.MembersSpell.last blank_nil (quote_spells k) blank_nil
      blank_nil (spells_compact ht) blank_nil
  | (k, v), w :: ms, ts, h => by
    rw [Value.memberTerms?] at h
    obtain ⟨t, ht, h⟩ := Option.bind_eq_some_iff.mp h
    obtain ⟨us, hus, rfl⟩ := Option.map_eq_some_iff.mp h
    simpa [Value.compactMembers] using Term.MembersSpell.more blank_nil (quote_spells k) blank_nil
      blank_nil (spells_compact ht) blank_nil (spells_compactMembers hus)

end

theorem Value.hasText_compact {v : Value} {t : Term} (h : v.term? = some t) : t.HasText v.compact :=
  ⟨[], _, [], blank_nil, spells_compact h, blank_nil, by simp⟩

end Json
end ApiReference
