/-
# Compact texts

The text without white space has no blanks but in strings (`Value.tight_compact`), and it has an
integer as every literal of it is written: digits without a leading zero are those of their number
(`decimal_ofDigits`), so there is one literal only (`spelling_eq`).

Key definitions: `Region.next?`, `Tight`.
Key theorems: `decimal_ofDigits`, `eq_ofInt`, `spelling_eq`, `Value.tight_compact`.
-/
import ApiReference.Proofs.Json.Ordered
import Mathlib.Data.List.Induction
import Mathlib.Data.List.Sort

namespace ApiReference
namespace Json

/-! ### Literals of integers -/

open Numeral (decimal ofDigits)

theorem ofDigits_concat (ds : List Nat) (d : Nat) : ofDigits (ds ++ [d]) = 10 * ofDigits ds + d := by
  rw [ofDigits, List.foldl_append]
  rfl

theorem ofDigits_pos {ds : List Nat} (hne : ds ≠ []) (hz : ds.head? ≠ some 0) : 0 < ofDigits ds := by
  induction ds using List.reverseRecOn with
  | nil => exact absurd rfl hne
  | append_singleton ds d ih =>
    rw [ofDigits_concat]
    cases ds with
    | nil =>
      have hd : d ≠ 0 := fun h => hz (by rw [h]; rfl)
      omega
    | cons e ds =>
      have hpos : 0 < ofDigits (e :: ds) := ih (List.cons_ne_nil e ds) hz
      omega

/-- Digits without a leading zero are those of their number. -/
theorem decimal_ofDigits {ds : List Nat} (h : IsDigits ds) (hz : ds.head? = some 0 → ds = [0]) :
    decimal (ofDigits ds) = ds := by
  induction ds using List.reverseRecOn with
  | nil => exact absurd rfl h.1
  | append_singleton ds d ih =>
    obtain ⟨hds, hd⟩ := List.forall_mem_append.mp h.2
    have hlt : d < 10 := hd d (List.mem_singleton.mpr rfl)
    rw [ofDigits_concat]
    cases ds with
    | nil =>
      have hsmall : 10 * ofDigits [] + d < 10 := by
        show 10 * 0 + d < 10
        omega
      rw [decimal, if_pos hsmall]
      simp [ofDigits]
    | cons e ds =>
      have hne : e :: ds ≠ [] := List.cons_ne_nil e ds
      have hhead : (e :: ds).head? ≠ some 0 := by
        intro h0
        have hone := congrArg List.length (hz h0)
        simp at hone
      have hpos : 0 < ofDigits (e :: ds) := ofDigits_pos hne hhead
      have hfront : decimal (ofDigits (e :: ds)) = e :: ds := ih ⟨hne, hds⟩ fun h0 => absurd h0 hhead
      have hdiv : (10 * ofDigits (e :: ds) + d) / 10 = ofDigits (e :: ds) := by omega
      have hmod : (10 * ofDigits (e :: ds) + d) % 10 = d := by omega
      rw [decimal, if_neg (by omega), hdiv, hmod, hfront]

/-- A numeral of an integer is that of its decimal digits. -/
theorem eq_ofInt {x : Numeral} {cs : List Char} {n : Int} (hx : NumeralSpells x cs) (hn : x.int? = some n) :
    x = .ofInt n := by
  obtain ⟨hw, hz, hf, he⟩ := hx
  next negative whole fraction exponent fs es =>
  have hwhole := decimal_ofDigits hw hz
  unfold Numeral.int? at hn
  dsimp only at hn
  split at hn
  · cases hn
  next hplain =>
  obtain ⟨rfl, rfl⟩ : fraction = [] ∧ exponent = none := by simpa using hplain
  split at hn
  · next hnegative =>
    split at hn
    · next hrange =>
      cases hn
      have hlt : -(ofDigits whole : Int) < 0 := by omega
      rw [Numeral.ofInt, Int.natAbs_neg, Int.natAbs_natCast, hwhole, decide_eq_true hlt, hnegative]
    · cases hn
  · next hnegative =>
    split at hn
    · cases hn
      have hge : ¬(ofDigits whole : Int) < 0 := by omega
      rw [Numeral.ofInt, Int.natAbs_natCast, hwhole, decide_eq_false hge, Bool.eq_false_iff.mpr hnegative]
    · cases hn

/-- A numeral of an integer fits 64 bits. -/
theorem bounds_of_int? {x : Numeral} {n : Int} (h : x.int? = some n) :
    -Numeral.maxNegative ≤ n ∧ n ≤ Numeral.maxSignificand := by
  unfold Numeral.int? at h
  dsimp only at h
  split at h
  · cases h
  split at h
  · split at h
    · cases h
      omega
    · cases h
  · split at h
    · cases h
      omega
    · cases h

theorem eq_of_spells_ofInt {n : Int} {cs : List Char} (h : NumeralSpells (.ofInt n) cs) :
    cs = (if n < 0 then ['-'] else []) ++ digits (decimal n.natAbs) := by
  cases h with
  | mk _ _ hf he =>
    cases hf with
    | absent =>
      cases he with
      | absent => simp
    | present h => exact absurd rfl h.1

/-- An integer is written digit for digit as each of its literals is. -/
theorem spelling_eq {x : Numeral} {cs : List Char} {n : Int} (hx : NumeralSpells x cs) (hn : x.int? = some n) :
    cs = (toString n).toList := by
  rw [eq_ofInt hx hn] at hx
  exact (eq_of_spells_ofInt hx).trans (eq_of_spells_ofInt (numeralSpells_ofInt n)).symm

/-! ### Blanks -/

/-- Where in a text a character stands: outside of strings, in a string, or behind a backslash in
a string. -/
inductive Region where
  | outside
  | string
  | escape
  deriving DecidableEq

/-- The region behind a character, unless it is a blank outside of strings. -/
def Region.next? : Region → Char → Option Region
  | .outside, c =>
    if c = ' ' ∨ c = '\t' ∨ c = '\n' ∨ c = '\r' then none else if c = '"' then some .string else some .outside
  | .string, c => some (if c = '"' then .outside else if c = '\\' then .escape else .string)
  | .escape, _ => some .string

/-- There are no blanks but in strings, and no string is left open. -/
def Tight (cs : List Char) : Prop := cs.foldlM Region.next? .outside = some .outside

instance (cs : List Char) : Decidable (Tight cs) :=
  inferInstanceAs (Decidable (cs.foldlM Region.next? .outside = some .outside))

theorem Tight.append {cs ds : List Char} (h : Tight cs) (h' : Tight ds) : Tight (cs ++ ds) := by
  rw [Tight, List.foldlM_append, h]
  exact h'

theorem tight_of_plain {cs : List Char} (h : ∀ c ∈ cs, Region.next? .outside c = some .outside) : Tight cs := by
  induction cs with
  | nil => rfl
  | cons c cs ih =>
    obtain ⟨hc, hcs⟩ := List.forall_mem_cons.mp h
    rw [Tight, List.foldlM_cons, hc]
    exact ih hcs

theorem tight_ofInt (n : Int) : Tight (toString n).toList := by
  have hdigit : ∀ d : Fin 10, Region.next? .outside (Nat.digitChar d) = some .outside := by decide
  rw [eq_of_spells_ofInt (numeralSpells_ofInt n)]
  refine Tight.append ?_ (tight_of_plain fun c hc => ?_)
  · split <;> rfl
  · obtain ⟨d, hd, rfl⟩ := List.mem_map.mp hc
    exact hdigit ⟨d, (isDigits_decimal n.natAbs).2 d hd⟩

/-- A character of a string does not end it. -/
theorem foldlM_escape (c : Char) : (escape c).foldlM Region.next? .string = some .string := by
  have hhex : ∀ n : Fin 16, Region.next? .string (hexDigit n) = some .string := by decide
  have hkept : ∀ d : Char, d ≠ '"' → d ≠ '\\' → Region.next? .string d = some .string := by
    intro d hquote hescape
    rw [Region.next?, if_neg hquote, if_neg hescape]
  unfold escape
  by_cases hquote : c = '"'
  · rw [if_pos hquote]
    rfl
  by_cases hescape : c = '\\'
  · rw [if_neg hquote, if_pos hescape]
    rfl
  rw [if_neg hquote, if_neg hescape]
  -- what is escaped by a letter has two characters, whatever the letter
  split
  · rfl
  split
  · rfl
  split
  · rfl
  split
  · rfl
  split
  · rfl
  split
  · next hcontrol =>
    have hfirst := hhex ⟨c.toNat / 16, by omega⟩
    have hsecond := hhex ⟨c.toNat % 16, by omega⟩
    show ([hexDigit (c.toNat / 16), hexDigit (c.toNat % 16)]).foldlM Region.next? .string = some .string
    rw [List.foldlM_cons, hfirst]
    show ([hexDigit (c.toNat % 16)]).foldlM Region.next? .string = some .string
    rw [List.foldlM_cons, hsecond]
    rfl
  · rw [List.foldlM_cons, hkept c hquote hescape]
    rfl

/-- A string stays open until its closing quote. -/
theorem tight_quote (s : String) : Tight (quote s).toList := by
  have hbody : ∀ cs : List Char, (cs.flatMap escape).foldlM Region.next? .string = some .string := by
    intro cs
    induction cs with
    | nil => rfl
    | cons c cs ih =>
      rw [List.flatMap_cons, List.foldlM_append, foldlM_escape]
      exact ih
  have htext : (quote s).toList = '"' :: (s.toList.flatMap escape ++ ['"']) := by simp [quote]
  rw [Tight, htext, List.foldlM_cons]
  show (s.toList.flatMap escape ++ ['"']).foldlM Region.next? .string = _
  rw [List.foldlM_append, hbody]
  rfl

namespace Value

mutual

/-- The text of a value has no blanks but in strings. -/
theorem tight_compact : ∀ {v : Value}, v.Integral → Tight v.compact.toList
  | .null, _ => by decide
  | .bool true, _ => by decide
  | .bool false, _ => by decide
  | .number (.int n), _ => tight_ofInt n
  | .string s, _ => tight_quote s
  | .list vs, .list h => by
    have hbody := tight_compactItems h
    rw [compact, String.toList_append, String.toList_append]
    exact ((show Tight "[".toList by decide).append hbody).append (by decide)
  | .object ms, .object h => by
    have hbody := tight_compactMembers h
    rw [compact, String.toList_append, String.toList_append]
    exact ((show Tight "\x7b".toList by decide).append hbody).append (by decide)

theorem tight_compactItems : ∀ {vs : List Value}, (∀ v ∈ vs, v.Integral) → Tight (compactItems vs).toList
  | [], _ => by decide
  | [v], h => tight_compact (h v List.mem_cons_self)
  | v :: w :: rest, h => by
    obtain ⟨hv, hrest⟩ := List.forall_mem_cons.mp h
    have hfirst := tight_compact hv
    have hlater := tight_compactItems hrest
    rw [compactItems, String.toList_append, String.toList_append]
    exact (hfirst.append (by decide)).append hlater

theorem tight_compactMembers : ∀ {ms : List (String × Value)}, (∀ m ∈ ms, m.2.Integral) →
    Tight (compactMembers ms).toList
  | [], _ => by decide
  | [(k, v)], h => by
    have hvalue := tight_compact (h (k, v) List.mem_cons_self)
    rw [compactMembers, String.toList_append, String.toList_append]
    exact ((tight_quote k).append (by decide)).append hvalue
  | (k, v) :: m :: rest, h => by
    obtain ⟨hv, hrest⟩ := List.forall_mem_cons.mp h
    have hvalue := tight_compact hv
    have hlater := tight_compactMembers hrest
    simp only [compactMembers, String.toList_append]
    exact ((((tight_quote k).append (by decide)).append hvalue).append (by decide)).append hlater

end

end Value

end Json
end ApiReference
