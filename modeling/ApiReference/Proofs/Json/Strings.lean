/-
# Strings are scanned by the grammar

The units of characters form a prefix code (`flatMap_units_append`), so the units
of a string belong to at most one text. `StringScan.Holds` is what the scanner
keeps from one part of a string to the next: either the characters so far and the
leading surrogate that waits have exactly the units read, or no text begins with
the units read. Each part keeps it (`Holds.char`, `Holds.unit`), hence a whole string
does, and at the closing quote it gives the text (`Holds.value_close`).

The other way round, all that the scanner takes without a break is parts of the
grammar (`StringScan.Read`), and what it closes is a string (`spells_closed`).

Key definitions: `StringScan.Holds`, `bytes`, `StringScan.Read`.
Key theorems: `flatMap_units_append`, `scan_string`, `read_more`, `spells_closed`.
-/
import ApiReference.Json.Lexeme
import ApiReference.Proofs.Json.Grammar

namespace ApiReference
namespace Json

/-! ### Units -/

theorem toNat_ofNat {n : Nat} (h : n.isValidChar) : (Char.ofNat n).toNat = n := by
  rw [Char.ofNat, dif_pos h]
  rfl

theorem units_append_inj {c d : Char} {us vs : List Nat} (h : units c ++ us = units d ++ vs) :
    c = d ∧ us = vs := by
  have hc : c.toNat.isValidChar := c.valid
  have hd : d.toNat.isValidChar := d.valid
  simp only [Nat.isValidChar] at hc hd
  rw [← Char.toNat_inj]
  unfold units at h
  split at h <;> split at h
  · simpa using h
  · simp only [List.cons_append, List.nil_append, List.cons.injEq] at h
    omega
  · simp only [List.cons_append, List.nil_append, List.cons.injEq] at h
    omega
  · simp only [List.cons_append, List.nil_append, List.cons.injEq] at h
    exact ⟨by omega, h.2.2⟩

theorem units_ne_nil (c : Char) : units c ≠ [] := by
  unfold units
  split <;> simp

/-- What follows the units of characters is the units of the characters that follow. -/
theorem flatMap_units_append {cs ds : List Char} {us : List Nat}
    (h : cs.flatMap units ++ us = ds.flatMap units) : ∃ es, ds = cs ++ es ∧ us = es.flatMap units := by
  induction cs generalizing ds with
  | nil => exact ⟨ds, rfl, by simpa using h⟩
  | cons c cs ih =>
    cases ds with
    | nil => simp [units_ne_nil] at h
    | cons d ds =>
      simp only [List.flatMap_cons, List.append_assoc] at h
      obtain ⟨rfl, hs⟩ := units_append_inj h
      obtain ⟨es, rfl, hu⟩ := ih hs
      exact ⟨es, rfl, hu⟩

theorem flatMap_units_inj {cs ds : List Char} (h : cs.flatMap units = ds.flatMap units) : cs = ds := by
  have happend : cs.flatMap units ++ [] = ds.flatMap units := by rw [List.append_nil, h]
  obtain ⟨es, rfl, he⟩ := flatMap_units_append happend
  cases es with
  | nil => simp
  | cons e es => simp [units_ne_nil] at he

/-- A unit below the surrogates, or above them, is a character of its own. -/
theorem units_ofNat {n : Nat} (hn : n < 0x10000) (ht : isTrailing n = false) (hl : isLeading n = false) :
    units (Char.ofNat n) = [n] := by
  have hv : n.isValidChar := by
    simp only [isTrailing, isLeading, Bool.and_eq_false_iff, decide_eq_false_iff_not] at ht hl
    simp only [Nat.isValidChar]
    omega
  simp [units, toNat_ofNat hv, hn]

theorem units_pairedChar {h l : Nat} (hh : isLeading h = true) (hl : isTrailing l = true) :
    units (pairedChar h l) = [h, l] := by
  simp only [isTrailing, isLeading, Bool.and_eq_true, decide_eq_true_eq] at hh hl
  have hv : (0x10000 + (h - 0xD800) * 0x400 + (l - 0xDC00)).isValidChar := by
    simp only [Nat.isValidChar]
    omega
  unfold units pairedChar
  rw [toNat_ofNat hv, if_neg (by omega)]
  simp only [List.cons.injEq, and_true]
  omega

/-- No text begins with a trailing surrogate. -/
theorem trailing_ne_units {n : Nat} (hn : isTrailing n = true) (us : List Nat) (cs : List Char) :
    n :: us ≠ cs.flatMap units := by
  simp only [isTrailing, Bool.and_eq_true, decide_eq_true_eq] at hn
  intro h
  cases cs with
  | nil => simp at h
  | cons c cs =>
    have hc : c.toNat.isValidChar := c.valid
    simp only [Nat.isValidChar] at hc
    simp only [List.flatMap_cons, units] at h
    split at h <;> simp only [List.cons_append, List.cons.injEq] at h <;> omega

/-- A leading surrogate in a text is followed by a trailing one. -/
theorem leading_ne_units {n : Nat} (hn : isLeading n = true) {us : List Nat}
    (hu : ∀ m ∈ us.head?, isTrailing m = false) (cs : List Char) : n :: us ≠ cs.flatMap units := by
  simp only [isLeading, Bool.and_eq_true, decide_eq_true_eq] at hn
  intro h
  cases cs with
  | nil => simp at h
  | cons c cs =>
    have hc : c.toNat.isValidChar := c.valid
    simp only [Nat.isValidChar] at hc
    simp only [List.flatMap_cons, units] at h
    split at h <;> simp only [List.cons_append, List.nil_append, List.cons.injEq] at h
    · omega
    · have ht := hu _ (by rw [h.2]; rfl)
      simp only [isTrailing, Bool.and_eq_false_iff, decide_eq_false_iff_not] at ht
      omega

/-- No character begins with a trailing surrogate. -/
theorem head_units (c : Char) (us : List Nat) : ∀ m ∈ (units c ++ us).head?, isTrailing m = false := by
  have hc : c.toNat.isValidChar := c.valid
  simp only [Nat.isValidChar] at hc
  intro m hm
  simp only [isTrailing, Bool.and_eq_false_iff, decide_eq_false_iff_not]
  unfold units at hm
  split at hm <;>
    simp only [List.cons_append, List.head?_cons, Option.mem_def, Option.some.injEq] at hm <;> omega

/-! ### Escapes -/

/-- A hexadecimal digit is read as its number, from one byte. -/
theorem hexDigit?_of {c : Char} {n : Nat} (h : IsHexDigit c n) :
    hexDigit? c = some n ∧ c.utf8Size = 1 ∧ n < 16 := by
  have lower : ∀ i : Fin "0123456789abcdef".toList.length,
      hexDigit? "0123456789abcdef".toList[i] = some i.1 ∧
        "0123456789abcdef".toList[i].utf8Size = 1 ∧ i.1 < 16 := by decide
  have upper : ∀ i : Fin "0123456789ABCDEF".toList.length,
      hexDigit? "0123456789ABCDEF".toList[i] = some i.1 ∧
        "0123456789ABCDEF".toList[i].utf8Size = 1 ∧ i.1 < 16 := by decide
  rcases h with h | h
  · obtain ⟨hn, rfl⟩ := List.getElem?_eq_some_iff.mp h
    exact lower ⟨n, hn⟩
  · obtain ⟨hn, rfl⟩ := List.getElem?_eq_some_iff.mp h
    exact upper ⟨n, hn⟩

theorem escaped?_of {l c : Char} (h : (l, c) ∈ letters) : escaped? l = some c ∧ l ≠ 'u' := by
  simp only [letters, List.mem_cons, Prod.mk.injEq, List.not_mem_nil, or_false] at h
  rcases h with ⟨rfl, rfl⟩ | ⟨rfl, rfl⟩ | ⟨rfl, rfl⟩ | ⟨rfl, rfl⟩ | ⟨rfl, rfl⟩ | ⟨rfl, rfl⟩ |
    ⟨rfl, rfl⟩ | ⟨rfl, rfl⟩ <;> exact ⟨rfl, by decide⟩

/-! ### Parts -/

/-- The bytes that characters take up. -/
def bytes : List Char → Nat
  | [] => 0
  | c :: cs => c.utf8Size + bytes cs

@[simp] theorem bytes_append (cs ds : List Char) : bytes (cs ++ ds) = bytes cs + bytes ds := by
  induction cs with
  | nil => simp [bytes]
  | cons c cs ih => simp [bytes, ih, Nat.add_assoc]

namespace StringScan

/-- What is known when the units `us` of a string have been read: the characters
so far and the leading surrogate that waits have these units, or no text begins
with them. -/
def Holds (s : StringScan) (us : List Nat) : Prop :=
  s.escape = .none ∧
  ((s.fault = none ∧ (∀ h ∈ s.high, isLeading h = true) ∧
      us = s.text.reverse.flatMap units ++ s.high.toList) ∨
    (s.fault.isSome ∧ ∀ (rest : List Nat) (cs : List Char), us ++ rest ≠ cs.flatMap units))

theorem holds_empty : empty.Holds [] := by
  exact ⟨rfl, .inl ⟨rfl, by simp [empty], rfl⟩⟩

theorem Holds.escape {s : StringScan} {us : List Nat} (h : s.Holds us) : s.escape = .none := h.1

/-- A character is taken up; a leading surrogate that waited is left alone. -/
theorem Holds.char {s : StringScan} {us : List Nat} (h : s.Holds us) (c : Char) (offset : Nat) :
    ((s.expectNoPair offset).push c).Holds (us ++ Json.units c) := by
  obtain ⟨escape, text, high, fault⟩ := s
  rcases h with ⟨-, ⟨hf, hh, rfl⟩ | ⟨hf, hu⟩⟩
  · simp only at hf
    subst hf
    cases high with
    | none =>
      refine ⟨rfl, .inl ⟨rfl, by simp [expectNoPair, push], ?_⟩⟩
      simp [expectNoPair, push]
    | some l =>
      refine ⟨rfl, .inr ⟨rfl, fun rest cs he => ?_⟩⟩
      simp only [Option.toList_some, List.append_assoc, List.singleton_append] at he
      obtain ⟨es, -, he⟩ := flatMap_units_append he
      exact leading_ne_units (hh l rfl) (head_units c rest) es he
  · refine ⟨rfl, .inr ⟨?_, fun rest cs => ?_⟩⟩
    · cases high <;> simp_all [expectNoPair, note, push]
    · rw [List.append_assoc]
      exact hu _ _

/-- A unit is taken up. -/
theorem Holds.unit {s : StringScan} {us : List Nat} (h : s.Holds us) {n : Nat} (hn : n < 0x10000)
    (offset : Nat) : (s.pushUnit n offset).Holds (us ++ [n]) := by
  obtain ⟨escape, text, high, fault⟩ := s
  rcases h with ⟨-, ⟨hf, hh, rfl⟩ | ⟨hf, hu⟩⟩
  · simp only at hf
    subst hf
    cases high with
    | none =>
      simp only [pushUnit]
      by_cases ht : isTrailing n = true
      · rw [if_pos ht]
        refine ⟨rfl, .inr ⟨rfl, fun rest cs he => ?_⟩⟩
        simp only [Option.toList_none, List.append_nil, List.append_assoc, List.singleton_append] at he
        obtain ⟨es, -, he⟩ := flatMap_units_append he
        exact trailing_ne_units ht _ _ he
      · rw [if_neg ht]
        by_cases hl : isLeading n = true
        · rw [if_pos hl]
          exact ⟨rfl, .inl ⟨rfl, by simpa using hl, by simp⟩⟩
        · rw [if_neg hl]
          refine ⟨rfl, .inl ⟨rfl, by simp [push], ?_⟩⟩
          simp [push, units_ofNat hn (by simpa using ht) (by simpa using hl)]
    | some l =>
      simp only [pushUnit]
      by_cases ht : isTrailing n = true
      · rw [if_pos ht]
        refine ⟨rfl, .inl ⟨rfl, by simp, ?_⟩⟩
        simp [push, units_pairedChar (hh l rfl) ht]
      · rw [if_neg ht]
        refine ⟨rfl, .inr ⟨rfl, fun rest cs he => ?_⟩⟩
        simp only [Option.toList_some, List.append_assoc, List.singleton_append] at he
        obtain ⟨es, -, he⟩ := flatMap_units_append he
        exact leading_ne_units (hh l rfl) (by simpa using ht) es he
  · refine ⟨?_, .inr ⟨?_, fun rest cs => ?_⟩⟩
    · unfold pushUnit push
      split <;> repeat' split
      all_goals rfl
    · obtain ⟨f, rfl⟩ := Option.isSome_iff_exists.mp hf
      unfold pushUnit push note
      split <;> repeat' split
      all_goals rfl
    · rw [List.append_assoc]
      exact hu _ _

/-- The closed string has the text that has the units read, if any has. -/
theorem Holds.value_close {s : StringScan} {us : List Nat} (h : s.Holds us) (offset : Nat)
    (t : String) : (s.expectNoPair offset).value.toOption = some t ↔ us = t.toList.flatMap units := by
  obtain ⟨escape, text, high, fault⟩ := s
  rcases h with ⟨-, ⟨hf, hh, rfl⟩ | ⟨hf, hu⟩⟩
  · simp only at hf
    subst hf
    cases high with
    | none =>
      simp only [expectNoPair, value, Except.toOption, Option.some.injEq, Option.toList_none,
        List.append_nil]
      constructor
      · rintro rfl
        simp
      · intro he
        simp [flatMap_units_inj he]
    | some l =>
      simp only [expectNoPair, value, note, Option.none_or, Except.toOption, reduceCtorEq, false_iff]
      intro he
      obtain ⟨es, -, he⟩ := flatMap_units_append he
      exact leading_ne_units (hh l rfl) (by simp) es he
  · obtain ⟨f, rfl⟩ := Option.isSome_iff_exists.mp hf
    have hv : (StringScan.expectNoPair ⟨escape, text, high, some f⟩ offset).value = .error f := by
      cases high <;> rfl
    rw [hv]
    simp only [Except.toOption, reduceCtorEq, false_iff]
    simpa using hu [] t.toList

end StringScan

/-! ### Scanning a string -/

/-- Between the quotes of a string, the scanner reads a part as `Holds` says. -/
theorem scan_part {p : Part} {cs : List Char} (h : p.Spells cs) {s : StringScan} {us : List Nat}
    (hs : s.Holds us) (o start : Nat) (ls : List Lexeme) :
    ∃ s' : StringScan, s'.Holds (us ++ p.units) ∧
      cs.foldl Scan.step ⟨o, .string start s, ls⟩ = ⟨o + bytes cs, .string start s', ls⟩ := by
  cases h with
  | @plain c quote escape control =>
    refine ⟨_, hs.char c (o + 1), ?_⟩
    have hc : ¬ c.toNat < 0x20 := by omega
    simp [Scan.step, Scan.read, StringScan.step, hs.escape, quote, escape, hc, bytes]
  | @letter l c hl =>
    obtain ⟨hd, hu⟩ := escaped?_of hl
    refine ⟨_, hs.char c (o + 1 + 1), ?_⟩
    have hp : (StringScan.expectNoPair { s with escape := .letter } (o + 1 + 1)).push c =
        (s.expectNoPair (o + 1 + 1)).push c := by
      obtain ⟨escape, text, high, fault⟩ := s
      cases high <;> rfl
    have h1 : ('\\' : Char).utf8Size = 1 := rfl
    simp [Scan.step, Scan.read, StringScan.step, hs.escape, hu, hd, hp, bytes, h1, Nat.add_assoc]
  | @hex a b c d i j k l ha hb hc hd =>
    obtain ⟨ha, sa, la⟩ := hexDigit?_of ha
    obtain ⟨hb, sb, lb⟩ := hexDigit?_of hb
    obtain ⟨hc, sc, lc⟩ := hexDigit?_of hc
    obtain ⟨hd, sd, ld⟩ := hexDigit?_of hd
    have hn : hexUnit? [d, c, b, a] = some (((i * 16 + j) * 16 + k) * 16 + l) := by
      simp [hexUnit?, ha, hb, hc, hd]
    refine ⟨_, hs.unit (n := ((i * 16 + j) * 16 + k) * 16 + l) (by omega) (o + 1 + 1 + 4), ?_⟩
    have hp : ∀ escape unit offset, StringScan.pushUnit { s with escape := escape } unit offset =
        s.pushUnit unit offset := fun _ _ _ => rfl
    have h1 : ('\\' : Char).utf8Size = 1 := rfl
    have h2 : ('u' : Char).utf8Size = 1 := rfl
    simp [Scan.step, Scan.read, StringScan.step, hs.escape, sa, sb, sc, sd, hn, hp, bytes, h1, h2,
      Nat.add_assoc]

theorem scan_parts {ps : List Part} {cs : List Char} (h : PartsSpell ps cs) {s : StringScan}
    {us : List Nat} (hs : s.Holds us) (o start : Nat) (ls : List Lexeme) :
    ∃ s' : StringScan, s'.Holds (us ++ ps.flatMap Part.units) ∧
      cs.foldl Scan.step ⟨o, .string start s, ls⟩ = ⟨o + bytes cs, .string start s', ls⟩ := by
  induction h generalizing s us o with
  | nil => exact ⟨s, by simpa using hs, by simp [bytes]⟩
  | @cons p ps cs rest hp _ ih =>
    obtain ⟨s₁, h₁, e₁⟩ := scan_part hp hs o start ls
    obtain ⟨s₂, h₂, e₂⟩ := ih h₁ (o + bytes cs)
    refine ⟨s₂, by simpa using h₂, ?_⟩
    rw [List.foldl_append, e₁, e₂]
    simp [Nat.add_assoc]

/-- A string between lexemes is scanned to a lexeme that keeps its text, or a
fault if it has none. -/
theorem scan_string {text : Option String} {cs : List Char} (h : StringSpells text cs) (o : Nat)
    (ls : List Lexeme) :
    ∃ kept : Except Fault String, kept.toOption = text ∧
      cs.foldl Scan.step ⟨o, .between, ls⟩ =
        ⟨o + bytes cs, .between, ⟨.string kept, o, o + bytes cs⟩ :: ls⟩ := by
  obtain ⟨parts, body, rfl, hb, ht⟩ := h
  obtain ⟨s, hs, he⟩ := scan_parts hb StringScan.holds_empty (o + 1) o ls
  refine ⟨(s.expectNoPair (o + 1 + bytes body + 1)).value, ?_, ?_⟩
  · ext t
    rw [hs.value_close, ht]
    simp
  · have hq : Scan.step ⟨o, .between, ls⟩ '"' = ⟨o + 1, .string o .empty, ls⟩ := rfl
    rw [List.cons_append, List.foldl_cons, List.foldl_append, hq, he]
    have h1 : ('"' : Char).utf8Size = 1 := rfl
    simp [Scan.step, Scan.read, StringScan.step, hs.escape, Scan.emit, bytes, h1]
    omega

/-! ### What is scanned as a string -/

theorem isHexDigit_of_hexDigit? {c : Char} {n : Nat} (h : hexDigit? c = some n) : IsHexDigit c n := by
  have all : ∀ k : Fin 128, ∀ n ∈ hexDigit? (Char.ofNat k),
      "0123456789abcdef".toList[n]? = some (Char.ofNat k) ∨
        "0123456789ABCDEF".toList[n]? = some (Char.ofNat k) := by decide
  have hc : c.toNat < 128 := by
    unfold hexDigit? at h
    have h9 : ('9' : Char).toNat = 57 := rfl
    have hf : ('f' : Char).toNat = 102 := rfl
    have hF : ('F' : Char).toNat = 70 := rfl
    simp only [Char.le_def, UInt32.le_iff_toNat_le, Char.toNat_val] at h
    split at h
    · omega
    · split at h
      · omega
      · split at h
        · omega
        · cases h
  have hn := all ⟨c.toNat, hc⟩ n
  rw [Char.ofNat_toNat] at hn
  exact hn h

theorem mem_letters_of_escaped? {l c : Char} (h : escaped? l = some c) : (l, c) ∈ letters := by
  unfold escaped? at h
  split at h
  case h_9 => cases h
  all_goals
    cases h
    decide

theorem PartsSpell.snoc {ps : List Part} {cs : List Char} (h : PartsSpell ps cs) {p : Part}
    {ds : List Char} (hp : p.Spells ds) : PartsSpell (ps ++ [p]) (cs ++ ds) := by
  induction h with
  | nil =>
    have hs := PartsSpell.cons hp .nil
    rwa [List.append_nil] at hs
  | cons hq _ ih =>
    rw [List.append_assoc]
    exact .cons hq ih

/-- Units are those of one text or of none. -/
theorem exists_text (us : List Nat) :
    ∃ text : Option String, ∀ s, text = some s ↔ us = s.toList.flatMap units := by
  by_cases h : ∃ s : String, us = s.toList.flatMap units
  · obtain ⟨s, rfl⟩ := h
    refine ⟨some s, fun t => ?_⟩
    rw [Option.some.injEq]
    constructor
    · rintro rfl
      rfl
    · intro he
      exact String.toList_inj.mp (flatMap_units_inj he)
  · refine ⟨none, fun s => ?_⟩
    simp only [reduceCtorEq, false_iff]
    intro hs
    exact h ⟨s, hs⟩

/-- What has been read of a string behind its quote: whole parts and, in an escape,
the beginning of one. -/
def StringScan.Read (s : StringScan) (cs : List Char) : Prop :=
  ∃ ps body, PartsSpell ps body ∧
    match s.escape with
    | .none => cs = body
    | .letter => cs = body ++ ['\\']
    | .hex _ digits => cs = body ++ '\\' :: 'u' :: digits.reverse

/-- Four digits of an escape are a unit. -/
theorem part_of_hexUnit? {ds : List Char} {n : Nat} (h : hexUnit? ds = some n) :
    (Part.unit n).Spells ('\\' :: 'u' :: ds.reverse) := by
  unfold hexUnit? at h
  split at h
  · next d c b a =>
    simp only [Option.bind_eq_bind, Option.bind_eq_some_iff, pure, Option.some.injEq] at h
    obtain ⟨i, ha, j, hb, k, hc, l, hd, rfl⟩ := h
    exact .hex (isHexDigit_of_hexDigit? ha) (isHexDigit_of_hexDigit? hb) (isHexDigit_of_hexDigit? hc)
      (isHexDigit_of_hexDigit? hd)
  · cases h

theorem StringScan.read_empty : StringScan.empty.Read [] := ⟨[], [], .nil, rfl⟩

/-- The escape a string is in is all that `Read` looks at. -/
theorem StringScan.read_of_parts {s : StringScan} (hs : s.escape = .none) {ps : List Part}
    {cs : List Char} (h : PartsSpell ps cs) : s.Read cs := by
  refine ⟨ps, cs, h, ?_⟩
  rw [hs]

theorem StringScan.read_more {s s' : StringScan} {cs : List Char} (h : s.Read cs) {here : Nat} {c : Char}
    (hs : s.step here c = .more s') : s'.Read (cs ++ [c]) := by
  obtain ⟨ps, body, hp, hcs⟩ := h
  unfold StringScan.step at hs
  split at hs
  · next he =>
    rw [he] at hcs
    subst hcs
    by_cases hc : c = '\\'
    · rw [if_pos hc] at hs
      cases hs
      exact ⟨ps, cs, hp, by rw [hc]⟩
    · rw [if_neg hc] at hs
      split at hs
      · cases hs
      · next hq =>
        split at hs
        · cases hs
        · next hl =>
          cases hs
          exact read_of_parts rfl (hp.snoc (.plain hq hc (Nat.le_of_not_lt hl)))
  · next he =>
    rw [he] at hcs
    subst hcs
    by_cases hu : c = 'u'
    · rw [if_pos hu] at hs
      cases hs
      exact ⟨ps, body, hp, by simp [hu]⟩
    · rw [if_neg hu] at hs
      cases hd : escaped? c with
      | none =>
        simp only [hd] at hs
        cases hs
      | some d =>
        simp only [hd] at hs
        cases hs
        have hparts := hp.snoc (.letter (mem_letters_of_escaped? hd))
        rw [List.append_assoc]
        exact read_of_parts rfl hparts
  · next start digits he =>
    rw [he] at hcs
    subst hcs
    split at hs
    · cases hs
      exact ⟨ps, body, hp, by simp⟩
    · cases hn : hexUnit? (c :: digits) with
      | none =>
        simp only [hn] at hs
        cases hs
      | some unit =>
        simp only [hn] at hs
        cases hs
        have hparts := hp.snoc (part_of_hexUnit? hn)
        have hescape : (s.pushUnit unit (start + 4)).escape = .none := by
          unfold StringScan.pushUnit
          repeat' split
          all_goals rfl
        have hcs : body ++ '\\' :: 'u' :: digits.reverse ++ [c] =
            body ++ '\\' :: 'u' :: (c :: digits).reverse := by simp
        rw [hcs]
        exact read_of_parts hescape hparts

/-- A string is closed by a quote behind whole parts. -/
theorem StringScan.spells_closed {s s' : StringScan} {cs : List Char} (h : s.Read cs) {here : Nat}
    {c : Char} (hs : s.step here c = .closed s') : ∃ text, StringSpells text ('"' :: cs ++ [c]) := by
  obtain ⟨ps, body, hp, hcs⟩ := h
  unfold StringScan.step at hs
  split at hs
  · next he =>
    rw [he] at hcs
    subst hcs
    split at hs
    · cases hs
    · split at hs
      · next hq =>
        obtain ⟨text, ht⟩ := exists_text (ps.flatMap Part.units)
        exact ⟨text, ps, cs, by rw [hq], hp, ht⟩
      · split at hs <;> cases hs
  · split at hs
    · cases hs
    · cases hd : escaped? c <;> simp only [hd] at hs <;> cases hs
  · next start digits he =>
    split at hs
    · cases hs
    · cases hn : hexUnit? (c :: digits) <;> simp only [hn] at hs <;> cases hs

end Json
end ApiReference
