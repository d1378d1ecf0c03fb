/-
# Numbers are scanned by the grammar

A numeral of the grammar is read to its end (`reads_numeral`): each run of digits
is one induction (`reads_digits`), and at the end the scanner holds the digits,
signs and exponent as they were written. What may follow a value cannot belong to
a number, so the number is closed there (`scan_number`).

The other way round, what the scanner has taken fits the part of a number it is in
(`NumberScan.Read`), and where it may end it is a numeral (`Read.spells`).

Key definitions: `NumberScan.next?`, `Delimited`, `NumberScan.Read`.
Key theorems: `reads_numeral`, `scan_number`, `read_more`, `Read.spells`.
-/
import ApiReference.Json.Lexeme
import ApiReference.Proofs.Json.Grammar
import ApiReference.Proofs.Json.Strings

namespace ApiReference
namespace Json

namespace NumberScan

/-- The number with one more character, if it may come. -/
def next? (s : NumberScan) (c : Char) : Option NumberScan :=
  if c.isDigit then s.digit? (c.toNat - '0'.toNat) else s.other? c

theorem step_of_next? {s s' : NumberScan} {c : Char} (h : s.next? c = some s') (here : Nat) :
    s.step here c = .more s' := by
  unfold next? at h
  unfold step
  simp only [h]

end NumberScan

/-! ### Runs of digits -/

theorem digitChar_spec {d : Nat} (h : d < 10) : (Nat.digitChar d).isDigit = true ∧
    (Nat.digitChar d).toNat - '0'.toNat = d ∧ (Nat.digitChar d ≠ '-') := by
  have all : ∀ d : Fin 10, (Nat.digitChar d).isDigit = true ∧
      (Nat.digitChar d).toNat - '0'.toNat = d ∧ (Nat.digitChar d ≠ '-') := by decide
  exact all ⟨d, h⟩

theorem next?_digit {d : Nat} (h : d < 10) (s : NumberScan) :
    s.next? (Nat.digitChar d) = s.digit? d := by
  obtain ⟨hd, hn, -⟩ := digitChar_spec h
  simp only [NumberScan.next?, hd, ↓reduceIte, hn]

/-- Where every digit is taken up, a run of digits is. -/
theorem reads_digits {s : List Nat → NumberScan} (h : ∀ ds d, (s ds).digit? d = some (s (d :: ds)))
    {ds : List Nat} (hd : ∀ d ∈ ds, d < 10) (before : List Nat) :
    (digits ds).foldlM NumberScan.next? (s before) = some (s (ds.reverse ++ before)) := by
  induction ds generalizing before with
  | nil => rfl
  | cons d ds ih =>
    have hd0 := hd d (List.mem_cons_self ..)
    rw [digits, List.map_cons, List.foldlM_cons, next?_digit hd0, h]
    have := ih (fun x hx => hd x (List.mem_cons_of_mem _ hx)) (d :: before)
    simpa [digits] using this

/-- The first of some digits may come, and the others then do. -/
theorem reads_digits_from {s₀ : NumberScan} (s : List Nat → NumberScan)
    (h₀ : ∀ d, s₀.digit? d = some (s [d])) (h : ∀ ds d, (s ds).digit? d = some (s (d :: ds)))
    {ds : List Nat} (hd : IsDigits ds) :
    (digits ds).foldlM NumberScan.next? s₀ = some (s ds.reverse) := by
  obtain ⟨hne, hd⟩ := hd
  cases ds with
  | nil => exact absurd rfl hne
  | cons d ds =>
    rw [digits, List.map_cons, List.foldlM_cons, next?_digit (hd d (List.mem_cons_self ..)), h₀]
    have := reads_digits h (fun x hx => hd x (List.mem_cons_of_mem _ hx)) [d]
    simpa [digits] using this

/-! ### The parts of a numeral -/

open NumberScan

/-- The number may go on with a fraction. -/
def BehindWhole (s : NumberScan) : Prop := s.part = .zero ∨ s.part = .whole

/-- The number may go on with an exponent. -/
def BehindFraction (s : NumberScan) : Prop := BehindWhole s ∨ s.part = .fraction

theorem next?_mark {s : NumberScan} (hs : BehindFraction s) {mark : Char} (hm : mark = 'e' ∨ mark = 'E') :
    s.next? mark = some { s with part := .mark } := by
  obtain ⟨part, negative, whole, fraction, powerNegative, power⟩ := s
  rcases hs with (h | h) | h <;> simp only at h <;> subst h <;> rcases hm with rfl | rfl <;> rfl

/-- The digits of an exponent behind its mark and sign. -/
theorem reads_power {s : NumberScan} (hs : s.part = .mark ∨ s.part = .markSign) (hp : s.power = [])
    {ds : List Nat} (hd : IsDigits ds) :
    (digits ds).foldlM next? s = some { s with part := .power, power := ds.reverse } := by
  refine reads_digits_from (fun ds => { s with part := .power, power := ds }) (fun d => ?_)
    (fun _ _ => rfl) hd
  obtain ⟨part, negative, whole, fraction, powerNegative, power⟩ := s
  simp only at hp
  subst hp
  rcases hs with h | h <;> simp only at h <;> subst h <;> rfl

theorem reads_exponent {e : Option Numeral.Exponent} {cs : List Char} (h : ExponentSpells e cs)
    {s : NumberScan} (hs : BehindFraction s) (hp : s.power = []) (hn : s.powerNegative = false) :
    ∃ s', cs.foldlM next? s = some s' ∧ s'.mayEnd = true ∧
      s'.numeral = { s.numeral with exponent := e } := by
  cases h with
  | absent =>
    refine ⟨s, rfl, ?_, by simp [numeral, hp]⟩
    rcases hs with (h | h) | h <;> simp [mayEnd, h]
  | @plain mark ds hm hd =>
    refine ⟨{ s with part := .power, power := ds.reverse }, ?_, rfl, ?_⟩
    · rw [List.foldlM_cons, next?_mark hs hm]
      exact reads_power (s := { s with part := .mark }) (.inl rfl) hp hd
    · simp [numeral, hn, hd.1]
  | @plus mark ds hm hd =>
    refine ⟨{ s with part := .power, power := ds.reverse }, ?_, rfl, ?_⟩
    · rw [List.foldlM_cons, next?_mark hs hm]
      exact reads_power (s := { s with part := .markSign }) (.inr rfl) hp hd
    · simp [numeral, hn, hd.1]
  | @minus mark ds hm hd =>
    refine ⟨{ s with part := .power, powerNegative := true, power := ds.reverse }, ?_, rfl, ?_⟩
    · rw [List.foldlM_cons, next?_mark hs hm]
      exact reads_power (s := { s with part := .markSign, powerNegative := true }) (.inr rfl) hp hd
    · simp [numeral, hd.1]

theorem reads_fraction {ds : List Nat} {cs : List Char} (h : FractionSpells ds cs) {s : NumberScan}
    (hs : BehindWhole s) (hf : s.fraction = []) :
    ∃ s', cs.foldlM next? s = some s' ∧ BehindFraction s' ∧ s'.power = s.power ∧
      s'.powerNegative = s.powerNegative ∧ s'.numeral = { s.numeral with fraction := ds } := by
  cases h with
  | absent => exact ⟨s, rfl, .inl hs, rfl, rfl, by simp [numeral, hf]⟩
  | present hd =>
    have hp : s.next? '.' = some { s with part := .point } := by
      obtain ⟨part, negative, whole, fraction, powerNegative, power⟩ := s
      rcases hs with h | h <;> simp only at h <;> subst h <;> rfl
    refine ⟨{ s with part := .fraction, fraction := ds.reverse }, ?_, .inr rfl, rfl, rfl, by simp [numeral]⟩
    rw [List.foldlM_cons, hp]
    refine reads_digits_from (fun ds => { s with part := .fraction, fraction := ds }) (fun d => ?_)
      (fun _ _ => rfl) hd
    simp [digit?, hf]

/-- The digits before the point behind the first of them. -/
theorem reads_whole (negative : Bool) {d : Nat} {ds : List Nat} (hz : d = 0 → ds = [])
    (hd : ∀ x ∈ ds, x < 10) :
    ∃ s', (digits ds).foldlM next?
        ⟨if d = 0 then .zero else .whole, negative, [d], [], false, []⟩ = some s' ∧
      BehindWhole s' ∧ s'.fraction = [] ∧ s'.power = [] ∧ s'.powerNegative = false ∧
      s'.numeral = ⟨negative, d :: ds, [], none⟩ := by
  by_cases h0 : d = 0
  · subst h0
    rw [hz rfl]
    exact ⟨_, rfl, .inl rfl, rfl, rfl, rfl, rfl⟩
  · refine ⟨⟨.whole, negative, ds.reverse ++ [d], [], false, []⟩, ?_, .inr rfl, rfl, rfl, rfl, ?_⟩
    · rw [if_neg h0]
      exact reads_digits (s := fun ds => ⟨.whole, negative, ds, [], false, []⟩) (fun _ _ => rfl) hd [d]
    · simp [numeral]

theorem ofFirst?_digit {d : Nat} (h : d < 10) : ofFirst? (Nat.digitChar d) =
    some ⟨if d = 0 then .zero else .whole, false, [d], [], false, []⟩ := by
  obtain ⟨hd, hn, hm⟩ := digitChar_spec h
  unfold ofFirst?
  rw [if_neg hm]
  by_cases h0 : d = 0
  · subst h0
    rfl
  · have hz : Nat.digitChar d ≠ '0' := fun he => h0 (by rw [he] at hn; exact hn.symm)
    rw [if_neg hz, if_pos hd, hn, if_neg h0]

/-- A numeral is read to its end. -/
theorem reads_numeral {x : Numeral} {cs : List Char} (h : NumeralSpells x cs) :
    ∃ c rest s s', cs = c :: rest ∧ ofFirst? c = some s ∧ rest.foldlM next? s = some s' ∧
      s'.mayEnd = true ∧ s'.numeral = x := by
  obtain @⟨negative, whole, fraction, exponent, fs, es, ⟨hne, hw⟩, hz, hf, he⟩ := h
  cases whole with
  | nil => exact absurd rfl hne
  | cons d ds =>
    have hd := hw d (List.mem_cons_self ..)
    have hds : d = 0 → ds = [] := fun h0 => by
      subst h0
      simpa using hz rfl
    obtain ⟨s₁, e₁, b₁, f₁, p₁, n₁, x₁⟩ :=
      reads_whole negative hds (fun x hx => hw x (List.mem_cons_of_mem _ hx))
    obtain ⟨s₂, e₂, b₂, p₂, n₂, x₂⟩ := reads_fraction hf b₁ f₁
    obtain ⟨s₃, e₃, m₃, x₃⟩ := reads_exponent he b₂ (p₂.trans p₁) (n₂.trans n₁)
    have hx : s₃.numeral = ⟨negative, d :: ds, fraction, exponent⟩ := by rw [x₃, x₂, x₁]
    have hrun : (digits ds ++ (fs ++ es)).foldlM next?
        ⟨if d = 0 then .zero else .whole, negative, [d], [], false, []⟩ = some s₃ := by
      simp only [List.foldlM_append, e₁, e₂, e₃, bind, Option.bind_some]
    cases negative with
    | false =>
      exact ⟨Nat.digitChar d, _, _, s₃, rfl, ofFirst?_digit hd, hrun, m₃, hx⟩
    | true =>
      refine ⟨'-', digits (d :: ds) ++ (fs ++ es), _, s₃, rfl, rfl, ?_, m₃, hx⟩
      rw [digits, List.map_cons, List.cons_append, List.foldlM_cons, next?_digit hd]
      exact hrun

/-! ### Scanning a number -/

/-- What may follow a number: nothing that could belong to it. -/
def Delimited (rest : List Char) : Prop :=
  ∀ c ∈ rest.head?, c.isDigit = false ∧ c ≠ '.' ∧ c ≠ 'e' ∧ c ≠ 'E'

theorem step_closed {s : NumberScan} (hs : s.mayEnd = true) {c : Char} (hd : c.isDigit = false)
    (hp : c ≠ '.') (he : c ≠ 'e') (hE : c ≠ 'E') (here : Nat) : s.step here c = .closed s := by
  have ho : s.other? c = none := by
    unfold mayEnd at hs
    unfold other?
    split at hs <;> simp_all
  simp [NumberScan.step, hd, ho, hs]

theorem start_number {c : Char} {s : NumberScan} (h : ofFirst? c = some s) (o : Nat) (ls : List Lexeme) :
    Scan.step ⟨o, .between, ls⟩ c = ⟨o + c.utf8Size, .number o s, ls⟩ := by
  have hc : c = '-' ∨ c.isDigit = true := by
    unfold ofFirst? at h
    by_cases hm : c = '-'
    · exact .inl hm
    · by_cases hz : c = '0'
      · exact .inr (by rw [hz]; rfl)
      · rw [if_neg hm, if_neg hz] at h
        by_cases hd : c.isDigit = true
        · exact .inr hd
        · simp [hd] at h
  have hne : ∀ d : Char, (d ≠ '-' ∧ d.isDigit = false) → c ≠ d := by
    rintro d ⟨hm, hd⟩ rfl
    rcases hc with hc | hc
    · exact hm hc
    · rw [hd] at hc
      cases hc
  have hb : Scan.isBlank c = false := by
    simp [Scan.isBlank, hne ' ' (by decide), hne '\n' (by decide), hne '\t' (by decide),
      hne '\r' (by decide)]
  have hq : c ≠ '"' := hne _ (by decide)
  have hm : Scan.mark? c = none := by
    unfold Scan.mark?
    split <;> first | rfl | exact absurd rfl (hne _ (by decide))
  have hw : Scan.word? c = none := by
    unfold Scan.word?
    split <;> first | rfl | exact absurd rfl (hne _ (by decide))
  simp [Scan.step, Scan.read, Scan.start, hb, hq, hm, hw, h]

theorem foldl_number {s s' : NumberScan} {cs : List Char} (h : cs.foldlM next? s = some s') (o start : Nat)
    (ls : List Lexeme) :
    cs.foldl Scan.step ⟨o, .number start s, ls⟩ = ⟨o + bytes cs, .number start s', ls⟩ := by
  induction cs generalizing s o with
  | nil =>
    simp only [List.foldlM_nil, pure, Option.some.injEq] at h
    simp [bytes, h]
  | cons c cs ih =>
    rw [List.foldlM_cons] at h
    obtain ⟨s₁, h₁, h⟩ := Option.bind_eq_some_iff.mp h
    have hc : Scan.step ⟨o, .number start s, ls⟩ c = ⟨o + c.utf8Size, .number start s₁, ls⟩ := by
      simp [Scan.step, Scan.read, step_of_next? h₁]
    rw [List.foldl_cons, hc, ih h]
    simp [bytes, Nat.add_assoc]

/-- A number that may end does, where something follows that cannot belong to it. -/
theorem close_number {s : NumberScan} (hs : s.mayEnd = true) {rest : List Char} (hr : Delimited rest)
    (o start : Nat) (ls : List Lexeme) :
    (rest.foldl Scan.step ⟨o, .number start s, ls⟩).finish =
      (rest.foldl Scan.step ⟨o, .between, ⟨.number (s.value o), start, o⟩ :: ls⟩).finish := by
  cases rest with
  | nil => simp [Scan.finish, hs, Scan.emit]
  | cons c rest =>
    obtain ⟨hd, hp, he, hE⟩ := hr c rfl
    simp [Scan.step, Scan.read, step_closed hs hd hp he hE, Scan.emit]

/-- A number between lexemes is scanned to a lexeme that keeps its value, or a
fault if it has none. -/
theorem scan_number {x : Numeral} {cs : List Char} (h : NumeralSpells x cs) (o : Nat) (ls : List Lexeme) :
    ∃ kept : Except Fault Number, kept.toOption = x.value? ∧ ∀ rest, Delimited rest →
      ((cs ++ rest).foldl Scan.step ⟨o, .between, ls⟩).finish =
        (rest.foldl Scan.step
          ⟨o + bytes cs, .between, ⟨.number kept, o, o + bytes cs⟩ :: ls⟩).finish := by
  obtain ⟨c, tail, s, s', rfl, hf, hrun, hm, rfl⟩ := reads_numeral h
  refine ⟨s'.value (o + bytes (c :: tail)), ?_, fun rest hr => ?_⟩
  · unfold NumberScan.value
    split <;> simp [*, Except.toOption]
  · rw [List.foldl_append, List.foldl_cons, start_number hf, foldl_number hrun]
    have hb : o + c.utf8Size + bytes tail = o + bytes (c :: tail) := by simp [bytes, Nat.add_assoc]
    rw [hb, close_number hm hr]

/-! ### What is scanned as a number -/

/-- A digit is the character of its number. -/
theorem digitChar_of_isDigit {c : Char} (h : c.isDigit = true) :
    c.toNat - '0'.toNat < 10 ∧ Nat.digitChar (c.toNat - '0'.toNat) = c := by
  have all : ∀ k : Fin 10, Nat.digitChar k = Char.ofNat (k.1 + 48) := by decide
  have h0 : ('0' : Char).toNat = 48 := rfl
  unfold Char.isDigit at h
  simp only [Bool.and_eq_true, decide_eq_true_eq, ge_iff_le, UInt32.le_iff_toNat_le, Char.toNat_val] at h
  have h9 : ('9' : Char).toNat = 57 := rfl
  have hlt : c.toNat - '0'.toNat < 10 := by omega
  refine ⟨hlt, ?_⟩
  have hd := all ⟨c.toNat - '0'.toNat, hlt⟩
  have hn : c.toNat - '0'.toNat + 48 = c.toNat := by omega
  rw [hn, Char.ofNat_toNat] at hd
  exact hd

theorem IsDigits.snoc {ds : List Nat} (h : IsDigits ds) {d : Nat} (hd : d < 10) : IsDigits (ds ++ [d]) := by
  refine ⟨by simp, fun x hx => ?_⟩
  rw [List.mem_append, List.mem_singleton] at hx
  rcases hx with hx | rfl
  · exact h.2 x hx
  · exact hd

theorem isDigits_single {d : Nat} (hd : d < 10) : IsDigits [d] := by
  refine ⟨by simp, fun x hx => ?_⟩
  rw [List.mem_singleton] at hx
  exact hx ▸ hd

theorem digits_append (ds es : List Nat) : digits (ds ++ es) = digits ds ++ digits es := by
  unfold digits
  rw [List.map_append]

/-- Digits before a point: no zero leads, unless it is the only one. -/
def IsWhole (ds : List Nat) : Prop := IsDigits ds ∧ (ds.head? = some 0 → ds = [0])

/-- How a sign is written. -/
def signText (negative : Bool) : List Char := if negative then ['-'] else []

/-- What has been read of a number whose last part is the one given. -/
inductive NumberScan.Read : NumberScan.Part → List Char → Prop
  | sign : Read .sign ['-']
  | zero {negative : Bool} : Read .zero (signText negative ++ digits [0])
  | whole {negative : Bool} {ds : List Nat} (h : IsDigits ds) (hz : ds.head? ≠ some 0) :
    Read .whole (signText negative ++ digits ds)
  | point {negative : Bool} {ds : List Nat} (h : IsWhole ds) :
    Read .point (signText negative ++ (digits ds ++ ['.']))
  | fraction {negative : Bool} {ds fs : List Nat} (h : IsWhole ds) (hf : IsDigits fs) :
    Read .fraction (signText negative ++ (digits ds ++ '.' :: digits fs))
  | mark {negative : Bool} {ds fraction : List Nat} {fs : List Char} {m : Char} (h : IsWhole ds)
    (hf : FractionSpells fraction fs) (hm : m = 'e' ∨ m = 'E') :
    Read .mark (signText negative ++ (digits ds ++ (fs ++ [m])))
  | markSign {negative : Bool} {ds fraction : List Nat} {fs : List Char} {m sign : Char} (h : IsWhole ds)
    (hf : FractionSpells fraction fs) (hm : m = 'e' ∨ m = 'E') (hs : sign = '+' ∨ sign = '-') :
    Read .markSign (signText negative ++ (digits ds ++ (fs ++ [m, sign])))
  | power {negative : Bool} {ds fraction : List Nat} {fs es : List Char} {e : Numeral.Exponent}
    (h : IsWhole ds) (hf : FractionSpells fraction fs) (he : ExponentSpells (some e) es) :
    Read .power (signText negative ++ (digits ds ++ (fs ++ es)))

theorem isWhole_zero : IsWhole [0] := ⟨isDigits_single (by decide), fun _ => rfl⟩

theorem isWhole_of_head? {ds : List Nat} (h : IsDigits ds) (hz : ds.head? ≠ some 0) : IsWhole ds :=
  ⟨h, fun h0 => absurd h0 hz⟩

/-- The number may go on behind the digits before its point. -/
theorem NumberScan.Read.behindWhole {part : NumberScan.Part} {cs : List Char} (h : Read part cs)
    (hp : part = .zero ∨ part = .whole) :
    ∃ negative ds, IsWhole ds ∧ cs = signText negative ++ digits ds := by
  cases h with
  | @zero negative => exact ⟨negative, [0], isWhole_zero, rfl⟩
  | @whole negative ds h hz => exact ⟨negative, ds, isWhole_of_head? h hz, rfl⟩
  | _ => simp at hp

/-- The number may go on with an exponent, or end. -/
theorem NumberScan.Read.behindFraction {part : NumberScan.Part} {cs : List Char} (h : Read part cs)
    (hp : (part = .zero ∨ part = .whole) ∨ part = .fraction) :
    ∃ negative ds fraction fs, IsWhole ds ∧ FractionSpells fraction fs ∧
      cs = signText negative ++ (digits ds ++ fs) := by
  rcases hp with hp | rfl
  · obtain ⟨negative, ds, hds, rfl⟩ := h.behindWhole hp
    exact ⟨negative, ds, [], [], hds, .absent, by rw [List.append_nil]⟩
  · cases h with
    | @fraction negative ds fs h hf => exact ⟨negative, ds, fs, _, h, .present hf, rfl⟩

theorem ExponentSpells.snoc {e : Numeral.Exponent} {es : List Char} (h : ExponentSpells (some e) es)
    {d : Nat} (hd : d < 10) : ∃ e', ExponentSpells (some e') (es ++ digits [d]) := by
  cases h with
  | @plain mark ds hm h =>
    have hs := ExponentSpells.plain hm (h.snoc hd)
    rw [digits_append] at hs
    exact ⟨_, hs⟩
  | @plus mark ds hm h =>
    have hs := ExponentSpells.plus hm (h.snoc hd)
    rw [digits_append] at hs
    exact ⟨_, hs⟩
  | @minus mark ds hm h =>
    have hs := ExponentSpells.minus hm (h.snoc hd)
    rw [digits_append] at hs
    exact ⟨_, hs⟩

namespace NumberScan

theorem read_digit {s s' : NumberScan} {cs : List Char} (h : Read s.part cs) {d : Nat} (hd : d < 10)
    (hs : s.digit? d = some s') : Read s'.part (cs ++ digits [d]) := by
  obtain ⟨part, negative, whole, fraction, powerNegative, power⟩ := s
  cases h with
  | sign =>
    cases hs
    by_cases h0 : d = 0
    · subst h0
      exact @Read.zero true
    · show Read (if d = 0 then .zero else .whole) (signText true ++ digits [d])
      rw [if_neg h0]
      exact .whole (isDigits_single hd) (by simp [h0])
  | zero => cases hs
  | @whole n ds h hz =>
    cases hs
    have hne : (ds ++ [d]).head? ≠ some 0 := by
      cases ds with
      | nil => exact absurd rfl h.1
      | cons x ds => exact hz
    rw [List.append_assoc, ← digits_append]
    exact .whole (h.snoc hd) hne
  | @point n ds h =>
    cases hs
    rw [List.append_assoc, List.append_assoc]
    exact .fraction h (isDigits_single hd)
  | @fraction n ds fs h hf =>
    cases hs
    rw [List.append_assoc, List.append_assoc, List.cons_append, ← digits_append]
    exact .fraction h (hf.snoc hd)
  | @mark n ds f fs m h hf hm =>
    cases hs
    rw [List.append_assoc, List.append_assoc, List.append_assoc]
    exact .power h hf (.plain hm (isDigits_single hd))
  | @markSign n ds f fs m sign h hf hm hsign =>
    cases hs
    rw [List.append_assoc, List.append_assoc, List.append_assoc]
    rcases hsign with rfl | rfl
    · exact .power h hf (.plus hm (isDigits_single hd))
    · exact .power h hf (.minus hm (isDigits_single hd))
  | @power n ds f fs es e h hf he =>
    cases hs
    obtain ⟨e', he'⟩ := he.snoc hd
    rw [List.append_assoc, List.append_assoc, List.append_assoc]
    exact .power h hf he'

theorem read_point {s : NumberScan} {cs : List Char} (h : Read s.part cs)
    (hp : s.part = .zero ∨ s.part = .whole) : Read .point (cs ++ ['.']) := by
  obtain ⟨negative, ds, hds, rfl⟩ := h.behindWhole hp
  rw [List.append_assoc]
  exact .point hds

theorem read_mark {s : NumberScan} {cs : List Char} (h : Read s.part cs)
    (hp : (s.part = .zero ∨ s.part = .whole) ∨ s.part = .fraction) {m : Char} (hm : m = 'e' ∨ m = 'E') :
    Read .mark (cs ++ [m]) := by
  obtain ⟨negative, ds, fraction, fs, hds, hf, rfl⟩ := h.behindFraction hp
  rw [List.append_assoc, List.append_assoc]
  exact .mark hds hf hm

theorem read_markSign {cs : List Char} (h : Read .mark cs) {sign : Char} (hs : sign = '+' ∨ sign = '-') :
    Read .markSign (cs ++ [sign]) := by
  cases h with
  | @mark n ds f fs m h hf hm =>
    rw [List.append_assoc, List.append_assoc, List.append_assoc]
    exact .markSign h hf hm hs

theorem read_other {s s' : NumberScan} {cs : List Char} (h : Read s.part cs) {c : Char}
    (hs : s.other? c = some s') : Read s'.part (cs ++ [c]) := by
  unfold other? at hs
  split at hs
  · next hp =>
    split at hs
    · next hc =>
      cases hs
      rw [hc]
      exact read_point h (.inl hp)
    · split at hs
      · next hc =>
        cases hs
        exact read_mark h (.inl (.inl hp)) hc
      · cases hs
  · next hp =>
    split at hs
    · next hc =>
      cases hs
      rw [hc]
      exact read_point h (.inr hp)
    · split at hs
      · next hc =>
        cases hs
        exact read_mark h (.inl (.inr hp)) hc
      · cases hs
  · next hp =>
    split at hs
    · next hc =>
      cases hs
      exact read_mark h (.inr hp) hc
    · cases hs
  · next hp =>
    rw [hp] at h
    split at hs
    · next hc =>
      cases hs
      exact read_markSign h (.inl hc)
    · split at hs
      · next hc =>
        cases hs
        exact read_markSign h (.inr hc)
      · cases hs
  all_goals cases hs

theorem step_of_next?_none {s : NumberScan} {c : Char} (h : s.next? c = none) (here : Nat) :
    s.step here c =
      if s.mayEnd && !c.isDigit then .closed s else .broken (.both .invalidNumber (here + 1)) := by
  unfold next? at h
  unfold step
  simp only [h]

/-- One character more is read. -/
theorem read_more {s s' : NumberScan} {cs : List Char} (h : Read s.part cs) {here : Nat} {c : Char}
    (hs : s.step here c = .more s') : Read s'.part (cs ++ [c]) := by
  have hnext : s.next? c = some s' := by
    cases hn : s.next? c with
    | some s₁ =>
      rw [step_of_next? hn] at hs
      cases hs
      rfl
    | none =>
      rw [step_of_next?_none hn] at hs
      split at hs <;> cases hs
  unfold next? at hnext
  by_cases hc : c.isDigit = true
  · rw [if_pos hc] at hnext
    obtain ⟨hd, hchar⟩ := digitChar_of_isDigit hc
    have hread := read_digit h hd hnext
    unfold digits at hread
    rw [List.map_singleton, hchar] at hread
    exact hread
  · rw [if_neg hc] at hnext
    exact read_other h hnext

theorem read_first {s : NumberScan} {c : Char} (h : ofFirst? c = some s) : Read s.part [c] := by
  unfold ofFirst? at h
  split at h
  · next hc =>
    cases h
    rw [hc]
    exact .sign
  · split at h
    · next hc =>
      cases h
      rw [hc]
      exact @Read.zero false
    · next hne =>
      split at h
      · next hc =>
        cases h
        obtain ⟨hd, hchar⟩ := digitChar_of_isDigit hc
        have hread := @Read.whole false [c.toNat - '0'.toNat] (isDigits_single hd)
        unfold digits at hread
        rw [List.map_singleton, hchar] at hread
        refine hread ?_
        intro h0
        rw [List.head?_cons, Option.some.injEq] at h0
        rw [h0] at hchar
        exact hne hchar.symm
      · cases h

/-- A number that may end is a numeral. -/
theorem Read.spells {s : NumberScan} {cs : List Char} (h : Read s.part cs) (hs : s.mayEnd = true) :
    ∃ x, NumeralSpells x cs := by
  have hpart : ((s.part = .zero ∨ s.part = .whole) ∨ s.part = .fraction) ∨ s.part = .power := by
    unfold mayEnd at hs
    split at hs <;> simp_all
  rcases hpart with hp | hp
  · obtain ⟨negative, ds, fraction, fs, ⟨hds, hz⟩, hf, rfl⟩ := h.behindFraction hp
    have hx := @NumeralSpells.mk negative ds fraction none fs [] hds hz hf .absent
    rw [List.append_nil] at hx
    exact ⟨_, hx⟩
  · rw [hp] at h
    cases h with
    | @power n ds f fs es e h hf he => exact ⟨_, @NumeralSpells.mk n ds f (some e) fs es h.1 h.2 hf he⟩

/-- A number is closed only where it may end, and stays as it is. -/
theorem mayEnd_of_closed {s s' : NumberScan} {here : Nat} {c : Char} (h : s.step here c = .closed s') :
    s' = s ∧ s.mayEnd = true := by
  cases hn : s.next? c with
  | some s₁ =>
    rw [step_of_next? hn] at h
    cases h
  | none =>
    rw [step_of_next?_none hn] at h
    split at h
    · next he =>
      cases h
      rw [Bool.and_eq_true] at he
      exact ⟨rfl, he.1⟩
    · cases h

end NumberScan

end Json
end ApiReference
