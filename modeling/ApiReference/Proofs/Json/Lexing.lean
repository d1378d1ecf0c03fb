/-
# What the scanner takes is spelled by the grammar

Each prefix of a text is some lexemes, with blanks between them, and the part of a
lexeme that the scanner is in the middle of (`Scan.Covers`). One character more keeps
this (`covers_step`). So a text is cut into lexemes that the grammar spells, up to the
first that is broken (`lexed_scan`).

Not covered: that the lexemes keep the values of what is spelled; this holds of every
text of the grammar (`ofText_of_hasText`).

Key definitions: `Token.Spells`, `Lexed`, `Scan.Covers`.
Key theorems: `covers_step`, `lexed_scan`.
-/
import ApiReference.Proofs.Json.Numerals

namespace ApiReference
namespace Json

/-! ### Lexemes and their texts -/

/-- `cs` is a text of the token. A broken token may take up anything. -/
inductive Token.Spells : Token → List Char → Prop
  | mark {c : Char} {token : Token} (h : Scan.mark? c = some token) : Token.Spells token [c]
  | null : Token.Spells .null "null".toList
  | true : Token.Spells (.bool true) "true".toList
  | false : Token.Spells (.bool false) "false".toList
  | string {text : Option String} {kept : Except Fault String} {cs : List Char}
    (h : StringSpells text cs) : Token.Spells (.string kept) cs
  | number {x : Numeral} {kept : Except Fault Number} {cs : List Char} (h : NumeralSpells x cs) :
    Token.Spells (.number kept) cs
  | broken {isString : Bool} {why : Break} {cs : List Char} : Token.Spells (.broken isString why) cs

/-- `cs` is cut into the lexemes, the last of them first, with blanks between them. -/
inductive Lexed : List Lexeme → List Char → Prop
  | nil : Lexed [] []
  | blank {ls : List Lexeme} {cs w : List Char} (h : Lexed ls cs) (hw : Blank w) : Lexed ls (cs ++ w)
  | lexeme {ls : List Lexeme} {x : Lexeme} {cs ds : List Char} (h : Lexed ls cs)
    (hx : x.token.Spells ds) : Lexed (x :: ls) (cs ++ ds)

/-! ### The whole text -/

/-- The text `cs` has been scanned: it is some lexemes and a part of one more, or some
lexemes, a broken one and what was not scanned. -/
inductive Scan.Covers : Scan → List Char → Prop
  | between {o : Nat} {ls : List Lexeme} {cs : List Char} (h : Lexed ls cs) : Covers ⟨o, .between, ls⟩ cs
  | word {o start : Nat} {token : Token} {rest : List Char} {ls : List Lexeme} {cs ds : List Char}
    (h : Lexed ls cs) (hw : token.Spells (ds ++ rest)) : Covers ⟨o, .word token start rest, ls⟩ (cs ++ ds)
  | string {o start : Nat} {s : StringScan} {ls : List Lexeme} {cs ds : List Char} (h : Lexed ls cs)
    (hs : s.Read ds) : Covers ⟨o, .string start s, ls⟩ (cs ++ '"' :: ds)
  | number {o start : Nat} {s : NumberScan} {ls : List Lexeme} {cs ds : List Char} (h : Lexed ls cs)
    (hs : NumberScan.Read s.part ds) : Covers ⟨o, .number start s, ls⟩ (cs ++ ds)
  | stopped {o start stop : Nat} {isString : Bool} {why : Break} {ls : List Lexeme} {cs ds : List Char}
    (h : Lexed ls cs) : Covers ⟨o, .stopped, ⟨.broken isString why, start, stop⟩ :: ls⟩ (cs ++ ds)

namespace Scan

theorem isBlank_iff (c : Char) : isBlank c = true ↔ Blank [c] := by
  unfold isBlank Blank
  simp only [Bool.or_eq_true, decide_eq_true_eq, List.mem_singleton, forall_eq]
  constructor
  · rintro (((h | h) | h) | h) <;> simp [h]
  · rintro (h | h | h | h) <;> simp [h]

theorem spells_of_word? {c : Char} {token : Token} {rest : List Char} (h : word? c = some (token, rest)) :
    token.Spells (c :: rest) := by
  unfold word? at h
  split at h
  · cases h
    exact .null
  · cases h
    exact .true
  · cases h
    exact .false
  · cases h

/-- Between lexemes, a character is a blank or begins a lexeme. -/
theorem covers_start {ls : List Lexeme} {cs : List Char} (h : Lexed ls cs) (o p : Nat) (mode : Mode)
    (c : Char) (hm : mode = .between) : Covers { start ⟨o, mode, ls⟩ c with offset := p } (cs ++ [c]) := by
  subst hm
  unfold start
  split
  · next hb => exact .between (h.blank ((isBlank_iff c).mp hb))
  · split
    · next hq =>
      rw [hq]
      exact .string h StringScan.read_empty
    · split
      · next token hmark => exact .between (h.lexeme (.mark hmark))
      · next token rest _ hw _ => exact .word h (spells_of_word? hw)
      · next number _ _ hn _ _ => exact .number h (NumberScan.read_first hn)
      · exact .stopped h

/-- One character more is covered. -/
theorem covers_step {s : Scan} {cs : List Char} (h : s.Covers cs) (c : Char) :
    (s.step c).Covers (cs ++ [c]) := by
  cases h with
  | between h => exact covers_start h _ _ _ c rfl
  | @word o start token rest ls cs ds h hw =>
    cases rest with
    | nil =>
      rw [List.append_nil] at hw
      exact covers_start (h.lexeme (x := ⟨token, start, o⟩) hw) _ _ _ c rfl
    | cons d rest =>
      rw [List.append_assoc]
      unfold step read
      by_cases hd : c = d
      · subst hd
        by_cases hr : rest = []
        · subst hr
          simp only [ne_eq, not_true_eq_false, if_false, if_true]
          exact .between (h.lexeme hw)
        · simp only [ne_eq, not_true_eq_false, if_false, if_neg hr]
          refine .word h ?_
          rwa [List.append_assoc]
      · simp only [ne_eq, hd, not_false_eq_true, if_true]
        exact .stopped h
  | @string o start s ls cs ds h hs =>
    rw [List.append_assoc]
    unfold step read
    cases hstep : s.step o c with
    | more s' =>
      simp only [hstep]
      exact .string h (StringScan.read_more hs hstep)
    | closed s' =>
      simp only [hstep]
      obtain ⟨text, ht⟩ := StringScan.spells_closed hs hstep
      exact .between (h.lexeme (.string ht))
    | broken why =>
      simp only [hstep]
      exact .stopped h
  | @number o start s ls cs ds h hs =>
    unfold step read
    cases hstep : s.step o c with
    | more s' =>
      simp only [hstep]
      rw [List.append_assoc]
      exact .number h (NumberScan.read_more hs hstep)
    | closed s' =>
      simp only [hstep]
      obtain ⟨rfl, hend⟩ := NumberScan.mayEnd_of_closed hstep
      obtain ⟨x, hx⟩ := hs.spells hend
      exact covers_start (h.lexeme (x := ⟨.number (s'.value o), start, o⟩) (.number hx)) _ _ _ c rfl
    | broken why =>
      simp only [hstep]
      rw [List.append_assoc]
      exact .stopped h
  | stopped h =>
    rw [List.append_assoc]
    exact .stopped h

theorem covers_foldl {s : Scan} {cs : List Char} (h : s.Covers cs) (ds : List Char) :
    (ds.foldl step s).Covers (cs ++ ds) := by
  induction ds generalizing s cs with
  | nil =>
    rw [List.append_nil]
    exact h
  | cons d ds ih =>
    have hrest := ih (covers_step h d)
    rw [List.append_assoc] at hrest
    exact hrest

/-- At the end of a text, a part of a lexeme is broken or is a number. -/
theorem lexed_finish {s : Scan} {cs : List Char} (h : s.Covers cs) : Lexed s.finish.lexemes cs := by
  cases h with
  | between h => exact h
  | word h hw => exact h.lexeme .broken
  | string h hs => exact h.lexeme .broken
  | @number o start s ls cs ds h hs =>
    unfold finish
    by_cases hend : s.mayEnd = true
    · simp only [hend, if_true]
      obtain ⟨x, hx⟩ := hs.spells hend
      exact h.lexeme (.number hx)
    · simp only [hend]
      exact h.lexeme .broken
  | stopped h => exact h.lexeme .broken

end Scan

/-- A text is cut into lexemes that the grammar spells, up to one that is broken. -/
theorem lexed_scan (text : String) : Lexed (Lexeme.scan text).reverse text.toList := by
  have h := Scan.covers_foldl (.between .nil : Scan.empty.Covers []) text.toList
  unfold Lexeme.scan
  rw [List.reverse_reverse]
  exact Scan.lexed_finish h

end Json
end ApiReference

