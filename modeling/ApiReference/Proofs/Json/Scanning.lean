/-
# The lexemes of a text, one by one

`scanFrom o cs` are the lexemes of `cs`, which stands at byte `o`. What has been
scanned does not matter for what follows (`scan_onto`), so each kind of lexeme has
one equation: the lexeme, then the lexemes of the rest.

Key definitions: `scanFrom`.
Key theorems: `scanFrom_blank`, `scanFrom_mark`, `scanFrom_string`,
`scanFrom_number`.
-/
import ApiReference.Json.Lexeme
import ApiReference.Proofs.Json.Numerals

namespace ApiReference
namespace Json

/-- The lexemes of what stands at byte `o`. -/
def scanFrom (o : Nat) (cs : List Char) : List Lexeme :=
  (cs.foldl Scan.step ⟨o, .between, []⟩).finish.lexemes.reverse

theorem scan_eq (text : String) : Lexeme.scan text = scanFrom 0 text.toList := rfl

/-! ### Lexemes that are there already -/

/-- A scan with `ls` scanned before all else. -/
def Scan.onto (s : Scan) (ls : List Lexeme) : Scan := { s with lexemes := s.lexemes ++ ls }

theorem start_onto (s : Scan) (ls : List Lexeme) (c : Char) : (s.onto ls).start c = (s.start c).onto ls := by
  unfold Scan.start
  repeat' split
  all_goals rfl

theorem read_onto (s : Scan) (ls : List Lexeme) (c : Char) : (s.onto ls).read c = (s.read c).onto ls := by
  obtain ⟨o, mode, lexemes⟩ := s
  cases mode with
  | between => exact start_onto ⟨o, .between, lexemes⟩ ls c
  | stopped => rfl
  | word token start rest =>
    cases rest with
    | nil => exact start_onto (Scan.emit ⟨o, .word token start [], lexemes⟩ token start o) ls c
    | cons d rest =>
      simp only [Scan.read, Scan.onto]
      repeat' split
      all_goals rfl
  | string start s =>
    simp only [Scan.read, Scan.onto]
    split <;> rfl
  | number start s =>
    simp only [Scan.read, Scan.onto]
    cases s.step o c with
    | more s' => rfl
    | closed s' =>
      exact start_onto (Scan.emit ⟨o, .number start s, lexemes⟩ (.number (s'.value o)) start o) ls c
    | broken why => rfl

theorem step_onto (s : Scan) (ls : List Lexeme) (c : Char) :
    Scan.step (s.onto ls) c = (Scan.step s c).onto ls := by
  unfold Scan.step
  rw [read_onto]
  rfl

theorem finish_onto (s : Scan) (ls : List Lexeme) : (s.onto ls).finish = s.finish.onto ls := by
  obtain ⟨o, mode, lexemes⟩ := s
  cases mode <;> simp only [Scan.finish, Scan.onto]
  case number => split <;> rfl
  all_goals rfl

/-- Lexemes scanned before stay in front. -/
theorem scan_onto (o : Nat) (ls : List Lexeme) (cs : List Char) :
    (cs.foldl Scan.step ⟨o, .between, ls⟩).finish.lexemes.reverse = ls.reverse ++ scanFrom o cs := by
  have h : ∀ s : Scan, cs.foldl Scan.step (s.onto ls) = (cs.foldl Scan.step s).onto ls := by
    induction cs with
    | nil => exact fun _ => rfl
    | cons c cs ih => exact fun s => by rw [List.foldl_cons, step_onto, ih]; rfl
  have h0 := h ⟨o, .between, []⟩
  simp only [Scan.onto, List.nil_append] at h0
  rw [h0]
  have hf := finish_onto (cs.foldl Scan.step ⟨o, .between, []⟩) ls
  simp only [Scan.onto] at hf
  rw [hf]
  simp [scanFrom]

/-! ### The lexemes -/

theorem scanFrom_blank {w : List Char} (h : Blank w) (o : Nat) (rest : List Char) :
    scanFrom o (w ++ rest) = scanFrom (o + bytes w) rest := by
  induction w generalizing o with
  | nil => rfl
  | cons c w ih =>
    have hc : Scan.step ⟨o, .between, []⟩ c = ⟨o + c.utf8Size, .between, []⟩ := by
      rcases h c (List.mem_cons_self ..) with rfl | rfl | rfl | rfl <;> rfl
    have := ih (fun x hx => h x (List.mem_cons_of_mem _ hx)) (o + c.utf8Size)
    simp only [scanFrom, List.cons_append, List.foldl_cons, hc] at this ⊢
    rw [this]
    simp [bytes, Nat.add_assoc]

/-- A bracket, a comma or a colon. -/
theorem scanFrom_mark {c : Char} {token : Token} (h : Scan.mark? c = some token) (o : Nat)
    (rest : List Char) : scanFrom o (c :: rest) = ⟨token, o, o + 1⟩ :: scanFrom (o + 1) rest := by
  have hc : Scan.step ⟨o, .between, []⟩ c = ⟨o + 1, .between, [⟨token, o, o + 1⟩]⟩ := by
    unfold Scan.mark? at h
    split at h <;> first | cases h; rfl | cases h
  rw [scanFrom, List.foldl_cons, hc, scan_onto]
  rfl

theorem scanFrom_null (o : Nat) (rest : List Char) :
    scanFrom o ("null".toList ++ rest) = ⟨.null, o, o + 4⟩ :: scanFrom (o + 4) rest :=
  scan_onto (o + 4) [⟨.null, o, o + 4⟩] rest

theorem scanFrom_true (o : Nat) (rest : List Char) :
    scanFrom o ("true".toList ++ rest) = ⟨.bool true, o, o + 4⟩ :: scanFrom (o + 4) rest :=
  scan_onto (o + 4) [⟨.bool true, o, o + 4⟩] rest

theorem scanFrom_false (o : Nat) (rest : List Char) :
    scanFrom o ("false".toList ++ rest) = ⟨.bool false, o, o + 5⟩ :: scanFrom (o + 5) rest :=
  scan_onto (o + 5) [⟨.bool false, o, o + 5⟩] rest

theorem scanFrom_string {text : Option String} {cs : List Char} (h : StringSpells text cs) (o : Nat) :
    ∃ kept : Except Fault String, kept.toOption = text ∧ ∀ rest,
      scanFrom o (cs ++ rest) = ⟨.string kept, o, o + bytes cs⟩ :: scanFrom (o + bytes cs) rest := by
  obtain ⟨kept, hk, he⟩ := scan_string h o []
  refine ⟨kept, hk, fun rest => ?_⟩
  rw [scanFrom, List.foldl_append, he, scan_onto]
  rfl

theorem scanFrom_number {x : Numeral} {cs : List Char} (h : NumeralSpells x cs) (o : Nat) :
    ∃ kept : Except Fault Number, kept.toOption = x.value? ∧ ∀ rest, Delimited rest →
      scanFrom o (cs ++ rest) = ⟨.number kept, o, o + bytes cs⟩ :: scanFrom (o + bytes cs) rest := by
  obtain ⟨kept, hk, he⟩ := scan_number h o []
  refine ⟨kept, hk, fun rest hr => ?_⟩
  rw [scanFrom, he rest hr, scan_onto]
  rfl

end Json
end ApiReference
