/-
# What may stand behind a text

The value of a dump is an object, and the brace that closes it is where the builder stops
reading it, whatever comes next (`build_object`). A lexeme behind it is a fault of the
text and not a part of the value (`finish_whole`), and nothing but blanks has no lexeme
(`scanFrom_eq_nil_iff`). So a text that is read may be followed by blanks, which change
nothing, and by nothing else (`ofText_append`). The front of a text that is read, cut off
before one of its lexemes, is therefore not read.

Key theorems: `build_object`, `scanFrom_eq_nil_iff`, `ofText_append_of_hasText`,
`ofText_append`.
-/
import ApiReference.Proofs.Tree.Accepting

namespace ApiReference
namespace Json

/-! ### Behind the brace of an object -/

/-- An object is read to a tree that says it. Other than behind a number, anything may
follow. -/
theorem build_object {ms : List (Option String × Term)} {cs : List Char} (h : (Term.object ms).Spells cs)
    (o : Nat) : ∃ (v : Source) (o' : Nat), v.Says (.object ms) ∧
      ∀ (b : Build) (holes : List Hole) (rest : List Char), b.Awaits o holes →
        buildFrom b o (cs ++ rest) = buildFrom (.complete v holes) o' rest := by
  cases h with
  | @emptyObject w hw =>
    refine ⟨.object o (.closed (o + 1 + bytes w + 1)), o + 1 + bytes w + 1, .object .closed, ?_⟩
    intro b holes rest hb
    rw [List.cons_append, List.cons_append, List.append_assoc, buildFrom_mark rfl, hb _ rfl rfl,
      buildFrom_blank hw, List.singleton_append, buildFrom_mark rfl]
    rfl
  | @object _ cs hs =>
    obtain ⟨members, o', hm, he⟩ := build_members hs (o + 1)
    refine ⟨.object o members, o', .object hm, ?_⟩
    intro b holes rest hb
    rw [List.cons_append, List.cons_append, List.append_assoc, buildFrom_mark rfl, hb _ rfl rfl]
    exact he .first o [] holes rest (by decide)

theorem foldl_stopped (d : Document) (ls : List Lexeme) :
    ls.foldl Build.step (.stopped d) = .stopped d := by
  induction ls with
  | nil => rfl
  | cons x ls ih => exact ih

/-- Behind the value of a text, the first lexeme is a fault, and no further one is looked at. -/
theorem finish_whole (v : Source) (ls : List Lexeme) (size : Nat) :
    (ls.foldl Build.step (.whole v)).finish size =
      ⟨v, ls.head?.map fun x => ⟨.trailingCharacters, x.start + 1⟩⟩ := by
  cases ls with
  | nil => rfl
  | cons x ls =>
    rw [List.foldl_cons, Build.step, foldl_stopped]
    rfl

/-! ### Texts without lexemes -/

theorem blank_of_lexed {ls : List Lexeme} {cs : List Char} (h : Lexed ls cs) (hnil : ls = []) :
    Blank cs := by
  induction h with
  | nil => exact blank_nil
  | blank _ hw ih => exact (ih hnil).append hw
  | lexeme _ _ _ => cases hnil

/-- Only blanks have no lexeme. -/
theorem scanFrom_eq_nil_iff (o : Nat) (cs : List Char) : scanFrom o cs = [] ↔ Blank cs := by
  constructor
  · intro h
    have hcovers := Scan.covers_foldl (.between .nil : Scan.Covers ⟨o, .between, []⟩ []) cs
    have hlexed := Scan.lexed_finish hcovers
    exact blank_of_lexed hlexed (List.reverse_eq_nil_iff.mp h)
  · intro h
    have hscan := scanFrom_blank h o []
    rw [List.append_nil] at hscan
    rw [hscan]
    rfl

/-- A text of an object is read to the same value whatever follows it, and what follows is a
fault at its first lexeme. -/
theorem ofText_append_of_hasText {ms : List (Option String × Term)} {text : String}
    (h : (Term.object ms).HasText text) : ∃ (v : Source) (o : Nat), ∀ more : String,
      Document.ofText (text ++ more) =
        ⟨v, (scanFrom o more.toList).head?.map fun x => ⟨.trailingCharacters, x.start + 1⟩⟩ := by
  obtain ⟨w, cs, w', hw, hs, hw', htext⟩ := h
  obtain ⟨v, o', -, hv⟩ := build_object hs (0 + bytes w)
  refine ⟨v, o' + bytes w', ?_⟩
  intro more
  have hbuild : buildFrom .empty 0 (text ++ more).toList =
      buildFrom (.whole v) (o' + bytes w') more.toList := by
    rw [String.toList_append, htext, List.append_assoc, List.append_assoc, buildFrom_blank hw, Build.empty,
      hv _ _ _ (Build.awaits_value _ []), buildFrom_blank hw']
    rfl
  unfold Document.ofText Document.ofLexemes
  rw [scan_eq, ← buildFrom, hbuild]
  exact finish_whole v _ _

end Json

namespace SyntaxTree

open Json (Blank Document Source)

/-! ### Behind the text of a syntax tree -/

/-- A text that is read gives the modules of a tree, and whatever follows it leaves them as
they are. -/
theorem exists_ofText_append {text : String} {tree : SyntaxTree} (h : ofText text = .ok tree) :
    ∃ (v : Source) (roots : List (String × Root)) (o : Nat), readModules v = .ok roots ∧ ofList roots = tree ∧
      ∀ more : String, Document.ofText (text ++ more) =
        ⟨v, (Json.scanFrom o more.toList).head?.map fun x => ⟨.trailingCharacters, x.start + 1⟩⟩ := by
  obtain ⟨t, ht, htree⟩ := ofText_eq_ok_iff_exists.mp h
  unfold Json.Term.tree? at htree
  split at htree
  · next ms =>
    obtain ⟨v, o, hv⟩ := Json.ofText_append_of_hasText ht
    have hdoc : Document.ofText text = ⟨v, none⟩ := by
      have hnothing := hv ""
      rwa [String.append_empty] at hnothing
    unfold ofText at h
    rw [hdoc] at h
    cases hread : readModules v with
    | error f =>
      rw [ofDocument, hread] at h
      cases h
    | ok roots =>
      rw [ofDocument, hread] at h
      cases h
      exact ⟨v, roots, o, hread, rfl, hv⟩
  · cases htree

theorem ofText_append_of_blank {text : String} {tree : SyntaxTree} (h : ofText text = .ok tree) {more : String}
    (hb : Blank more.toList) : ofText (text ++ more) = .ok tree := by
  obtain ⟨v, roots, o, hread, rfl, hdoc⟩ := exists_ofText_append h
  have hscan := (Json.scanFrom_eq_nil_iff o more.toList).mpr hb
  rw [ofText, hdoc, hscan, ofDocument, hread]
  rfl

theorem ofText_append_of_not_blank {text : String} {tree : SyntaxTree} (h : ofText text = .ok tree)
    {more : String} (hb : ¬ Blank more.toList) :
    ∃ position, ofText (text ++ more) = .error ⟨.unreadable .trailingCharacters, position⟩ := by
  obtain ⟨v, roots, o, hread, -, hdoc⟩ := exists_ofText_append h
  have hscan : Json.scanFrom o more.toList ≠ [] := fun hnil => hb ((Json.scanFrom_eq_nil_iff o _).mp hnil)
  obtain ⟨x, ls, hls⟩ := List.exists_cons_of_ne_nil hscan
  refine ⟨.ofOffset (text ++ more) (x.start + 1), ?_⟩
  rw [ofText, hdoc, hls, ofDocument, hread]
  rfl

/-- A text that is read may be followed by blanks, and then it is read to the same tree. If
anything else follows, the text is refused for that. So what is left of a text that is read,
when something other than blanks is cut off at its end, is refused. -/
theorem ofText_append {text : String} {tree : SyntaxTree} (h : ofText text = .ok tree) :
    (∀ more other, ofText (text ++ more) = .ok other ↔ Blank more.toList ∧ other = tree) ∧
    (∀ more, ¬ Blank more.toList →
      ∃ position, ofText (text ++ more) = .error ⟨.unreadable .trailingCharacters, position⟩) ∧
    ∀ front back, front ++ back = text → ¬ Blank back.toList → ∃ refusal, ofText front = .error refusal := by
  refine ⟨fun more other => ⟨fun hmore => ?_, ?_⟩, fun more => ofText_append_of_not_blank h, ?_⟩
  · by_cases hb : Blank more.toList
    · rw [ofText_append_of_blank h hb, Except.ok.injEq] at hmore
      exact ⟨hb, hmore.symm⟩
    · obtain ⟨position, herror⟩ := ofText_append_of_not_blank h hb
      rw [herror] at hmore
      cases hmore
  · rintro ⟨hb, rfl⟩
    exact ofText_append_of_blank h hb
  · rintro front back rfl hb
    cases hfront : ofText front with
    | error refusal => exact ⟨refusal, rfl⟩
    | ok other =>
      obtain ⟨position, herror⟩ := ofText_append_of_not_blank hfront hb
      rw [herror] at h
      cases h

/-- A list for the root, a string that looks like the end of the text, and a line feed behind it. -/
def bracedName : String := "\x7b\"\x7d\":[[\x7b\"type\":4\x7d]]\x7d\n"

theorem ofText_append_bracedName :
    ofText bracedName = .ok ⟨[("\x7d", ⟨[.ofKind .function]⟩)]⟩ ∧
      ofText (bracedName ++ " \t") = .ok ⟨[("\x7d", ⟨[.ofKind .function]⟩)]⟩ ∧
      (∃ position, ofText (bracedName ++ "\x7d") = .error ⟨.unreadable .trailingCharacters, position⟩) ∧
      ∃ refusal, ofText "\x7b\"\x7d" = .error refusal := by
  have hread : ofText bracedName = .ok ⟨[("\x7d", ⟨[.ofKind .function]⟩)]⟩ := by decide +kernel
  have hblank : Blank " \t".toList := by simp [Blank]
  have hbrace : ¬ Blank "\x7d".toList := by simp [Blank]
  have hrest : ¬ Blank "\":[[\x7b\"type\":4\x7d]]\x7d\n".toList := by simp [Blank]
  obtain ⟨hsame, htrailing, hfront⟩ := ofText_append hread
  exact ⟨hread, (hsame _ _).mpr ⟨hblank, rfl⟩, htrailing _ hbrace, hfront _ _ rfl hrest⟩

end SyntaxTree
end ApiReference
