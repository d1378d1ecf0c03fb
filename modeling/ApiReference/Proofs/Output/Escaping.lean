/-
# Data is escaped character by character

The replacements are made one after the other over the whole text, but each puts in only what
the later ones leave alone. So it is as if every character were replaced by itself
(`toList_escape`). What stands for one character begins with an ampersand or is the character,
and no replacement is the beginning of another, so that data can be read back up to the next
mark of markup (`tells_escape`).

Key definitions: `escapeChar`, `Marked`.
Key theorems: `toList_escape`, `tells_escapeChar`, `tells_escape`.
-/
import ApiReference.Proofs.Output.Markup
import ApiReference.Proofs.Telling

namespace ApiReference
namespace Html

/-- What stands for a character in data. -/
def escapeChar (c : Char) : List Char := ((replacements.lookup c).map String.toList).getD [c]

theorem escapeChar_of_kept {c : Char} (h : ∀ r ∈ replacements, c ≠ r.1) : escapeChar c = [c] := by
  have hnone : replacements.lookup c = none := by
    rw [List.lookup_eq_none_iff]
    intro r hr
    simpa using h r hr
  rw [escapeChar, hnone]
  rfl

theorem toList_substitute (c : Char) (replacement text : String) : (substitute c replacement text).toList =
    text.toList.flatMap fun d => if d = c then replacement.toList else [d] := by
  rw [substitute, String.toList_ofList]

/-- The replacements one after the other are one replacement of each character. -/
theorem toList_escape (text : String) : (escape text).toList = text.toList.flatMap escapeChar := by
  have hchar : ∀ c, ((((if c = '&' then "&amp;".toList else [c]).flatMap fun d =>
      if d = '<' then "&lt;".toList else [d]).flatMap fun d =>
      if d = '>' then "&gt;".toList else [d]).flatMap fun d =>
      if d = '"' then "&quot;".toList else [d]) = escapeChar c := by
    intro c
    by_cases hamp : c = '&'
    · subst hamp
      decide
    by_cases hlt : c = '<'
    · subst hlt
      decide
    by_cases hgt : c = '>'
    · subst hgt
      decide
    by_cases hquote : c = '"'
    · subst hquote
      decide
    have hkept : escapeChar c = [c] := by
      apply escapeChar_of_kept
      simp only [replacements, List.forall_mem_cons]
      exact ⟨hamp, hlt, hgt, hquote, fun _ h => absurd h List.not_mem_nil⟩
    simp only [hkept, if_neg hamp, if_neg hlt, if_neg hgt, if_neg hquote, List.flatMap_singleton]
  simp only [escape, replacements, List.foldl_cons, List.foldl_nil, toList_substitute, List.flatMap_assoc] at hchar ⊢
  exact List.flatMap_congr fun c _ => hchar c

/-- A character is replaced or stands for itself. -/
theorem escapeChar_cases (c : Char) : (∃ r ∈ replacements, c = r.1 ∧ escapeChar c = r.2.toList) ∨
    (escapeChar c = [c] ∧ ∀ r ∈ replacements, c ≠ r.1) := by
  have hkept : ∀ r ∈ replacements, escapeChar r.1 = r.2.toList := by decide
  by_cases h : ∃ r ∈ replacements, c = r.1
  · obtain ⟨r, hr, rfl⟩ := h
    exact .inl ⟨r, hr, rfl, hkept r hr⟩
  · have hkeeps : ∀ r ∈ replacements, c ≠ r.1 := fun r hr hc => h ⟨r, hr, hc⟩
    exact .inr ⟨escapeChar_of_kept hkeeps, hkeeps⟩

theorem head?_replacement : ∀ r ∈ replacements, r.2.toList.head? = some '&' := by decide

/-- No replacement is the beginning of another one. -/
theorem replacement_eq_of_begins : ∀ r ∈ replacements, ∀ r' ∈ replacements, r.2.toList <+: r'.2.toList → r = r' := by
  decide

theorem tells_escapeChar : Tells escapeChar id fun _ => True := by
  -- what stands for a character that is replaced begins with an ampersand, which is replaced itself
  have hother : ∀ r ∈ replacements, ∀ {c : Char} {xs ys : List Char}, (∀ r ∈ replacements, c ≠ r.1) →
      r.2.toList ++ xs ≠ [c] ++ ys := by
    intro r hr c xs ys hc heq
    have hhead := congrArg List.head? heq
    rw [List.head?_append, head?_replacement r hr] at hhead
    exact hc ('&', "&amp;") (by decide) (Option.some.inj hhead).symm
  intro c d xs ys _ _ heq
  rcases escapeChar_cases c with ⟨r, hr, rfl, hc⟩ | ⟨hc, hcr⟩ <;>
    rcases escapeChar_cases d with ⟨r', hr', rfl, hd⟩ | ⟨hd, hdr⟩ <;> rw [hc, hd] at heq
  · have hprefix : r'.2.toList <+: r.2.toList ++ xs := heq ▸ List.prefix_append _ ys
    have hsame : r = r' := by
      rcases List.prefix_or_prefix_of_prefix (List.prefix_append _ xs) hprefix with h | h
      · exact replacement_eq_of_begins r hr r' hr' h
      · exact (replacement_eq_of_begins r' hr' r hr h).symm
    subst hsame
    exact ⟨rfl, List.append_cancel_left heq⟩
  · exact absurd heq (hother r hr hdr)
  · exact absurd heq.symm (hother r' hr' hcr)
  · exact List.cons.inj heq

/-- The text is at its end or goes on with a mark of markup. -/
def Marked (xs : List Char) : Prop := ∀ c ∈ xs.head?, IsMark c

theorem marked_append {tag : List Char} (h : tag.head?.any (IsMark ·)) (xs : List Char) : Marked (tag ++ xs) := by
  obtain ⟨c, hc, hmark⟩ := (Option.any_eq_true _ _).mp h
  intro d hd
  rw [List.head?_append, hc, Option.some_or, Option.mem_some] at hd
  exact hd ▸ of_decide_eq_true hmark

theorem not_marked_escapeChar (c : Char) (xs : List Char) : ¬ Marked (escapeChar c ++ xs) := by
  have hreplaced : ∀ c, IsMark c → ∃ r ∈ replacements, c = r.1 := by
    rintro c (rfl | rfl | rfl) <;> decide
  intro h
  rcases escapeChar_cases c with ⟨r, hr, -, hc⟩ | ⟨hc, hcr⟩
  · have hhead := head?_replacement r hr
    rw [hc, Marked, List.head?_append, hhead] at h
    exact absurd (h '&' rfl) (by decide)
  · rw [hc] at h
    obtain ⟨r, hr, hcr'⟩ := hreplaced c (h c rfl)
    exact hcr r hr hcr'

/-- Data, and a part of markup behind it that looks like data, tell what the data is. -/
theorem tells_escape (behind : List Char) (h : behind.flatMap escapeChar = behind) :
    Tells (fun text : String => (escape text).toList ++ behind) id Marked := by
  have hchars : Tells (fun cs : List Char => cs.flatMap escapeChar) (fun cs => cs.map id) Marked :=
    .flatMap (fun _ _ => trivial) (fun _ _ _ => trivial) tells_escapeChar fun c xs _ => not_marked_escapeChar c xs
  have htext := hchars.comap fun text : String => text.toList ++ behind
  have hwrite : (fun text : String => (escape text).toList ++ behind) =
      fun text => (text.toList ++ behind).flatMap escapeChar := by
    funext text
    rw [List.flatMap_append, ← toList_escape, h]
  rw [hwrite]
  refine htext.of_key fun a b hkey => ?_
  rw [List.map_id, List.map_id] at hkey
  exact String.toList_inj.mp (List.append_cancel_right hkey)

/-- Data before one tag is not data before another one. -/
theorem escape_append_ne {tag tag' : String} (hmark : tag.toList.head?.any (IsMark ·))
    (hmark' : tag'.toList.head?.any (IsMark ·)) (h : Apart tag tag') (text text' : String) (xs ys : List Char) :
    (escape text).toList ++ (tag.toList ++ xs) ≠ (escape text').toList ++ (tag'.toList ++ ys) := by
  intro heq
  have htells : Tells (fun text : String => (escape text).toList ++ []) id Marked := tells_escape [] rfl
  simp only [List.append_nil] at htells
  have htags := (htells (marked_append hmark xs) (marked_append hmark' ys) heq).2
  exact h.append_ne xs ys htags

end Html
end ApiReference
