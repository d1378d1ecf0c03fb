/-
# Data can be read back

The replacements of `escape` come one after the other, each over the whole text, and give what one
pass over the characters gives: an entity for each of four, any other one as it is
(`escape_eq_join`). Ampersands of the text are replaced with the others. So an ampersand of the
escape is the first character of an entity that was put in (`replacement_of_ampersand`), and
reading entities from the left to the right takes out just those (`unescape_escape`), however much
the text has looked like entities before.

Key definitions: `inData`, `unescape`.
Key theorems: `escape_eq_join`, `replacement_of_ampersand`, `unescape_escape`, `escape_onePass`.
-/
import ApiReference.Proofs.Output.Escaping
import Mathlib.Data.List.Infix

namespace ApiReference
namespace Html

/-! ### One pass over the characters -/

/-- A character as data. -/
def inData : Char → String
  | '&' => "&amp;"
  | '<' => "&lt;"
  | '>' => "&gt;"
  | '"' => "&quot;"
  | c => String.singleton c

theorem inData_of_kept {c : Char} (h : ∀ r ∈ replacements, c ≠ r.1) : inData c = String.singleton c := by
  simp only [replacements, List.forall_mem_cons] at h
  obtain ⟨hamp, hlt, hgt, hquote, -⟩ := h
  unfold inData
  split
  · exact absurd rfl hamp
  · exact absurd rfl hlt
  · exact absurd rfl hgt
  · exact absurd rfl hquote
  · rfl

theorem toList_inData (c : Char) : (inData c).toList = escapeChar c := by
  have hreplaced : ∀ r ∈ replacements, inData r.1 = r.2 := by decide
  rcases escapeChar_cases c with ⟨r, hr, rfl, hc⟩ | ⟨hc, hkept⟩
  · rw [hc, hreplaced r hr]
  · rw [hc, inData_of_kept hkept, String.toList_singleton]

/-- The escape of a text is that of its characters, one by one. -/
theorem escape_eq_join (text : String) : escape text = String.join (text.toList.map inData) := by
  rw [← String.toList_inj, toList_escape, String.toList_join, List.flatMap_map]
  exact List.flatMap_congr fun c _ => (toList_inData c).symm

theorem escape_append (s t : String) : escape (s ++ t) = escape s ++ escape t := by
  rw [← String.toList_inj, String.toList_append, toList_escape, toList_escape, toList_escape,
    String.toList_append, List.flatMap_append]

/-! ### Ampersands -/

/-- What stands for a character has no ampersand but the first character of an entity. -/
theorem escapeChar_of_suffix {c : Char} {rest : List Char} (h : '&' :: rest <:+ escapeChar c) :
    ∃ r ∈ replacements, '&' :: rest = r.2.toList := by
  have hfirst : ∀ r ∈ replacements, ∀ xs ∈ r.2.toList.tails, xs.head? = some '&' → xs = r.2.toList := by decide
  rcases escapeChar_cases c with ⟨r, hr, rfl, hc⟩ | ⟨hc, hkept⟩
  · rw [hc, ← List.mem_tails] at h
    exact ⟨r, hr, hfirst r hr _ h rfl⟩
  · rw [hc] at h
    have hmem : '&' ∈ [c] := h.subset List.mem_cons_self
    exact absurd (List.mem_singleton.mp hmem).symm (hkept ('&', "&amp;") (by decide))

/-- Every ampersand of an escape begins what was put in for a character. -/
theorem replacement_of_ampersand {text : String} {rest : List Char} (h : '&' :: rest <:+ (escape text).toList) :
    ∃ r ∈ replacements, r.2.toList <+: '&' :: rest := by
  rw [toList_escape] at h
  generalize text.toList = cs at h
  induction cs with
  | nil => exact absurd (List.suffix_nil.mp h) (List.cons_ne_nil _ _)
  | cons c cs ih =>
    rw [List.flatMap_cons] at h
    rcases List.suffix_or_suffix_of_suffix h (List.suffix_append (escapeChar c) _) with hlater | ⟨xs, hxs⟩
    · exact ih hlater
    · cases xs with
      | nil => exact ih (hxs ▸ List.suffix_rfl)
      | cons x xs =>
        -- the ampersand is in what stands for `c`, with `xs` behind it there
        rw [List.cons_append] at hxs
        obtain ⟨rfl, rfl⟩ := List.cons.inj hxs
        obtain ⟨before, hbefore⟩ := h
        rw [← List.cons_append, ← List.append_assoc] at hbefore
        have hchar : '&' :: xs <:+ escapeChar c := ⟨before, List.append_cancel_right hbefore⟩
        obtain ⟨r, hr, heq⟩ := escapeChar_of_suffix hchar
        exact ⟨r, hr, heq ▸ List.prefix_append _ _⟩

/-! ### Reading back -/

/-- The characters with entities read from the left to the right. An ampersand that begins none
of the four stands for itself. -/
def unescapeChars : List Char → List Char
  | '&' :: 'a' :: 'm' :: 'p' :: ';' :: cs => '&' :: unescapeChars cs
  | '&' :: 'l' :: 't' :: ';' :: cs => '<' :: unescapeChars cs
  | '&' :: 'g' :: 't' :: ';' :: cs => '>' :: unescapeChars cs
  | '&' :: 'q' :: 'u' :: 'o' :: 't' :: ';' :: cs => '"' :: unescapeChars cs
  | c :: cs => c :: unescapeChars cs
  | [] => []

/-- A text read as data. -/
def unescape (text : String) : String := String.ofList (unescapeChars text.toList)

theorem unescapeChars_cons {c : Char} (h : c ≠ '&') (cs : List Char) :
    unescapeChars (c :: cs) = c :: unescapeChars cs := by
  rw [unescapeChars] <;> simp [h]

/-- What stands for a character is read as that character, whatever comes behind it. -/
theorem unescapeChars_escapeChar (c : Char) (cs : List Char) :
    unescapeChars (escapeChar c ++ cs) = c :: unescapeChars cs := by
  have hentity : ∀ r ∈ replacements, unescapeChars (r.2.toList ++ cs) = r.1 :: unescapeChars cs := by
    simp only [replacements, List.forall_mem_cons]
    exact ⟨rfl, rfl, rfl, rfl, fun _ h => absurd h List.not_mem_nil⟩
  rcases escapeChar_cases c with ⟨r, hr, rfl, hc⟩ | ⟨hc, hkept⟩
  · rw [hc, hentity r hr]
  · rw [hc, List.singleton_append, unescapeChars_cons (hkept ('&', "&amp;") (by decide))]

theorem unescapeChars_flatMap (cs : List Char) : unescapeChars (cs.flatMap escapeChar) = cs := by
  induction cs with
  | nil => rfl
  | cons c cs ih => rw [List.flatMap_cons, unescapeChars_escapeChar, ih]

/-- Reading data gives back what was escaped. -/
theorem unescape_escape (text : String) : unescape (escape text) = text := by
  rw [unescape, toList_escape, unescapeChars_flatMap, String.ofList_toList]

/-- The replacements are one pass over the characters; what they leave has no marks, and no
ampersand but those of entities; it is read back as the text it was; it is put together as the
text is, and different texts do not become one. -/
theorem escape_onePass (s t : String) :
    escape s = String.join (s.toList.map inData) ∧
    (∀ c ∈ (escape s).toList, c ≠ '<' ∧ c ≠ '>' ∧ c ≠ '"') ∧
    (∀ rest, '&' :: rest <:+ (escape s).toList →
      ∃ entity ∈ ["&amp;", "&lt;", "&gt;", "&quot;"], entity.toList <+: '&' :: rest) ∧
    unescape (escape s) = s ∧
    escape (s ++ t) = escape s ++ escape t ∧
    (escape s = escape t ↔ s = t) := by
  refine ⟨escape_eq_join s, ?marks, ?ampersands, unescape_escape s, escape_append s t, ?distinct⟩
  case marks =>
    intro c hc
    have hmark := not_isMark_of_mem_escape hc
    rwa [IsMark, not_or, not_or] at hmark
  case ampersands =>
    intro rest hrest
    obtain ⟨r, hr, hprefix⟩ := replacement_of_ampersand hrest
    exact ⟨r.2, List.mem_map_of_mem (f := Prod.snd) hr, hprefix⟩
  case distinct =>
    constructor
    · intro heq
      rw [← unescape_escape s, heq, unescape_escape t]
    · exact congrArg escape

/-- A text that looks like an entity stays apart from what the entity stands for. -/
theorem escape_onePass_entity : escape "&lt;" = "&amp;lt;" ∧ unescape "&amp;lt;" = "&lt;" ∧
    (∃ entity ∈ ["&amp;", "&lt;", "&gt;", "&quot;"], entity.toList <+: "&amp;lt;".toList) ∧
    escape "&lt;" ≠ escape "<" := by
  have hescape : escape "&lt;" = "&amp;lt;" := by decide
  obtain ⟨-, -, hampersand, hback, -, hdistinct⟩ := escape_onePass "&lt;" "<"
  rw [hescape] at hampersand hback
  exact ⟨hescape, hback, hampersand "amp;lt;".toList (by decide), fun h => absurd (hdistinct.mp h) (by decide)⟩

end Html
end ApiReference
