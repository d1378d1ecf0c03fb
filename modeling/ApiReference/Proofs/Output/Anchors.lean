/-
# Anchors are kept

An anchor has only letters, numbers and hyphens, each its own lower case (`settled_of_mem_anchor`).
So nothing is left to do where one is made into an anchor again (`anchor_of_mem`), and nothing to
replace where one is written as data: the links of a page name the ids of its sections as they are
written there.

Key theorems: `settled_of_mem_anchor`, `anchor_of_mem`, `anchor_kept`.
-/
import ApiReference.Proofs.Output.Links
import ApiReference.Proofs.Text.Lowercase

namespace ApiReference
namespace Html

theorem settled_of_mem_anchor {title : String} {c : Char} (h : c ∈ (anchor title).toList) : Settled c := by
  rw [anchor, String.toList_ofList] at h
  obtain ⟨d, hd, rfl⟩ := List.mem_map.mp h
  split
  · decide +kernel
  · exact settled_of_mem_lowercase (List.mem_of_mem_filter hd)

/-- A text that could be an anchor is its own anchor. -/
theorem anchor_of_mem {text : String}
    (h : ∀ c ∈ text.toList, Settled c ∧ (isAlphanumeric c = true ∨ c = '-')) : anchor text = text := by
  have hspace : isAlphanumeric ' ' = false := by decide
  have hkept : ∀ c ∈ text.toList, keptInAnchor c = true := by
    intro c hc
    rcases (h c hc).2 with hletter | hhyphen
    · simp [keptInAnchor, hletter]
    · simp [keptInAnchor, hhyphen]
  have hsame : ∀ c ∈ text.toList, (if c = ' ' then '-' else c) = c := by
    intro c hc
    have hne : c ≠ ' ' := by
      rintro rfl
      rcases (h ' ' hc).2 with hletter | hhyphen
      · rw [hspace] at hletter
        cases hletter
      · cases hhyphen
    exact if_neg hne
  rw [anchor, lowercase_of_settled fun c hc => (h c hc).1, List.filter_eq_self.mpr hkept,
    List.map_congr_left hsame, List.map_id', String.ofList_toList]

/-- Anchors have only letters, numbers and hyphens, and are their own anchors. The id of a section
is not changed as data, and each link of a page has the id of its section behind a hash. -/
theorem anchor_kept (title project : String) (modules : List ModuleDoc) :
    (∀ c ∈ (anchor title).toList, isAlphanumeric c = true ∨ c = '-') ∧
    anchor (anchor title) = anchor title ∧
    (∀ m : ModuleDoc, escape (sectionId m) = sectionId m) ∧
    values "id" (page project modules).toList = modules.map (fun m => (sectionId m).toList) ∧
    values "href" (page project modules).toList =
      (values "id" (page project modules).toList).map ('#' :: ·) := by
  have hlinking := linking_page project modules
  refine ⟨fun c hc => mem_anchor hc, ?again, escape_sectionId, hlinking.ids, ?links⟩
  case again => exact anchor_of_mem fun c hc => ⟨settled_of_mem_anchor hc, mem_anchor hc⟩
  case links =>
    rw [hlinking.hrefs, hlinking.ids, List.map_map]
    rfl

/-- A title with a sigma at the end of a word and in front of a mark, and with an `İ`. -/
theorem anchor_kept_sigma : anchor "ΟΔΟΣ ΑΣ.Β İ" = "οδος-ασβ-i" ∧ anchor "οδος-ασβ-i" = "οδος-ασβ-i" := by
  have hanchor : anchor "ΟΔΟΣ ΑΣ.Β İ" = "οδος-ασβ-i" := by decide +kernel
  have hkept := (anchor_kept "ΟΔΟΣ ΑΣ.Β İ" "P" []).2.1
  rw [hanchor] at hkept
  exact ⟨hanchor, hkept⟩

end Html
end ApiReference
