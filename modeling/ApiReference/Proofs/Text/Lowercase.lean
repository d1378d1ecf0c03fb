/-
# Lower case is settled

Each character that comes out of `lowercase` is its own lower case wherever it stands
(`settled_of_mem_lowercase`), though the lower case of a character can be two characters, and that
of a sigma depends on those around it. The reason is in the table: no image of a code point has a
lower case of its own (`disjoint_points_images`). A text of such characters is left as it is
(`lowercase_of_settled`), so what has come out is not changed again, nor is a part of it.

The code points of the table and their images are too many to be compared pair by pair. They are
gathered in two bit sets, which have no bit in common.

Key definitions: `Settled`, `caseRuns`, `CaseRun.points`, `CaseRun.images`, `bitSet`.
Key theorems: `lowercase_of_settled`, `disjoint_points_images`, `settled_of_mem_lowercaseChar`,
`settled_of_mem_lowercase`.
-/
import ApiReference.Text.Lowercase

namespace ApiReference

/-! ### Characters that are their own lower case -/

/-- A character that is its own lower case, whatever stands around it. -/
def Settled (c : Char) : Prop := c ≠ 'Σ' ∧ lowercaseChar c = [c]

instance (c : Char) : Decidable (Settled c) := inferInstanceAs (Decidable (_ ∧ _))

theorem lowercaseAfter_of_settled (before : List Char) {cs : List Char} (h : ∀ c ∈ cs, Settled c) :
    lowercaseAfter before cs = cs := by
  induction cs generalizing before with
  | nil => rfl
  | cons c cs ih =>
    rw [List.forall_mem_cons] at h
    obtain ⟨⟨hsigma, hlower⟩, hcs⟩ := h
    rw [lowercaseAfter, if_neg hsigma, hlower, ih _ hcs, List.singleton_append]

/-- Settled characters are left as they are. -/
theorem lowercase_of_settled {text : String} (h : ∀ c ∈ text.toList, Settled c) : lowercase text = text := by
  rw [lowercase, lowercaseAfter_of_settled [] h, String.ofList_toList]

/-! ### Code points and their images -/

namespace CaseRun

/-- The code points of a run. -/
def points (r : CaseRun) : List Nat :=
  (List.range ((r.last - r.first) / r.step + 1)).map fun k => r.first + k * r.step

/-- The lower case of the code points of a run, in the same order. -/
def images (r : CaseRun) : List Nat :=
  (List.range ((r.last - r.first) / r.step + 1)).map fun k => r.image + k * r.step

variable {r : CaseRun} {n m : Nat}

theorem exists_of_lower? (h : r.lower? n = some m) :
    ∃ k < (r.last - r.first) / r.step + 1, r.first + k * r.step = n ∧ r.image + k * r.step = m := by
  rw [lower?] at h
  split at h
  · next hrun =>
    obtain ⟨hfirst, hlast, hstep⟩ := hrun
    have hcancel : (n - r.first) / r.step * r.step = n - r.first :=
      Nat.div_mul_cancel (Nat.dvd_of_mod_eq_zero hstep)
    have hle : (n - r.first) / r.step ≤ (r.last - r.first) / r.step := Nat.div_le_div_right (by omega)
    refine ⟨(n - r.first) / r.step, by omega, by omega, ?_⟩
    rw [hcancel]
    exact Option.some.inj h
  · cases h

theorem mem_points_of_lower? (h : r.lower? n = some m) : n ∈ r.points := by
  obtain ⟨k, hk, hn, -⟩ := exists_of_lower? h
  exact List.mem_map.mpr ⟨k, List.mem_range.mpr hk, hn⟩

theorem mem_images_of_lower? (h : r.lower? n = some m) : m ∈ r.images := by
  obtain ⟨k, hk, -, hm⟩ := exists_of_lower? h
  exact List.mem_map.mpr ⟨k, List.mem_range.mpr hk, hm⟩

end CaseRun

/-- The capital letters of ASCII. -/
def asciiRun : CaseRun := ⟨0x41, 0x5A, 1, 0x61⟩

/-- All code points with a lower case that is not themselves; that of `İ` by its first character. -/
def caseRuns : List CaseRun := asciiRun :: ⟨0x130, 0x130, 1, 0x69⟩ :: lowercaseRuns

/-- Numbers as the bits of one number. -/
def bitSet (ns : List Nat) : Nat := ns.foldr (fun n bits => 1 <<< n ||| bits) 0

theorem testBit_bitSet (ns : List Nat) (m : Nat) : (bitSet ns).testBit m = decide (m ∈ ns) := by
  induction ns with
  | nil => simp [bitSet]
  | cons n ns ih =>
    have hcons : bitSet (n :: ns) = 1 <<< n ||| bitSet ns := rfl
    rw [hcons, Nat.testBit_or, Nat.one_shiftLeft, Nat.testBit_two_pow, ih]
    simp [eq_comm]

/-- Lists whose bit sets have no bit in common have no number in common. -/
theorem not_mem_of_bitSet {ns ms : List Nat} (h : bitSet ns &&& bitSet ms = 0) {m : Nat} (hm : m ∈ ms) : m ∉ ns := by
  intro hn
  have hbit : (bitSet ns &&& bitSet ms).testBit m = true := by
    rw [Nat.testBit_and, testBit_bitSet, testBit_bitSet, decide_eq_true hn, decide_eq_true hm]
    rfl
  rw [h, Nat.zero_testBit] at hbit
  cases hbit

/-- No image has a lower case of its own. -/
theorem disjoint_points_images :
    bitSet (caseRuns.flatMap CaseRun.points) &&& bitSet (caseRuns.flatMap CaseRun.images) = 0 := by
  decide +kernel

theorem isValidChar_images : ∀ m ∈ caseRuns.flatMap CaseRun.images, m.isValidChar := by decide +kernel

theorem lower?_image {r s : CaseRun} (hr : r ∈ caseRuns) (hs : s ∈ caseRuns) {n m : Nat}
    (h : r.lower? n = some m) : s.lower? m = none := by
  have himage : m ∈ caseRuns.flatMap CaseRun.images :=
    List.mem_flatMap.mpr ⟨r, hr, CaseRun.mem_images_of_lower? h⟩
  rw [Option.eq_none_iff_forall_ne_some]
  intro k hk
  have hpoint : m ∈ caseRuns.flatMap CaseRun.points :=
    List.mem_flatMap.mpr ⟨s, hs, CaseRun.mem_points_of_lower? hk⟩
  exact not_mem_of_bitSet disjoint_points_images himage hpoint

/-! ### What comes out is settled -/

/-- ASCII is like the table. -/
theorem toLower_ofNat : ∀ n < 0x80, (Char.ofNat n).toLower = Char.ofNat ((asciiRun.lower? n).getD n) := by
  decide

/-- The lower case of a code point by all runs. -/
def lowerPoint? (n : Nat) : Option Nat := caseRuns.findSome? (·.lower? n)

theorem lowerPoint?_of_ascii {n : Nat} (hn : n < 0x80) : lowerPoint? n = asciiRun.lower? n := by
  have hfirst : ∀ r ∈ caseRuns.tail, 0x80 ≤ r.first := by decide +kernel
  have htail : caseRuns.tail.findSome? (·.lower? n) = none := by
    rw [List.findSome?_eq_none_iff]
    intro r hr
    have hbehind := hfirst r hr
    rw [CaseRun.lower?, if_neg (by omega)]
  have hcons : caseRuns = asciiRun :: caseRuns.tail := rfl
  rw [lowerPoint?, hcons, List.findSome?_cons, htail]
  cases asciiRun.lower? n <;> rfl

theorem lowerPoint?_of_table {n : Nat} (hn : 0x80 ≤ n) (hdotted : n ≠ 0x130) :
    lowerPoint? n = lowercaseRuns.findSome? (·.lower? n) := by
  have hascii : asciiRun.lower? n = none := by
    rw [CaseRun.lower?, asciiRun, if_neg (by simp only; omega)]
  have hnone : CaseRun.lower? ⟨0x130, 0x130, 1, 0x69⟩ n = none := by
    rw [CaseRun.lower?, if_neg (by simp only; omega)]
  rw [lowerPoint?, caseRuns, List.findSome?_cons, hascii, List.findSome?_cons, hnone]

theorem lowercaseChar_eq {c : Char} (h : c ≠ 'İ') :
    lowercaseChar c = [Char.ofNat ((lowerPoint? c.toNat).getD c.toNat)] := by
  rw [lowercaseChar]
  by_cases hascii : c.toNat < 0x80
  · have hlower := toLower_ofNat c.toNat hascii
    rw [Char.ofNat_toNat] at hlower
    rw [if_pos hascii, hlower, lowerPoint?_of_ascii hascii]
  · have hdotted : c.toNat ≠ 0x130 := fun hc => h (Char.toNat_inj.mp hc)
    rw [if_neg hascii, if_neg h, lowerPoint?_of_table (by omega) hdotted]
    cases lowercaseRuns.findSome? (·.lower? c.toNat) with
    | none => rw [Option.getD_none, Char.ofNat_toNat]
    | some m => rfl

theorem settled_of_lowerPoint? {c : Char} (h : lowerPoint? c.toNat = none) : Settled c := by
  have hsigma : lowerPoint? 'Σ'.toNat ≠ none := by decide +kernel
  have hdotted : lowerPoint? 'İ'.toNat ≠ none := by decide +kernel
  refine ⟨fun hc => hsigma (hc ▸ h), ?_⟩
  rw [lowercaseChar_eq fun hc => hdotted (hc ▸ h), h, Option.getD_none, Char.ofNat_toNat]

theorem settled_image {n m : Nat} (h : lowerPoint? n = some m) : Settled (Char.ofNat m) := by
  obtain ⟨r, hr, hm⟩ := List.exists_of_findSome?_eq_some h
  have himage : m ∈ caseRuns.flatMap CaseRun.images :=
    List.mem_flatMap.mpr ⟨r, hr, CaseRun.mem_images_of_lower? hm⟩
  have hpoint : (Char.ofNat m).toNat = m := by
    rw [Char.ofNat, dif_pos (isValidChar_images m himage)]
    rfl
  apply settled_of_lowerPoint?
  rw [hpoint, lowerPoint?, List.findSome?_eq_none_iff]
  exact fun s hs => lower?_image hr hs hm

theorem settled_of_mem_lowercaseChar {c d : Char} (h : d ∈ lowercaseChar c) : Settled d := by
  by_cases hdotted : c = 'İ'
  · have hpair : lowercaseChar 'İ' = ['i', '\u0307'] := by decide
    have hsettled : Settled 'i' ∧ Settled '\u0307' := by decide +kernel
    rw [hdotted, hpair, List.mem_cons, List.mem_singleton] at h
    rcases h with rfl | rfl
    · exact hsettled.1
    · exact hsettled.2
  · rw [lowercaseChar_eq hdotted, List.mem_singleton] at h
    subst h
    cases hpoint : lowerPoint? c.toNat with
    | none =>
      rw [Option.getD_none, Char.ofNat_toNat]
      exact settled_of_lowerPoint? hpoint
    | some m => exact settled_image hpoint

theorem settled_of_mem_lowercaseAfter {before cs : List Char} {d : Char} (h : d ∈ lowercaseAfter before cs) :
    Settled d := by
  have hsigmas : Settled 'ς' ∧ Settled 'σ' := by decide +kernel
  -- what stands before a character only tells which of the two a sigma becomes
  induction cs generalizing before with
  | nil => cases h
  | cons c cs ih =>
    rw [lowercaseAfter, List.mem_append] at h
    rcases h with hhere | hlater
    · by_cases hsigma : c = 'Σ'
      · rw [if_pos hsigma, List.mem_singleton] at hhere
        rw [hhere]
        split
        · exact hsigmas.1
        · exact hsigmas.2
      · rw [if_neg hsigma] at hhere
        exact settled_of_mem_lowercaseChar hhere
    · exact ih hlater

/-- Every character of a text in lower case is its own lower case. -/
theorem settled_of_mem_lowercase {text : String} {d : Char} (h : d ∈ (lowercase text).toList) : Settled d := by
  rw [lowercase, String.toList_ofList] at h
  exact settled_of_mem_lowercaseAfter h

end ApiReference
