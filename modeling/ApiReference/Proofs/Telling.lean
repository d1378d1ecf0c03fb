/-
# Writings that can be told apart

What is written of a value tells a key of it if no other key could have been written, and if
it can be seen where the writing ends, whatever is behind it (`Tells`). That may need some
care for what is behind it: a part that can be left out is only told if what follows does not
look like it. So `Tells` takes the texts that may follow, and each part of a longer text is
held to what the parts behind it begin with (`Starts`).

Key definitions: `Tells`, `Starts`, `Apart`.
Key theorems: `Tells.append`, `Tells.ite`, `Tells.flatMap`, `Tells.intercalate`,
`not_starts_append`.
-/
import Mathlib.Data.List.Basic

namespace ApiReference

variable {α α' β β' γ : Type}

/-- Before a text of `Rest`, what is written of a value tells its key and where it ends. -/
def Tells (write : α → List γ) (key : α → β) (Rest : List γ → Prop) : Prop :=
  ∀ ⦃a b : α⦄ ⦃xs ys : List γ⦄, Rest xs → Rest ys →
    write a ++ xs = write b ++ ys → key a = key b ∧ xs = ys

namespace Tells

variable {write write' : α → List γ} {key : α → β} {key' : α → β'} {Rest Rest' : List γ → Prop}

theorem mono (h : Tells write key Rest) (hr : ∀ xs, Rest' xs → Rest xs) : Tells write key Rest' :=
  fun _ _ xs ys hx hy heq => h (hr xs hx) (hr ys hy) heq

/-- A key that the told one determines is told. -/
theorem of_key (h : Tells write key Rest) (hk : ∀ a b, key a = key b → key' a = key' b) :
    Tells write key' Rest := by
  intro a b xs ys hx hy heq
  obtain ⟨hkey, hrest⟩ := h hx hy heq
  exact ⟨hk a b hkey, hrest⟩

theorem comap (h : Tells write key Rest) (f : α' → α) :
    Tells (fun a => write (f a)) (fun a => key (f a)) Rest :=
  fun _ _ _ _ hx hy heq => h hx hy heq

theorem const_append (zs : List γ) (h : Tells write key Rest) :
    Tells (fun a => zs ++ write a) key Rest := by
  intro a b xs ys hx hy heq
  rw [List.append_assoc, List.append_assoc] at heq
  exact h hx hy (List.append_cancel_left heq)

theorem append_const (zs : List γ) (h : Tells write key Rest) (hr : ∀ xs, Rest' xs → Rest (zs ++ xs)) :
    Tells (fun a => write a ++ zs) key Rest' := by
  intro a b xs ys hx hy heq
  rw [List.append_assoc, List.append_assoc] at heq
  obtain ⟨hkey, hrest⟩ := h (hr xs hx) (hr ys hy) heq
  exact ⟨hkey, List.append_cancel_left hrest⟩

/-- One writing behind the other, which the first one can be followed by. -/
theorem append (h : Tells write key Rest) (h' : Tells write' key' Rest')
    (hr : ∀ a xs, Rest' xs → Rest (write' a ++ xs)) :
    Tells (fun a => write a ++ write' a) (fun a => (key a, key' a)) Rest' := by
  intro a b xs ys hx hy heq
  rw [List.append_assoc, List.append_assoc] at heq
  obtain ⟨hkey, hrest⟩ := h (hr a xs hx) (hr b ys hy) heq
  obtain ⟨hkey', hrest'⟩ := h' hx hy hrest
  exact ⟨Prod.ext hkey hkey', hrest'⟩

/-- A writing that may be left out, if nothing that follows begins like it. -/
theorem ite {p : α → Prop} [DecidablePred p] (h : Tells write key Rest)
    (hnot : ∀ a xs, ¬ p a → Rest xs → ¬ Rest (write a ++ xs)) :
    Tells (fun a => if p a then [] else write a) (fun a => if p a then none else some (key a)) Rest := by
  intro a b xs ys hx hy heq
  by_cases ha : p a <;> by_cases hb : p b
  · simp only [if_pos ha, if_pos hb, List.nil_append] at heq ⊢
    exact ⟨trivial, heq⟩
  · simp only [if_pos ha, if_neg hb, List.nil_append] at heq
    rw [heq] at hx
    exact absurd hx (hnot b ys hb hy)
  · simp only [if_neg ha, if_pos hb, List.nil_append] at heq
    rw [← heq] at hy
    exact absurd hy (hnot a xs ha hx)
  · simp only [if_neg ha, if_neg hb] at heq ⊢
    obtain ⟨hkey, hrest⟩ := h hx hy heq
    exact ⟨congrArg some hkey, hrest⟩

/-- What is written of all values but one. -/
theorem ite_eq {z : α} [DecidablePred (· = z)] (h : Tells write key Rest)
    (hnot : ∀ a xs, Rest xs → ¬ Rest (write a ++ xs)) :
    Tells (fun a => if a = z then [] else write a) key Rest := by
  have hite : Tells (fun a => if a = z then [] else write a) (fun a => if a = z then none else some (key a)) Rest :=
    h.ite fun a xs _ hx => hnot a xs hx
  refine hite.of_key fun a b hkey => ?_
  by_cases ha : a = z
  · by_cases hb : b = z
    · rw [ha, hb]
    · rw [if_pos ha, if_neg hb] at hkey
      exact absurd hkey.symm (Option.some_ne_none _)
  · by_cases hb : b = z
    · rw [if_neg ha, if_pos hb] at hkey
      exact absurd hkey (Option.some_ne_none _)
    · rw [if_neg ha, if_neg hb] at hkey
      exact Option.some.inj hkey

section FlatMap
variable (hrest : ∀ xs, Rest xs → Rest' xs) (hitem : ∀ a xs, Rest' xs → Rest' (write a ++ xs))
include hrest hitem

theorem rest_flatMap (as : List α) {xs : List γ} (hx : Rest xs) : Rest' (as.flatMap write ++ xs) := by
  induction as with
  | nil => exact hrest xs hx
  | cons a as ih =>
    rw [List.flatMap_cons, List.append_assoc]
    exact hitem a _ ih

/-- Writings in a row, if nothing that follows the last begins like one more. -/
theorem flatMap (h : Tells write key Rest') (hnot : ∀ a xs, Rest' xs → ¬ Rest (write a ++ xs)) :
    Tells (fun as : List α => as.flatMap write) (fun as : List α => as.map key) Rest := by
  have hmore : ∀ (as : List α) {xs : List γ}, Rest xs → Rest' (as.flatMap write ++ xs) :=
    fun as _ hx => rest_flatMap hrest hitem as hx
  intro as bs xs ys hx hy heq
  change as.flatMap write ++ xs = bs.flatMap write ++ ys at heq
  show as.map key = bs.map key ∧ xs = ys
  induction as generalizing bs with
  | nil =>
    cases bs with
    | nil => exact ⟨rfl, heq⟩
    | cons b bs =>
      rw [List.flatMap_nil, List.nil_append, List.flatMap_cons, List.append_assoc] at heq
      rw [heq] at hx
      exact absurd hx (hnot b _ (hmore bs hy))
  | cons a as ih =>
    cases bs with
    | nil =>
      rw [List.flatMap_nil, List.nil_append, List.flatMap_cons, List.append_assoc] at heq
      rw [← heq] at hy
      exact absurd hy (hnot a _ (hmore as hx))
    | cons b bs =>
      rw [List.flatMap_cons, List.flatMap_cons, List.append_assoc, List.append_assoc] at heq
      obtain ⟨hkey, htail⟩ := h (hmore as hx) (hmore bs hy) heq
      obtain ⟨hkeys, hend⟩ := ih htail
      exact ⟨List.cons_eq_cons.mpr ⟨hkey, hkeys⟩, hend⟩

end FlatMap

theorem intercalate_map_cons (sep : List γ) (write : α → List γ) (a : α) (as : List α) :
    sep.intercalate ((a :: as).map write) = write a ++ as.flatMap fun b => sep ++ write b := by
  induction as generalizing a with
  | nil => simp
  | cons b as ih =>
    rw [List.map_cons, List.map_cons, List.intercalate_cons_cons, ← List.map_cons, ih b, List.flatMap_cons]
    simp only [List.append_assoc]

/-- Writings with something between them, if that is not what follows the last one, and no writing
begins like what does. -/
theorem intercalate {sep : List γ} (h : Tells write key Rest') (hrest : ∀ xs, Rest xs → Rest' xs)
    (hsep : ∀ xs, Rest' (sep ++ xs)) (hnotsep : ∀ xs, ¬ Rest (sep ++ xs))
    (hnot : ∀ a xs, ¬ Rest (write a ++ xs)) :
    Tells (fun as : List α => sep.intercalate (as.map write)) (fun as => as.map key) Rest := by
  have hitem : Tells (fun a => sep ++ write a) key Rest' := h.const_append sep
  have hnotitem : ∀ a xs, ¬ Rest (sep ++ write a ++ xs) := by
    intro a xs
    rw [List.append_assoc]
    exact hnotsep _
  have hfollow : ∀ a xs, Rest' xs → Rest' (sep ++ write a ++ xs) := by
    intro a xs _
    rw [List.append_assoc]
    exact hsep _
  have hmore : Tells (fun as : List α => as.flatMap fun a => sep ++ write a) (fun as => as.map key) Rest :=
    flatMap hrest hfollow hitem fun a xs _ => hnotitem a xs
  have hfirst : Tells (fun x : α × List α => write x.1 ++ x.2.flatMap fun a => sep ++ write a)
      (fun x => (key x.1, x.2.map key)) Rest :=
    (h.comap Prod.fst).append (hmore.comap Prod.snd) fun x _ hx => rest_flatMap hrest hfollow x.2 hx
  intro as bs xs ys hx hy heq
  cases as with
  | nil =>
    cases bs with
    | nil => exact ⟨rfl, heq⟩
    | cons b bs =>
      simp only [intercalate_map_cons, List.map_nil, List.intercalate_nil, List.nil_append, List.append_assoc] at heq
      rw [heq] at hx
      exact absurd hx (hnot b _)
  | cons a as =>
    cases bs with
    | nil =>
      simp only [intercalate_map_cons, List.map_nil, List.intercalate_nil, List.nil_append, List.append_assoc] at heq
      rw [← heq] at hy
      exact absurd hy (hnot a _)
    | cons b bs =>
      simp only [intercalate_map_cons] at heq
      obtain ⟨hkey, hend⟩ := @hfirst (a, as) (b, bs) xs ys hx hy heq
      obtain ⟨hhead, htail⟩ := Prod.mk.inj hkey
      exact ⟨List.cons_eq_cons.mpr ⟨hhead, htail⟩, hend⟩

/-- What tells lists of values with a property tells lists all of whose values have it. -/
theorem unattach {P : α → Prop} (write : List α → List γ) (key : List α → β)
    (h : Tells (fun as : List {a // P a} => write as.unattach) (fun as => key as.unattach) Rest) :
    Tells (fun as : {as : List α // ∀ a ∈ as, P a} => write as.1) (fun as => key as.1) Rest := by
  have hlist := h.comap fun as : {as : List α // ∀ a ∈ as, P a} => as.1.attachWith P as.2
  simpa only [List.unattach_attachWith] using hlist

end Tells

/-! ### What a text begins with -/

/-- The text begins with one of the strings. -/
def Starts (ss : List String) (xs : List Char) : Prop := ∃ s ∈ ss, s.toList <+: xs

theorem Starts.mono {ss ts : List String} {xs : List Char} (h : Starts ss xs) (hs : ss ⊆ ts) : Starts ts xs := by
  obtain ⟨s, hmem, hprefix⟩ := h
  exact ⟨s, hs hmem, hprefix⟩

/-- Neither string begins with the other. -/
def Apart (s t : String) : Prop := ¬ s.toList <+: t.toList ∧ ¬ t.toList <+: s.toList

instance (s t : String) : Decidable (Apart s t) := inferInstanceAs (Decidable (_ ∧ _))

theorem Apart.append_ne {s t : String} (h : Apart s t) (xs ys : List Char) : s.toList ++ xs ≠ t.toList ++ ys := by
  intro heq
  have hs : s.toList <+: t.toList ++ ys := heq ▸ List.prefix_append _ xs
  rcases List.prefix_or_prefix_of_prefix hs (List.prefix_append _ ys) with hst | hts
  · exact h.1 hst
  · exact h.2 hts

/-- A text that begins with a string begins with none that is apart from it. -/
theorem not_starts_append {ss : List String} {t : String} (h : ∀ s ∈ ss, Apart s t) (xs : List Char) :
    ¬ Starts ss (t.toList ++ xs) := by
  rintro ⟨s, hmem, zs, hzs⟩
  exact (h s hmem).append_ne zs xs hzs

end ApiReference
