/-
# Computations that can fail

What the success of a computation says about its parts, and what happens when several are
made one after the other. Whether a computation gives a certain value can be decided
without comparing failures (`decidableEqOk`).
-/
namespace ApiReference

instance decidableEqOk {ε α : Type} [DecidableEq α] : (x : Except ε α) → (a : α) → Decidable (x = .ok a)
  | .ok b, a => decidable_of_iff (b = a) ⟨congrArg Except.ok, Except.ok.inj⟩
  | .error _, _ => .isFalse nofun

theorem exists_of_bind_eq_ok {ε α β : Type} {x : Except ε α} {f : α → Except ε β} {b : β}
    (h : x >>= f = .ok b) : ∃ a, x = .ok a ∧ f a = .ok b := by
  cases x with
  | ok a => exact ⟨a, rfl, h⟩
  | error e => cases h

theorem exists_of_map_eq_ok {ε α β : Type} {x : Except ε α} {f : α → β} {b : β} (h : x.map f = .ok b) :
    ∃ a, x = .ok a := by
  cases x with
  | ok a => exact ⟨a, rfl⟩
  | error e => cases h

/-- Of computations in order all succeed, or one is the first that fails. -/
theorem forall_ok_or_exists_first {ε α β : Type} (f : α → Except ε β) (xs : List α) :
    (∀ x ∈ xs, ∃ b, f x = .ok b) ∨
      ∃ before x after e, xs = before ++ x :: after ∧ (∀ y ∈ before, ∃ b, f y = .ok b) ∧ f x = .error e := by
  induction xs with
  | nil => exact .inl (List.forall_mem_nil _)
  | cons x xs ih =>
    cases hx : f x with
    | error e => exact .inr ⟨[], x, xs, e, rfl, List.forall_mem_nil _, hx⟩
    | ok b =>
      rcases ih with hall | ⟨before, y, after, e, rfl, hbefore, hy⟩
      · exact .inl (List.forall_mem_cons.mpr ⟨⟨b, hx⟩, hall⟩)
      · exact .inr ⟨x :: before, y, after, e, rfl, List.forall_mem_cons.mpr ⟨⟨b, hx⟩, hbefore⟩, hy⟩

end ApiReference
