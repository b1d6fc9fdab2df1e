import Mathlib.Tactic

/-!
# Steps that may fail

What comes out of several steps one after the other came out of each of them.
-/

namespace LintSuite

variable {ε α β : Type} {x : Except ε α} {b : β}

/-- What succeeds in two steps succeeds in each. -/
theorem exists_of_bind_eq_ok {f : α → Except ε β} (h : x >>= f = .ok b) :
    ∃ a, x = .ok a ∧ f a = .ok b := by
  cases x with
  | error e => cases h
  | ok a => exact ⟨a, rfl, h⟩

/-- What succeeds and is changed succeeded before the change. -/
theorem exists_of_map_eq_ok {f : α → β} (h : x.map f = .ok b) : ∃ a, x = .ok a ∧ f a = b := by
  cases x with
  | error e => cases h
  | ok a =>
      cases h
      exact ⟨a, rfl, rfl⟩

end LintSuite
