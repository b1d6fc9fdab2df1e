/-!
# Powers of ten and of two

The powers by which decimals and binary fractions are scaled.  Each starts at one, grows by its base
(`tenTo_succ`), and is never zero (`tenTo_pos`).
-/

namespace LintSuite.Decimal

/-- A power of ten. -/
def tenTo (n : Nat) : Nat := Nat.pow 10 n

/-- A power of two. -/
def twoTo (n : Nat) : Nat := Nat.pow 2 n

@[simp] theorem tenTo_zero : tenTo 0 = 1 := rfl

theorem tenTo_succ (n : Nat) : tenTo (n + 1) = tenTo n * 10 := rfl

theorem tenTo_pos (n : Nat) : 0 < tenTo n := by
  induction n with
  | zero => exact Nat.one_pos
  | succ n ih =>
    rw [tenTo_succ]
    exact Nat.mul_pos ih (by decide)

@[simp] theorem twoTo_zero : twoTo 0 = 1 := rfl

end LintSuite.Decimal
