import Mathlib.Logic.Basic

/-!
# Checked values

Rules for functions that read and check a value step by step and throw at the
first failure: when a sequence of steps succeeds, and what it then returns.
-/

namespace ElephantShrew.Verified.Checked

universe u v

variable {ε : Type u} {α β : Type v}

/-- Throw when `bad` holds. -/
def rejectIf (bad : Prop) [Decidable bad] (e : ε) : Except ε Unit :=
  if bad then .error e else .ok ()

/-- A sequence succeeds when each of its steps does. -/
theorem bind_eq_ok {x : Except ε α} {f : α → Except ε β} {b : β} :
    (x >>= f) = .ok b ↔ ∃ a, x = .ok a ∧ f a = .ok b := by
  cases x <;> simp [bind, Except.bind]

@[simp] theorem pure_eq_ok {a b : α} : (pure a : Except ε α) = .ok b ↔ a = b := by
  simp [pure, Except.pure]

@[simp] theorem rejectIf_eq_ok {bad : Prop} [Decidable bad] {e : ε} {u : Unit} :
    rejectIf bad e = .ok u ↔ ¬bad := by
  by_cases h : bad <;> simp [rejectIf, h]

end ElephantShrew.Verified.Checked
