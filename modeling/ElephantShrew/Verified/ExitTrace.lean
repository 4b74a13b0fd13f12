import ElephantShrew.Verified.ExitM

/-!
# Every access of a run

`Safe A x Q E s` is `Wp x Q E s` together with a promise about the trace: every
access the run makes meets `A`.  The rules are those of `Wp`, with one more
condition where an access is recorded.
-/

namespace ElephantShrew.Verified.ExitM

variable {ι σ ε α β : Type} {A : ι → Prop}

section Trace

variable (s : σ)

theorem trace_bind (x : ExitM ι σ ε α) (f : α → ExitM ι σ ε β) :
    (x >>= f).trace s =
      match x.exec s with
      | (_, .error _) => x.trace s
      | (s', .ok a) => x.trace s ++ (f a).trace s' := by
  simp only [trace, exec, bind]
  rcases x s with ⟨tr, s', e | a⟩ <;> rfl

end Trace

/-- Run from `s`, the computation makes accesses that meet `A` only, and ends
normally in `Q` or exits in `E`. -/
def Safe (A : ι → Prop) (x : ExitM ι σ ε α) (Q : α → σ → Prop) (E : ε → σ → Prop)
    (s : σ) : Prop :=
  (∀ i ∈ x.trace s, A i) ∧ Wp x Q E s

section Rules

variable {Q : α → σ → Prop} {E : ε → σ → Prop} {s : σ}

@[simp] theorem safe_pure (a : α) : Safe A (pure a : ExitM ι σ ε α) Q E s ↔ Q a s := by
  simp [Safe, trace, pure, Wp, exec]

@[simp] theorem safe_exit (e : ε) : Safe A (exit e : ExitM ι σ ε α) Q E s ↔ E e s := by
  simp [Safe, trace, exit, Wp, exec]

@[simp] theorem safe_update (f : σ → σ) {Q : Unit → σ → Prop} :
    Safe A (update f : ExitM ι σ ε Unit) Q E s ↔ Q () (f s) := by
  simp [Safe, trace, update, Wp, exec]

@[simp] theorem safe_state {Q : σ → σ → Prop} :
    Safe A (state : ExitM ι σ ε σ) Q E s ↔ Q s s := by
  simp [Safe, trace, state, Wp, exec]

@[simp] theorem safe_note (i : ι) {Q : Unit → σ → Prop} :
    Safe A (note i : ExitM ι σ ε Unit) Q E s ↔ A i ∧ Q () s := by
  simp [Safe, trace, note, Wp, exec]

@[simp] theorem safe_exitIf (c : Prop) [Decidable c] (e : ε) {Q : Unit → σ → Prop} :
    Safe A (exitIf c e : ExitM ι σ ε Unit) Q E s ↔ (c → E e s) ∧ (¬ c → Q () s) := by
  unfold exitIf
  split <;> simp [*]

/-- Sequencing: both parts are safe. -/
@[simp] theorem safe_bind (x : ExitM ι σ ε α) (f : α → ExitM ι σ ε β) {Q : β → σ → Prop} :
    Safe A (x >>= f) Q E s ↔ Safe A x (fun a s' => Safe A (f a) Q E s') E s := by
  unfold Safe
  rw [wp_bind, trace_bind]
  unfold Wp
  rcases x.exec s with ⟨s', e | a⟩
  · exact Iff.rfl
  · simp only [List.mem_append, or_imp, forall_and]
    exact and_assoc

theorem safe_ite (c : Prop) [Decidable c] (x y : ExitM ι σ ε α) :
    Safe A (if c then x else y) Q E s ↔ (c → Safe A x Q E s) ∧ (¬ c → Safe A y Q E s) := by
  split <;> simp [*]

/-- Consequence: both postconditions may be weakened. -/
theorem Safe.mono {x : ExitM ι σ ε α} {Q' : α → σ → Prop} {E' : ε → σ → Prop}
    (h : Safe A x Q E s) (hQ : ∀ a s', Q a s' → Q' a s') (hE : ∀ e s', E e s' → E' e s') :
    Safe A x Q' E' s :=
  ⟨h.1, h.2.mono hQ hE⟩

end Rules

end ElephantShrew.Verified.ExitM
