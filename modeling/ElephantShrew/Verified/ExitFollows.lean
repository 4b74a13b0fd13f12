import ElephantShrew.Verified.ExitM
import Mathlib.Order.Defs.Unbundled

/-!
# Two runs of one computation

A function that checks its input on the way behaves alike on two inputs until a
check fails on one of them only.  `Follows esc le r r'` says so of two
outcomes: they are equal, or the first is an early exit with a status in `esc`
whose state is below the state of the second in `le`, the order in which the
state may still grow after such an exit.

Two runs of a sequence are compared part by part (`Follows.bind`); what the
second run adds after the first has left is a fact about the second run alone
(`Grows`).
-/

namespace ElephantShrew.Verified.ExitM

variable {ι σ ε α β : Type}

/-! ## Outcomes of sequences -/

theorem exec_exitIf_bind (c : Prop) [Decidable c] (e : ε) (f : Unit → ExitM ι σ ε β) (s : σ) :
    (exitIf c e >>= f).exec s = if c then (s, .error e) else (f ()).exec s := by
  by_cases h : c
  · rw [exitIf, if_pos h, if_pos h, exec_bind, exec_exit]
  · rw [exitIf, if_neg h, if_neg h, exec_bind, exec_pure]

theorem exec_update_bind (h : σ → σ) (f : Unit → ExitM ι σ ε β) (s : σ) :
    (update h >>= f).exec s = (f ()).exec (h s) := by
  rw [exec_bind, exec_update]

theorem exec_state_bind (f : σ → ExitM ι σ ε β) (s : σ) :
    (state >>= f).exec s = (f s).exec s := by
  rw [exec_bind, exec_state]

theorem exec_exit_bind (e : ε) (f : α → ExitM ι σ ε β) (s : σ) :
    (exit e >>= f).exec s = (s, .error e) := by
  rw [exec_bind, exec_exit]

theorem exec_bind_bind {γ : Type} (x : ExitM ι σ ε α) (f : α → ExitM ι σ ε β)
    (g : β → ExitM ι σ ε γ) (s : σ) :
    ((x >>= f) >>= g).exec s = (x >>= fun a => f a >>= g).exec s := by
  simp only [exec_bind]
  rcases x.exec s with ⟨s', e | a⟩
  · rfl
  · rfl

theorem exec_ite (c : Prop) [Decidable c] (x y : ExitM ι σ ε α) (s : σ) :
    (if c then x else y).exec s = if c then x.exec s else y.exec s := by
  split <;> rfl

/-! ## Comparing outcomes -/

/-- The outcomes agree, or the first left early with less. -/
def Follows (esc : ε → Prop) (le : σ → σ → Prop) (r r' : σ × Except ε α) : Prop :=
  r = r' ∨ ∃ e s, r = (s, .error e) ∧ esc e ∧ le s r'.1

/-- However it ends, the computation adds to the state. -/
def Grows (le : σ → σ → Prop) (x : ExitM ι σ ε α) (s : σ) : Prop :=
  Wp x (fun _ s' => le s s') (fun _ s' => le s s') s

section

variable {esc : ε → Prop} {le : σ → σ → Prop}

theorem grows_iff {x : ExitM ι σ ε α} {s : σ} : Grows le x s ↔ le s (x.exec s).1 := by
  unfold Grows Wp
  rcases x.exec s with ⟨s', e | a⟩ <;> rfl

theorem Follows.refl (r : σ × Except ε α) : Follows esc le r r := Or.inl rfl

/-- The first run left with a status of `esc`. -/
theorem Follows.left {e : ε} {s : σ} {r : σ × Except ε α} (he : esc e) (hs : le s r.1) :
    Follows esc le (s, .error e) r :=
  Or.inr ⟨e, s, rfl, he, hs⟩

/-- Both runs branch alike.  What the second outcome adds to the state `s` is
known before the branch and is handed on. -/
theorem Follows.ite {c c' : Prop} [Decidable c] [Decidable c'] {a b a' b' : σ × Except ε α}
    {s : σ} (hc : c ↔ c') (hg : le s (if c' then a' else b').1)
    (ht : c → c' → le s a'.1 → Follows esc le a a')
    (hf : ¬ c → ¬ c' → le s b'.1 → Follows esc le b b') :
    Follows esc le (if c then a else b) (if c' then a' else b') := by
  by_cases h' : c'
  · rw [if_pos h'] at hg ⊢
    rw [if_pos (hc.mpr h')]
    exact ht (hc.mpr h') h' hg
  · rw [if_neg h'] at hg ⊢
    rw [if_neg (fun h => h' (hc.mp h))]
    exact hf (fun h => h' (hc.mp h)) h' hg

/-- Both runs make a check; the first may fail it alone, with a status of `esc`. -/
theorem Follows.exitIf {c c' : Prop} [Decidable c] [Decidable c'] {e : ε} {s : σ}
    {b b' : σ × Except ε α} (hc : (c ↔ c') ∨ (c ∧ esc e))
    (hg : le s (if c' then (s, .error e) else b').1)
    (hf : ¬ c → ¬ c' → le s b'.1 → Follows esc le b b') :
    Follows esc le (if c then (s, .error e) else b) (if c' then (s, .error e) else b') := by
  rcases hc with hc | ⟨hc, he⟩
  · exact .ite hc hg (fun _ _ _ => .refl _) hf
  · rw [if_pos hc]
    exact .left he hg

/-- Two postconditions of one computation. -/
theorem Wp.and {x : ExitM ι σ ε α} {Q Q' : α → σ → Prop} {E E' : ε → σ → Prop} {s : σ}
    (h : Wp x Q E s) (h' : Wp x Q' E' s) :
    Wp x (fun a s' => Q a s' ∧ Q' a s') (fun e s' => E e s' ∧ E' e s') s := by
  unfold Wp at h h' ⊢
  rcases hx : x.exec s with ⟨s', e | a⟩ <;> rw [hx] at h h' <;> exact ⟨h, h'⟩

/-- **Sequencing.**  The parts are compared one after the other. -/
theorem Follows.bind [IsTrans σ le] {x y : ExitM ι σ ε α} {f g : α → ExitM ι σ ε β} {s : σ}
    (h : Follows esc le (x.exec s) (y.exec s))
    (k : Wp y (fun a s' => Grows le (g a) s' ∧ Follows esc le ((f a).exec s') ((g a).exec s'))
      (fun _ _ => True) s) :
    Follows esc le ((x >>= f).exec s) ((y >>= g).exec s) := by
  rw [exec_bind, exec_bind]
  unfold Wp at k
  rcases h with heq | ⟨e, s', hx, he, hle⟩
  · rw [heq]
    rcases hy : y.exec s with ⟨s', e | a⟩ <;> rw [hy] at k
    · exact .refl _
    · exact k.2
  · rw [hx]
    rcases hy : y.exec s with ⟨s₁, e₁ | a⟩ <;> rw [hy] at k hle
    · exact .left he hle
    · exact .left he (IsTrans.trans _ _ _ hle (grows_iff.mp k.1))

end

end ElephantShrew.Verified.ExitM
