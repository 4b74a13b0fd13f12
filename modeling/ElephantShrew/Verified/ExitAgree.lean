import ElephantShrew.Verified.ExitFollows

/-!
# Two computations that agree

Two computations over one state agree when they end alike: both leave early
with the same status, or both return, with values related by `R`; the states
they end in are the same.  Unlike `Follows` this compares two different
functions, or one function at two positions of its input.
-/

namespace ElephantShrew.Verified.ExitM

variable {ι σ ε α α' β β' : Type}

theorem exec_exitIf (c : Prop) [Decidable c] (e : ε) (s : σ) :
    (exitIf c e : ExitM ι σ ε Unit).exec s = if c then (s, .error e) else (s, .ok ()) := by
  unfold exitIf
  split <;> rfl

/-- The outcomes agree up to `R` on the values returned. -/
inductive Agrees (R : α → α' → Prop) : σ × Except ε α → σ × Except ε α' → Prop
  | ok {a : α} {a' : α'} (s : σ) (h : R a a') : Agrees R (s, .ok a) (s, .ok a')
  | error (s : σ) (e : ε) : Agrees R (s, .error e) (s, .error e)

/-- Both runs branch alike. -/
theorem Agrees.ite {R : α → α' → Prop} {c c' : Prop} [Decidable c] [Decidable c']
    {a b : σ × Except ε α} {a' b' : σ × Except ε α'} (hc : c ↔ c')
    (ht : c → Agrees R a a') (hf : ¬ c → Agrees R b b') :
    Agrees R (if c then a else b) (if c' then a' else b') := by
  by_cases h : c
  · rw [if_pos h, if_pos (hc.mp h)]
    exact ht h
  · rw [if_neg h, if_neg (fun h' => h (hc.mpr h'))]
    exact hf h

/-- Both runs make one check. -/
theorem Agrees.exitIf {R : α → α' → Prop} {c c' : Prop} [Decidable c] [Decidable c'] {e : ε}
    {s : σ} {b : σ × Except ε α} {b' : σ × Except ε α'} (hc : c ↔ c')
    (hf : ¬ c → Agrees R b b') :
    Agrees R (if c then (s, .error e) else b) (if c' then (s, .error e) else b') :=
  .ite hc (fun _ => .error s e) hf

/-- **Sequencing.**  Continuations are compared at related values. -/
theorem Agrees.bind {R : α → α' → Prop} {S : β → β' → Prop} {x : ExitM ι σ ε α}
    {y : ExitM ι σ ε α'} {f : α → ExitM ι σ ε β} {g : α' → ExitM ι σ ε β'} {s : σ}
    (h : Agrees R (x.exec s) (y.exec s))
    (k : ∀ a a' s', R a a' → Agrees S ((f a).exec s') ((g a').exec s')) :
    Agrees S ((x >>= f).exec s) ((y >>= g).exec s) := by
  rw [exec_bind, exec_bind]
  generalize x.exec s = r at h ⊢
  generalize y.exec s = r' at h ⊢
  cases h with
  | ok s' h => exact k _ _ s' h
  | error s' e => exact .error s' e

end ElephantShrew.Verified.ExitM
