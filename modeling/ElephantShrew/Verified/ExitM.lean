import Mathlib.Logic.Basic

/-!
# Straight-line computations with early return

A C function that fills a record through a pointer and returns a status from
many places is a state transformer with an early exit.  `ExitM` is that shape:
a computation reads and writes a state `σ`, may leave at any point with an
exit value `ε`, and records on the side every access `ι` it makes.

The trace is a pure output: nothing reads it back.  `exec` forgets it, so that
results about values and states never mention it.

`Wp x Q E s` is the weakest precondition: run from `s`, the computation `x`
either ends normally in a state satisfying `Q` or exits in one satisfying `E`.
-/

namespace ElephantShrew.Verified

variable {ι σ ε α β : Type}

/-- Stateful computations with early exit and a trace of accesses. -/
def ExitM (ι σ ε α : Type) : Type := σ → List ι × σ × Except ε α

namespace ExitM

instance : Monad (ExitM ι σ ε) where
  pure a := fun s => ([], s, .ok a)
  bind x f := fun s =>
    match x s with
    | (tr, s', .error e) => (tr, s', .error e)
    | (tr, s', .ok a) =>
        let (tr', r) := f a s'
        (tr ++ tr', r)

/-- Leave the function with exit value `e`. -/
def exit (e : ε) : ExitM ι σ ε α := fun s => ([], s, .error e)

/-- Leave with exit value `e` when the condition holds. -/
def exitIf (c : Prop) [Decidable c] (e : ε) : ExitM ι σ ε Unit :=
  if c then exit e else pure ()

/-- Update the state. -/
def update (f : σ → σ) : ExitM ι σ ε Unit := fun s => ([], f s, .ok ())

/-- The current state. -/
def state : ExitM ι σ ε σ := fun s => ([], s, .ok s)

/-- Record one access. -/
def note (i : ι) : ExitM ι σ ε Unit := fun s => ([i], s, .ok ())

/-- The accesses made from state `s`. -/
def trace (x : ExitM ι σ ε α) (s : σ) : List ι := (x s).1

/-- The final state and outcome from state `s`, without the trace. -/
def exec (x : ExitM ι σ ε α) (s : σ) : σ × Except ε α := (x s).2

section Exec

variable (s : σ)

@[simp] theorem exec_pure (a : α) : (pure a : ExitM ι σ ε α).exec s = (s, .ok a) := rfl

@[simp] theorem exec_exit (e : ε) : (exit e : ExitM ι σ ε α).exec s = (s, .error e) := rfl

@[simp] theorem exec_update (f : σ → σ) :
    (update f : ExitM ι σ ε Unit).exec s = (f s, .ok ()) := rfl

@[simp] theorem exec_state : (state : ExitM ι σ ε σ).exec s = (s, .ok s) := rfl

@[simp] theorem exec_note (i : ι) : (note i : ExitM ι σ ε Unit).exec s = (s, .ok ()) := rfl

theorem exec_bind (x : ExitM ι σ ε α) (f : α → ExitM ι σ ε β) :
    (x >>= f).exec s =
      match x.exec s with
      | (s', .error e) => (s', .error e)
      | (s', .ok a) => (f a).exec s' := by
  simp only [exec, bind]
  rcases x s with ⟨tr, s', e | a⟩ <;> rfl

end Exec

/-! ## Weakest preconditions -/

/-- Run from `s`, the computation ends normally in `Q` or exits in `E`. -/
def Wp (x : ExitM ι σ ε α) (Q : α → σ → Prop) (E : ε → σ → Prop) (s : σ) : Prop :=
  match x.exec s with
  | (s', .ok a) => Q a s'
  | (s', .error e) => E e s'

section Rules

variable {Q : α → σ → Prop} {E : ε → σ → Prop} {s : σ}

@[simp] theorem wp_pure (a : α) : Wp (pure a : ExitM ι σ ε α) Q E s ↔ Q a s := Iff.rfl

@[simp] theorem wp_exit (e : ε) : Wp (exit e : ExitM ι σ ε α) Q E s ↔ E e s := Iff.rfl

@[simp] theorem wp_update (f : σ → σ) {Q : Unit → σ → Prop} :
    Wp (update f : ExitM ι σ ε Unit) Q E s ↔ Q () (f s) := Iff.rfl

@[simp] theorem wp_state {Q : σ → σ → Prop} :
    Wp (state : ExitM ι σ ε σ) Q E s ↔ Q s s := Iff.rfl

@[simp] theorem wp_note (i : ι) {Q : Unit → σ → Prop} :
    Wp (note i : ExitM ι σ ε Unit) Q E s ↔ Q () s := Iff.rfl

@[simp] theorem wp_exitIf (c : Prop) [Decidable c] (e : ε) {Q : Unit → σ → Prop} :
    Wp (exitIf c e : ExitM ι σ ε Unit) Q E s ↔ (c → E e s) ∧ (¬ c → Q () s) := by
  unfold exitIf
  split <;> simp [*]

/-- Sequencing: the continuation is judged from the state its prefix reached. -/
@[simp] theorem wp_bind (x : ExitM ι σ ε α) (f : α → ExitM ι σ ε β)
    {Q : β → σ → Prop} :
    Wp (x >>= f) Q E s ↔ Wp x (fun a s' => Wp (f a) Q E s') E s := by
  unfold Wp
  rw [exec_bind]
  rcases x.exec s with ⟨s', e | a⟩ <;> rfl

theorem wp_ite (c : Prop) [Decidable c] (x y : ExitM ι σ ε α) :
    Wp (if c then x else y) Q E s ↔ (c → Wp x Q E s) ∧ (¬ c → Wp y Q E s) := by
  split <;> simp [*]

/-- Consequence: both postconditions may be weakened. -/
theorem Wp.mono {x : ExitM ι σ ε α} {Q' : α → σ → Prop} {E' : ε → σ → Prop}
    (h : Wp x Q E s) (hQ : ∀ a s', Q a s' → Q' a s') (hE : ∀ e s', E e s' → E' e s') :
    Wp x Q' E' s := by
  unfold Wp at h ⊢
  rcases hx : x.exec s with ⟨s', e | a⟩ <;> rw [hx] at h
  · exact hE e s' h
  · exact hQ a s' h

/-- A prefix that does not exit hands its postcondition on. -/
theorem Wp.andThen {x : ExitM ι σ ε α} {f : α → ExitM ι σ ε β} {Q' : β → σ → Prop}
    (h : Wp x Q (fun _ _ => False) s) (hf : ∀ a s', Q a s' → Wp (f a) Q' E s') :
    Wp (x >>= f) Q' E s := by
  rw [wp_bind]
  exact h.mono hf (fun _ _ hfalse => hfalse.elim)

end Rules

end ExitM

end ElephantShrew.Verified
