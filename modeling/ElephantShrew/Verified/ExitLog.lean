import Mathlib.Data.List.Basic
import ElephantShrew.Verified.ExitTrace

/-!
# The log of a run

What a program did before it reached a state belongs to the invariant when the
law is about the order of its actions.  `WpLog x Q E log s` judges the run of
`x` from `s` after the actions in `log`: its postconditions see the log with
the trace of `x` behind it.

`Each A log` is the law that every action of a log was allowed after the ones
before it; it is kept by recording only allowed actions (`each_concat`).

`Keeps P x` says that `P` is an invariant of the log and the state, and its rules
follow the shape of `x`.  A computation whose exits are caught goes on from the
state they left (`attempt`), as an object does whose call has thrown.
-/

namespace ElephantShrew.Verified

variable {ι σ ε α β : Type}

/-! ## Laws of a log -/

/-- Every action of the log was allowed after those before it. -/
def Each (A : List ι → ι → Prop) (log : List ι) : Prop :=
  ∀ before i after, log = before ++ i :: after → A before i

section

variable {A : List ι → ι → Prop}

theorem each_nil : Each A [] := by
  intro before i after h
  simp at h

/-- Where an action stands in a log that has just grown: last, or among the others. -/
theorem concat_eq_append_cons {log before after : List ι} {i j : ι}
    (h : log ++ [i] = before ++ j :: after) :
    (log = before ∧ i = j ∧ after = []) ∨
      ∃ rest, after = rest ++ [i] ∧ log = before ++ j :: rest := by
  rcases List.eq_nil_or_concat after with rfl | ⟨rest, k, rfl⟩
  · obtain ⟨hlog, hi⟩ := List.append_inj' h rfl
    exact Or.inl ⟨hlog, List.singleton_inj.mp hi, rfl⟩
  · rw [List.concat_eq_append, ← List.cons_append, ← List.append_assoc] at h
    obtain ⟨hlog, hi⟩ := List.append_inj' h rfl
    rw [List.concat_eq_append, List.singleton_inj.mp hi]
    exact Or.inr ⟨rest, rfl, hlog⟩

theorem each_concat {log : List ι} {i : ι} : Each A (log ++ [i]) ↔ Each A log ∧ A log i := by
  constructor
  · intro h
    constructor
    · intro before j after hlog
      exact h before j (after ++ [i]) (by simp [hlog])
    · exact h log i [] rfl
  · intro hall before j after hlog
    obtain ⟨h, hi⟩ := hall
    rcases concat_eq_append_cons hlog with ⟨rfl, rfl, _⟩ | ⟨rest, _, hrest⟩
    · exact hi
    · exact h before j rest hrest

end

namespace ExitM

/-- Go on after an exit, with its value. -/
def attempt (x : ExitM ι σ ε α) : ExitM ι σ ε (Except ε α) := fun s =>
  match x s with
  | (tr, s', r) => (tr, s', .ok r)

@[simp] theorem wp_attempt (x : ExitM ι σ ε α) {Q : Except ε α → σ → Prop} {E : ε → σ → Prop}
    {s : σ} :
    Wp (attempt x) Q E s ↔ Wp x (fun a => Q (.ok a)) (fun e => Q (.error e)) s := by
  unfold Wp
  simp only [attempt, exec]
  rcases x s with ⟨tr, s', e | a⟩ <;> exact Iff.rfl

/-- Run from `s` after the actions of `log`, the computation ends normally in `Q`
or exits in `E`. -/
def WpLog (x : ExitM ι σ ε α) (Q : α → List ι → σ → Prop) (E : ε → List ι → σ → Prop)
    (log : List ι) (s : σ) : Prop :=
  Wp x (fun a s' => Q a (log ++ x.trace s) s') (fun e s' => E e (log ++ x.trace s) s') s

section Rules

variable {Q : α → List ι → σ → Prop} {E : ε → List ι → σ → Prop} {log : List ι} {s : σ}

@[simp] theorem wpLog_pure (a : α) : WpLog (pure a : ExitM ι σ ε α) Q E log s ↔ Q a log s := by
  simp [WpLog, trace, pure, Wp, exec]

@[simp] theorem wpLog_exit (e : ε) : WpLog (exit e : ExitM ι σ ε α) Q E log s ↔ E e log s := by
  simp [WpLog, trace, exit, Wp, exec]

@[simp] theorem wpLog_update (f : σ → σ) {Q : Unit → List ι → σ → Prop} :
    WpLog (update f : ExitM ι σ ε Unit) Q E log s ↔ Q () log (f s) := by
  simp [WpLog, trace, update, Wp, exec]

@[simp] theorem wpLog_state {Q : σ → List ι → σ → Prop} :
    WpLog (state : ExitM ι σ ε σ) Q E log s ↔ Q s log s := by
  simp [WpLog, trace, state, Wp, exec]

@[simp] theorem wpLog_note (i : ι) {Q : Unit → List ι → σ → Prop} :
    WpLog (note i : ExitM ι σ ε Unit) Q E log s ↔ Q () (log ++ [i]) s := by
  simp [WpLog, trace, note, Wp, exec]

@[simp] theorem wpLog_exitIf (c : Prop) [Decidable c] (e : ε) {Q : Unit → List ι → σ → Prop} :
    WpLog (exitIf c e : ExitM ι σ ε Unit) Q E log s ↔ (c → E e log s) ∧ (¬c → Q () log s) := by
  unfold exitIf
  split <;> simp [*]

/-- Sequencing: the continuation is judged after the log its prefix left. -/
@[simp] theorem wpLog_bind (x : ExitM ι σ ε α) (f : α → ExitM ι σ ε β)
    {Q : β → List ι → σ → Prop} :
    WpLog (x >>= f) Q E log s ↔ WpLog x (fun a log' s' => WpLog (f a) Q E log' s') E log s := by
  unfold WpLog
  rw [wp_bind, trace_bind]
  unfold Wp
  rcases x.exec s with ⟨s', e | a⟩
  · exact Iff.rfl
  · simp only [List.append_assoc]

theorem wpLog_ite (c : Prop) [Decidable c] (x y : ExitM ι σ ε α) :
    WpLog (if c then x else y) Q E log s ↔
      (c → WpLog x Q E log s) ∧ (¬c → WpLog y Q E log s) := by
  split <;> simp [*]

/-- What is caught is judged as an outcome. -/
@[simp] theorem wpLog_attempt (x : ExitM ι σ ε α) {Q : Except ε α → List ι → σ → Prop} :
    WpLog (attempt x) Q E log s ↔
      WpLog x (fun a => Q (.ok a)) (fun e => Q (.error e)) log s := by
  unfold WpLog Wp
  simp only [attempt, exec, trace]
  rcases x s with ⟨tr, s', e | a⟩ <;> exact Iff.rfl

/-- Consequence: both postconditions may be weakened. -/
theorem WpLog.mono {x : ExitM ι σ ε α} {Q' : α → List ι → σ → Prop}
    {E' : ε → List ι → σ → Prop} (h : WpLog x Q E log s)
    (hQ : ∀ a log' s', Q a log' s' → Q' a log' s')
    (hE : ∀ e log' s', E e log' s' → E' e log' s') : WpLog x Q' E' log s :=
  Wp.mono h (fun a s' => hQ a _ s') (fun e s' => hE e _ s')

/-- A run that is judged without its log. -/
theorem wpLog_of_wp {x : ExitM ι σ ε α} {Q : α → σ → Prop} {E : ε → σ → Prop}
    (h : Wp x Q E s) : WpLog x (fun a _ => Q a) (fun e _ => E e) log s :=
  h

/-- Two judgements of one run hold together. -/
theorem WpLog.and {x : ExitM ι σ ε α} {Q' : α → List ι → σ → Prop}
    {E' : ε → List ι → σ → Prop} (h : WpLog x Q E log s) (h' : WpLog x Q' E' log s) :
    WpLog x (fun a log s => Q a log s ∧ Q' a log s) (fun e log s => E e log s ∧ E' e log s)
      log s := by
  unfold WpLog Wp at h h' ⊢
  rcases hx : x.exec s with ⟨s', e | a⟩ <;> rw [hx] at h h' <;> exact ⟨h, h'⟩

/-- **From a run to its outcome.**  A postcondition that holds however the
computation ends holds of its trace and its final state. -/
theorem WpLog.outcome {x : ExitM ι σ ε α} {P : List ι → σ → Prop}
    (h : WpLog x (fun _ => P) (fun _ => P) log s) : P (log ++ x.trace s) (x.exec s).1 := by
  unfold WpLog Wp at h
  rcases hx : x.exec s with ⟨s', e | a⟩ <;> rw [hx] at h <;> exact h

/-- A computation that does not exit. -/
theorem WpLog.outcome_of_returns {x : ExitM ι σ ε α} {P : List ι → σ → Prop}
    (h : WpLog x (fun _ => P) (fun _ _ _ => False) log s) :
    P (log ++ x.trace s) (x.exec s).1 := by
  have hboth : WpLog x (fun _ => P) (fun _ => P) log s :=
    h.mono (fun _ _ _ hP => hP) (fun _ _ _ hfalse => hfalse.elim)
  exact hboth.outcome

end Rules

/-! ## Invariants -/

/-- However it ends, the computation keeps `P`. -/
def Keeps (P : List ι → σ → Prop) (x : ExitM ι σ ε α) : Prop :=
  ∀ log s, P log s → WpLog x (fun _ => P) (fun _ => P) log s

section Keeps

variable {P : List ι → σ → Prop}

theorem Keeps.pure (a : α) : Keeps P (Pure.pure a : ExitM ι σ ε α) := by
  intro log s h
  simpa using h

theorem Keeps.exit (e : ε) : Keeps P (ExitM.exit e : ExitM ι σ ε α) := by
  intro log s h
  simpa using h

theorem Keeps.bind {x : ExitM ι σ ε α} {f : α → ExitM ι σ ε β} (hx : Keeps P x)
    (hf : ∀ a, Keeps P (f a)) : Keeps P (x >>= f) := by
  intro log s h
  rw [wpLog_bind]
  exact (hx log s h).mono (fun a log' s' => hf a log' s') (fun _ _ _ h' => h')

theorem Keeps.ite (c : Prop) [Decidable c] {x y : ExitM ι σ ε α} (hx : Keeps P x)
    (hy : Keeps P y) : Keeps P (if c then x else y) := by
  split
  · exact hx
  · exact hy

end Keeps

end ExitM

end ElephantShrew.Verified
