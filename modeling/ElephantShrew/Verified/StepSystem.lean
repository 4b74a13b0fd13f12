import Mathlib.Data.List.Basic

/-!
# Systems that take steps

A concurrent program is a set of initial states and a relation of labelled
steps, one step of one party at a time; its runs are all interleavings.  The
inductions over runs are done once, here: an invariant of every run
(`Run.invariant`), a run read through a simulation (`Simulation.run`), a run all
of whose steps meet a condition (`System.guard`), and what a run has passed on
its way (`System.Passed`).

A party is usually written as a function that takes an action and says what
the action returns to its caller, if it returns at all; `System.ofNext` is the
system of such a function.
-/

namespace ElephantShrew.Verified

/-- Initial states and labelled steps. -/
structure System (State Label : Type) where
  init : State → Prop
  step : State → Label → State → Prop

namespace System

variable {State Label : Type}

/-- A run, by the labels of its steps and the state it has reached. -/
inductive Run (S : System State Label) : List Label → State → Prop
  | init {s : State} (h : S.init s) : Run S [] s
  | step {tr : List Label} {s s' : State} {l : Label} (h : Run S tr s) (hs : S.step s l s') :
      Run S (tr ++ [l]) s'

/-- **The invariant rule.**  What holds initially and is preserved by every
step holds at the end of every run. -/
theorem Run.invariant {S : System State Label} {P : List Label → State → Prop}
    (init : ∀ s, S.init s → P [] s)
    (step : ∀ tr s l s', P tr s → S.step s l s' → P (tr ++ [l]) s')
    {tr : List Label} {s : State} (h : S.Run tr s) : P tr s := by
  induction h with
  | init h => exact init _ h
  | step _ hs ih => exact step _ _ _ _ ih hs

/-- The steps that meet a condition on the state before them. -/
def guard (S : System State Label) (cond : State → Label → Prop) : System State Label where
  init := S.init
  step s l s' := S.step s l s' ∧ cond s l

/-- A run of the guarded system is a run. -/
theorem Run.of_guard {S : System State Label} {cond : State → Label → Prop} {tr : List Label}
    {s : State} (h : (S.guard cond).Run tr s) : S.Run tr s := by
  induction h with
  | init h => exact .init h
  | step _ hs ih => exact .step ih hs.1

/-- The system started in a given state. -/
def startingAt (S : System State Label) (s : State) : System State Label where
  init := (· = s)
  step := S.step

/-- The run `tr` to `s` went through the state `t` and took the step `l` there. -/
def Passed (S : System State Label) (tr : List Label) (s t : State) (l : Label) : Prop :=
  ∃ before t' after, S.Run before t ∧ S.step t l t' ∧ (S.startingAt t').Run after s ∧
    tr = before ++ l :: after

theorem Run.passed {S : System State Label} {tr : List Label} {s t : State} {l : Label}
    (h : S.Run tr t) (hs : S.step t l s) : S.Passed (tr ++ [l]) s t l :=
  ⟨tr, s, [], h, hs, .init rfl, rfl⟩

/-- What a run has passed it has passed one step later. -/
theorem Passed.step {S : System State Label} {tr : List Label} {s s' t : State} {l l' : Label}
    (h : S.Passed tr s t l) (hs : S.step s l' s') : S.Passed (tr ++ [l']) s' t l := by
  obtain ⟨before, t', after, hbefore, ht, hafter, rfl⟩ := h
  exact ⟨before, t', after ++ [l'], hbefore, ht, hafter.step hs, by simp⟩

/-! ## Simulation -/

/-- `R` relates the states of `S` to those of the more abstract `A`: every step
of `S` is a step of `A` with the label it is seen under, or none at all. -/
structure Simulation {State' Label' : Type} (S : System State Label)
    (A : System State' Label') (seen : Label → Option Label')
    (R : State → State' → Prop) : Prop where
  init : ∀ s, S.init s → ∃ a, A.init a ∧ R s a
  silent : ∀ s a l s', R s a → S.step s l s' → seen l = none → R s' a
  visible : ∀ s a l s' m, R s a → S.step s l s' → seen l = some m →
    ∃ a', A.step a m a' ∧ R s' a'

/-- **A simulated run.** -/
theorem Simulation.run {State' Label' : Type} {S : System State Label}
    {A : System State' Label'} {seen : Label → Option Label'} {R : State → State' → Prop}
    (sim : Simulation S A seen R) {tr : List Label} {s : State} (h : S.Run tr s) :
    ∃ a, A.Run (tr.filterMap seen) a ∧ R s a := by
  apply h.invariant (P := fun tr s => ∃ a, A.Run (tr.filterMap seen) a ∧ R s a)
  · intro s hs
    obtain ⟨a, ha, hR⟩ := sim.init s hs
    exact ⟨a, .init ha, hR⟩
  · rintro tr s l s' ⟨a, ha, hR⟩ hstep
    rw [List.filterMap_append]
    cases hl : seen l with
    | none =>
        refine ⟨a, ?_, sim.silent s a l s' hR hstep hl⟩
        simpa [hl] using ha
    | some m =>
        obtain ⟨a', hstep', hR'⟩ := sim.visible s a l s' m hR hstep hl
        refine ⟨a', ?_, hR'⟩
        simpa [hl] using ha.step hstep'

/-! ## Programs as functions of the scheduled action -/

variable {Action Event : Type}

/-- The system of a step function that returns nothing to a caller. -/
def ofAct (init : State → Prop) (act : State → Action → Option State) : System State Action where
  init := init
  step s a s' := act s a = some s'

/-- Scheduling one more action. -/
theorem Run.act {init : State → Prop} {act : State → Action → Option State}
    {tr : List Action} {s s' : State} (h : (ofAct init act).Run tr s) (a : Action)
    (hs : act s a = some s') : (ofAct init act).Run (tr ++ [a]) s' :=
  h.step hs

/-- Scheduling more actions. -/
theorem Run.acts {init : State → Prop} {act : State → Action → Option State}
    {tr : List Action} {s s' : State} (h : (ofAct init act).Run tr s) (as : List Action)
    (hs : as.foldlM act s = some s') : (ofAct init act).Run (tr ++ as) s' := by
  induction as generalizing tr s with
  | nil =>
      injection hs with hs
      rwa [List.append_nil, ← hs]
  | cons a as ih =>
      rw [List.foldlM_cons] at hs
      obtain ⟨s₁, ha, hs⟩ := Option.bind_eq_some_iff.mp hs
      have hrun := ih (h.act a ha) hs
      rwa [List.append_assoc] at hrun

/-- Scheduling one more action that meets the condition. -/
theorem Run.actMeeting {init : State → Prop} {act : State → Action → Option State}
    {cond : State → Action → Prop} {tr : List Action} {s s' : State}
    (h : ((ofAct init act).guard cond).Run tr s) (a : Action) (hs : act s a = some s')
    (hc : cond s a) : ((ofAct init act).guard cond).Run (tr ++ [a]) s' :=
  h.step ⟨hs, hc⟩

/-- The system of a step function: the label of a step is its action and the
event, if any, that the action ends with. -/
def ofNext (init : State → Prop) (next : State → Action → Option (State × Option Event)) :
    System State (Action × Option Event) where
  init := init
  step s l s' := next s l.1 = some (s', l.2)

/-- Scheduling one more action. -/
theorem Run.next {init : State → Prop} {next : State → Action → Option (State × Option Event)}
    {tr : List (Action × Option Event)} {s s' : State} {e : Option Event}
    (h : (ofNext init next).Run tr s) (a : Action) (hs : next s a = some (s', e)) :
    (ofNext init next).Run (tr ++ [(a, e)]) s' :=
  h.step hs

/-- The events of a run. -/
def events (tr : List (Action × Option Event)) : List Event := tr.filterMap Prod.snd

@[simp] theorem events_concat_none (tr : List (Action × Option Event)) (a : Action) :
    events (tr ++ [(a, none)]) = events tr := by
  simp [events]

@[simp] theorem events_concat_some (tr : List (Action × Option Event)) (a : Action) (e : Event) :
    events (tr ++ [(a, some e)]) = events tr ++ [e] := by
  simp [events]

end System

end ElephantShrew.Verified
