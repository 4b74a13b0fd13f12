import ElephantShrew.ThreadPool.Jobs
import ElephantShrew.Verified.Fairness

/-!
# `guard` is given back

Whoever holds `guard` can move, and gives it back after a few steps.  So under a
scheduler that is fair to the workers and to the caller of `Post`, a worker that
needs `guard` to go on does go on, whatever else is assumed of the destructor.
-/

namespace ElephantShrew.ThreadPool

open ElephantShrew.Verified

variable {n : Nat} {α : Type}

/-- A step of a worker, or of the caller of `Post` that holds `guard`. -/
def By : Option (Fin n) → Action n α → Prop
  | some i, .worker j => j = i
  | none, .emplaceBack => True
  | none, .notifyOne _ => True
  | none, .unlock => True
  | _, _ => False

/-- A condition that holds back nobody but the destructor. -/
def SparesPool (cond : State n α → Action n α → Prop) : Prop :=
  ∀ s a, a ≠ .destroy → cond s a

variable {cond : State n α → Action n α → Prop} {s s' : State n α} {a : Action n α}

theorem By.ne_destroy {i : Option (Fin n)} (h : By i a) : a ≠ .destroy := by
  rintro rfl
  cases i <;> exact h

/-- What a worker's step does to the others. -/
theorem Steps.other (hstep : Steps s a s') {i : Fin n} (ha : a ≠ .worker i) (hd : a ≠ .destroy)
    (hi : s.workers i ≠ .asleep) : s'.workers i = s.workers i := by
  cases hstep <;> try exact absurd rfl hd
  case post job hfree => rfl
  case emplaceBack job hg => rfl
  case notifyNone hg => rfl
  case unlock hg => rfl
  all_goals
    apply State.move_workers_of_ne
    rintro rfl
    first
      | exact ha rfl
      | exact hi ‹_›

/-! ## Enabled steps -/

section Enabled

variable (hC : SparesPool cond)

include hC

theorem enabled_worker {i : Fin n} (h : run s i = some s') :
    ((system n α).guard cond).Enabled (By (some i)) s :=
  ⟨.worker i, s', rfl, h, hC s _ nofun⟩

theorem enabled_caller (hby : By none a) (h : act s a = some s') :
    ((system n α).guard cond).Enabled (By none) s :=
  ⟨a, s', hby, h, hC s a hby.ne_destroy⟩

/-- Some notification can be issued. -/
theorem enabled_notifying (h : s.guard = some .notifying) :
    ((system n α).guard cond).Enabled (By none) s := by
  by_cases hnone : ∀ i, (s.workers i).isAsleep = false
  · apply enabled_caller hC (a := .notifyOne none) trivial
    simp only [act, postStep, h, notifyOne, if_pos hnone, Option.map_some]
    rfl
  · rw [not_forall] at hnone
    obtain ⟨i, hi⟩ := hnone
    rw [Bool.not_eq_false] at hi
    apply enabled_caller hC (a := .notifyOne (some i)) trivial
    simp only [act, postStep, h, notifyOne, wake, if_pos hi, Option.map_some]
    rfl

/-- With `guard` free a worker that neither sleeps nor has ended can move. -/
theorem enabled_free (hex : Exclusive s) {i : Fin n} (hi : s.workers i ≠ .asleep)
    (hend : s.workers i ≠ .ended) (hfree : s.guard = none) :
    ((system n α).guard cond).Enabled (By (some i)) s := by
  have hnot : (s.workers i).holds = false := by
    rw [← Bool.not_eq_true, hex i, hfree]
    simp
  cases hp : s.workers i <;> rw [hp] at hnot <;> try exact Bool.noConfusion hnot
  case asleep => exact absurd hp hi
  case ended => exact absurd hp hend
  case locking =>
    exact enabled_worker hC (by simp only [run, hp, State.lock, State.move, hfree]; rfl)
  case woken =>
    exact enabled_worker hC (by simp only [run, hp, State.lock, State.move, hfree]; rfl)
  all_goals exact enabled_worker hC (by simp only [run, hp]; rfl)

end Enabled

/-- Everybody sleeps or has ended, and no call of `Post` is left: nobody can move. -/
theorem not_enabled_idle (hp : ∀ j, s.workers j = .asleep ∨ s.workers j = .ended)
    (hg : s.guard = none) (i : Option (Fin n)) :
    ¬ ((system n α).guard cond).Enabled (By i) s := by
  have idle : ∀ {j : Fin n} {p : Phase α}, s.workers j = p → p = .asleep ∨ p = .ended :=
    fun h => h ▸ hp _
  rintro ⟨a, s', hby, hact, -⟩
  cases Steps.of_act hact with
  | post job hfree => cases i <;> exact hby
  | spurious j hp' => cases i <;> exact hby
  | store hd => cases i <;> exact hby
  | notifyAll hd => cases i <;> exact hby
  | join hd hk hended => cases i <;> exact hby
  | emplaceBack hg' => cases hg.symm.trans hg'
  | notifyOne j hg' hp' => cases hg.symm.trans hg'
  | notifyNone hg' => cases hg.symm.trans hg'
  | unlock hg' => cases hg.symm.trans hg'
  | check j hp' => rcases idle hp' with h | h <;> cases h
  | evaluate j hp' => rcases idle hp' with h | h <;> cases h
  | decide j hp' => rcases idle hp' with h | h <;> cases h
  | pop j hp' hjobs => rcases idle hp' with h | h <;> cases h
  | execute j hp' => rcases idle hp' with h | h <;> cases h
  | lock j hp' hfree =>
      rcases hp j with h | h
      all_goals
        rw [h] at hp'
        cases hp'
  | release j hp' =>
      rcases hp j with h | h
      all_goals
        rw [h] at hp'
        cases hp'

/-! ## How far the holder is from giving `guard` back -/

def Phase.holding : Phase α → Nat
  | .evaluating => 4
  | .deciding => 3
  | .popping => 2
  | .popped _ | .releasing | .leaving => 1
  | _ => 0

def State.holding (s : State n α) : Nat :=
  match s.guard with
  | none => 0
  | some (.worker i) => (s.workers i).holding
  | some (.emplacing _) => 3
  | some .notifying => 2
  | some .unlocking => 1

/-- Who can move to give it back. -/
def State.holder (s : State n α) : Option (Fin n) :=
  match s.guard with
  | some (.worker i) => some i
  | _ => none

/-- `guard` stays where it is, and whoever is inside stays there. -/
theorem Exclusive.holding_keep (h : Exclusive s) (hguard : s'.guard = s.guard)
    (hworkers : ∀ i, (s.workers i).holds = true → s'.workers i = s.workers i) :
    s'.holding = s.holding ∧ s'.holder = s.holder := by
  unfold State.holding State.holder
  rw [hguard]
  cases hg : s.guard with
  | none => exact ⟨rfl, rfl⟩
  | some holder =>
      cases holder with
      | worker i =>
          dsimp only
          rw [hworkers i ((h i).mpr hg)]
          exact ⟨rfl, rfl⟩
      | _ => exact ⟨rfl, rfl⟩

/-- The holder of `guard` gets nearer to giving it back, and nobody else takes it. -/
theorem Exclusive.holding_step (h : Exclusive s) (hg : s.guard ≠ none) (hstep : Steps s a s') :
    s'.guard = none ∨ (s'.guard ≠ none ∧ (s'.holding < s.holding ∨
      (s'.holding = s.holding ∧ s'.holder = s.holder ∧ ¬ By s.holder a))) := by
  have keep : s'.guard = s.guard →
      (∀ i, (s.workers i).holds = true → s'.workers i = s.workers i) → ¬ By s.holder a →
      s'.guard = none ∨ (s'.guard ≠ none ∧ (s'.holding < s.holding ∨
        (s'.holding = s.holding ∧ s'.holder = s.holder ∧ ¬ By s.holder a))) := by
    intro hguard hworkers hnot
    obtain ⟨hsame, hholder⟩ := h.holding_keep hguard hworkers
    exact Or.inr ⟨by rw [hguard]; exact hg, Or.inr ⟨hsame, hholder, hnot⟩⟩
  have outside : ∀ {j : Fin n} {p : Phase α}, (s.workers j).holds = false →
      ∀ i, (s.workers i).holds = true → (s.move j p).workers i = s.workers i := by
    intro j p hj i hi
    apply State.move_workers_of_ne
    rintro rfl
    rw [hi] at hj
    cases hj
  have aside : ∀ {j : Fin n}, (s.workers j).holds = false →
      ¬ By s.holder (.worker j : Action n α) := by
    intro j hj hby
    unfold State.holder at hby
    cases hguard : s.guard with
    | none => exact hg hguard
    | some holder =>
        cases holder with
        | worker i =>
            rw [hguard] at hby
            have heq : j = i := hby
            rw [(h j).mpr (heq ▸ hguard)] at hj
            cases hj
        | _ =>
            rw [hguard] at hby
            exact hby
  have inside : ∀ {j : Fin n} {p : Phase α}, (s.workers j).holds = true →
      p.holding < (s.workers j).holding → s'.guard = s.guard →
      s'.workers = (s.move j p).workers →
      s'.guard = none ∨ (s'.guard ≠ none ∧ (s'.holding < s.holding ∨
        (s'.holding = s.holding ∧ s'.holder = s.holder ∧ ¬ By s.holder a))) := by
    intro j p hj hless hguard hworkers
    have hown := (h j).mp hj
    refine Or.inr ⟨by rw [hguard]; exact hg, Or.inl ?_⟩
    unfold State.holding
    rw [hguard, hown, hworkers]
    dsimp only
    rw [State.move_workers_self]
    exact hless
  have notBy : ∀ {b : Action n α}, (∀ i, ¬ By i b) → ¬ By s.holder b := fun hnone => hnone _
  cases hstep with
  | check j hp =>
      have hj : (s.workers j).holds = false := by rw [hp]; rfl
      exact keep rfl (outside hj) (aside hj)
  | lock j hp hfree => exact absurd hfree hg
  | evaluate j hp =>
      refine inside (by rw [hp]; rfl) ?_ rfl rfl
      rw [hp]
      split <;> simp [Phase.holding]
  | release j hp => exact Or.inl rfl
  | decide j hp =>
      refine inside (by rw [hp]; rfl) ?_ rfl rfl
      rw [hp]
      split <;> simp [Phase.holding]
  | pop j hp hjobs =>
      apply inside (j := j) (p := .popped _) (by rw [hp]; rfl) _ rfl rfl
      rw [hp]
      simp [Phase.holding]
  | execute j hp =>
      have hj : (s.workers j).holds = false := by rw [hp]; rfl
      exact keep rfl (outside (p := .checking) hj) (aside hj)
  | spurious j hp =>
      have hj : (s.workers j).holds = false := by rw [hp]; rfl
      exact keep rfl (outside hj) (notBy fun i => by cases i <;> exact id)
  | post job hfree => exact absurd hfree hg
  | emplaceBack hg' => exact Or.inr ⟨by simp, Or.inl (by simp [State.holding, hg'])⟩
  | notifyOne j hg' hp => exact Or.inr ⟨by simp, Or.inl (by simp [State.holding, hg'])⟩
  | notifyNone hg' => exact Or.inr ⟨by simp, Or.inl (by simp [State.holding, hg'])⟩
  | unlock hg' => exact Or.inl rfl
  | store hd => exact keep rfl (fun _ _ => rfl) (notBy fun i => by cases i <;> exact id)
  | notifyAll hd =>
      apply keep rfl _ (notBy fun i => by cases i <;> exact id)
      intro i hi
      show (s.workers i).notify = s.workers i
      cases hp : s.workers i <;> first | rfl | (rw [hp] at hi; cases hi)
  | join hd hk hended => exact keep rfl (fun _ _ => rfl) (notBy fun i => by cases i <;> exact id)

/-- The holder of `guard` can move. -/
theorem enabled_holder (hC : SparesPool cond) (hex : Exclusive s) (hready : Ready s)
    (hg : s.guard ≠ none) : ((system n α).guard cond).Enabled (By s.holder) s := by
  unfold State.holder
  cases hguard : s.guard with
  | none => exact absurd hguard hg
  | some holder =>
      cases holder with
      | worker i =>
          have hholds := (hex i).mpr hguard
          cases hp : s.workers i <;> rw [hp] at hholds <;>
            try exact Bool.noConfusion hholds
          case popping =>
            obtain ⟨job, rest, hjobs⟩ := List.exists_cons_of_ne_nil (hready.popping i hp)
            exact enabled_worker hC (by simp only [run, hp, hjobs]; rfl)
          all_goals exact enabled_worker hC (by simp only [run, hp]; rfl)
      | emplacing job =>
          exact enabled_caller hC (a := .emplaceBack) trivial
            (by simp only [act, postStep, hguard]; rfl)
      | notifying => exact enabled_notifying hC hguard
      | unlocking =>
          exact enabled_caller hC (a := .unlock) trivial
            (by simp only [act, postStep, hguard]; rfl)

/-! ## Under a fair scheduler -/

theorem Exclusive.reachable (h : ((system n α).guard cond).Reachable s) : Exclusive s := by
  obtain ⟨tr, h⟩ := h
  exact .run h.of_guard

theorem Ready.reachable (h : ((system n α).guard cond).Reachable s) : Ready s := by
  obtain ⟨tr, h⟩ := h
  exact .run h.of_guard

section Fair

variable {ρ : Trace ((system n α).guard cond)} (hC : SparesPool cond)
  (hfair : ∀ i, ρ.Fair (By i))

include hC hfair

/-- **`guard` is given back.** -/
theorem guard_free : ρ.LeadsTo (fun _ => True) fun s => s.guard = none := by
  have hheld : ρ.LeadsTo (fun s => s.guard ≠ none) fun s => s.guard = none := by
    apply Trace.LeadsTo.ranked hfair State.holding State.holder
    · intro s a s' hs hg hstep
      exact (Exclusive.reachable hs).holding_step hg (.of_act hstep.1)
    · intro k i
      apply Trace.LeadsTo.of_imp
      rintro s hs ⟨hg, -, rfl⟩
      exact Or.inl (enabled_holder hC (.reachable hs) (.reachable hs) hg)
  intro t _
  by_cases hg : (ρ.state t).guard = none
  · exact ⟨t, Nat.le_refl t, hg⟩
  · exact hheld t hg

/-- A worker that neither sleeps nor has ended gets on, if its steps bring it
nearer to a goal and nobody takes it back. -/
theorem worker_reaches {P Q : State n α → Prop} (i : Fin n) (rank : State n α → Nat)
    (hmoves : ∀ s, ((system n α).guard cond).Reachable s → P s →
      s.workers i ≠ .asleep ∧ s.workers i ≠ .ended)
    (hstay : ∀ s a s', ((system n α).guard cond).Reachable s → P s →
      ((system n α).guard cond).step s a s' → Q s' ∨ (P s' ∧ (rank s' < rank s ∨
        (rank s' = rank s ∧ ¬ By (some i) a)))) :
    ρ.LeadsTo P Q := by
  apply Trace.LeadsTo.ranked hfair rank fun _ => some i
  · intro s a s' hs hP hstep
    rcases hstay s a s' hs hP hstep with hdone | ⟨hP', hless | ⟨hsame, hnot⟩⟩
    · exact Or.inl hdone
    · exact Or.inr ⟨hP', Or.inl hless⟩
    · exact Or.inr ⟨hP', Or.inr ⟨hsame, rfl, hnot⟩⟩
  · intro r j t ht
    obtain ⟨hP, hr, rfl⟩ := ht
    -- it is nearer by the time `guard` is free, or can move then
    have hwait : ρ.LeadsTo (fun s => P s ∧ rank s = r) _ :=
      Trace.LeadsTo.while (R := fun s => s.guard = none)
        (Q := fun s => Q s ∨ (P s ∧ rank s < r))
        (fun t _ => guard_free hC hfair t trivial) (by
          rintro s a s' hs ⟨hP, hr⟩ hstep
          rcases hstay s a s' hs hP hstep with hdone | ⟨hP', hless | ⟨hsame, -⟩⟩
          · exact Or.inr (Or.inl hdone)
          · exact Or.inr (Or.inr ⟨hP', by omega⟩)
          · exact Or.inl ⟨hP', by omega⟩)
    obtain ⟨u, hu, ⟨⟨hPu, -⟩, hfree⟩ | hlater⟩ := hwait t ⟨hP, hr⟩
    · have hs := ρ.reachable u
      obtain ⟨hi, hend⟩ := hmoves _ hs hPu
      exact ⟨u, hu, Or.inl (enabled_free hC (.reachable hs) hi hend hfree)⟩
    · exact ⟨u, hu, Or.inr hlater⟩

end Fair

end ElephantShrew.ThreadPool
