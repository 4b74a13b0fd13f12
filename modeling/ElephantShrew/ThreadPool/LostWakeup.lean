import ElephantShrew.ThreadPool.Jobs

/-!
# The shutdown of a pool

The destructor stores `m_is_active` and notifies without `guard`.  A worker
that has found the queue empty and the pool active still holds `guard` then,
but is not asleep yet: a notification issued at that moment does not reach it,
and no other follows.
-/

namespace ElephantShrew.ThreadPool

open ElephantShrew.Verified

variable {n : Nat} {α : Type}

/-- A worker is asleep and not notified although `notify_all` was issued. -/
def LostWakeup (s : State n α) : Prop :=
  ∃ k i, s.destructor = .joining k ∧ s.workers i = .asleep

/-- `notify_all` is not issued between the evaluation of a worker's predicate
and the sleep that follows. -/
def NoneReleasing (s : State n α) : Action n α → Prop
  | .destroy => s.destructor = .stored → ∀ i, s.workers i ≠ .releasing
  | _ => True

/-- A worker that does not sleep and is not about to. -/
def Awake (p : Phase α) : Prop := p ≠ .releasing ∧ p ≠ .asleep

/-- After the destructor's `notify_all` every worker is awake for good. -/
structure Shutdown (s : State n α) : Prop where
  inactive : s.destructor ≠ .notCalled → s.isActive = false
  awake : ∀ k, s.destructor = .joining k → ∀ i, Awake (s.workers i)

theorem Shutdown.move {s s' : State n α} (h : Shutdown s) {i : Fin n} {p : Phase α}
    (hworkers : s'.workers = (s.move i p).workers) (hactive : s'.isActive = s.isActive)
    (hd : s'.destructor = s.destructor) (hp : ∀ k, s.destructor = .joining k → Awake p) :
    Shutdown s' := by
  constructor
  · rw [hd, hactive]
    exact h.inactive
  · intro k hk j
    rw [hd] at hk
    rw [hworkers]
    by_cases hj : j = i
    · rw [hj, State.move_workers_self]
      exact hp k hk
    · rw [State.move_workers_of_ne s p hj]
      exact h.awake k hk j

theorem Shutdown.keep {s s' : State n α} (h : Shutdown s) (hworkers : s'.workers = s.workers)
    (hactive : s'.isActive = s.isActive) (hd : s'.destructor = s.destructor) : Shutdown s' := by
  constructor
  · rw [hd, hactive]
    exact h.inactive
  · rw [hd, hworkers]
    exact h.awake

theorem awake_notify {p : Phase α} (h : p ≠ .releasing) : Awake p.notify := by
  cases p with
  | releasing => exact absurd rfl h
  | _ => exact ⟨by simp [Phase.notify], by simp [Phase.notify]⟩

theorem Shutdown.step {s s' : State n α} {a : Action n α} (h : Shutdown s)
    (hcond : NoneReleasing s a) (hstep : Steps s a s') : Shutdown s' := by
  cases hstep with
  | check i hp => exact h.move rfl rfl rfl fun _ _ => by split <;> simp [Awake]
  | lock i hp hfree => exact h.move rfl rfl rfl fun _ _ => by simp [Awake]
  | evaluate i hp =>
      apply h.move rfl rfl rfl
      intro k hk
      -- the flag is stored, so the predicate is true
      have hinactive : s.isActive = false := h.inactive (by rw [hk]; simp)
      simp [State.predicate, hinactive, Awake]
  | release i hp =>
      refine h.move rfl rfl rfl ?_
      intro k hk
      have hawake := h.awake k hk i
      generalize s.workers i = p at hp hawake
      cases hp with
      | sleep => exact absurd rfl hawake.1
      | call job => simp [Awake]
      | leave => simp [Awake]
  | decide i hp => exact h.move rfl rfl rfl fun _ _ => by split <;> simp [Awake]
  | pop i hp hjobs => exact h.move (p := .popped _) rfl rfl rfl fun _ _ => by simp [Awake]
  | execute i hp => exact h.move (p := .checking) rfl rfl rfl fun _ _ => by simp [Awake]
  | spurious i hp => exact h.move rfl rfl rfl fun _ _ => by simp [Awake]
  | notifyOne i hg hp => exact h.move (p := .woken) rfl rfl rfl fun _ _ => by simp [Awake]
  | post job hfree => exact h.keep rfl rfl rfl
  | emplaceBack hg => exact h.keep rfl rfl rfl
  | notifyNone hg => exact h.keep rfl rfl rfl
  | unlock hg => exact h.keep rfl rfl rfl
  | store hd => exact ⟨fun _ => rfl, fun _ hk => by cases hk⟩
  | notifyAll hd =>
      constructor
      · intro _
        exact h.inactive (by rw [hd]; simp)
      · intro _ _ i
        exact awake_notify (hcond hd i)
  | join hd hk hended =>
      constructor
      · intro _
        exact h.inactive (by rw [hd]; simp)
      · intro _ _ i
        exact h.awake _ hd i

theorem Shutdown.run {tr : List (Action n α)} {s : State n α}
    (h : ((system n α).guard NoneReleasing).Run tr s) : Shutdown s := by
  apply h.invariant (P := fun _ s => Shutdown s)
  · intro s hs
    rw [hs]
    exact ⟨fun hd => absurd rfl hd, fun _ hk => by cases hk⟩
  · intro tr s a s' hs hstep
    exact hs.step hstep.2 (.of_act hstep.1)

theorem Shutdown.not_lostWakeup {s : State n α} (h : Shutdown s) : ¬ LostWakeup s := by
  intro hlost
  obtain ⟨k, i, hk, hi⟩ := hlost
  exact (h.awake k hk i).2 hi

/-- A worker that the notification has passed by goes to sleep. -/
theorem passed_by_sleeps {s s' : State n α} {a : Action n α} (hcond : ¬ NoneReleasing s a)
    (hact : act s a = some s') :
    ∃ i s'', act s' (.worker i) = some s'' ∧ LostWakeup s'' := by
  cases a with
  | destroy =>
      simp only [NoneReleasing, not_forall, not_not] at hcond
      obtain ⟨hd, i, hi⟩ := hcond
      simp only [act, destroy, hd, Option.some.injEq] at hact
      have hi' : s'.workers i = .releasing := by
        rw [← hact]
        show (s.workers i).notify = .releasing
        rw [hi]
        rfl
      have hd' : s'.destructor = .joining 0 := by rw [← hact]
      refine ⟨i, { s'.move i .asleep with guard := none }, ?_, 0, i, hd', ?_⟩
      · simp only [act, run, hi']
      · simp
  | _ => exact absurd trivial hcond

/-! ## The sleeper and the join -/

/-- A step of another worker. -/
theorem move_workers_of_eq {s : State n α} {i j : Fin n} {p q : Phase α}
    (hi : s.workers i = q) (hj : s.workers j ≠ q) : (s.move j p).workers i = q := by
  have hne : i ≠ j := by
    intro heq
    exact hj (heq ▸ hi)
  rw [State.move_workers_of_ne s p hne, hi]

/-- A worker leaves a phase by a step of its own or by a notification. -/
theorem Steps.stays {s s' : State n α} {a : Action n α} (hstep : Steps s a s') {i : Fin n}
    {q : Phase α} (hq : q = .ended ∨ q = .asleep) (hi : s.workers i = q)
    (hwake : q = .asleep → a ≠ .spurious i ∧ a ≠ .notifyOne (some i) ∧
      s.destructor ≠ .stored) : s'.workers i = q := by
  cases hstep with
  | check j hp => exact move_workers_of_eq hi (by rcases hq with rfl | rfl <;> simp [hp])
  | lock j hp hfree =>
      apply move_workers_of_eq hi
      generalize s.workers j = p at hp
      rcases hq with rfl | rfl <;> cases hp <;> simp
  | evaluate j hp => exact move_workers_of_eq hi (by rcases hq with rfl | rfl <;> simp [hp])
  | release j hp =>
      apply move_workers_of_eq hi
      generalize s.workers j = p at hp
      rcases hq with rfl | rfl <;> cases hp <;> simp
  | decide j hp => exact move_workers_of_eq hi (by rcases hq with rfl | rfl <;> simp [hp])
  | pop j hp hjobs => exact move_workers_of_eq hi (by rcases hq with rfl | rfl <;> simp [hp])
  | execute j hp => exact move_workers_of_eq hi (by rcases hq with rfl | rfl <;> simp [hp])
  | spurious j hp =>
      rcases hq with rfl | rfl
      · exact move_workers_of_eq hi (by simp [hp])
      · have hne : i ≠ j := by
          intro heq
          exact (hwake rfl).1 (by rw [heq])
        rw [State.move_workers_of_ne s _ hne, hi]
  | notifyOne j hg hp =>
      rcases hq with rfl | rfl
      · exact move_workers_of_eq hi (by simp [hp])
      · have hne : i ≠ j := by
          intro heq
          exact (hwake rfl).2.1 (by rw [heq])
        exact (State.move_workers_of_ne s _ hne).trans hi
  | notifyAll hd =>
      rcases hq with rfl | rfl
      · show (s.workers i).notify = .ended
        rw [hi]
        rfl
      · exact absurd hd (hwake rfl).2.2
  | post job hfree => exact hi
  | emplaceBack hg => exact hi
  | notifyNone hg => exact hi
  | unlock hg => exact hi
  | store hd => exact hi
  | join hd hk hended => exact hi

/-- The threads joined so far have ended. -/
def JoinedEnded (s : State n α) : Prop :=
  ∀ k, s.destructor = .joining k → ∀ i : Fin n, i.val < k → s.workers i = .ended

theorem JoinedEnded.step {s s' : State n α} {a : Action n α} (h : JoinedEnded s)
    (hstep : Steps s a s') : JoinedEnded s' := by
  intro k hk i hi
  by_cases hbefore : s.destructor = .joining k
  · exact hstep.stays (.inl rfl) (h k hbefore i hi) (fun heq => by cases heq)
  · cases hstep with
    | notifyAll hd =>
        injection hk with hk
        omega
    | join hd hlt hended =>
        injection hk with hk
        subst hk
        rcases Nat.lt_succ_iff_lt_or_eq.mp hi with hearlier | heq
        · exact h _ hd i hearlier
        · have hlast : i = ⟨_, hlt⟩ := Fin.ext heq
          rw [hlast]
          exact hended
    | store hd => cases hk
    | _ => exact absurd hk hbefore

theorem JoinedEnded.run {tr : List (Action n α)} {s : State n α} (h : (system n α).Run tr s) :
    JoinedEnded s := by
  apply h.invariant (P := fun _ s => JoinedEnded s)
  · intro s hs k hk
    rw [hs] at hk
    cases hk
  · intro tr s a s' ih hact
    exact ih.step (.of_act hact)

/-- The steps that wake nobody at `i`. -/
def WakesNot (i : Fin n) (_ : State n α) (a : Action n α) : Prop :=
  a ≠ .spurious i ∧ a ≠ .notifyOne (some i)

/-- **The join waits.**  Whatever happens after a lost wake-up, the destructor
does not return unless the sleeper wakes by itself or by another `Post`. -/
theorem LostWakeup.join_waits {tr : List (Action n α)} {s : State n α}
    (h : (system n α).Run tr s) {k : Nat} (hk : s.destructor = .joining k) {i : Fin n}
    (hi : s.workers i = .asleep) {later : List (Action n α)} {s' : State n α}
    (hlater : ((System.ofAct (· = s) act).guard (WakesNot i)).Run later s') :
    s'.workers i = .asleep ∧ s'.destructor ≠ .joining n := by
  suffices hinv : s'.workers i = .asleep ∧ ∃ k, k ≤ i.val ∧ s'.destructor = .joining k by
    obtain ⟨hasleep, k, hki, hd⟩ := hinv
    refine ⟨hasleep, ?_⟩
    intro hn
    rw [hd] at hn
    injection hn with hn
    omega
  refine hlater.invariant
    (P := fun _ s' => s'.workers i = .asleep ∧ ∃ k, k ≤ i.val ∧ s'.destructor = .joining k) ?_ ?_
  · intro s₁ hs₁
    rw [hs₁]
    refine ⟨hi, k, ?_, hk⟩
    by_contra hlt
    have hended := JoinedEnded.run h k hk i (by omega)
    rw [hi] at hended
    cases hended
  · intro tr₁ s₁ a s₂ ih hact
    obtain ⟨hasleep, k, hki, hd⟩ := ih
    have hstep := Steps.of_act hact.1
    refine ⟨hstep.stays (.inr rfl) hasleep fun _ => ⟨hact.2.1, hact.2.2, by simp [hd]⟩, ?_⟩
    cases hstep with
    | store hd' =>
        rw [hd] at hd'
        cases hd'
    | notifyAll hd' =>
        rw [hd] at hd'
        cases hd'
    | join hd' hlt hended =>
        rw [hd] at hd'
        injection hd' with hd'
        subst hd'
        refine ⟨k + 1, ?_, rfl⟩
        -- the thread joined now is not the sleeper
        have hne : k ≠ i.val := by
          intro heq
          have hsame : i = ⟨k, hlt⟩ := Fin.ext heq.symm
          rw [hsame, hended] at hasleep
          cases hasleep
        omega
    | _ => exact ⟨k, hki, hd⟩

/-! ## The law -/

/-- **Shutdown.**  As long as `notify_all` is not issued between a worker's
evaluation of the predicate and its sleep, no worker is left asleep; and after
such a step the worker goes to sleep with nobody to wake it.  In any run the
jobs are taken in posting order, and every execution is that of one posted job. -/
theorem shutdown_wakes_noneReleasing (n : Nat) (α : Type) :
    (∀ tr s, ((system n α).guard NoneReleasing).Run tr s → ¬ LostWakeup s) ∧
    (∀ tr s a s', (system n α).Run tr s → act s a = some s' → ¬ NoneReleasing s a →
      ∃ i s'', (system n α).Run (tr ++ [a] ++ [.worker i]) s'' ∧ LostWakeup s'') ∧
    ∀ tr s, (system n α).Run tr s →
      s.taken.map Prod.snd <+: s.posted ∧ (s.executed.map Prod.snd).Subperm s.posted := by
  refine ⟨?_, ?_, ?_⟩
  · intro tr s h
    exact (Shutdown.run h).not_lostWakeup
  · intro tr s a s' h hact hcond
    obtain ⟨i, s'', hsleep, hlost⟩ := passed_by_sleeps hcond hact
    exact ⟨i, s'', (h.act a hact).act _ hsleep, hlost⟩
  · intro tr s h
    exact ⟨(Accounted.run h).taken_in_order, (Accounted.run h).executed_subperm_posted⟩

/-- The only worker finds the queue empty, the destructor stores the flag and
notifies, the worker falls asleep. -/
theorem shutdown_loses_wakeup : ¬ ∀ (n : Nat) tr (s : State n Unit), (system n Unit).Run tr s →
    ¬ LostWakeup s ∧ s.taken.map Prod.snd <+: s.posted ∧
      (s.executed.map Prod.snd).Subperm s.posted := by
  intro h
  have begun : (system 1 Unit).Run [] (initial 1 Unit) := .init rfl
  have evaluated := ((begun.act (.worker 0) rfl).act (.worker 0) rfl).act (.worker 0) rfl
  have notified := (evaluated.act .destroy rfl).act .destroy rfl
  have slept := notified.act (.worker 0) rfl
  exact (h 1 _ _ slept).1 ⟨0, 0, rfl, rfl⟩

end ElephantShrew.ThreadPool
