import ElephantShrew.ThreadPool.LostWakeup
import ElephantShrew.ThreadPool.Scheduling

/-!
# The destructor returns

Where `notify_all` does not pass a worker by, the destructor returns under a fair
scheduler: a worker that is inside leaves, one that sleeps is woken, and each ends
after the job it has in hand.  The jobs that are left in the queue are dropped.
-/

namespace ElephantShrew.ThreadPool

open ElephantShrew.Verified

variable {n : Nat} {α : Type} {s s' : State n α} {a : Action n α}

theorem sparesPool_noneReleasing : SparesPool (NoneReleasing (n := n) (α := α)) := by
  intro s a ha
  cases a with
  | destroy => exact absurd rfl ha
  | _ => trivial

/-- The destructor's next step. -/
def ByDestructor (a : Action n α) : Prop := a = .destroy

/-- `notify_all` was issued. -/
def Joining (s : State n α) : Prop := ∃ k, s.destructor = .joining k

/-- Only its own steps move the destructor. -/
theorem Steps.destructor_eq (hstep : Steps s a s') (ha : a ≠ .destroy) :
    s'.destructor = s.destructor := by
  cases hstep <;> first | rfl | exact absurd rfl ha

theorem Joining.step (h : Joining s) (hstep : Steps s a s') : Joining s' := by
  obtain ⟨k, hk⟩ := h
  cases hstep with
  | store hd => cases hk.symm.trans hd
  | notifyAll hd => exact ⟨0, rfl⟩
  | join hd hlt hended => exact ⟨_, rfl⟩
  | _ => exact ⟨k, hk⟩

theorem Shutdown.reachable (h : ((system n α).guard NoneReleasing).Reachable s) : Shutdown s := by
  obtain ⟨tr, h⟩ := h
  exact .run h

/-! ## A worker ends -/

/-- How far a worker is from its end, once it does not sleep any more. -/
def Phase.toEnd : Phase α → Nat
  | .locking | .woken | .popping => 4
  | .evaluating | .popped _ => 3
  | .deciding | .running _ => 2
  | .checking | .leaving => 1
  | _ => 0

/-- A worker's step brings it nearer to its end. -/
theorem Shutdown.toEnd_worker (h : Shutdown s) (hj : Joining s) {i : Fin n}
    (hstep : Steps s (.worker i) s') : (s'.workers i).toEnd < (s.workers i).toEnd := by
  obtain ⟨k, hk⟩ := hj
  have hinactive : s.isActive = false := h.inactive (by rw [hk]; simp)
  have hawake := h.awake k hk i
  have own : ∀ p : Phase α, p.toEnd < (s.workers i).toEnd →
      s'.workers = (s.move i p).workers → (s'.workers i).toEnd < (s.workers i).toEnd := by
    intro p hless hworkers
    rw [hworkers, State.move_workers_self]
    exact hless
  cases hstep with
  | check _ hp =>
      apply own _ _ rfl
      rw [hinactive, hp]
      exact Nat.zero_lt_one
  | lock _ hp hfree =>
      apply own _ _ rfl
      generalize s.workers i = p at hp
      cases hp <;> exact Nat.lt_succ_self 3
  | evaluate _ hp =>
      apply own _ _ rfl
      have hpred : s.predicate = true := by
        rw [State.predicate, hinactive, Bool.not_false, Bool.or_true]
      rw [if_pos hpred, hp]
      exact Nat.lt_succ_self 2
  | release _ hp =>
      apply own _ _ rfl
      generalize s.workers i = p at hp hawake
      cases hp with
      | sleep => exact absurd rfl hawake.1
      | call job => exact Nat.lt_succ_self 2
      | leave => exact Nat.zero_lt_one
  | decide _ hp =>
      apply own _ _ rfl
      rw [hinactive, hp]
      exact Nat.lt_succ_self 1
  | pop _ hp hjobs =>
      apply own (.popped _) _ rfl
      rw [hp]
      exact Nat.lt_succ_self 3
  | execute _ hp =>
      apply own .checking _ rfl
      rw [hp]
      exact Nat.lt_succ_self 1

variable {ρ : Trace ((system n α).guard NoneReleasing)}

/-- **A worker ends** after `notify_all`. -/
theorem worker_ends (hfair : ∀ i, ρ.Fair (By i)) (i : Fin n) :
    ρ.LeadsTo Joining fun s => s.workers i = .ended := by
  have hnotYet : ρ.LeadsTo (fun s => Joining s ∧ s.workers i ≠ .ended)
      fun s => s.workers i = .ended := by
    apply worker_reaches sparesPool_noneReleasing hfair i fun s => (s.workers i).toEnd
    · rintro s hs ⟨⟨k, hk⟩, hend⟩
      exact ⟨((Shutdown.reachable hs).awake k hk i).2, hend⟩
    · rintro s a s' hs ⟨hj, hend⟩ ⟨hact, -⟩
      have hstep := Steps.of_act hact
      have hshutdown := Shutdown.reachable hs
      have hj' := hj.step hstep
      by_cases hdone : s'.workers i = .ended
      · exact Or.inl hdone
      · apply Or.inr
        refine ⟨⟨hj', hdone⟩, ?_⟩
        by_cases ha : a = .worker i
        · subst ha
          exact Or.inl (hshutdown.toEnd_worker hj hstep)
        · have hsame : s'.workers i = s.workers i := by
            obtain ⟨k, hk⟩ := hj
            by_cases hd : a = .destroy
            · subst hd
              cases hstep with
              | store hd => cases hk.symm.trans hd
              | notifyAll hd => cases hk.symm.trans hd
              | join hd hlt hended => rfl
            · exact hstep.other ha hd (hshutdown.awake k hk i).2
          refine Or.inr ⟨by rw [hsame], ?_⟩
          intro hby
          cases a <;> simp_all [By]
  intro t hj
  by_cases hend : (ρ.state t).workers i = .ended
  · exact ⟨t, Nat.le_refl t, hend⟩
  · exact hnotYet t ⟨hj, hend⟩

/-- All workers have ended. -/
def AllEnded (s : State n α) : Prop := ∀ i, s.workers i = .ended

theorem workers_end (hfair : ∀ i, ρ.Fair (By i)) : ρ.LeadsTo Joining AllEnded := by
  apply Trace.LeadsTo.all (worker_ends hfair)
  · intro s a s' _ hj hstep
    exact hj.step (.of_act hstep.1)
  · intro i s a s' _ hend hstep
    exact (Steps.of_act hstep.1).stays (.inl rfl) hend nofun

/-! ## The destructor -/

/-- `guard` is free at some time, and no worker is about to sleep then. -/
theorem stored_notifies (hfair : ∀ i, ρ.Fair (By i)) (hdestroy : ρ.Fair ByDestructor) :
    ρ.LeadsTo (fun s => s.destructor = .stored) Joining := by
  have hstay : ∀ s a s', ((system n α).guard NoneReleasing).Reachable s →
      s.destructor = .stored → ((system n α).guard NoneReleasing).step s a s' →
      Joining s' ∨ (s'.destructor = .stored ∧ ¬ ByDestructor a) := by
    rintro s a s' - hd ⟨hact, -⟩
    have hstep := Steps.of_act hact
    by_cases ha : a = .destroy
    · subst ha
      cases hstep with
      | store hd' => cases hd.symm.trans hd'
      | notifyAll hd' => exact Or.inl ⟨0, rfl⟩
      | join hd' hk hended => cases hd.symm.trans hd'
    · exact Or.inr ⟨(hstep.destructor_eq ha).trans hd, ha⟩
  apply Trace.LeadsTo.fair hdestroy
  · intro s a s' hs hd hstep
    exact hstay s a s' hs hd hstep
  · have hwait : ρ.LeadsTo (fun s => s.destructor = .stored) _ :=
      Trace.LeadsTo.while (R := fun s => s.guard = none) (Q := Joining)
        (fun t _ => guard_free sparesPool_noneReleasing hfair t trivial) (by
          intro s a s' hs hd hstep
          rcases hstay s a s' hs hd hstep with hj | ⟨hd', -⟩
          · exact Or.inr hj
          · exact Or.inl hd')
    apply hwait.trans
    apply Trace.LeadsTo.of_imp
    rintro s hs (⟨hd, hfree⟩ | hj)
    · have hnone : ∀ i, s.workers i ≠ .releasing := by
        intro i hi
        have hholds := (Exclusive.reachable hs i).mp (by rw [hi]; rfl)
        rw [hfree] at hholds
        cases hholds
      have hact : ∃ s', act s .destroy = some s' := by
        simp only [act, destroy, hd]
        exact ⟨_, rfl⟩
      obtain ⟨s', hact⟩ := hact
      exact Or.inl ⟨.destroy, s', rfl, hact, fun _ => hnone⟩
    · exact Or.inr hj

/-- The destructor joins each thread once. -/
theorem joining_le (h : ((system n α).guard NoneReleasing).Reachable s) {k : Nat}
    (hk : s.destructor = .joining k) : k ≤ n := by
  obtain ⟨tr, h⟩ := h
  suffices hall : ∀ k, s.destructor = .joining k → k ≤ n from hall k hk
  apply h.invariant (P := fun _ s => ∀ k, s.destructor = .joining k → k ≤ n)
  · intro s hs k hk
    rw [show s = initial n α from hs] at hk
    cases hk
  · intro tr s a s' ih hstep k hk
    by_cases ha : a = .destroy
    · subst ha
      cases Steps.of_act hstep.1 with
      | store hd => cases hk
      | notifyAll hd =>
          injection hk with hk
          omega
      | join hd hlt hended =>
          injection hk with hk
          omega
    · rw [(Steps.of_act hstep.1).destructor_eq ha] at hk
      exact ih k hk

/-- The threads have ended, so the joins go through. -/
theorem ended_joins (hdestroy : ρ.Fair ByDestructor) :
    ρ.LeadsTo (fun s => Joining s ∧ AllEnded s)
      fun s => s.destructor = .joining n ∧ AllEnded s := by
  have hall : ∀ s a s', Joining s ∧ AllEnded s →
      ((system n α).guard NoneReleasing).step s a s' → Joining s' ∧ AllEnded s' := by
    rintro s a s' ⟨hj, hend⟩ ⟨hact, -⟩
    have hstep := Steps.of_act hact
    exact ⟨hj.step hstep, fun i => hstep.stays (.inl rfl) (hend i) nofun⟩
  -- the threads that are left
  let left (s : State n α) : Nat :=
    match s.destructor with
    | .joining k => n - k
    | _ => 0
  apply Trace.LeadsTo.ranked (ι := Unit) (fun _ => hdestroy) left fun _ => ()
  · rintro s a s' hs hP hstep
    have hP' := hall s a s' hP hstep
    obtain ⟨⟨k, hk⟩, hend⟩ := hP
    apply Or.inr
    refine ⟨hP', ?_⟩
    by_cases ha : a = .destroy
    · subst ha
      cases Steps.of_act hstep.1 with
      | store hd => cases hk.symm.trans hd
      | notifyAll hd => cases hk.symm.trans hd
      | join hd hlt hended =>
          apply Or.inl
          show n - (_ + 1) < left s
          simp only [left, hd]
          omega
    · refine Or.inr ⟨?_, rfl, ha⟩
      simp only [left, (Steps.of_act hstep.1).destructor_eq ha]
  · intro k _
    apply Trace.LeadsTo.of_imp
    rintro s hs ⟨⟨⟨m, hm⟩, hend⟩, -, -⟩
    by_cases hlt : m < n
    · have hact : act s .destroy = some { s with destructor := .joining (m + 1) } := by
        simp only [act, destroy, hm, dif_pos hlt, hend ⟨m, hlt⟩]
      refine Or.inl ⟨.destroy, _, rfl, hact, ?_⟩
      intro hd
      cases hm.symm.trans hd
    · have hle := joining_le hs hm
      have heq : m = n := by omega
      exact Or.inr (Or.inl ⟨heq ▸ hm, hend⟩)

/-- What the destructor leaves behind. -/
structure Destroyed (s : State n α) : Prop where
  returned : s.destructor = .joining n
  ended : AllEnded s
  /-- what was taken was executed -/
  executed : ∀ i, ofWorker i s.executed = ofWorker i s.taken
  /-- and the rest of what was posted is dropped -/
  dropped : s.posted = s.taken.map Prod.snd ++ s.pendingJobs

/-- **The destructor returns**, under a fair scheduler, if `notify_all` passes no
worker by. -/
theorem destructor_returns (n : Nat) (α : Type) (ρ : Trace ((system n α).guard NoneReleasing))
    (hfair : ∀ i, ρ.Fair (By i)) (hdestroy : ρ.Fair ByDestructor) (t : Nat)
    (hcalled : (ρ.state t).destructor ≠ .notCalled) : ∃ t' ≥ t, Destroyed (ρ.state t') := by
  have hjoining : ∃ u ≥ t, Joining (ρ.state u) := by
    cases hd : (ρ.state t).destructor with
    | notCalled => exact absurd hd hcalled
    | stored => exact stored_notifies hfair hdestroy t hd
    | joining k => exact ⟨t, Nat.le_refl t, k, hd⟩
  obtain ⟨u, hu, hj⟩ := hjoining
  obtain ⟨v, hv, hend⟩ := workers_end hfair u hj
  have hjv : Joining (ρ.state v) :=
    Trace.stable (fun s a s' _ hj hstep => hj.step (.of_act hstep.1)) hj hv
  obtain ⟨w, hw, hreturned, hended⟩ := ended_joins hdestroy v ⟨hjv, hend⟩
  refine ⟨w, hu.trans (hv.trans hw), hreturned, hended, ?_, ?_⟩
  all_goals
    obtain ⟨tr, hrun⟩ := ρ.reachable w
    have haccounted : Accounted (ρ.state w) := .run hrun.of_guard
  · intro i
    have htaken := haccounted.taken i
    rw [hended i, show (Phase.ended : Phase α).hand = none from rfl] at htaken
    simpa using htaken.symm
  · exact haccounted.posted

/-- The only worker executes a job, is told to stop before it has taken another, and
ends. -/
theorem stopped_run : ∃ tr s, ((system 1 Nat).guard NoneReleasing).Run tr s ∧
    s.workers 0 = .ended ∧ s.guard = none ∧ s.destructor = .joining 1 ∧
    s.executed = [(0, 7)] ∧ s.pendingJobs = [8] := by
  have begun : ((system 1 Nat).guard NoneReleasing).Run [] (initial 1 Nat) := .init rfl
  have posted := (((begun.actMeeting (.post 7) rfl trivial).actMeeting .emplaceBack rfl trivial
    ).actMeeting (.notifyOne none) rfl trivial).actMeeting .unlock rfl trivial
  have taken := ((((posted.actMeeting (.worker 0) rfl trivial).actMeeting (.worker 0) rfl trivial
    ).actMeeting (.worker 0) rfl trivial).actMeeting (.worker 0) rfl trivial
    ).actMeeting (.worker 0) rfl trivial
  have called := (taken.actMeeting (.worker 0) rfl trivial).actMeeting (.worker 0) rfl trivial
  have again := (((called.actMeeting (.post 8) rfl trivial).actMeeting .emplaceBack rfl trivial
    ).actMeeting (.notifyOne none) rfl trivial).actMeeting .unlock rfl trivial
  have stopped := (again.actMeeting .destroy rfl nofun).actMeeting .destroy rfl (by
    intro _ i
    rw [Subsingleton.elim i 0]
    exact nofun)
  have ended := (stopped.actMeeting (.worker 0) rfl trivial).actMeeting .destroy rfl nofun
  exact ⟨_, _, ended, rfl, rfl, rfl, rfl, rfl⟩

theorem destructor_returns_oneExecuted : ∃ ρ : Trace ((system 1 Nat).guard NoneReleasing),
    ∃ t, Destroyed (ρ.state t) ∧ (ρ.state t).executed = [(0, 7)] ∧
      (ρ.state t).pendingJobs = [8] := by
  obtain ⟨tr, s, hrun, hp, hg, hd, hexecuted, hjobs⟩ := stopped_run
  obtain ⟨ρ, hρ⟩ := Trace.exists_of_run hrun
  have hend : ∀ t ≥ tr.length, ρ.state t = s := fun t ht => (hρ t ht).1
  have hfair : ∀ i, ρ.Fair (By i) :=
    fun i => Trace.Fair.of_end hend (not_enabled_idle (Fin.forall_fin_one.mpr (Or.inr hp)) hg i)
  have hdestroy : ρ.Fair ByDestructor := by
    apply Trace.Fair.of_end hend
    rintro ⟨a, s', rfl, hact, -⟩
    cases Steps.of_act hact with
    | store hd' => cases hd.symm.trans hd'
    | notifyAll hd' => cases hd.symm.trans hd'
    | join hd' hk hended =>
        cases hd.symm.trans hd'
        exact absurd hk (Nat.lt_irrefl 1)
  have hcalled : (ρ.state tr.length).destructor ≠ .notCalled := by
    rw [hend _ (Nat.le_refl _), hd]
    exact nofun
  obtain ⟨t, ht, hdestroyed⟩ := destructor_returns 1 Nat ρ hfair hdestroy _ hcalled
  refine ⟨ρ, t, hdestroyed, ?_⟩
  rw [hend t ht]
  exact ⟨hexecuted, hjobs⟩

end ElephantShrew.ThreadPool
