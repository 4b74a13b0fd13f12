import ElephantShrew.ThreadPool.Scheduling

/-!
# Every job is executed

As long as the pool is not destroyed, under a fair scheduler, every posted job
is executed.  `guard` is given back by whoever holds it, so a worker that is
not asleep gets it and finds the job; and while a job is pending somebody is
not asleep, or about to be woken by the caller of `Post`.

Fairness stands for what the pool assumes of its surroundings: a thread that
can run again and again does run, a mutex that is free again and again can be
taken, and a job returns.
-/

namespace ElephantShrew.ThreadPool

open ElephantShrew.Verified

variable {n : Nat} {α : Type}

/-- The destructor is not called. -/
def InUse (_ : State n α) (a : Action n α) : Prop := a ≠ .destroy

theorem sparesPool_inUse : SparesPool (InUse (n := n) (α := α)) := fun _ _ h => h

/-! ## What holds while the pool is in use -/

structure Active (s : State n α) : Prop where
  exclusive : Exclusive s
  ready : Ready s
  accounted : Accounted s
  isActive : s.isActive = true
  working : ∀ i, s.workers i ≠ .leaving ∧ s.workers i ≠ .ended
  /-- a worker goes to sleep only on an empty queue -/
  releasing : ∀ i, s.workers i = .releasing → s.pendingJobs = []
  /-- a pending job is noticed -/
  awake : 0 < n → s.pendingJobs ≠ [] → s.guard = some .notifying ∨ ∃ i, s.workers i ≠ .asleep

variable {s s' : State n α} {a : Action n α}

/-- No sleeper is passed over. -/
theorem act_notifyNone (h : act s (.notifyOne none) = some s') (i : Fin n) :
    s.workers i ≠ .asleep := by
  simp only [act, postStep] at h
  split at h
  · obtain ⟨w, hw, -⟩ := Option.map_eq_some_iff.mp h
    simp only [notifyOne] at hw
    split_ifs at hw with hnone
    intro heq
    have hi := hnone i
    rw [heq] at hi
    cases hi
  · cases h

/-- A step takes a job, or leaves the pending ones. -/
theorem Steps.taken_cases (hstep : Steps s a s') :
    (s'.taken = s.taken ∧ (s.pendingJobs ≠ [] → s'.pendingJobs ≠ [])) ∨
      ∃ e, s'.taken = s.taken ++ [e] := by
  cases hstep with
  | pop i hp hjobs => exact Or.inr ⟨_, rfl⟩
  | emplaceBack hg => exact Or.inl ⟨rfl, fun _ => by simp⟩
  | _ => exact Or.inl ⟨rfl, fun h => h⟩

theorem Active.working_move {i : Fin n} {p : Phase α}
    (h : ∀ j, s.workers j ≠ .leaving ∧ s.workers j ≠ .ended) (hp : p ≠ .leaving ∧ p ≠ .ended)
    (j : Fin n) : (s.move i p).workers j ≠ .leaving ∧ (s.move i p).workers j ≠ .ended := by
  by_cases hj : j = i
  · rw [hj, State.move_workers_self]
    exact hp
  · rw [State.move_workers_of_ne s p hj]
    exact h j

theorem Releases.not_leaving {p q : Phase α} (h : Releases p q) (hp : p ≠ .leaving) :
    q ≠ .leaving ∧ q ≠ .ended := by
  cases h with
  | sleep => exact ⟨by simp, by simp⟩
  | call job => exact ⟨by simp, by simp⟩
  | leave => exact absurd rfl hp

theorem Active.working_step (h : Active s) (hstep : Steps s a s') (hd : a ≠ .destroy)
    (i : Fin n) : s'.workers i ≠ .leaving ∧ s'.workers i ≠ .ended := by
  have hactive := h.isActive
  cases hstep with
  | check j hp => exact working_move h.working (by rw [hactive]; simp) i
  | lock j hp hfree => exact working_move h.working (p := .evaluating) (by simp) i
  | evaluate j hp => exact working_move h.working (by split <;> simp) i
  | release j hp => exact working_move h.working (hp.not_leaving (h.working j).1) i
  | decide j hp => exact working_move h.working (by rw [hactive]; simp) i
  | pop j hp hjobs => exact working_move h.working (p := .popped _) (by simp) i
  | execute j hp => exact working_move h.working (p := .checking) (by simp) i
  | spurious j hp => exact working_move h.working (p := .woken) (by simp) i
  | notifyOne j hg hp => exact working_move h.working (p := .woken) (by simp) i
  | post job hfree => exact h.working i
  | emplaceBack hg => exact h.working i
  | notifyNone hg => exact h.working i
  | unlock hg => exact h.working i
  | store hd' => exact absurd rfl hd
  | notifyAll hd' => exact absurd rfl hd
  | join hd' hk hended => exact absurd rfl hd

/-- A worker that is releasing afterwards was so before, or has just found the
queue empty. -/
theorem Active.releasing_step (h : Active s) (hstep : Steps s a s') (hd : a ≠ .destroy)
    {i : Fin n} (hi : s'.workers i = .releasing) : s'.pendingJobs = [] := by
  have other : ∀ (j : Fin n) (p : Phase α), p ≠ .releasing →
      (s.move j p).workers i = .releasing → s.workers i = .releasing := by
    intro j p hp heq
    by_cases hij : i = j
    · rw [hij, State.move_workers_self] at heq
      exact absurd heq hp
    · rwa [State.move_workers_of_ne s p hij] at heq
  cases hstep with
  | evaluate j hp =>
      by_cases hij : i = j
      · subst hij
        rw [State.move_workers_self] at hi
        split at hi
        · cases hi
        · next hpred =>
            simp only [State.predicate, h.isActive, Bool.not_true, Bool.or_false,
              Bool.not_eq_true', Bool.not_eq_false, List.isEmpty_iff] at hpred
            exact hpred
      · rw [State.move_workers_of_ne s _ hij] at hi
        exact h.releasing i hi
  | pop j hp hjobs =>
      have hempty := h.releasing i (other j (.popped _) (by simp) hi)
      rw [hjobs] at hempty
      cases hempty
  | emplaceBack hg =>
      -- the worker would hold `guard`
      have hheld := (h.exclusive i).mp (by rw [show s.workers i = .releasing from hi]; rfl)
      rw [hg] at hheld
      cases hheld
  | check j hp => exact h.releasing i (other j _ (by split <;> simp) hi)
  | lock j hp hfree => exact h.releasing i (other j .evaluating (by simp) hi)
  | release j hp =>
      apply h.releasing i
      apply other j _ _ hi
      generalize s.workers j = p at hp
      cases hp <;> simp
  | decide j hp => exact h.releasing i (other j _ (by split <;> simp) hi)
  | execute j hp => exact h.releasing i (other j .checking (by simp) hi)
  | spurious j hp => exact h.releasing i (other j .woken (by simp) hi)
  | notifyOne j hg hp => exact h.releasing i (other j .woken (by simp) hi)
  | post job hfree => exact h.releasing i hi
  | notifyNone hg => exact h.releasing i hi
  | unlock hg => exact h.releasing i hi
  | store hd' => exact absurd rfl hd
  | notifyAll hd' => exact absurd rfl hd
  | join hd' hk hended => exact absurd rfl hd

/-- A worker that moves is not asleep, but for one that found the queue empty. -/
theorem Active.awake_step (h : Active s) (hact : act s a = some s') (hd : a ≠ .destroy)
    (hn : 0 < n) (hpending : s'.pendingJobs ≠ []) :
    s'.guard = some .notifying ∨ ∃ i, s'.workers i ≠ .asleep := by
  have hstep := Steps.of_act hact
  have moved : ∀ (j : Fin n) (p : Phase α), p ≠ .asleep → ∃ i, (s.move j p).workers i ≠ .asleep :=
    fun j p hp => ⟨j, by rwa [State.move_workers_self]⟩
  cases hstep with
  | check j hp => exact Or.inr (moved j _ (by split <;> simp))
  | lock j hp hfree => exact Or.inr (moved j .evaluating (by simp))
  | evaluate j hp => exact Or.inr (moved j _ (by split <;> simp))
  | release j hp =>
      cases hq : s.workers j with
      | releasing => exact absurd (h.releasing j hq) hpending
      | _ =>
          rw [hq] at hp
          cases hp <;> exact Or.inr (moved j _ (by simp))
  | decide j hp => exact Or.inr (moved j _ (by split <;> simp))
  | pop j hp hjobs => exact Or.inr (moved j (.popped _) (by simp))
  | execute j hp => exact Or.inr (moved j .checking (by simp))
  | spurious j hp => exact Or.inr (moved j .woken (by simp))
  | notifyOne j hg hp => exact Or.inr (moved j .woken (by simp))
  | notifyNone hg => exact Or.inr ⟨⟨0, hn⟩, act_notifyNone hact _⟩
  | emplaceBack hg => exact Or.inl rfl
  | post job hfree =>
      apply Or.inr
      apply (h.awake hn hpending).resolve_left
      rw [hfree]
      simp
  | unlock hg =>
      apply Or.inr
      apply (h.awake hn hpending).resolve_left
      rw [hg]
      simp
  | store hd' => exact absurd rfl hd
  | notifyAll hd' => exact absurd rfl hd
  | join hd' hk hended => exact absurd rfl hd

theorem Active.step (h : Active s) (hact : act s a = some s') (hd : a ≠ .destroy) :
    Active s' := by
  have hstep := Steps.of_act hact
  constructor
  case exclusive => exact h.exclusive.step hstep
  case ready => exact h.ready.step h.exclusive hstep
  case accounted => exact h.accounted.step hstep
  case isActive =>
    cases hstep <;> first | exact h.isActive | exact absurd rfl hd
  case working => exact h.working_step hstep hd
  case releasing => exact fun i hi => h.releasing_step hstep hd hi
  case awake => exact h.awake_step hact hd

theorem Active.reachable (h : ((system n α).guard InUse).Reachable s) : Active s := by
  obtain ⟨tr, h⟩ := h
  apply h.invariant (P := fun _ s => Active s)
  · intro s hs
    have hrun : (system n α).Run [] s := .init hs
    refine ⟨.run hrun, .run hrun, .run hrun, ?_, ?_, ?_, ?_⟩ <;> rw [show s = initial n α from hs]
    · rfl
    · exact fun i => ⟨by simp [initial], by simp [initial]⟩
    · exact fun i hi => rfl
    · exact fun _ hne => absurd rfl hne
  · intro tr s a s' hs hstep
    exact hs.step hstep.1 hstep.2

variable {ρ : Trace ((system n α).guard InUse)}

/-! ## A pending job is taken -/

/-- How far a worker that does not sleep is from taking a job. -/
def Phase.toPop : Phase α → Nat
  | .popped _ => 7
  | .running _ => 6
  | .checking => 5
  | .locking | .woken => 4
  | .evaluating => 3
  | .deciding => 2
  | .popping => 1
  | _ => 0

/-- A job is pending after `k` were taken. -/
structure Waiting (k : Nat) (s : State n α) : Prop where
  pending : s.pendingJobs ≠ []
  taken : s.taken.length = k

variable {k : Nat}

theorem Waiting.step (h : Waiting k s) (hstep : Steps s a s') :
    Waiting k s' ∨ k < s'.taken.length := by
  rcases hstep.taken_cases with ⟨htaken, hpending⟩ | ⟨e, htaken⟩
  · exact Or.inl ⟨hpending h.pending, by rw [htaken]; exact h.taken⟩
  · apply Or.inr
    rw [htaken, List.length_append, h.taken]
    exact Nat.lt_succ_self k

/-- A worker that moves gets nearer to the pending job. -/
theorem Active.toPop_worker (h : Active s) (hw : Waiting k s) {i : Fin n}
    (hstep : Steps s (.worker i) s') :
    k < s'.taken.length ∨
      (s'.workers i ≠ .asleep ∧ (s'.workers i).toPop < (s.workers i).toPop) := by
  have own : ∀ p : Phase α, p ≠ .asleep → p.toPop < (s.workers i).toPop →
      s'.workers = (s.move i p).workers → k < s'.taken.length ∨
        (s'.workers i ≠ .asleep ∧ (s'.workers i).toPop < (s.workers i).toPop) := by
    intro p hp hless hworkers
    apply Or.inr
    rw [hworkers, State.move_workers_self]
    exact ⟨hp, hless⟩
  cases hstep with
  | check _ hp =>
      rw [if_pos h.isActive] at own ⊢
      exact own .locking (by simp) (by rw [hp]; simp [Phase.toPop]) rfl
  | lock _ hp hfree =>
      apply own .evaluating (by simp) _ rfl
      generalize s.workers i = p at hp
      cases hp <;> simp [Phase.toPop]
  | evaluate _ hp =>
      have hpred : s.predicate = true := by
        simp [State.predicate, hw.pending]
      rw [if_pos hpred] at own ⊢
      exact own .deciding (by simp) (by rw [hp]; simp [Phase.toPop]) rfl
  | @release _ q hp =>
      cases hq : s.workers i with
      | releasing => exact absurd (h.releasing i hq) hw.pending
      | leaving => exact absurd hq (h.working i).1
      | popped job =>
          rw [hq] at hp
          cases hp
          have hnear := own (.running job) (by simp) (by rw [hq]; simp [Phase.toPop]) rfl
          rwa [hq] at hnear
      | _ =>
          rw [hq] at hp
          cases hp
  | decide _ hp =>
      rw [if_pos h.isActive] at own ⊢
      exact own .popping (by simp) (by rw [hp]; simp [Phase.toPop]) rfl
  | pop _ hp hjobs =>
      apply Or.inl
      show k < (s.taken ++ [_]).length
      rw [List.length_append, hw.taken]
      exact Nat.lt_succ_self k
  | execute _ hp => exact own .checking (by simp) (by rw [hp]; simp [Phase.toPop]) rfl

/-- A worker that does not sleep takes the pending job, or another does. -/
theorem awake_takes (hfair : ∀ i, ρ.Fair (By i)) (k : Nat) (i : Fin n) :
    ρ.LeadsTo (fun s => Waiting k s ∧ s.workers i ≠ .asleep) fun s => k < s.taken.length := by
  apply worker_reaches sparesPool_inUse hfair i fun s => (s.workers i).toPop
  · rintro s hs ⟨-, hi⟩
    exact ⟨hi, ((Active.reachable hs).working i).2⟩
  · rintro s a s' hs ⟨hw, hi⟩ ⟨hact, hd⟩
    have hactive := Active.reachable hs
    have hstep := Steps.of_act hact
    rcases hw.step hstep with hw' | hdone
    · by_cases ha : a = .worker i
      · subst ha
        rcases hactive.toPop_worker hw hstep with hdone | ⟨hi', hless⟩
        · exact Or.inl hdone
        · exact Or.inr ⟨⟨hw', hi'⟩, Or.inl hless⟩
      · rw [hstep.other ha hd hi]
        refine Or.inr ⟨⟨hw', hi⟩, Or.inr ⟨rfl, ?_⟩⟩
        intro hby
        cases a <;> simp_all [By]
    · exact Or.inl hdone

/-- The caller of `Post` wakes somebody, or nobody sleeps. -/
theorem notifying_wakes (hfair : ∀ i, ρ.Fair (By i)) (hn : 0 < n) (k : Nat) :
    ρ.LeadsTo (fun s => Waiting k s ∧ s.guard = some .notifying)
      fun s => ∃ i, Waiting k s ∧ s.workers i ≠ .asleep := by
  apply Trace.LeadsTo.fair (hfair none)
  · rintro s a s' hs ⟨hw, hg⟩ ⟨hact, hd⟩
    have hactive := Active.reachable hs
    have hstep := Steps.of_act hact
    have outside : ∀ j, (s.workers j).holds = false := by
      intro j
      rw [← Bool.not_eq_true, hactive.exclusive j, hg]
      simp
    cases hstep with
    | check j hp => exact Or.inr ⟨⟨⟨hw.pending, hw.taken⟩, hg⟩, fun hby => hby⟩
    | execute j hp => exact Or.inr ⟨⟨⟨hw.pending, hw.taken⟩, hg⟩, fun hby => hby⟩
    | spurious j hp => exact Or.inr ⟨⟨⟨hw.pending, hw.taken⟩, hg⟩, fun hby => hby⟩
    | notifyOne j hg' hp =>
        refine Or.inl ⟨j, ⟨hw.pending, hw.taken⟩, ?_⟩
        show (s.move j .woken).workers j ≠ .asleep
        rw [State.move_workers_self]
        simp
    | notifyNone hg' =>
        exact Or.inl ⟨⟨0, hn⟩, ⟨hw.pending, hw.taken⟩, act_notifyNone hact _⟩
    | evaluate j hp =>
        have hout := outside j
        rw [hp] at hout
        cases hout
    | decide j hp =>
        have hout := outside j
        rw [hp] at hout
        cases hout
    | pop j hp hjobs =>
        have hout := outside j
        rw [hp] at hout
        cases hout
    | release j hp =>
        have hout := outside j
        rw [hp.holds.1] at hout
        cases hout
    | lock j hp hfree => exact absurd hfree (by rw [hg]; simp)
    | post job hfree => exact absurd hfree (by rw [hg]; simp)
    | emplaceBack hg' => exact absurd hg' (by rw [hg]; simp)
    | unlock hg' => exact absurd hg' (by rw [hg]; simp)
    | store hd' => exact absurd rfl hd
    | notifyAll hd' => exact absurd rfl hd
    | join hd' hk hended => exact absurd rfl hd
  · exact .of_imp fun s _ h => Or.inl (enabled_notifying sparesPool_inUse h.2)

/-- **A pending job is taken.** -/
theorem waiting_takes (hfair : ∀ i, ρ.Fair (By i)) (hn : 0 < n) (k : Nat) :
    ρ.LeadsTo (Waiting k) fun s => k < s.taken.length := by
  have hawake : ρ.LeadsTo (fun s => ∃ i, Waiting k s ∧ s.workers i ≠ .asleep)
      fun s => k < s.taken.length := .exists fun i => awake_takes hfair k i
  have hcases : ρ.LeadsTo (Waiting k) fun s =>
      (Waiting k s ∧ s.guard = some .notifying) ∨ ∃ i, Waiting k s ∧ s.workers i ≠ .asleep := by
    apply Trace.LeadsTo.of_imp
    intro s hs hw
    rcases (Active.reachable hs).awake hn hw.pending with hg | ⟨i, hi⟩
    · exact Or.inl ⟨hw, hg⟩
    · exact Or.inr ⟨i, hw, hi⟩
  exact hcases.trans (((notifying_wakes hfair hn k).trans hawake).or hawake)

/-! ## A taken job is executed -/

theorem Steps.posted_mono (hstep : Steps s a s') : s.posted <+: s'.posted := by
  cases hstep with
  | emplaceBack hg => exact List.prefix_append _ _
  | _ => exact List.prefix_refl _

theorem Steps.taken_mono (hstep : Steps s a s') : s.taken <+: s'.taken := by
  rcases hstep.taken_cases with ⟨htaken, -⟩ | ⟨e, htaken⟩
  · rw [htaken]
  · rw [htaken]
    exact List.prefix_append _ _

theorem Steps.executed_mono (hstep : Steps s a s') : s.executed <+: s'.executed := by
  cases hstep with
  | execute i hp => exact List.prefix_append _ _
  | _ => exact List.prefix_refl _

theorem ofWorker_mono {log log' : List (Fin n × α)} (h : log <+: log') (i : Fin n) :
    ofWorker i log <+: ofWorker i log' := by
  obtain ⟨rest, rfl⟩ := h
  rw [ofWorker, ofWorker, List.filter_append]
  exact List.prefix_append _ _

/-- Logs are compared worker by worker. -/
theorem subperm_of_ofWorker {log log' : List (Fin n × α)}
    (h : ∀ i, ofWorker i log <+: ofWorker i log') : log.Subperm log' := by
  classical
  let _ : BEq (Fin n × α) := instBEqOfDecidableEq
  rw [List.subperm_iff_count]
  intro e
  have inLog : ∀ l : List (Fin n × α), (ofWorker e.1 l).count e = l.count e :=
    fun l => List.count_filter (by simp)
  rw [← inLog log, ← inLog log']
  exact (h e.1).sublist.count_le e

theorem posted_grows {t u : Nat} (h : t ≤ u) : (ρ.state t).posted <+: (ρ.state u).posted := by
  have hkeeps : ∀ s a s', ((system n α).guard InUse).Reachable s →
      (ρ.state t).posted <+: s.posted → ((system n α).guard InUse).step s a s' →
      (ρ.state t).posted <+: s'.posted :=
    fun s a s' _ hs hstep => hs.trans (Steps.of_act hstep.1).posted_mono
  exact Trace.stable hkeeps (List.prefix_refl _) h

/-- **Every posted job is taken.** -/
theorem posted_taken (hfair : ∀ i, ρ.Fair (By i)) (hn : 0 < n) (m : Nat) :
    ρ.LeadsTo (fun s => m ≤ s.posted.length) fun s => m ≤ s.taken.length := by
  apply Trace.LeadsTo.rank fun s => m - s.taken.length
  intro k t ht
  obtain ⟨hm, hk⟩ := ht
  by_cases hdone : m ≤ (ρ.state t).taken.length
  · exact ⟨t, Nat.le_refl t, Or.inl hdone⟩
  · have hposted := congrArg List.length (Active.reachable (ρ.reachable t)).accounted.posted
    rw [List.length_append, List.length_map] at hposted
    have hwaiting : Waiting (ρ.state t).taken.length (ρ.state t) := by
      refine ⟨?_, rfl⟩
      rw [← List.length_pos_iff_ne_nil]
      omega
    obtain ⟨u, hu, htaken⟩ := waiting_takes hfair hn _ t hwaiting
    exact ⟨u, hu, Or.inr ⟨hm.trans (posted_grows hu).length_le, by omega⟩⟩

/-- A worker has a job in its hand, and called these before. -/
def InHand (i : Fin n) (called : List (Fin n × α)) (job : α) (s : State n α) : Prop :=
  (s.workers i).hand = some job ∧ ofWorker i s.executed = called

/-- How far a worker is from the return of the job in its hand. -/
def Phase.toReturn : Phase α → Nat
  | .popped _ => 2
  | .running _ => 1
  | _ => 0

variable {i : Fin n} {called : List (Fin n × α)} {job : α}

theorem InHand.step (h : InHand i called job s) (hstep : Steps s a s') (hd : a ≠ .destroy) :
    ofWorker i s'.executed = called ++ [(i, job)] ∨ (InHand i called job s' ∧
      ((s'.workers i).toReturn < (s.workers i).toReturn ∨
        ((s'.workers i).toReturn = (s.workers i).toReturn ∧ ¬ By (some i) a))) := by
  obtain ⟨hhand, hcalled⟩ := h
  have hawake : s.workers i ≠ .asleep := by
    intro heq
    rw [heq] at hhand
    cases hhand
  by_cases ha : a = .worker i
  · subst ha
    cases hstep with
    | check _ hp =>
        rw [hp] at hhand
        cases hhand
    | evaluate _ hp =>
        rw [hp] at hhand
        cases hhand
    | decide _ hp =>
        rw [hp] at hhand
        cases hhand
    | pop _ hp hjobs =>
        rw [hp] at hhand
        cases hhand
    | lock _ hp hfree =>
        rw [hp.hand] at hhand
        cases hhand
    | @release _ q hp =>
        apply Or.inr
        have hsame : (s.move i q).workers i = q := State.move_workers_self s i q
        refine ⟨⟨?_, hcalled⟩, Or.inl ?_⟩
        · show ((s.move i q).workers i).hand = some job
          rw [hsame, hp.hand, hhand]
        · show ((s.move i q).workers i).toReturn < _
          rw [hsame]
          generalize s.workers i = p at hp hhand
          cases hp with
          | sleep => cases hhand
          | call => exact Nat.lt_succ_self 1
          | leave => cases hhand
    | execute _ hp =>
        rw [hp] at hhand
        cases hhand
        apply Or.inl
        show ofWorker i (s.executed ++ [(i, job)]) = _
        rw [ofWorker_concat_self, hcalled]
  · apply Or.inr
    have hworker := hstep.other ha hd hawake
    have hexecuted : ofWorker i s'.executed = ofWorker i s.executed := by
      cases hstep with
      | execute j hp => exact ofWorker_concat_of_ne (fun heq => ha (by rw [heq])) _ _
      | _ => rfl
    refine ⟨⟨?_, hexecuted.trans hcalled⟩, Or.inr ⟨by rw [hworker], ?_⟩⟩
    · rw [hworker]
      exact hhand
    · intro hby
      cases a <;> simp_all [By]

/-- A job in hand is called, and returns. -/
theorem hand_returns (hfair : ∀ i, ρ.Fair (By i)) (i : Fin n) (called : List (Fin n × α))
    (job : α) :
    ρ.LeadsTo (InHand i called job) fun s => ofWorker i s.executed = called ++ [(i, job)] := by
  apply worker_reaches sparesPool_inUse hfair i fun s => (s.workers i).toReturn
  · rintro s hs ⟨hhand, -⟩
    constructor
    all_goals
      intro heq
      rw [heq] at hhand
      cases hhand
  · intro s a s' hs hP hstep
    exact hP.step (.of_act hstep.1) hstep.2

/-- What a worker has taken it executes. -/
theorem taken_executed (hfair : ∀ i, ρ.Fair (By i)) (i : Fin n) (log : List (Fin n × α)) :
    ρ.LeadsTo (fun s => log <+: ofWorker i s.taken) fun s => log <+: ofWorker i s.executed := by
  intro t ht
  have htaken := (Active.reachable (ρ.reachable t)).accounted.taken i
  rw [htaken] at ht
  cases hhand : ((ρ.state t).workers i).hand with
  | none =>
      rw [hhand] at ht
      exact ⟨t, Nat.le_refl t, by simpa using ht⟩
  | some job =>
      rw [hhand] at ht
      obtain ⟨u, hu, hdone⟩ := hand_returns hfair i _ job t ⟨hhand, rfl⟩
      refine ⟨u, hu, ?_⟩
      show log <+: ofWorker i (ρ.state u).executed
      rw [hdone]
      exact ht

theorem taken_all_executed (hfair : ∀ i, ρ.Fair (By i)) (log : List (Fin n × α)) :
    ρ.LeadsTo (fun s => ∀ i, ofWorker i log <+: ofWorker i s.taken)
      fun s => ∀ i, ofWorker i log <+: ofWorker i s.executed := by
  apply Trace.LeadsTo.all
  · intro i t ht
    exact taken_executed hfair i _ t (ht i)
  · intro s a s' _ hs hstep i
    exact (hs i).trans (ofWorker_mono (Steps.of_act hstep.1).taken_mono i)
  · intro i s a s' _ hs hstep
    exact hs.trans (ofWorker_mono (Steps.of_act hstep.1).executed_mono i)

/-- **Every posted job is executed**, if the pool has a worker and is not
destroyed. -/
theorem posted_executed (n : Nat) (α : Type) (hn : 0 < n)
    (ρ : Trace ((system n α).guard InUse)) (hfair : ∀ i, ρ.Fair (By i)) (t : Nat) :
    ∃ t' ≥ t, (ρ.state t).posted.Subperm ((ρ.state t').executed.map Prod.snd) := by
  obtain ⟨u, hu, hlength⟩ := posted_taken hfair hn _ t (Nat.le_refl _)
  have htaken : (ρ.state t).posted <+: (ρ.state u).taken.map Prod.snd := by
    apply List.prefix_of_prefix_length_le (posted_grows hu)
    · exact (Active.reachable (ρ.reachable u)).accounted.taken_in_order
    · rw [List.length_map]
      exact hlength
  -- each worker executes what it had taken by then
  obtain ⟨v, hv, hexecuted⟩ :=
    taken_all_executed hfair (ρ.state u).taken u fun i => List.prefix_refl _
  have hall := subperm_of_ofWorker hexecuted
  refine ⟨v, hu.trans hv, htaken.sublist.subperm.trans ?_⟩
  obtain ⟨l, hperm, hsub⟩ := hall
  exact ⟨l.map Prod.snd, hperm.map Prod.snd, hsub.map Prod.snd⟩

/-- The only worker executes a job and falls asleep. -/
theorem oneJob_run : ∃ tr s, ((system 1 Nat).guard InUse).Run tr s ∧
    s.workers 0 = .asleep ∧ s.guard = none ∧ s.posted = [7] := by
  have begun : ((system 1 Nat).guard InUse).Run [] (initial 1 Nat) := .init rfl
  have posted := (((begun.actMeeting (.post 7) rfl nofun).actMeeting .emplaceBack rfl nofun
    ).actMeeting (.notifyOne none) rfl nofun).actMeeting .unlock rfl nofun
  have taken := ((((posted.actMeeting (.worker 0) rfl nofun).actMeeting (.worker 0) rfl nofun
    ).actMeeting (.worker 0) rfl nofun).actMeeting (.worker 0) rfl nofun
    ).actMeeting (.worker 0) rfl nofun
  have called := (taken.actMeeting (.worker 0) rfl nofun).actMeeting (.worker 0) rfl nofun
  have slept := (((called.actMeeting (.worker 0) rfl nofun).actMeeting (.worker 0) rfl nofun
    ).actMeeting (.worker 0) rfl nofun).actMeeting (.worker 0) rfl nofun
  exact ⟨_, _, slept, rfl, rfl, rfl⟩

/-- The run of one job goes on for ever with nothing to do. -/
theorem posted_executed_oneJob : ∃ ρ : Trace ((system 1 Nat).guard InUse),
    (∃ t, (ρ.state t).posted = [7]) ∧ ∀ t, ∃ t' ≥ t,
      (ρ.state t).posted.Subperm ((ρ.state t').executed.map Prod.snd) := by
  obtain ⟨tr, s, hrun, hp, hg, hposted⟩ := oneJob_run
  obtain ⟨ρ, hρ⟩ := Trace.exists_of_run hrun
  have hend : ∀ t ≥ tr.length, ρ.state t = s := fun t ht => (hρ t ht).1
  have hfair : ∀ i, ρ.Fair (By i) :=
    fun i => Trace.Fair.of_end hend (not_enabled_idle (Fin.forall_fin_one.mpr (Or.inl hp)) hg i)
  refine ⟨ρ, ⟨tr.length, ?_⟩, posted_executed 1 Nat Nat.one_pos ρ hfair⟩
  rw [hend _ (Nat.le_refl _)]
  exact hposted

end ElephantShrew.ThreadPool
