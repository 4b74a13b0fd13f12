import Mathlib.Data.List.Perm.Subperm
import ElephantShrew.ThreadPool.ThreadPool

/-!
# The jobs of a pool

`guard` is held by one party at a time, so a worker that pops finds the job
its predicate saw.  Over any run the jobs are taken in the order they were
posted, and none is executed that was not taken before.
-/

namespace ElephantShrew.ThreadPool

open ElephantShrew.Verified

variable {n : Nat} {α : Type}

/-! ## Mutual exclusion -/

/-- The workers that hold `guard` are those the mutex says. -/
def Exclusive (s : State n α) : Prop :=
  ∀ i, (s.workers i).holds = true ↔ s.guard = some (.worker i)

theorem Exclusive.unique {s : State n α} (h : Exclusive s) {i j : Fin n}
    (hi : (s.workers i).holds = true) (hj : (s.workers j).holds = true) : j = i := by
  have hguard := (h i).mp hi
  rw [(h j).mp hj] at hguard
  injection hguard with hguard
  injection hguard

/-- A step that leaves `guard` alone. -/
theorem Exclusive.keep {s s' : State n α} (h : Exclusive s) (hguard : s'.guard = s.guard)
    (hworkers : ∀ j, (s'.workers j).holds = (s.workers j).holds) : Exclusive s' := by
  intro j
  rw [hworkers, hguard]
  exact h j

theorem Exclusive.move {s : State n α} (h : Exclusive s) {i : Fin n} {p : Phase α}
    (hp : p.holds = (s.workers i).holds) : Exclusive (s.move i p) := by
  refine h.keep rfl ?_
  intro j
  by_cases hj : j = i
  · rw [hj, State.move_workers_self, hp]
  · rw [State.move_workers_of_ne s p hj]

/-- `guard` goes between the callers of `Post` and nobody. -/
theorem Exclusive.post {s s' : State n α} (h : Exclusive s) (hworkers : s'.workers = s.workers)
    (hs : ∀ i, s.guard ≠ some (.worker i)) (hs' : ∀ i, s'.guard ≠ some (.worker i)) :
    Exclusive s' := by
  intro j
  rw [hworkers, h j]
  exact iff_of_false (hs j) (hs' j)

theorem WantsGuard.holds {p : Phase α} (h : WantsGuard p) : p.holds = false := by
  cases h <;> rfl

theorem Releases.holds {p q : Phase α} (h : Releases p q) :
    p.holds = true ∧ q.holds = false := by
  cases h <;> exact ⟨rfl, rfl⟩

/-- A notification takes a worker nowhere but out of its sleep. -/
theorem eq_of_notify {p q : Phase α} (h : p.notify = q) (hq : q ≠ .woken) : p = q := by
  cases p with
  | asleep => exact absurd h.symm hq
  | _ => exact h

theorem notify_holds (p : Phase α) : p.notify.holds = p.holds := by
  cases p <;> rfl

theorem Exclusive.step {s s' : State n α} {a : Action n α} (h : Exclusive s)
    (hstep : Steps s a s') : Exclusive s' := by
  cases hstep with
  | check i hp =>
      apply h.move
      rw [hp]
      split <;> rfl
  | lock i hp hfree =>
      intro j
      by_cases hj : j = i
      · subst hj
        exact iff_of_true (by simp [Phase.holds]) rfl
      · have hnot := (h j).not.mpr (by simp [hfree])
        refine iff_of_false ?_ (by simp [Ne.symm hj])
        simpa [State.move_workers_of_ne s _ hj] using hnot
  | evaluate i hp =>
      apply h.move
      rw [hp]
      split <;> rfl
  | release i hp =>
      intro j
      refine iff_of_false ?_ (by simp)
      by_cases hj : j = i
      · subst hj
        simp [hp.holds.2]
      · intro hheld
        exact hj (h.unique hp.holds.1
          (by simpa only [State.move_workers_of_ne s _ hj] using hheld))
  | decide i hp =>
      apply h.move
      rw [hp]
      split <;> rfl
  | pop i hp hjobs => exact (h.move (p := .popped _) (by rw [hp]; rfl)).keep rfl fun _ => rfl
  | execute i hp => exact (h.move (p := .checking) (by rw [hp]; rfl)).keep rfl fun _ => rfl
  | spurious i hp => exact h.move (by rw [hp]; rfl)
  | post job hfree => exact h.post rfl (by simp [hfree]) (by simp)
  | emplaceBack hg => exact h.post rfl (by simp [hg]) (by simp)
  | notifyOne i hg hp =>
      have hmoved : Exclusive (s.move i .woken) := h.move (by rw [hp]; rfl)
      exact hmoved.post rfl (by simp [State.move, hg]) (by simp)
  | notifyNone hg => exact h.post rfl (by simp [hg]) (by simp)
  | unlock hg => exact h.post rfl (by simp [hg]) (by simp)
  | store hd => exact h.keep rfl fun _ => rfl
  | notifyAll hd => exact h.keep rfl fun j => notify_holds _
  | join hd hk hended => exact h.keep rfl fun _ => rfl

theorem Exclusive.run {tr : List (Action n α)} {s : State n α} (h : (system n α).Run tr s) :
    Exclusive s := by
  apply h.invariant (P := fun _ s => Exclusive s)
  · intro s hs i
    rw [hs]
    exact iff_of_false (by simp [initial, Phase.holds]) (by simp [initial])
  · intro tr s a s' hs hstep
    exact hs.step (.of_act hstep)

/-- While a worker holds `guard`, no other is where it would be held. -/
theorem Exclusive.move_ne {s : State n α} (h : Exclusive s) {i : Fin n}
    (hi : (s.workers i).holds = true) {p q : Phase α} (hq : q.holds = true) (hpq : p ≠ q)
    (j : Fin n) : (s.move i p).workers j ≠ q := by
  by_cases hj : j = i
  · rw [hj, State.move_workers_self]
    exact hpq
  · rw [State.move_workers_of_ne s p hj]
    intro heq
    exact hj (h.unique hi (heq ▸ hq))

/-! ## The queue under `guard` -/

/-- A worker at or before its pop has a job to pop. -/
structure Ready (s : State n α) : Prop where
  deciding : ∀ i, s.workers i = .deciding → s.isActive = true → s.pendingJobs ≠ []
  popping : ∀ i, s.workers i = .popping → s.pendingJobs ≠ []

theorem Ready.move {s : State n α} (h : Ready s) (i : Fin n) {p : Phase α}
    (hdec : p = .deciding → s.isActive = true → s.pendingJobs ≠ [])
    (hpop : p = .popping → s.pendingJobs ≠ []) : Ready (s.move i p) := by
  constructor
  · intro j hj
    by_cases hji : j = i
    · rw [hji, State.move_workers_self] at hj
      exact hdec hj
    · rw [State.move_workers_of_ne s p hji] at hj
      exact h.deciding j hj
  · intro j hj
    by_cases hji : j = i
    · rw [hji, State.move_workers_self] at hj
      exact hpop hj
    · rw [State.move_workers_of_ne s p hji] at hj
      exact h.popping j hj

/-- A worker goes on to a phase that does not concern the queue. -/
theorem Ready.move_aside {s : State n α} (h : Ready s) (i : Fin n) {p : Phase α}
    (hdec : p ≠ .deciding) (hpop : p ≠ .popping) : Ready (s.move i p) :=
  h.move i (fun hp => absurd hp hdec) (fun hp => absurd hp hpop)

theorem Ready.keep {s s' : State n α} (h : Ready s) (hworkers : s'.workers = s.workers)
    (hactive : s'.isActive = s.isActive) (hjobs : s'.pendingJobs = s.pendingJobs) : Ready s' := by
  constructor
  · rw [hworkers, hactive, hjobs]
    exact h.deciding
  · rw [hworkers, hjobs]
    exact h.popping

theorem Releases.aside {p q : Phase α} (h : Releases p q) : q ≠ .deciding ∧ q ≠ .popping := by
  cases h <;> simp

theorem Ready.step {s s' : State n α} {a : Action n α} (h : Ready s) (hex : Exclusive s)
    (hstep : Steps s a s') : Ready s' := by
  cases hstep with
  | check i hp =>
      apply h.move_aside i
      all_goals split <;> simp
  | lock i hp hfree => exact (h.move_aside i (by simp) (by simp)).keep rfl rfl rfl
  | evaluate i hp =>
      refine h.move i ?_ (by split <;> simp)
      intro hdec hactive
      -- the predicate was true and `m_is_active` is not the reason
      split at hdec
      · next hpred => simpa [State.predicate, hactive] using hpred
      · cases hdec
  | release i hp =>
      have haside := h.move_aside i hp.aside.1 hp.aside.2
      exact haside.keep rfl rfl rfl
  | decide i hp =>
      apply h.move i (by split <;> simp)
      intro hpop
      split at hpop
      · next hactive => exact h.deciding i hp hactive
      · cases hpop
  | pop i hp hjobs =>
      -- nobody else is inside
      have hheld : (s.workers i).holds = true := by
        rw [hp]
        rfl
      constructor
      · intro j hj
        exact absurd hj (hex.move_ne hheld rfl (by simp) j)
      · intro j hj
        exact absurd hj (hex.move_ne hheld rfl (by simp) j)
  | execute i hp => exact (h.move_aside i (p := .checking) (by simp) (by simp)).keep rfl rfl rfl
  | spurious i hp => exact h.move_aside i (by simp) (by simp)
  | post job hfree => exact h.keep rfl rfl rfl
  | emplaceBack hg => exact ⟨fun _ _ _ => by simp, fun _ _ => by simp⟩
  | notifyOne i hg hp => exact (h.move_aside i (p := .woken) (by simp) (by simp)).keep rfl rfl rfl
  | notifyNone hg => exact h.keep rfl rfl rfl
  | unlock hg => exact h.keep rfl rfl rfl
  | store hd => exact ⟨fun _ _ hactive => by simp at hactive, h.popping⟩
  | notifyAll hd =>
      constructor
      · intro j hj
        exact h.deciding j (eq_of_notify hj (by simp))
      · intro j hj
        exact h.popping j (eq_of_notify hj (by simp))
  | join hd hk hended => exact h.keep rfl rfl rfl

theorem Ready.run {tr : List (Action n α)} {s : State n α} (h : (system n α).Run tr s) :
    Ready s := by
  refine (h.invariant (P := fun _ s => Exclusive s ∧ Ready s) ?_ ?_).2
  · intro s hs
    refine ⟨.run (.init hs), ?_⟩
    rw [hs]
    exact ⟨by simp [initial], by simp [initial]⟩
  · intro tr s a s' hs hstep
    have hstep := Steps.of_act hstep
    exact ⟨hs.1.step hstep, hs.2.step hs.1 hstep⟩

/-- **`front()` is called on a job.**  The step of a worker at its pop is
always defined. -/
theorem pop_defined {tr : List (Action n α)} {s : State n α} (h : (system n α).Run tr s)
    {i : Fin n} (hp : s.workers i = .popping) : ∃ s', act s (.worker i) = some s' := by
  obtain ⟨job, rest, hjobs⟩ := List.exists_cons_of_ne_nil ((Ready.run h).popping i hp)
  simp only [act, run, hp, hjobs]
  exact ⟨_, rfl⟩

/-! ## Posted, taken, executed -/

/-- The job a worker has taken and not called. -/
def Phase.hand : Phase α → Option α
  | .popped job | .running job => some job
  | _ => none

theorem WantsGuard.hand {p : Phase α} (h : WantsGuard p) : p.hand = none := by
  cases h <;> rfl

theorem Releases.hand {p q : Phase α} (h : Releases p q) : q.hand = p.hand := by
  cases h <;> rfl

/-- The entries of one worker in a log. -/
def ofWorker (i : Fin n) (log : List (Fin n × α)) : List (Fin n × α) :=
  log.filter fun e => e.1 = i

theorem ofWorker_concat_self (i : Fin n) (log : List (Fin n × α)) (job : α) :
    ofWorker i (log ++ [(i, job)]) = ofWorker i log ++ [(i, job)] := by
  simp [ofWorker]

theorem ofWorker_concat_of_ne {i j : Fin n} (h : j ≠ i) (log : List (Fin n × α)) (job : α) :
    ofWorker j (log ++ [(i, job)]) = ofWorker j log := by
  simp [ofWorker, Ne.symm h]

/-- Every posted job is taken or waits, in order; every taken one was executed
by the worker that took it or is in its hand. -/
structure Accounted (s : State n α) : Prop where
  posted : s.posted = s.taken.map Prod.snd ++ s.pendingJobs
  taken : ∀ i, ofWorker i s.taken =
    ofWorker i s.executed ++ ((s.workers i).hand.map (i, ·)).toList

/-- A step that takes and executes no job. -/
theorem Accounted.keep {s s' : State n α} (h : Accounted s) (hposted : s'.posted = s.posted)
    (hjobs : s'.pendingJobs = s.pendingJobs) (htaken : s'.taken = s.taken)
    (hexec : s'.executed = s.executed)
    (hhand : ∀ j, (s'.workers j).hand = (s.workers j).hand) : Accounted s' := by
  constructor
  · rw [hposted, htaken, hjobs]
    exact h.posted
  · intro j
    rw [htaken, hexec, hhand]
    exact h.taken j

theorem hand_move {s : State n α} {i : Fin n} {p : Phase α} (hp : p.hand = (s.workers i).hand)
    (j : Fin n) : ((s.move i p).workers j).hand = (s.workers j).hand := by
  by_cases hj : j = i
  · rw [hj, State.move_workers_self, hp]
  · rw [State.move_workers_of_ne s p hj]

theorem Accounted.pop {s : State n α} (h : Accounted s) {i : Fin n} {job : α} {rest : List α}
    (hp : s.workers i = .popping) (hjobs : s.pendingJobs = job :: rest) :
    Accounted { s.move i (.popped job) with
      pendingJobs := rest
      taken := s.taken ++ [(i, job)] } := by
  constructor
  · simp only [h.posted, hjobs, State.move, List.map_append, List.map_cons, List.map_nil,
      List.append_assoc, List.cons_append, List.nil_append]
  · intro j
    by_cases hj : j = i
    · subst hj
      have hbefore := h.taken j
      rw [hp] at hbefore
      simp only [ofWorker_concat_self, hbefore, State.move_workers_self]
      simp [Phase.hand, State.move]
    · simp only [ofWorker_concat_of_ne hj, State.move_workers_of_ne s _ hj]
      exact h.taken j

theorem Accounted.execute {s : State n α} (h : Accounted s) {i : Fin n} {job : α}
    (hp : s.workers i = .running job) :
    Accounted { s.move i .checking with executed := s.executed ++ [(i, job)] } := by
  constructor
  · exact h.posted
  · intro j
    by_cases hj : j = i
    · subst hj
      have hbefore := h.taken j
      rw [hp] at hbefore
      simp only [ofWorker_concat_self, State.move_workers_self]
      simpa [Phase.hand, State.move] using hbefore
    · simp only [ofWorker_concat_of_ne hj, State.move_workers_of_ne s _ hj]
      exact h.taken j

theorem Accounted.step {s s' : State n α} {a : Action n α} (h : Accounted s)
    (hstep : Steps s a s') : Accounted s' := by
  cases hstep with
  | pop i hp hjobs => exact h.pop hp hjobs
  | execute i hp => exact h.execute hp
  | check i hp => exact h.keep rfl rfl rfl rfl (hand_move (by rw [hp]; split <;> rfl))
  | lock i hp hfree =>
      exact h.keep rfl rfl rfl rfl (hand_move (p := .evaluating) hp.hand.symm)
  | evaluate i hp => exact h.keep rfl rfl rfl rfl (hand_move (by rw [hp]; split <;> rfl))
  | release i hp =>
      exact h.keep rfl rfl rfl rfl (hand_move hp.hand)
  | decide i hp => exact h.keep rfl rfl rfl rfl (hand_move (by rw [hp]; split <;> rfl))
  | spurious i hp => exact h.keep rfl rfl rfl rfl (hand_move (by rw [hp]; rfl))
  | emplaceBack hg =>
      constructor
      · simp only [h.posted, List.append_assoc]
      · exact h.taken
  | notifyOne i hg hp =>
      exact h.keep rfl rfl rfl rfl (hand_move (p := .woken) (by rw [hp]; rfl))
  | notifyAll hd =>
      refine h.keep rfl rfl rfl rfl ?_
      intro j
      cases hw : s.workers j <;> simp [hw, Phase.notify, Phase.hand]
  | post job hfree => exact h.keep rfl rfl rfl rfl fun _ => rfl
  | notifyNone hg => exact h.keep rfl rfl rfl rfl fun _ => rfl
  | unlock hg => exact h.keep rfl rfl rfl rfl fun _ => rfl
  | store hd => exact h.keep rfl rfl rfl rfl fun _ => rfl
  | join hd hk hended => exact h.keep rfl rfl rfl rfl fun _ => rfl

theorem Accounted.run {tr : List (Action n α)} {s : State n α} (h : (system n α).Run tr s) :
    Accounted s := by
  apply h.invariant (P := fun _ s => Accounted s)
  · intro s hs
    rw [hs]
    exact ⟨rfl, fun _ => rfl⟩
  · intro tr s a s' hs hstep
    exact hs.step (.of_act hstep)

/-- Jobs are taken in posting order. -/
theorem Accounted.taken_in_order {s : State n α} (h : Accounted s) :
    s.taken.map Prod.snd <+: s.posted :=
  ⟨s.pendingJobs, h.posted.symm⟩

/-- Every execution is the execution of one taken job. -/
theorem Accounted.executed_subperm {s : State n α} (h : Accounted s) :
    s.executed.Subperm s.taken := by
  classical
  let _ : BEq (Fin n × α) := instBEqOfDecidableEq
  rw [List.subperm_iff_count]
  intro e
  have inLog : ∀ log : List (Fin n × α), (ofWorker e.1 log).count e = log.count e :=
    fun log => List.count_filter (by simp)
  rw [← inLog s.executed, ← inLog s.taken, h.taken e.1, List.count_append]
  exact Nat.le_add_right _ _

/-- Every execution is the execution of one posted job. -/
theorem Accounted.executed_subperm_posted {s : State n α} (h : Accounted s) :
    (s.executed.map Prod.snd).Subperm s.posted := by
  obtain ⟨l, hperm, hsub⟩ := h.executed_subperm
  have hmap : (s.executed.map Prod.snd).Subperm (s.taken.map Prod.snd) :=
    ⟨l.map Prod.snd, hperm.map Prod.snd, hsub.map Prod.snd⟩
  exact hmap.trans h.taken_in_order.sublist.subperm

end ElephantShrew.ThreadPool
