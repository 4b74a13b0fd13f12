import ElephantShrew.Store.Progress

/-!
# The destructor ends

`WaitForPendingWrites` ends by its timeout at the latest; then the io context is
stopped, the handler that runs ends, and the join returns.  What the connection has
not answered by then is never settled.
-/

namespace ElephantShrew.Store.Wakeups

open ElephantShrew.Verified

variable {o : Options} {s s' : State} {a : Action} {ρ : Trace (system o)}

/-- Nothing is pending in a closed store in the end, unless the io context is stopped
first. -/
theorem drains (hfair : ∀ p, ρ.Fair (By p)) :
    ρ.LeadsTo (fun s => s.store.acceptingWrites = false)
      fun s => s.store.pendingWrites = 0 ∨ Stopped s := by
  intro u hclosed
  obtain ⟨v, hv, hall⟩ := all_settle hfair _ u (Nat.le_refl _)
  obtain ⟨tr, h⟩ := ρ.reachable v
  refine ⟨v, hv, hall.imp (fun hall => ?_) id⟩
  apply (Inv.run h).pending_zero
  intro id hid
  rw [(closed_stays hclosed hv).2] at hid
  exact hall id hid

/-! ## The destructor -/

/-- The destructor was called. -/
def Destroyed (s : State) : Prop := s.store.destructor ≠ .notStarted

/-- How far the destructor is from `ioc_.stop()`. -/
def toStop (s : State) : Nat :=
  match s.store.destructor, s.ending with
  | .waiting, _ => 3
  | _, .notStarted => 2
  | _, _ => 1

/-- What a step does to the destructor. -/
theorem destructor_next {st st' : Store.State} {b : Store.Action}
    (h : Store.next o st b = some st') (hd : st.destructor ≠ .notStarted) :
    st'.destructor = st.destructor ∧ b ≠ .waitEnds ∨
      st.destructor = .waiting ∧ ∃ drained, st'.destructor = .finished drained := by
  cases Store.Steps.of_next h with
  | stopAccepting hnot => exact absurd hnot hd
  | waitEnds hwait => exact Or.inr ⟨hwait, _, rfl⟩
  | reserve t packet hc =>
      refine Or.inl ⟨?_, Store.Action.noConfusion⟩
      unfold reserve
      split
      · rfl
      · split <;> rfl
  | job | store | wake | storeReturn => exact Or.inl ⟨rfl, Store.Action.noConfusion⟩

/-- **One step** nearer to `ioc_.stop()`, or none of the destructor's. -/
theorem toStop_step (hinv : Inv o s) (h : Destroyed s) (hrun : ¬ Stopped s)
    (hstep : Steps o s a s') :
    Stopped s' ∨ (Destroyed s' ∧
      (toStop s' < toStop s ∨ (toStop s' = toStop s ∧ ¬ By .destructor a))) := by
  cases hstep with
  | wakeNotified t store hend hn hstore =>
      rcases destructor_next hstore h with ⟨hd, -⟩ | ⟨hwait, drained, hd⟩
      · refine Or.inr ⟨?_, Or.inr ⟨?_, fun hby => hby⟩⟩
        · exact fun hnot => h (hd.symm.trans hnot)
        · simp only [toStop, hd]
      · cases Store.Steps.of_next hstore with
        | wake _ packet hc =>
            rw [show s.store.destructor = .finished drained from hd] at hwait
            cases hwait
  | notifyAll hend hdue => exact Or.inr ⟨h, Or.inr ⟨rfl, fun hby => hby⟩⟩
  | cancel drained hend hd =>
      refine Or.inr ⟨h, Or.inl ?_⟩
      simp [toStop, hend, hd]
  | stop hend => exact Or.inl (Or.inl rfl)
  | join hend hidle => exact absurd (Or.inl hend) hrun
  | store b store hallows hstore =>
      rcases destructor_next hstore h with ⟨hd, hb⟩ | ⟨hwait, drained, hd⟩
      · refine Or.inr ⟨?_, Or.inr ⟨?_, ?_⟩⟩
        · exact fun hnot => h (hd.symm.trans hnot)
        · simp only [toStop, hd]
        · intro hby
          cases b <;> first | exact hby | exact hb rfl
      · have hend : s.ending = .notStarted := by
          by_contra hend
          obtain ⟨drained', hd'⟩ := hinv.ending hend
          rw [hwait] at hd'
          cases hd'
        refine Or.inr ⟨?_, Or.inl ?_⟩
        · exact fun hnot => Destructor.noConfusion (hd.symm.trans hnot)
        · simp [toStop, hd, hwait, hend]

/-- The destructor can go on. -/
theorem enabled_toStop (h : Destroyed s) (hrun : ¬ Stopped s) :
    (system o).Enabled (By .destructor) s := by
  cases hd : s.store.destructor with
  | notStarted => exact absurd hd h
  | waiting =>
      have hstore : Store.next o s.store .waitEnds =
          some { s.store with destructor := .finished (decide (s.store.pendingWrites = 0)) } := by
        simp only [Store.next, hd]
      obtain ⟨s', hs'⟩ := next_store (allows_of_not_stopped hrun _) hstore
      exact enabled_of (p := .destructor) (a := .store .waitEnds) trivial hs'
  | finished drained =>
      cases hend : s.ending with
      | notStarted =>
          apply enabled_of (p := .destructor) (a := .cancel) trivial
          simp only [next, hend, hd]
          rfl
      | cancelled =>
          apply enabled_of (p := .destructor) (a := .stop) trivial
          simp only [next, hend]
          rfl
      | stopped => exact absurd (Or.inl hend) hrun
      | joined => exact absurd (Or.inr hend) hrun

/-- The wait ends, by its timeout at the latest, and the io context is stopped. -/
theorem stops (hfair : ∀ p, ρ.Fair (By p)) : ρ.LeadsTo Destroyed Stopped := by
  have hgoes : ρ.LeadsTo (fun s => Destroyed s ∧ ¬ Stopped s) Stopped := by
    apply Trace.LeadsTo.ranked hfair toStop fun _ => .destructor
    · rintro s a s' ⟨tr, hs⟩ ⟨h, hrun⟩ hstep
      rcases toStop_step (Inv.run hs) h hrun (.of_next hstep) with hstopped | ⟨h', hless⟩
      · exact Or.inl hstopped
      · by_cases hrun' : Stopped s'
        · exact Or.inl hrun'
        · exact Or.inr ⟨⟨h', hrun'⟩, hless.imp id fun hsame => ⟨hsame.1, rfl, hsame.2⟩⟩
    · intro r p
      apply Trace.LeadsTo.of_imp
      rintro s - ⟨⟨h, hrun⟩, -, rfl⟩
      exact Or.inl (enabled_toStop h hrun)
  intro u hu
  by_cases hstopped : Stopped (ρ.state u)
  · exact ⟨u, Nat.le_refl u, hstopped⟩
  · exact hgoes u ⟨hu, hstopped⟩

/-- The io thread is not in a handler of the packet, and will not be. -/
def Quiet (id : Nat) (s : State) : Prop :=
  Stopped s ∧ ∀ j, s.store.jobs[id]? = some j → inHandler j.phase = false

/-- A stopped io context only ends handlers. -/
theorem job_step_stopped (hstopped : Stopped s) (h : Steps o s a s') {id : Nat} {j : Job}
    (hj : s.store.jobs[id]? = some j) :
    ∃ j', s'.store.jobs[id]? = some j' ∧
      (inHandler j'.phase = false ∨ (j' = j ∧ ¬ By (.packet id) a)) := by
  cases h with
  | notifyAll | cancel | stop | join => exact ⟨j, hj, Or.inr ⟨rfl, fun hby => hby⟩⟩
  | wakeNotified t store hend hn hstore =>
      rcases job_next hstore hj with ⟨act, j', hb, -⟩ | ⟨-, hsame⟩
      · cases hb
      · exact ⟨j, hsame, Or.inr ⟨rfl, fun hby => hby⟩⟩
  | store b store hallows hstore =>
      rcases job_next hstore hj with ⟨act, j', rfl, hstep, hj'⟩ | ⟨hother, hsame⟩
      · refine ⟨j', hj', Or.inl ?_⟩
        have hstart : startsHandler (.job id act) = false := by
          rcases hstopped with hend | hend <;> rw [hend] at hallows
          · simpa [allows] using hallows
          · cases hallows
        obtain ⟨packet, phase, completions⟩ := j
        cases act with
        | post ok =>
            cases phase <;> simp only [Job.step, Option.some.injEq, reduceCtorEq] at hstep
            subst hstep
            cases ok <;> rfl
        | task r => cases hstart
        | handler failed => cases hstart
        | completePendingWrite =>
            cases phase <;> simp only [Job.step, Option.some.injEq, reduceCtorEq] at hstep
            all_goals
              subst hstep
              rfl
      · refine ⟨j, hsame, Or.inr ⟨rfl, ?_⟩⟩
        intro hby
        cases b <;> try exact hby
        case job i act =>
          rw [show i = id from hby] at hother
          exact hother act rfl

theorem Quiet.step {id : Nat} (h : Quiet id s) (hinv : Inv o s) (hstep : Steps o s a s') :
    Quiet id s' := by
  refine ⟨h.1.step hstep, fun j' hj' => ?_⟩
  cases hj : s.store.jobs[id]? with
  | some j =>
      obtain ⟨j'', hj'', hquiet | ⟨rfl, -⟩⟩ := job_step_stopped h.1 hstep hj
      · rw [hj'] at hj''
        injection hj'' with heq
        rwa [heq]
      · rw [hj'] at hj''
        injection hj'' with heq
        rw [heq]
        exact h.2 _ hj
  | none =>
      -- nothing is admitted any more
      have hlength := (closed_step (h.1.closed hinv) hstep).2
      have hlt := (List.getElem?_eq_some_iff.mp hj').1
      have hge := List.getElem?_eq_none_iff.mp hj
      omega

/-- The handler that runs when the io context is stopped ends. -/
theorem quiets (hfair : ∀ p, ρ.Fair (By p)) (id : Nat) :
    ρ.LeadsTo Stopped fun s => Quiet id s ∨ s.ending = .joined := by
  have hrunning : ρ.LeadsTo
      (fun s => s.ending = .stopped ∧ ∃ j, s.store.jobs[id]? = some j ∧ inHandler j.phase = true)
      fun s => Quiet id s ∨ s.ending = .joined := by
    apply Trace.LeadsTo.fair (hfair (.packet id))
    · rintro s a s' hs ⟨hend, j, hj, hin⟩ hstep
      have hsteps := Steps.of_next hstep
      have hstopped : Stopped s := Or.inl hend
      obtain ⟨j', hj', hquiet | ⟨rfl, hnot⟩⟩ := job_step_stopped hstopped hsteps hj
      · refine Or.inl (Or.inl ⟨hstopped.step hsteps, fun j'' hj'' => ?_⟩)
        rw [hj'] at hj''
        injection hj'' with heq
        rwa [← heq]
      · rcases hstopped.step hsteps with hend' | hend'
        · exact Or.inr ⟨⟨hend', j', hj', hin⟩, hnot⟩
        · exact Or.inl (Or.inr hend')
    · apply Trace.LeadsTo.of_imp
      rintro s - ⟨hend, j, hj, hin⟩
      apply Or.inl
      have hstep : ∃ j', j.step o .completePendingWrite = some j' := by
        obtain ⟨packet, phase, completions⟩ := j
        cases phase <;> simp only [inHandler, reduceCtorEq] at hin
        · exact ⟨_, rfl⟩
        · exact ⟨_, rfl⟩
      obtain ⟨j', hjob⟩ := hstep
      have hstore : Store.next o s.store (.job id .completePendingWrite) =
          some (s.store.setJob id .completePendingWrite j') := by
        simp only [Store.next, hj, hjob]
      obtain ⟨s', hs'⟩ := next_store (allows_of_not_joined (by rw [hend]; decide) rfl) hstore
      exact enabled_of (p := .packet id) (a := .store (.job id .completePendingWrite)) rfl hs'
  intro u hu
  by_cases hin : ∃ j, (ρ.state u).store.jobs[id]? = some j ∧ inHandler j.phase = true
  · rcases hu with hend | hend
    · exact hrunning u ⟨hend, hin⟩
    · exact ⟨u, Nat.le_refl u, Or.inr hend⟩
  · refine ⟨u, Nat.le_refl u, Or.inl ⟨hu, fun j hj => ?_⟩⟩
    by_contra hne
    exact hin ⟨j, hj, Bool.not_eq_false _ |>.mp hne⟩

/-- The join is all that is left to the destructor. -/
theorem not_by_destructor (hinv : Inv o s) (hend : s.ending = .stopped)
    (hend' : s'.ending = .stopped) (hstep : Steps o s a s') : ¬ By .destructor a := by
  cases hstep with
  | cancel drained hnot hd =>
      rw [hend] at hnot
      cases hnot
  | stop hnot =>
      rw [hend] at hnot
      cases hnot
  | join hnot hidle => cases hend'
  | wakeNotified | notifyAll => exact fun hby => hby
  | store b store hallows hstore =>
      obtain ⟨drained, hd⟩ := hinv.ending (by rw [hend]; exact Ending.noConfusion)
      intro hby
      cases b <;> try exact hby
      case waitEnds =>
        simp only [Store.next, hd] at hstore
        cases hstore

/-- **The destructor returns**, whatever the connection does. -/
theorem destroys (hfair : ∀ p, ρ.Fair (By p)) :
    ρ.LeadsTo Destroyed fun s => s.ending = .joined := by
  have hall : ∀ k, ρ.LeadsTo (fun s => Stopped s ∧ s.store.jobs.length = k)
      fun s => ∀ id : Fin k, Quiet id s ∨ s.ending = .joined := by
    intro k
    apply Trace.LeadsTo.all
    · exact fun id u hu => quiets hfair id u hu.1
    · rintro s a s' ⟨tr, hs⟩ ⟨hstopped, hlength⟩ hstep
      have hclosed := hstopped.closed (Inv.run hs)
      exact ⟨hstopped.step (.of_next hstep),
        (closed_step hclosed (.of_next hstep)).2.trans hlength⟩
    · rintro id s a s' ⟨tr, hs⟩ hquiet hstep
      rcases hquiet with hquiet | hend
      · exact Or.inl (hquiet.step (Inv.run hs) (.of_next hstep))
      · exact absurd hend (Steps.of_next hstep).alive
  have hjoin : ρ.LeadsTo (fun s => s.ending = .stopped ∧ ∀ id, Quiet id s)
      fun s => s.ending = .joined := by
    apply Trace.LeadsTo.fair (hfair .destructor)
    · rintro s a s' ⟨tr, hs⟩ ⟨hend, hquiet⟩ hstep
      have hsteps := Steps.of_next hstep
      rcases (hquiet 0).1.step hsteps with hend' | hend'
      · exact Or.inr ⟨⟨hend', fun id => (hquiet id).step (Inv.run hs) hsteps⟩,
          not_by_destructor (Inv.run hs) hend hend' hsteps⟩
      · exact Or.inl hend'
    · apply Trace.LeadsTo.of_imp
      rintro s - ⟨hend, hquiet⟩
      apply Or.inl
      apply enabled_of (p := .destructor) (a := .join) trivial
      have hready : s.ending = .stopped ∧ ∀ j ∈ s.store.jobs, inHandler j.phase = false := by
        refine ⟨hend, fun j hj => ?_⟩
        obtain ⟨id, hid⟩ := List.getElem?_of_mem hj
        exact (hquiet id).2 j hid
      simp only [next, if_pos hready]
      rfl
  apply (stops hfair).trans
  intro u hu
  obtain ⟨v, hv, hquiet⟩ := hall _ u ⟨hu, rfl⟩
  by_cases hend : (ρ.state v).ending = .joined
  · exact ⟨v, hv, hend⟩
  · obtain ⟨tr, h⟩ := ρ.reachable u
    have hstopped : Stopped (ρ.state v) :=
      Trace.stable (P := Stopped) (fun s a s' _ hs hstep => hs.step (.of_next hstep)) hu hv
    have hlength := (closed_stays (hu.closed (Inv.run h)) hv).2
    have hquiet' : ∀ id, Quiet id (ρ.state v) := by
      intro id
      rcases Nat.lt_or_ge id (ρ.state u).store.jobs.length with hid | hid
      · exact (hquiet ⟨id, hid⟩).resolve_right hend
      · refine ⟨hstopped, fun j hj => ?_⟩
        have hlt := (List.getElem?_eq_some_iff.mp hj).1
        omega
    obtain ⟨w, hw, hjoined⟩ := hjoin v ⟨hstopped.resolve_right hend, hquiet'⟩
    exact ⟨w, hv.trans hw, hjoined⟩

/-! ## The law -/

/-- What a fair scheduler brings about. -/
structure Live (o : Options) (ρ : Trace (system o)) : Prop where
  /-- the states are states of the store -/
  store : ∀ u, ∃ tr, (Store.system o).Run tr (ρ.state u).store
  /-- an admitted packet is settled, unless the io context is stopped first -/
  settles : ∀ id, ρ.LeadsTo (fun s => id < s.store.jobs.length) fun s => Settled id s ∨ Stopped s
  /-- a thread returns, unless packets are admitted for ever or the store is gone -/
  served : ∀ t k, ρ.LeadsTo (fun s => s.store.callers t ≠ .idle ∧ s.store.jobs.length = k)
    fun s => Served t k s ∨ s.ending = .joined
  /-- once the store does not accept, every thread returns, or the store is gone first -/
  returns : ∀ t, ρ.LeadsTo (fun s => s.store.acceptingWrites = false)
    fun s => s.store.callers t = .idle ∨ s.ending = .joined
  /-- nothing is pending in the end, unless the io context is stopped first -/
  drains : ρ.LeadsTo (fun s => s.store.acceptingWrites = false)
    fun s => s.store.pendingWrites = 0 ∨ Stopped s
  /-- it is stopped after the wait -/
  waited : ∀ u, Stopped (ρ.state u) → ∃ drained, (ρ.state u).store.destructor = .finished drained
  /-- and the destructor returns -/
  destroys : ρ.LeadsTo Destroyed fun s => s.ending = .joined
  /-- if the wait does not time out, everything admitted is settled -/
  drained : (∀ u, (ρ.state u).store.destructor ≠ .finished false) →
    (∀ id, ρ.LeadsTo (fun s => id < s.store.jobs.length) (Settled id)) ∧
      ρ.LeadsTo (fun s => s.store.acceptingWrites = false) fun s => s.store.pendingWrites = 0

theorem Stopped.finished (h : Stopped s) (hinv : Inv o s) :
    ∃ drained, s.store.destructor = .finished drained := by
  apply hinv.ending
  rcases h with h | h <;> rw [h] <;> exact Ending.noConfusion

/-- Stopping after a wait that did not time out finds everything settled. -/
theorem settled_of_stopped (htimely : ∀ u, (ρ.state u).store.destructor ≠ .finished false)
    {u : Nat} (h : Stopped (ρ.state u)) {id : Nat} (hid : id < (ρ.state u).store.jobs.length) :
    Settled id (ρ.state u) := by
  obtain ⟨tr, hrun⟩ := ρ.reachable u
  have hinv := Inv.run hrun
  obtain ⟨drained, hd⟩ := h.finished hinv
  cases drained with
  | true =>
      exact ⟨_, List.getElem?_eq_getElem hid, hinv.store.drained hd _ (List.getElem_mem hid)⟩
  | false => exact absurd hd (htimely u)

/-- **The store makes progress**, for every limit and every fair schedule. -/
theorem redisPacketStore_progress (o : Options) (ρ : Trace (system o))
    (hfair : ∀ p, ρ.Fair (By p)) : Live o ρ where
  store := by
    intro u
    obtain ⟨tr, h⟩ := ρ.reachable u
    obtain ⟨store, hrun, hstore⟩ := (simulation o).run h
    exact ⟨_, hstore ▸ hrun⟩
  settles := settles hfair
  served := served hfair
  returns := leaves hfair
  drains := drains hfair
  waited := by
    intro u hu
    obtain ⟨tr, h⟩ := ρ.reachable u
    exact hu.finished (Inv.run h)
  destroys := destroys hfair
  drained := by
    intro htimely
    constructor
    · intro id u hid
      obtain ⟨v, hv, hsettled | hstopped⟩ := settles hfair id u hid
      · exact ⟨v, hv, hsettled⟩
      · refine ⟨v, hv, settled_of_stopped htimely hstopped ?_⟩
        exact Nat.lt_of_lt_of_le hid (length_le_of_le hv)
    · intro u hclosed
      obtain ⟨v, hv, hzero | hstopped⟩ := drains hfair u hclosed
      · exact ⟨v, hv, hzero⟩
      · obtain ⟨tr, h⟩ := ρ.reachable v
        exact ⟨v, hv, (Inv.run h).pending_zero fun id hid =>
          settled_of_stopped htimely hstopped hid⟩

/-- Nothing is possible when the store is gone. -/
theorem not_enabled_joined (h : s.ending = .joined) (p : Party) :
    ¬ (system o).Enabled (By p) s := by
  rintro ⟨a, s', -, hstep⟩
  exact (Steps.of_next hstep).alive h

/-- A backlog of one: thread 4 sleeps until the packet of thread 3 is settled; the
connection does not answer for its own, and the wait of the destructor times out. -/
theorem run_timedOut : ∃ tr s, (system ⟨"stream", 1, by decide⟩).Run tr s ∧
    s.ending = .joined ∧ Settled 0 s ∧ ¬ Settled 1 s ∧ s.store.destructor = .finished false := by
  have start : (system ⟨"stream", 1, by decide⟩).Run []
      ⟨⟨0, true, fun _ => .idle, [], .notStarted⟩, fun _ => false, 0, .notStarted⟩ :=
    .init ⟨⟨rfl, rfl, fun _ => rfl, rfl, rfl⟩, rfl, rfl⟩
  have posted := (((start.act (.store (.store 3 ⟨"eth0", "a", "b", "TCP", 1, 0, "00"⟩)) rfl).act
    (.store (.reserve 3)) rfl).act (.store (.job 0 (.post true))) rfl).act
    (.store (.storeReturn 3)) rfl
  have asleep := (posted.act (.store (.store 4 ⟨"eth1", "b", "a", "TCP", 1, 1, "01"⟩)) rfl).act
    (.store (.reserve 4)) rfl
  have settled := (((asleep.act (.store (.job 0 (.task .accepted))) rfl).act
    (.store (.job 0 (.handler false))) rfl).act
    (.store (.job 0 .completePendingWrite)) rfl).act .notifyAll rfl
  have admitted := ((((settled.act (.wakeNotified 4) rfl).act (.store (.reserve 4)) rfl).act
    (.store (.job 1 (.post true))) rfl).act (.store (.storeReturn 4)) rfl).act
    (.store (.job 1 (.task .accepted))) rfl
  have run := (((((admitted.act (.store .stopAccepting) rfl).act .notifyAll rfl).act
    (.store .waitEnds) rfl).act .cancel rfl).act .stop rfl).act .join rfl
  refine ⟨_, _, run, rfl, ⟨_, rfl, fun hun => hun rfl⟩, ?_, rfl⟩
  rintro ⟨j, hj, hset⟩
  injection hj with hj
  apply hset
  rw [← hj]
  exact Phase.noConfusion

theorem redisPacketStore_progress_timedOut :
    ∃ ρ : Trace (system ⟨"stream", 1, by decide⟩), Live _ ρ ∧
      ∃ u, (ρ.state u).ending = .joined ∧ Settled 0 (ρ.state u) ∧ ¬ Settled 1 (ρ.state u) := by
  obtain ⟨tr, s, hrun, hjoined, hsettled, hlost, -⟩ := run_timedOut
  obtain ⟨ρ, hρ⟩ := Trace.exists_of_run hrun
  have hend : ∀ u ≥ tr.length, ρ.state u = s := fun u hu => (hρ u hu).1
  have hfair : ∀ p, ρ.Fair (By p) := fun p => Trace.Fair.of_end hend (not_enabled_joined hjoined p)
  refine ⟨ρ, redisPacketStore_progress _ ρ hfair, tr.length, ?_⟩
  rw [hend _ (Nat.le_refl _)]
  exact ⟨hjoined, hsettled, hlost⟩

end ElephantShrew.Store.Wakeups
