import ElephantShrew.Store.Teardown
import Mathlib.Algebra.GroupWithZero.Nat
import Mathlib.Algebra.Order.BigOperators.Group.Finset

/-!
# A backlog that fits

Once the connection has stopped answering, a write it has not answered keeps its
slot, and a callback that asks for a slot takes one that no write will free.
What is asked of the store in this sense is its `demand`.  As long as the demand
fits into `max_pending_writes`, every callback finds a slot and teardown runs to
its end; when it does not, some schedule ends in the circular wait.

The second half is a search made by an induction: in a state that asks for too
much, every step chosen (a packet handed over, a callback let in, a receiver
stopped) keeps the demand and brings the program closer to the wait, as `rest`
measures it.
-/

namespace ElephantShrew.Store.Teardown

open ElephantShrew.Verified

/-! ## Demand -/

/-- The slots a packet keeps if the connection answers nothing any more. -/
def Phase.keeps : Phase → Nat
  | .posting | .posted | .executing _ => 1
  | .postFailed | .taskFailed | .completing _ | .settled => 0

/-- The slots a callback still asks for. -/
def Caller.asks : Caller → Nat
  | .reserving _ | .waiting _ => 1
  | .idle | .storing _ => 0

/-- The slots asked for while the connection answers nothing: those of the writes
it has not answered, and of the callbacks of the `n` capture threads. -/
def demand (n : Nat) (st : Store.State) : Nat :=
  (st.jobs.map fun j => Phase.keeps j.phase).sum +
    ∑ t ∈ Finset.range n, Caller.asks (st.callers t)

/-- The connection stops answering when the store is released or the demand fits,
and afterwards a callback calls `Store` only while there is room for it. -/
def FitsBacklog (o : Options) (n : Nat) (s : State) : Action → Prop
  | .stall => s.teardown = .released ∨ demand n s.store ≤ o.maxPendingWrites
  | .store (.store _ _) => s.stalled = true → demand n s.store < o.maxPendingWrites
  | _ => True

variable {o : Options} {n : Nat} {s s' : State} {st : Store.State}

/-- One packet changes a sum over all packets by what changes for it. -/
theorem sum_set {w : Job → Nat} {jobs : List Job} {id : Nat} {j : Job}
    (hj : jobs[id]? = some j) (j' : Job) :
    ((jobs.set id j').map w).sum + w j = (jobs.map w).sum + w j' := by
  induction jobs generalizing id with
  | nil => cases hj
  | cons i jobs ih =>
      cases id with
      | zero =>
          injection hj with hj
          subst hj
          simp only [List.set_cons_zero, List.map_cons, List.sum_cons]
          omega
      | succ id =>
          have hrest := ih hj
          simp only [List.set_cons_succ, List.map_cons, List.sum_cons]
          omega

/-- One thread changes a sum over all threads by what changes for it. -/
theorem sum_update (w : Caller → Nat) (callers : Nat → Caller) {t : Nat} (ht : t < n)
    (c : Caller) :
    ∑ i ∈ Finset.range n, w (Function.update callers t c i) + w (callers t) =
      ∑ i ∈ Finset.range n, w (callers i) + w c := by
  have hmem : t ∈ Finset.range n := Finset.mem_range.mpr ht
  have hothers : ∑ i ∈ (Finset.range n).erase t, w (Function.update callers t c i) =
      ∑ i ∈ (Finset.range n).erase t, w (callers i) := by
    apply Finset.sum_congr rfl
    intro i hi
    rw [Function.update_of_ne (Finset.ne_of_mem_erase hi)]
  have hnew := Finset.add_sum_erase _ (fun i => w (Function.update callers t c i)) hmem
  have hold := Finset.add_sum_erase _ (fun i => w (callers i)) hmem
  rw [Function.update_self] at hnew
  omega

/-- A thread moves on. -/
theorem demand_setCaller (st : Store.State) {t : Nat} (ht : t < n) (c : Caller) :
    demand n (st.setCaller t c) + Caller.asks (st.callers t) = demand n st + Caller.asks c := by
  have hsum := sum_update Caller.asks st.callers ht c
  simp only [demand, Store.State.setCaller]
  omega

/-- A packet moves on. -/
theorem demand_setJob {id : Nat} {j : Job} (hj : st.jobs[id]? = some j) (a : JobAction)
    (j' : Job) :
    demand n (st.setJob id a j') + Phase.keeps j.phase = demand n st + Phase.keeps j'.phase := by
  have hsum := sum_set (w := fun j => Phase.keeps j.phase) hj j'
  simp only [demand, Store.State.setJob]
  omega

/-- A packet is admitted. -/
theorem demand_admit (st : Store.State) (pendingWrites : Nat) (packet : PacketInfo) :
    demand n { st with
      pendingWrites := pendingWrites
      jobs := st.jobs ++ [⟨packet, .posting, 0⟩] } = demand n st + 1 := by
  simp only [demand, List.map_append, List.sum_append, List.map_cons, List.map_nil,
    List.sum_cons, List.sum_nil, Phase.keeps]
  omega

/-- A look for a slot takes what was asked for, or gives up asking. -/
theorem demand_reserve {t : Nat} {packet : PacketInfo} (ht : t < n)
    (hc : st.callers t = .reserving packet) :
    demand n (Store.reserve o st t packet) ≤ demand n st := by
  have moved : ∀ c, demand n (st.setCaller t c) + 1 = demand n st + Caller.asks c := by
    intro c
    have h := demand_setCaller st ht c
    rwa [hc] at h
  unfold Store.reserve
  split
  · exact (Nat.add_right_cancel (moved (.waiting packet))).le
  · split
    · have hidle := moved .idle
      simp only [Caller.asks] at hidle
      omega
    · have hstoring := moved (.storing st.jobs.length)
      have hnew := demand_admit (n := n) (st.setCaller t (.storing st.jobs.length))
        (st.pendingWrites + 1) packet
      exact (hnew.trans hstoring).le

/-! ## A demand that fits -/

/-- The demand fits, once it matters. -/
def Fits (o : Options) (n : Nat) (s : State) : Prop :=
  s.stalled = true → s.teardown ≠ .released → demand n s.store ≤ o.maxPendingWrites

/-- No step of a packet adds to the demand. -/
theorem keeps_step {j j' : Job} {a : JobAction} (h : j.step o a = some j') :
    Phase.keeps j'.phase ≤ Phase.keeps j.phase := by
  obtain ⟨packet, phase, completions⟩ := j
  cases a with
  | post ok =>
      cases phase <;> simp only [Job.step, Option.some.injEq, reduceCtorEq] at h
      subst h
      cases ok <;> simp [Phase.keeps]
  | task r =>
      cases phase <;> simp only [Job.step, Option.some.injEq, reduceCtorEq] at h
      subst h
      cases r <;> simp [Phase.keeps]
  | handler failed =>
      cases phase <;> simp only [Job.step, Option.some.injEq, reduceCtorEq] at h
      subst h
      simp [Phase.keeps]
  | completePendingWrite =>
      cases phase <;> simp only [Job.step, Option.some.injEq, reduceCtorEq] at h
      all_goals
        subst h
        simp [Phase.keeps]

/-- Only a call of `Store` adds to the demand, and only one slot. -/
theorem demand_next {st' : Store.State} {a : Store.Action}
    (hbusy : ∀ t, st.callers t ≠ .idle → t < n) (hs : Store.next o st a = some st') :
    demand n st' ≤ demand n st ∨
      ∃ t packet, a = .store t packet ∧ (t < n → demand n st' = demand n st + 1) := by
  cases Steps.of_next hs with
  | store t packet hc =>
      refine Or.inr ⟨t, packet, rfl, fun ht => ?_⟩
      have h := demand_setCaller st ht (.reserving packet)
      rwa [hc] at h
  | reserve t packet hc =>
      have ht : t < n := hbusy t (by rw [hc]; exact Caller.noConfusion)
      exact Or.inl (demand_reserve ht hc)
  | wake t packet hc =>
      have ht : t < n := hbusy t (by rw [hc]; exact Caller.noConfusion)
      have h := demand_setCaller st ht (.reserving packet)
      rw [hc] at h
      exact Or.inl (Nat.add_right_cancel h).le
  | storeReturn t id hc =>
      have ht : t < n := hbusy t (by rw [hc]; exact Caller.noConfusion)
      have h := demand_setCaller st ht .idle
      rw [hc] at h
      exact Or.inl (Nat.add_right_cancel h).le
  | job id a j j' hj hstep =>
      have h := demand_setJob (n := n) hj a j'
      have hkeeps := keeps_step hstep
      exact Or.inl (by omega)
  | stopAccepting hd => exact Or.inl le_rfl
  | waitEnds hd => exact Or.inl le_rfl

/-- **One step** that meets the condition. -/
theorem Fits.next (h : Fits o n s) (horderly : Orderly n s) {a : Action}
    (hs : Teardown.next o n s a = some s') (hfits : FitsBacklog o n s a) : Fits o n s' := by
  cases a with
  | destroy =>
      cases ht : s.teardown <;>
        simp only [Teardown.next, ht, Option.some.injEq, reduceCtorEq] at hs
      subst hs
      exact fun hstalled _ => h hstalled (by rw [ht]; exact Progress.noConfusion)
  | stop =>
      cases ht : s.teardown <;> simp only [Teardown.next, ht, reduceCtorEq] at hs
      split at hs
      · injection hs with hs
        subst hs
        exact fun hstalled _ => h hstalled (by rw [ht]; exact Progress.noConfusion)
      · cases hs
  | stopReturns =>
      cases ht : s.teardown <;> simp only [Teardown.next, ht, reduceCtorEq] at hs
      split at hs
      · injection hs with hs
        subst hs
        exact fun hstalled _ => h hstalled (by rw [ht]; exact Progress.noConfusion)
      · cases hs
  | release =>
      cases ht : s.teardown <;> simp only [Teardown.next, ht, reduceCtorEq] at hs
      split at hs
      · split at hs
        · injection hs with hs
          subst hs
          exact fun _ hne => absurd rfl hne
        · cases hs
      · cases hs
  | stall =>
      injection hs with hs
      subst hs
      exact fun _ hne => hfits.resolve_left hne
  | store b =>
      obtain ⟨hallowed, store, hstore, rfl⟩ := next_store hs
      intro hstalled hne
      have hold := h hstalled hne
      rcases demand_next (fun t hbusy => (horderly.busy t hbusy).1) hstore with
        hle | ⟨t, packet, rfl, hone⟩
      · exact hle.trans hold
      · have ht : t < n := by
          simp only [allowed, Bool.and_eq_true, decide_eq_true_eq] at hallowed
          exact hallowed.1
        have hroom : demand n s.store < o.maxPendingWrites := hfits hstalled
        have hnew := hone ht
        dsimp only
        omega

/-- A sum over the packets counts the unsettled ones if those are all handed over. -/
theorem sum_keeps {jobs : List Job} (h : ∀ j ∈ jobs, j.Unsettled → Handed j) :
    (jobs.map fun j => Phase.keeps j.phase).sum = unsettled jobs := by
  induction jobs with
  | nil => rfl
  | cons j jobs ih =>
      have hrest := ih fun i hi => h i (List.mem_cons_of_mem j hi)
      have hj : Phase.keeps j.phase = if j.Unsettled then 1 else 0 := by
        have hhanded := h j List.mem_cons_self
        obtain ⟨packet, phase, completions⟩ := j
        cases phase <;> simp_all [Job.Unsettled, Handed, Phase.keeps]
      simp only [List.map_cons, List.sum_cons, hrest, hj, unsettled, List.countP_cons,
        decide_eq_true_eq]
      omega

/-- In a full store all that is asked for beyond the limit is asked for by callbacks. -/
theorem Full.demand (hinv : Inv o st) (hfull : Full o st) :
    Teardown.demand n st =
      o.maxPendingWrites + ∑ t ∈ Finset.range n, Caller.asks (st.callers t) := by
  rw [Teardown.demand, sum_keeps hfull.handed, ← hinv.pending, hfull.pending]

/-- A circular wait asks for one slot too many. -/
theorem Fits.not_circularWait (hinv : Inv o s.store) (horderly : Orderly n s) (h : Fits o n s) :
    ¬ CircularWait o s := by
  rintro ⟨hstalled, hfull, t, hstop, ⟨packet, hasleep⟩, -⟩
  have hfits := h hstalled (by rw [hstop]; exact Progress.noConfusion)
  have ht : t < n := (horderly.busy t (by rw [hasleep]; exact Caller.noConfusion)).1
  have hasks : Caller.asks (s.store.callers t) ≤
      ∑ t ∈ Finset.range n, Caller.asks (s.store.callers t) :=
    Finset.single_le_sum (f := fun t => Caller.asks (s.store.callers t))
      (fun _ _ => Nat.zero_le _) (Finset.mem_range.mpr ht)
  have hone : 1 ≤ ∑ t ∈ Finset.range n, Caller.asks (s.store.callers t) := by
    rwa [hasleep] at hasks
  rw [hfull.demand hinv] at hfits
  omega

/-! ## A demand that does not fit -/

/-- The connection is stalled and too many slots are asked for. -/
structure Overdrawn (o : Options) (n : Nat) (s : State) : Prop where
  stalled : s.stalled = true
  exceeds : o.maxPendingWrites < demand n s.store

/-- Steps a callback has before it. -/
def Caller.steps : Caller → Nat
  | .waiting _ => 7
  | .reserving _ => 6
  | .storing _ => 1
  | .idle => 0

/-- Steps the teardown has before it, callbacks apart. -/
def Progress.steps (n : Nat) : Progress → Nat
  | .notStarted => 2 * n + 2
  | .clearing k => 2 * (n - k) + 1
  | .stopping k => 2 * (n - k)
  | .released => 0

/-- How far the program is from the wait. -/
def rest (n : Nat) (s : State) : Nat :=
  (s.store.jobs.map fun j => j.phase.rank).sum +
    ∑ t ∈ Finset.range n, Caller.steps (s.store.callers t) + Progress.steps n s.teardown

/-- A callback past its reservation has an admitted packet. -/
def Admitted (st : Store.State) : Prop :=
  ∀ t id, st.callers t = .storing id → id < st.jobs.length

theorem Admitted.setCaller (h : Admitted st) (t : Nat) {c : Caller}
    (hc : ∀ id, c ≠ .storing id) : Admitted (st.setCaller t c) := by
  intro u id hu
  by_cases hut : u = t
  · rw [hut, st.setCaller_self] at hu
    exact absurd hu (hc id)
  · rw [st.setCaller_of_ne c hut] at hu
    exact h u id hu

theorem Admitted.next {st' : Store.State} (h : Admitted st) {a : Store.Action}
    (hs : Store.next o st a = some st') : Admitted st' := by
  cases Steps.of_next hs with
  | store t packet hc => exact h.setCaller t fun _ => Caller.noConfusion
  | wake t packet hc => exact h.setCaller t fun _ => Caller.noConfusion
  | storeReturn t id hc => exact h.setCaller t fun _ => Caller.noConfusion
  | job id a j j' hj hstep =>
      intro u i hu
      exact (h u i hu).trans_eq List.length_set.symm
  | stopAccepting hd => exact h
  | waitEnds hd => exact h
  | reserve t packet hc =>
      unfold Store.reserve
      split
      · exact h.setCaller t fun _ => Caller.noConfusion
      · split
        · exact h.setCaller t fun _ => Caller.noConfusion
        · intro u id hu
          show id < (st.jobs ++ [(⟨packet, .posting, 0⟩ : Job)]).length
          rw [List.length_append, List.length_singleton]
          by_cases hut : u = t
          · subst hut
            have hid : Caller.storing st.jobs.length = .storing id :=
              (st.setCaller_self u _).symm.trans hu
            injection hid with hid
            omega
          · have hid := h u id ((st.setCaller_of_ne _ hut).symm.trans hu)
            omega

/-- What holds in every state of the program. -/
structure Reached (o : Options) (n : Nat) (s : State) : Prop where
  inv : Inv o s.store
  orderly : Orderly n s
  admitted : Admitted s.store

theorem Reached.run {tr : List Action} (h : (system o n).Run tr s) : Reached o n s := by
  apply h.invariant (P := fun _ s => Reached o n s)
  · intro s hs
    refine ⟨Inv.init hs.1, Orderly.init hs, fun t id ht => ?_⟩
    rw [hs.1.2.2.1 t] at ht
    cases ht
  · intro _ s a s' h hstep
    refine ⟨?_, h.orderly.next hstep, ?_⟩
    · rcases next_store_cases hstep with heq | ⟨b, hb⟩
      · rw [heq]
        exact h.inv
      · exact h.inv.next hb
    · rcases next_store_cases hstep with heq | ⟨b, hb⟩
      · rw [heq]
        exact h.admitted
      · exact h.admitted.next hb

/-- A packet not yet with the connection gets there, or is settled, without giving
up a slot it would keep. -/
theorem step_of_not_handed {j : Job} (hun : j.Unsettled) (hhanded : ¬ Handed j) :
    ∃ a j', j.step o a = some j' ∧ (∀ failed, a ≠ .handler failed) ∧
      Phase.keeps j'.phase = Phase.keeps j.phase := by
  obtain ⟨packet, phase, completions⟩ := j
  cases phase with
  | posting => exact ⟨.post true, _, rfl, fun _ => JobAction.noConfusion, rfl⟩
  | postFailed => exact ⟨.completePendingWrite, _, rfl, fun _ => JobAction.noConfusion, rfl⟩
  | posted => exact ⟨.task .accepted, _, rfl, fun _ => JobAction.noConfusion, rfl⟩
  | taskFailed => exact ⟨.completePendingWrite, _, rfl, fun _ => JobAction.noConfusion, rfl⟩
  | executing request => exact absurd trivial hhanded
  | completing failed =>
      exact ⟨.completePendingWrite, _, rfl, fun _ => JobAction.noConfusion, rfl⟩
  | settled => exact absurd rfl hun

/-- A step towards the wait: there, or closer. -/
def Closer (o : Options) (n : Nat) (s : State) : Prop :=
  ∃ a s', next o n s a = some s' ∧ (CircularWait o s' ∨ (Overdrawn o n s' ∧ rest n s' < rest n s))

/-- A callback goes on and keeps asking, or keeps not asking. -/
theorem Overdrawn.setCaller (h : Overdrawn o n s) {t : Nat} (ht : t < n) {c : Caller}
    (hasks : Caller.asks c = Caller.asks (s.store.callers t))
    (hsteps : Caller.steps c < Caller.steps (s.store.callers t)) :
    Overdrawn o n { s with store := s.store.setCaller t c } ∧
      rest n { s with store := s.store.setCaller t c } < rest n s := by
  have hmoved := demand_setCaller s.store ht c
  have hsum := sum_update Caller.steps s.store.callers ht c
  rw [hasks] at hmoved
  refine ⟨⟨h.stalled, h.exceeds.trans_eq (Nat.add_right_cancel hmoved).symm⟩, ?_⟩
  simp only [rest, Store.State.setCaller]
  omega

/-- The teardown goes on. -/
theorem Overdrawn.advance (h : Overdrawn o n s) (capturing : Nat → Bool) {p : Progress}
    (hp : Progress.steps n p < Progress.steps n s.teardown) :
    Overdrawn o n { s with teardown := p, capturing := capturing } ∧
      rest n { s with teardown := p, capturing := capturing } < rest n s :=
  ⟨⟨h.stalled, h.exceeds⟩, Nat.add_lt_add_left hp _⟩

/-- A packet not yet with the connection takes a step. -/
theorem Overdrawn.closer_job (h : Overdrawn o n s) {j : Job} (hj : j ∈ s.store.jobs)
    (hun : j.Unsettled) (hhanded : ¬ Handed j) : Closer o n s := by
  obtain ⟨id, hid⟩ := List.mem_iff_getElem?.mp hj
  obtain ⟨a, j', hstep, hhandler, hkeeps⟩ := step_of_not_handed (o := o) hun hhanded
  refine ⟨.store (.job id a), { s with store := s.store.setJob id a j' }, ?_, Or.inr ⟨?_, ?_⟩⟩
  · have hallowed : allowed n s (.job id a) = true := by
      cases a with
      | handler failed => exact absurd rfl (hhandler failed)
      | post | task | completePendingWrite => rfl
    simp [next, hallowed, Store.next, hid, hstep]
  · have hdemand := demand_setJob (n := n) hid a j'
    have hover := h.exceeds
    exact ⟨h.stalled, by dsimp only; omega⟩
  · have hsum := sum_set (w := fun j => j.phase.rank) hid j'
    have hrank := Job.step_rank hstep
    simp only [rest, Store.State.setJob]
    omega

/-- A callback of the program asks for a slot when more are asked for than are kept. -/
theorem exists_asking (h : o.maxPendingWrites < demand n st)
    (hkeeps : (st.jobs.map fun j => Phase.keeps j.phase).sum ≤ o.maxPendingWrites) :
    ∃ t < n, ∃ packet, st.callers t = .reserving packet ∨ st.callers t = .waiting packet := by
  have hpos : ∑ t ∈ Finset.range n, Caller.asks (st.callers t) ≠ 0 := by
    rw [demand] at h
    omega
  obtain ⟨t, ht, hasks⟩ := Finset.exists_ne_zero_of_sum_ne_zero hpos
  refine ⟨t, Finset.mem_range.mp ht, ?_⟩
  cases hc : st.callers t with
  | reserving packet => exact ⟨packet, Or.inl rfl⟩
  | waiting packet => exact ⟨packet, Or.inr rfl⟩
  | idle | storing id =>
      rw [hc] at hasks
      exact absurd rfl hasks

/-- While there is room, a callback that asks for a slot gets one. -/
theorem Overdrawn.closer_caller (h : Overdrawn o n s) (horderly : Orderly n s) {t : Nat}
    (ht : t < n) {packet : PacketInfo}
    (hc : s.store.callers t = .reserving packet ∨ s.store.callers t = .waiting packet)
    (hroom : s.store.pendingWrites < o.maxPendingWrites) : Closer o n s := by
  have hover := h.exceeds
  rcases hc with hc | hc
  · have hacc : ¬ s.store.acceptingWrites = false := by
      rw [horderly.accepting_of_busy (t := t) (by rw [hc]; exact Caller.noConfusion)]
      exact Bool.noConfusion
    have hadmits : Store.reserve o s.store t packet =
        { s.store.setCaller t (.storing s.store.jobs.length) with
          pendingWrites := s.store.pendingWrites + 1
          jobs := s.store.jobs ++ [⟨packet, .posting, 0⟩] } := by
      rw [Store.reserve, if_neg (not_not.mpr (Or.inl hroom)), if_neg hacc]
    refine ⟨.store (.reserve t), { s with store := Store.reserve o s.store t packet }, ?_,
      Or.inr ⟨⟨h.stalled, ?_⟩, ?_⟩⟩
    · simp [next, allowed, Store.next, hc]
    · have hmoved := demand_setCaller s.store ht (.storing s.store.jobs.length)
      have hnew := demand_admit (n := n)
        (s.store.setCaller t (.storing s.store.jobs.length)) (s.store.pendingWrites + 1) packet
      rw [hc] at hmoved
      rw [hadmits]
      refine hover.trans_eq ?_
      exact hmoved.symm.trans hnew.symm
    · have hsteps := sum_update Caller.steps s.store.callers ht
        (.storing s.store.jobs.length)
      rw [hc] at hsteps
      rw [hadmits]
      simp only [rest, Store.State.setCaller, List.map_append, List.sum_append, List.map_cons,
        List.map_nil, List.sum_cons, List.sum_nil, Caller.steps, Phase.rank] at hsteps ⊢
      omega
  · refine ⟨.store (.wake t), { s with store := s.store.setCaller t (.reserving packet) }, ?_,
      Or.inr (h.setCaller ht ?_ ?_)⟩
    · simp [next, allowed, Store.next, hc]
    · rw [hc]
      rfl
    · rw [hc]
      exact Nat.lt_succ_self 6

/-- The store is full. -/
theorem full_of_handed (hinv : Inv o st) (hall : ∀ j ∈ st.jobs, j.Unsettled → Handed j)
    (hroom : ¬ st.pendingWrites < o.maxPendingWrites) : Full o st :=
  ⟨Nat.le_antisymm hinv.le (Nat.not_lt.mp hroom), hall⟩

/-- In a full store the callback that `stopCapture` waits for goes to sleep or
returns. -/
theorem Overdrawn.closer_stopping (h : Overdrawn o n s) (hr : Reached o n s)
    (hfull : Full o s.store) {k : Nat} (hk : k < n) (hteardown : s.teardown = .stopping k)
    (hacc : s.store.acceptingWrites = true) : CircularWait o s ∨ Closer o n s := by
  cases hck : s.store.callers k with
  | idle =>
      refine Or.inr ⟨.stopReturns, { s with
        capturing := Function.update s.capturing k false
        teardown := .clearing (k + 1) }, ?_, Or.inr (h.advance _ ?_)⟩
      · simp [next, hteardown, hck]
      · rw [hteardown]
        simp only [Progress.steps]
        omega
  | waiting p => exact Or.inl ⟨h.stalled, hfull, k, hteardown, ⟨p, hck⟩, hacc⟩
  | reserving p =>
      have hblocks : ¬ (s.store.pendingWrites < o.maxPendingWrites ∨
          s.store.acceptingWrites = false) := by
        rw [hfull.pending, hacc]
        simp
      refine Or.inr ⟨.store (.reserve k),
        { s with store := s.store.setCaller k (.waiting p) }, ?_, Or.inl ?_⟩
      · simp [next, allowed, Store.next, hck, Store.reserve, hblocks]
      · exact ⟨h.stalled, ⟨hfull.pending, hfull.handed⟩, k, hteardown,
          ⟨p, s.store.setCaller_self k _⟩, hacc⟩
  | storing id =>
      -- the packet is with the connection or settled, so the callback returns
      have hid := hr.admitted k id hck
      have hjob : s.store.jobs[id]? = some s.store.jobs[id] := List.getElem?_eq_getElem hid
      have hreturns : s.store.jobs[id].phase.returns = true := by
        have hhanded := hfull.handed _ (List.getElem_mem hid)
        cases hphase : s.store.jobs[id].phase <;>
          simp_all [Job.Unsettled, Handed, Phase.returns]
      refine Or.inr ⟨.store (.storeReturn k), { s with store := s.store.setCaller k .idle }, ?_,
        Or.inr (h.setCaller hk ?_ ?_)⟩
      · simp [next, allowed, Store.next, hck, hjob, hreturns]
      · rw [hck]
        rfl
      · rw [hck]
        exact Nat.one_pos

/-- **In a full store** the teardown comes to the first callback that has not
returned, and waits for it. -/
theorem Overdrawn.closer_teardown (h : Overdrawn o n s) (hr : Reached o n s)
    (hfull : Full o s.store) {t : Nat} (ht : t < n) {packet : PacketInfo}
    (hc : s.store.callers t = .reserving packet ∨ s.store.callers t = .waiting packet) :
    CircularWait o s ∨ Closer o n s := by
  have hbusy : s.store.callers t ≠ .idle := by
    rcases hc with hc | hc <;> (rw [hc]; exact Caller.noConfusion)
  have hcapturing := (hr.orderly.busy t hbusy).2
  have hpassed : passed n s.teardown ≤ t := by
    by_contra hlt
    rw [hr.orderly.stopped t (Nat.not_le.mp hlt)] at hcapturing
    cases hcapturing
  cases hteardown : s.teardown with
  | notStarted =>
      refine Or.inr ⟨.destroy, { s with teardown := .clearing 0 }, ?_, Or.inr (h.advance _ ?_)⟩
      · simp [next, hteardown]
      · rw [hteardown]
        simp only [Progress.steps]
        omega
  | clearing k =>
      rw [hteardown] at hpassed
      have hk : k < n := Nat.lt_of_le_of_lt hpassed ht
      -- past the receiver, or into `stopCapture`
      refine Or.inr ⟨.stop,
        { s with teardown := if s.capturing k then .stopping k else .clearing (k + 1) }, ?_,
        Or.inr (h.advance _ ?_)⟩
      · simp [next, hteardown, hk]
      · rw [hteardown]
        split <;> simp only [Progress.steps] <;> omega
  | stopping k =>
      rw [hteardown] at hpassed
      exact h.closer_stopping hr hfull (Nat.lt_of_le_of_lt hpassed ht) hteardown
        (hr.orderly.accepting_of_busy hbusy)
  | released =>
      rw [hteardown] at hpassed
      exact absurd ht (Nat.not_lt.mpr hpassed)

/-- **One step** of the search: packets are handed over first, then callbacks are
let in, then receivers are stopped. -/
theorem Overdrawn.closer (h : Overdrawn o n s) (hr : Reached o n s) :
    CircularWait o s ∨ Closer o n s := by
  by_cases hall : ∀ j ∈ s.store.jobs, j.Unsettled → Handed j
  · have hkeeps : (s.store.jobs.map fun j => Phase.keeps j.phase).sum ≤ o.maxPendingWrites := by
      rw [sum_keeps hall, ← hr.inv.pending]
      exact hr.inv.le
    obtain ⟨t, ht, packet, hc⟩ := exists_asking h.exceeds hkeeps
    by_cases hroom : s.store.pendingWrites < o.maxPendingWrites
    · exact Or.inr (h.closer_caller hr.orderly ht hc hroom)
    · exact h.closer_teardown hr (full_of_handed hr.inv hall hroom) ht hc
  · push Not at hall
    obtain ⟨j, hj, hun, hhanded⟩ := hall
    exact Or.inr (h.closer_job hj hun hhanded)

/-- **A run that asks for too much** can go on into a circular wait. -/
theorem Overdrawn.circularWait {tr : List Action} (hrun : (system o n).Run tr s)
    (h : Overdrawn o n s) :
    ∃ tr' s', (system o n).Run (tr ++ tr') s' ∧ CircularWait o s' := by
  induction hm : rest n s using Nat.strong_induction_on generalizing tr s with
  | h m ih =>
      rcases h.closer (Reached.run hrun) with hwait | ⟨a, s₁, hstep, hnext⟩
      · exact ⟨[], s, by rwa [List.append_nil], hwait⟩
      · have hrun₁ := hrun.act a hstep
        rcases hnext with hwait | ⟨hover, hlt⟩
        · exact ⟨[a], s₁, hrun₁, hwait⟩
        · obtain ⟨tr', s', hrun', hwait⟩ := ih (rest n s₁) (hm ▸ hlt) hrun₁ hover rfl
          exact ⟨a :: tr', s', by rwa [List.append_assoc] at hrun', hwait⟩

/-- A step that does not meet the condition asks for too much. -/
theorem overdrawn_next {a : Action} (hs : next o n s a = some s')
    (hfits : ¬ FitsBacklog o n s a) : Overdrawn o n s' := by
  cases a with
  | stall =>
      injection hs with hs
      subst hs
      exact ⟨rfl, Nat.not_le.mp fun hle => hfits (Or.inr hle)⟩
  | store b =>
      cases b with
      | store t packet =>
          have hboth : s.stalled = true ∧ o.maxPendingWrites ≤ demand n s.store := by
            simpa [FitsBacklog] using hfits
          obtain ⟨hallowed, store, hstore, rfl⟩ := next_store hs
          have ht : t < n := by
            simp only [allowed, Bool.and_eq_true, decide_eq_true_eq] at hallowed
            exact hallowed.1
          cases Steps.of_next hstore with
          | store _ _ hc =>
              have hmoved := demand_setCaller s.store ht (.reserving packet)
              rw [hc] at hmoved
              exact ⟨hboth.1, Nat.lt_of_lt_of_eq (Nat.lt_succ_of_le hboth.2) hmoved.symm⟩
      | reserve | wake | storeReturn | job | stopAccepting | waitEnds => exact absurd trivial hfits
  | destroy | stop | stopReturns | release => exact absurd trivial hfits

/-! ## When teardown does not deadlock -/

/-- **Teardown does not deadlock while the backlog fits.**  No state of a run all of
whose steps meet `FitsBacklog` is a circular wait, and a run with a step that does
not can go on into one; for every limit and number of capture threads. -/
theorem teardown_noCircularWait (o : Options) (n : Nat) :
    (∀ tr s, ((system o n).guard (FitsBacklog o n)).Run tr s → ¬ CircularWait o s) ∧
      ∀ tr s a s', (system o n).Run tr s → (system o n).step s a s' → ¬ FitsBacklog o n s a →
        ∃ tr' s'', (system o n).Run (tr ++ a :: tr') s'' ∧ CircularWait o s'' := by
  constructor
  · intro tr s h
    have hfits : (system o n).Run tr s ∧ Fits o n s := by
      induction h with
      | init h =>
          refine ⟨.init h, fun hstalled => ?_⟩
          rw [h.2.2] at hstalled
          cases hstalled
      | step _ hs ih =>
          exact ⟨ih.1.step hs.1, ih.2.next (Reached.run ih.1).orderly hs.1 hs.2⟩
    have hr := Reached.run hfits.1
    exact hfits.2.not_circularWait hr.inv hr.orderly
  · intro tr s a s' hrun hstep hfits
    have hover := overdrawn_next hstep hfits
    obtain ⟨tr', s'', hrun', hwait⟩ := hover.circularWait (hrun.step hstep)
    exact ⟨tr', s'', by rwa [List.append_assoc] at hrun', hwait⟩

/-- One receiver, a limit of one write. -/
def smallOptions : Options := ⟨"stream", 1, by decide⟩

def samplePacket : PacketInfo := ⟨"eth0", "10.0.0.1", "10.0.0.2", "TCP", 1, 0, "00"⟩

/-- The connection takes a packet and stalls, and no other packet comes: teardown runs
to its end. -/
theorem teardown_noCircularWait_smallOptions :
    ∃ tr s, ((system smallOptions 1).guard (FitsBacklog smallOptions 1)).Run tr s ∧
      ¬ CircularWait smallOptions s ∧ s.stalled = true ∧ s.store.pendingWrites = 1 ∧
        s.teardown = .released := by
  have start : ((system smallOptions 1).guard (FitsBacklog smallOptions 1)).Run []
      ⟨⟨0, true, fun _ => .idle, [], .notStarted⟩, .notStarted, fun _ => true, false⟩ :=
    .init ⟨⟨rfl, rfl, fun _ => rfl, rfl, rfl⟩, rfl, rfl⟩
  have stored := ((((start.actMeeting (.store (.store 0 samplePacket)) rfl nofun).actMeeting
    (.store (.reserve 0)) rfl trivial).actMeeting (.store (.job 0 (.post true))) rfl trivial
    ).actMeeting (.store (.job 0 (.task .accepted))) rfl trivial).actMeeting
    (.store (.storeReturn 0)) rfl trivial
  have stalled := stored.actMeeting .stall rfl (Or.inr (Nat.le_refl 1))
  have released := (((stalled.actMeeting .destroy rfl trivial).actMeeting .stop rfl trivial
    ).actMeeting .stopReturns rfl trivial).actMeeting .release rfl trivial
  exact ⟨_, _, released, (teardown_noCircularWait smallOptions 1).1 _ _ released, rfl, rfl, rfl⟩

/-- The connection takes the first packet and stalls, the second waits for its
slot, and teardown stops the receiver. -/
theorem teardown_deadlocks :
    ¬ ∀ tr s, (system smallOptions 1).Run tr s → ¬ CircularWait smallOptions s := by
  intro h
  have start : (system smallOptions 1).Run []
      ⟨⟨0, true, fun _ => .idle, [], .notStarted⟩, .notStarted, fun _ => true, false⟩ :=
    .init ⟨⟨rfl, rfl, fun _ => rfl, rfl, rfl⟩, rfl, rfl⟩
  have first := ((((start.act (.store (.store 0 samplePacket)) rfl).act
    (.store (.reserve 0)) rfl).act (.store (.job 0 (.post true))) rfl).act
    (.store (.job 0 (.task .accepted))) rfl).act (.store (.storeReturn 0)) rfl
  have second := ((((first.act (.store (.store 0 samplePacket)) rfl).act
    (.store (.reserve 0)) rfl).act .stall rfl).act .destroy rfl).act .stop rfl
  refine h _ _ second ⟨rfl, ⟨rfl, ?_⟩, 0, rfl, ⟨samplePacket, rfl⟩, rfl⟩
  intro j hj _
  rw [List.mem_singleton.mp hj]
  trivial

end ElephantShrew.Store.Teardown
