import ElephantShrew.Store.RedisPacketStore

/-!
# Write slots are accounted exactly

A slot is taken in one thread and given back on one of five paths in another.
`Job.step_cases` says once what a step does to the packet it belongs to:
either it stays unsettled, or it is settled by its one call of
`CompletePendingWrite`.  The rest is counting unsettled packets.
-/

namespace ElephantShrew.Store

open ElephantShrew.Verified

variable {o : Options}

/-- The outcome of an admitted packet is open. -/
def Job.Unsettled (j : Job) : Prop := j.phase ≠ .settled

instance (j : Job) : Decidable j.Unsettled := inferInstanceAs (Decidable (_ ≠ _))

/-- How many admitted packets are unsettled. -/
def unsettled (jobs : List Job) : Nat := jobs.countP fun j => j.Unsettled

/-- A packet has been completed once if it is settled, and not yet otherwise. -/
def Job.Once (j : Job) : Prop := j.completions = if j.phase = .settled then 1 else 0

/-- **A step of a packet**: it was unsettled, and it is settled by the call of
`CompletePendingWrite` and by nothing else. -/
theorem Job.step_cases {j j' : Job} {a : JobAction} (h : j.step o a = some j') :
    j.Unsettled ∧
      ((a ≠ .completePendingWrite ∧ j'.Unsettled ∧ j'.completions = j.completions) ∨
        (a = .completePendingWrite ∧ ¬ j'.Unsettled ∧ j'.completions = j.completions + 1)) := by
  obtain ⟨packet, phase, completions⟩ := j
  cases a with
  | post ok =>
      cases phase <;> simp only [Job.step, Option.some.injEq, reduceCtorEq] at h
      subst h
      refine ⟨Phase.noConfusion, Or.inl ⟨JobAction.noConfusion, ?_, rfl⟩⟩
      cases ok <;> exact Phase.noConfusion
  | task r =>
      cases phase <;> simp only [Job.step, Option.some.injEq, reduceCtorEq] at h
      subst h
      refine ⟨Phase.noConfusion, Or.inl ⟨JobAction.noConfusion, ?_, rfl⟩⟩
      cases r <;> exact Phase.noConfusion
  | handler failed =>
      cases phase <;> simp only [Job.step, Option.some.injEq, reduceCtorEq] at h
      subst h
      exact ⟨Phase.noConfusion, Or.inl ⟨JobAction.noConfusion, Phase.noConfusion, rfl⟩⟩
  | completePendingWrite =>
      cases phase <;> simp only [Job.step, Option.some.injEq, reduceCtorEq] at h
      all_goals
        subst h
        exact ⟨Phase.noConfusion, Or.inr ⟨rfl, fun hne => hne rfl, rfl⟩⟩

theorem Job.Once.step {j j' : Job} {a : JobAction} (hj : j.Once) (h : j.step o a = some j') :
    j'.Once := by
  obtain ⟨hun, ⟨-, hun', hc⟩ | ⟨-, hset, hc⟩⟩ := Job.step_cases h
  · rw [Job.Once, hc, hj, if_neg hun, if_neg hun']
  · rw [Job.Once, hc, hj, if_neg hun, if_pos (not_not.mp hset)]

/-- An unsettled packet has a next step, up to what the connection does. -/
theorem Job.progress {j : Job} (h : j.Unsettled) : ∃ a j', j.step o a = some j' := by
  obtain ⟨packet, phase, completions⟩ := j
  cases phase with
  | posting => exact ⟨.post true, _, rfl⟩
  | postFailed => exact ⟨.completePendingWrite, _, rfl⟩
  | posted => exact ⟨.task .accepted, _, rfl⟩
  | taskFailed => exact ⟨.completePendingWrite, _, rfl⟩
  | executing request => exact ⟨.handler false, _, rfl⟩
  | completing failed => exact ⟨.completePendingWrite, _, rfl⟩
  | settled => exact absurd rfl h

/-- How far a packet is from being settled. -/
def Phase.rank : Phase → Nat
  | .posting => 4
  | .posted => 3
  | .executing _ => 2
  | .postFailed => 1
  | .taskFailed => 1
  | .completing _ => 1
  | .settled => 0

/-- Every step brings a packet closer. -/
theorem Job.step_rank {j j' : Job} {a : JobAction} (h : j.step o a = some j') :
    j'.phase.rank < j.phase.rank := by
  obtain ⟨packet, phase, completions⟩ := j
  cases a with
  | post ok =>
      cases phase <;> simp only [Job.step, Option.some.injEq, reduceCtorEq] at h
      subst h
      cases ok <;> simp [Phase.rank]
  | task r =>
      cases phase <;> simp only [Job.step, Option.some.injEq, reduceCtorEq] at h
      subst h
      cases r <;> simp [Phase.rank]
  | handler failed =>
      cases phase <;> simp only [Job.step, Option.some.injEq, reduceCtorEq] at h
      subst h
      simp [Phase.rank]
  | completePendingWrite =>
      cases phase <;> simp only [Job.step, Option.some.injEq, reduceCtorEq] at h
      all_goals
        subst h
        simp [Phase.rank]

/-! ## Counting -/

theorem unsettled_append (jobs : List Job) (j : Job) (h : j.Unsettled) :
    unsettled (jobs ++ [j]) = unsettled jobs + 1 := by
  simp [unsettled, h]

/-- Replacing one packet changes the count by what changes for it. -/
theorem unsettled_set {jobs : List Job} {id : Nat} {j : Job} (hj : jobs[id]? = some j)
    (j' : Job) :
    unsettled (jobs.set id j') + (if j.Unsettled then 1 else 0) =
      unsettled jobs + if j'.Unsettled then 1 else 0 := by
  obtain ⟨hid, rfl⟩ := List.getElem?_eq_some_iff.mp hj
  have hpos : (if jobs[id].Unsettled then 1 else 0) ≤ unsettled jobs := by
    split
    · next hun =>
        exact List.countP_pos_iff.mpr ⟨jobs[id], List.getElem_mem hid, decide_eq_true hun⟩
    · exact Nat.zero_le _
  have hset : unsettled (jobs.set id j') =
      unsettled jobs - (if jobs[id].Unsettled then 1 else 0) + if j'.Unsettled then 1 else 0 := by
    simp only [unsettled, List.countP_set hid, decide_eq_true_eq]
  omega

/-! ## The invariant -/

/-- The invariant of the store. -/
structure Inv (o : Options) (s : State) : Prop where
  pending : s.pendingWrites = unsettled s.jobs
  le : s.pendingWrites ≤ o.maxPendingWrites
  once : ∀ j ∈ s.jobs, j.Once
  accepting : s.acceptingWrites = true → s.destructor = .notStarted
  drained : s.destructor = .finished true → ∀ j ∈ s.jobs, ¬ j.Unsettled

theorem Inv.init {s : State} (h : Initial s) : Inv o s := by
  obtain ⟨hp, ha, hc, hj, hd⟩ := h
  refine ⟨?_, ?_, ?_, fun _ => hd, ?_⟩
  · rw [hp, hj]
    rfl
  · rw [hp]
    exact Nat.zero_le _
  · rw [hj]
    exact fun j hj => absurd hj List.not_mem_nil
  · rw [hd]
    exact fun hf => Destructor.noConfusion hf

theorem Inv.setCaller {s : State} (h : Inv o s) (t : Nat) (c : Caller) :
    Inv o (s.setCaller t c) :=
  ⟨h.pending, h.le, h.once, h.accepting, h.drained⟩

/-- Taking a slot. -/
theorem Inv.reserve {s : State} (h : Inv o s) (t : Nat) (packet : PacketInfo) :
    Inv o (reserve o s t packet) := by
  unfold Store.reserve
  split
  · exact h.setCaller t _
  · next hlook =>
      split
      · exact h.setCaller t _
      · next hacc =>
          have hroom : s.pendingWrites < o.maxPendingWrites :=
            (not_not.mp hlook).resolve_right hacc
          have hnew : Job.Unsettled ⟨packet, .posting, 0⟩ := Phase.noConfusion
          refine ⟨?_, hroom, ?_, h.accepting, ?_⟩
          · rw [unsettled_append _ _ hnew, h.pending]
          · intro j hj
            rcases List.mem_append.mp hj with hj | hj
            · exact h.once j hj
            · rw [List.mem_singleton.mp hj]
              rfl
          · intro hd
            have hacc' : s.acceptingWrites = true := by simpa using hacc
            have hd' : s.destructor = .finished true := hd
            rw [h.accepting hacc'] at hd'
            cases hd'

/-- A step of a packet, which is given its slot back when it is completed. -/
theorem Inv.job {s : State} (h : Inv o s) {id : Nat} {j j' : Job} {a : JobAction}
    (hj : s.jobs[id]? = some j) (hstep : j.step o a = some j') :
    Inv o (s.setJob id a j') := by
  have hmem : j ∈ s.jobs := List.mem_of_getElem? hj
  have hcount := unsettled_set hj j'
  have hpending := h.pending
  have hle := h.le
  obtain ⟨hun, hcases⟩ := Job.step_cases hstep
  rw [if_pos hun] at hcount
  have hnew : (if a = .completePendingWrite then completePendingWrite s.pendingWrites
      else s.pendingWrites) = unsettled (s.jobs.set id j') := by
    rcases hcases with ⟨ha, hun', -⟩ | ⟨ha, hset, -⟩
    · rw [if_pos hun'] at hcount
      rw [if_neg ha]
      omega
    · rw [if_neg hset] at hcount
      rw [if_pos ha, completePendingWrite, if_pos (by omega)]
      omega
  refine ⟨hnew, ?_, ?_, h.accepting, ?_⟩
  · show (if a = .completePendingWrite then _ else _) ≤ _
    rw [hnew]
    have hun' : (if j'.Unsettled then 1 else 0) ≤ 1 := by split <;> decide
    omega
  · intro i hi
    rcases List.mem_or_eq_of_mem_set hi with hi | rfl
    · exact h.once i hi
    · exact (h.once j hmem).step hstep
  · intro hd
    exact absurd hun (h.drained hd j hmem)

/-- **One step of any thread.** -/
theorem Inv.next {s s' : State} (h : Inv o s) {a : Action} (hs : next o s a = some s') :
    Inv o s' := by
  cases Steps.of_next hs with
  | store t packet hc => exact h.setCaller t _
  | reserve t packet hc => exact h.reserve t packet
  | wake t packet hc => exact h.setCaller t _
  | storeReturn t id hc => exact h.setCaller t _
  | job id a j j' hj hstep => exact h.job hj hstep
  | stopAccepting hd =>
      exact ⟨h.pending, h.le, h.once, fun hf => absurd hf Bool.false_ne_true,
        fun hf => Destructor.noConfusion hf⟩
  | waitEnds hd =>
      refine ⟨h.pending, h.le, h.once, fun hacc => ?_, fun hf j hj hun => ?_⟩
      · rw [h.accepting hacc] at hd
        cases hd
      · have hzero : s.pendingWrites = 0 := by simpa using hf
        rw [h.pending, unsettled, List.countP_eq_zero] at hzero
        exact hzero j hj (decide_eq_true hun)

/-- Nothing is admitted after `accepting_writes_` became false, and it stays so. -/
theorem next_not_accepting {s s' : State} {a : Action} (hs : next o s a = some s')
    (hacc : s.acceptingWrites = false) :
    s'.acceptingWrites = false ∧ s'.jobs.length = s.jobs.length := by
  cases Steps.of_next hs with
  | reserve t packet hc =>
      rw [reserve, if_neg (not_not.mpr (Or.inr hacc)), if_pos hacc]
      exact ⟨hacc, rfl⟩
  | job id a j j' hj hstep => exact ⟨hacc, List.length_set⟩
  | stopAccepting hd => exact ⟨rfl, rfl⟩
  | store | wake | storeReturn | waitEnds => exact ⟨hacc, rfl⟩

/-! ## Runs -/

/-- What the accounting of the slots promises in a state. -/
structure Accounted (o : Options) (s : State) : Prop where
  /-- `pending_writes_` is the number of admitted packets not yet settled -/
  pending : s.pendingWrites = unsettled s.jobs
  /-- and never exceeds the limit -/
  le : s.pendingWrites ≤ o.maxPendingWrites
  /-- `CompletePendingWrite` is called once for a settled packet, and not before -/
  once : ∀ j ∈ s.jobs, j.Once
  /-- a packet that is not settled has a step to take, and every step brings it
  closer to its call -/
  progress : ∀ j ∈ s.jobs, j.Unsettled →
    (∃ a j', j.step o a = some j') ∧
      ∀ a j', j.step o a = some j' → j'.phase.rank < j.phase.rank
  /-- the guard of `CompletePendingWrite` is never false -/
  guard : ∀ id s', next o s (.job id .completePendingWrite) = some s' → 0 < s.pendingWrites
  /-- no packet is admitted after `accepting_writes_` became false -/
  closed : s.acceptingWrites = false → ∀ a s', next o s a = some s' →
    s'.acceptingWrites = false ∧ s'.jobs.length = s.jobs.length
  /-- a drained wait leaves every packet settled -/
  drained : s.destructor = .finished true → ∀ j ∈ s.jobs, ¬ j.Unsettled

/-- A packet about to be completed holds a slot. -/
theorem Inv.guard {s s' : State} (h : Inv o s) {id : Nat}
    (hs : Store.next o s (.job id .completePendingWrite) = some s') : 0 < s.pendingWrites := by
  cases Steps.of_next hs with
  | job _ _ j j' hj hstep =>
      rw [h.pending]
      exact List.countP_pos_iff.mpr
        ⟨j, List.mem_of_getElem? hj, decide_eq_true (Job.step_cases hstep).1⟩

/-- **Write slots are accounted exactly**, for every limit and every schedule of
callers, tasks, completions and the destructor. -/
theorem redisPacketStore_accounted (o : Options) (tr : List Action) (s : State)
    (h : (system o).Run tr s) : Accounted o s := by
  have hinv : Inv o s :=
    h.invariant (P := fun _ s => Inv o s) (fun _ hs => Inv.init hs) fun _ _ _ _ hi hs => hi.next hs
  exact
    { pending := hinv.pending
      le := hinv.le
      once := hinv.once
      progress := fun j _ hun => ⟨Job.progress hun, fun _ _ hstep => Job.step_rank hstep⟩
      guard := fun _ _ hs => hinv.guard hs
      closed := fun hacc _ _ hs => next_not_accepting hs hacc
      drained := hinv.drained }

/-- Thread 3 calls `Store`, takes the only slot, and its post throws. -/
theorem redisPacketStore_accounted_postThrows :
    ∃ s, Accounted ⟨"stream", 1, by decide⟩ s ∧ s.pendingWrites = 0 ∧ s.jobs.length = 1 := by
  have start : (system ⟨"stream", 1, by decide⟩).Run []
      ⟨0, true, fun _ => .idle, [], .notStarted⟩ := .init ⟨rfl, rfl, fun _ => rfl, rfl, rfl⟩
  have run := (((start.act (.store 3 ⟨"eth0", "a", "b", "TCP", 1, 0, "00"⟩) rfl).act
    (.reserve 3) rfl).act (.job 0 (.post false)) rfl).act (.job 0 .completePendingWrite) rfl
  exact ⟨_, redisPacketStore_accounted _ _ _ run, rfl, rfl⟩

end ElephantShrew.Store
