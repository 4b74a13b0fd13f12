import ElephantShrew.Store.SlotAccounting

/-!
# Wakeups

The store with the calls of `notify_all` that its steps owe: `CompletePendingWrite`
and the destructor give up `pending_mutex_` first and notify after it, while
other threads go on.  A sleeper wakes when it was notified since it fell asleep,
or by itself.

The destructor goes on after its wait: `conn_.cancel()`, `ioc_.stop()` and the join
of the io thread.  A stopped `ioc_` starts no handler, and the join waits for the
one that runs; after it the store is gone and nobody takes a step.

Forgetting the notifications and the end gives a run of the store (`simulation`), so
what holds in every run of the store holds here.
-/

namespace ElephantShrew.Store.Wakeups

open ElephantShrew.Verified

/-- How far `~RedisPacketStore` is past `WaitForPendingWrites`. -/
inductive Ending where
  | notStarted
  /-- `conn_.cancel()` was called: what the connection has not answered fails -/
  | cancelled
  /-- `ioc_.stop()` was called -/
  | stopped
  /-- `io_thread_.join()` has returned -/
  | joined
  deriving DecidableEq, Repr

/-- The store, the sleepers that were notified, how many calls of `notify_all` are
due, and the end of the destructor. -/
structure State where
  store : Store.State
  notified : Nat → Bool
  due : Nat
  ending : Ending

inductive Action where
  /-- a step of the store; a sleeper that wakes does so by itself -/
  | store (a : Store.Action)
  | wakeNotified (t : Nat)
  | notifyAll
  /-- `conn_.cancel()` -/
  | cancel
  /-- `ioc_.stop()` -/
  | stop
  /-- `io_thread_.join()` returns -/
  | join
  deriving DecidableEq, Repr

/-- A constructed store. -/
def Initial (s : State) : Prop := Store.Initial s.store ∧ s.due = 0 ∧ s.ending = .notStarted

/-- The steps after which `notify_all` is called. -/
def notifies : Store.Action → Bool
  | .job _ .completePendingWrite => true
  | .stopAccepting => true
  | _ => false

/-- A thread that falls asleep has not been notified. -/
def notifiedAfter (notified : Nat → Bool) : Store.Action → Nat → Bool
  | .reserve t => Function.update notified t false
  | _ => notified

/-- The steps with which the io thread starts a handler. -/
def startsHandler : Store.Action → Bool
  | .job _ (.task _) => true
  | .job _ (.handler _) => true
  | _ => false

/-- The io thread is inside a handler of a packet. -/
def inHandler : Phase → Bool
  | .taskFailed => true
  | .completing _ => true
  | _ => false

/-- The steps of the store that there still are. -/
def allows : Ending → Store.Action → Bool
  | .joined, _ => false
  | .stopped, a => !startsHandler a
  | _, _ => true

def next (o : Options) (s : State) : Action → Option State
  | .store a =>
      if allows s.ending a then
        match Store.next o s.store a with
        | none => none
        | some store =>
            some { s with
              store := store
              notified := notifiedAfter s.notified a
              due := if notifies a then s.due + 1 else s.due }
      else none
  | .wakeNotified t =>
      if s.ending ≠ .joined ∧ s.notified t then
        match Store.next o s.store (.wake t) with
        | none => none
        | some store => some { s with store := store }
      else none
  | .notifyAll =>
      if s.ending ≠ .joined ∧ 0 < s.due then
        some { s with notified := fun _ => true, due := s.due - 1 }
      else none
  | .cancel =>
      match s.ending, s.store.destructor with
      | .notStarted, .finished _ => some { s with ending := .cancelled }
      | _, _ => none
  | .stop =>
      match s.ending with
      | .cancelled => some { s with ending := .stopped }
      | _ => none
  | .join =>
      -- A handler that has settled its packet may still owe its `notify_all` here, which the
      -- thread that is joined does not: the model has the runs of the source and more.
      if s.ending = .stopped ∧ ∀ j ∈ s.store.jobs, inHandler j.phase = false then
        some { s with ending := .joined }
      else none

/-- The store under every schedule. -/
def system (o : Options) : System State Action := .ofAct Initial (next o)

variable {o : Options} {s s' : State} {a : Action}

/-- **The steps.** -/
inductive Steps (o : Options) (s : State) : Action → State → Prop
  | store (a : Store.Action) (store : Store.State) (hallows : allows s.ending a = true)
      (h : Store.next o s.store a = some store) :
      Steps o s (.store a)
        ⟨store, notifiedAfter s.notified a, if notifies a then s.due + 1 else s.due, s.ending⟩
  | wakeNotified (t : Nat) (store : Store.State) (hend : s.ending ≠ .joined)
      (hn : s.notified t = true) (h : Store.next o s.store (.wake t) = some store) :
      Steps o s (.wakeNotified t) { s with store := store }
  | notifyAll (hend : s.ending ≠ .joined) (h : 0 < s.due) :
      Steps o s .notifyAll { s with notified := fun _ => true, due := s.due - 1 }
  | cancel (drained : Bool) (hend : s.ending = .notStarted)
      (hd : s.store.destructor = .finished drained) :
      Steps o s .cancel { s with ending := .cancelled }
  | stop (hend : s.ending = .cancelled) : Steps o s .stop { s with ending := .stopped }
  | join (hend : s.ending = .stopped) (h : ∀ j ∈ s.store.jobs, inHandler j.phase = false) :
      Steps o s .join { s with ending := .joined }

theorem Steps.of_next (h : next o s a = some s') : Steps o s a s' := by
  cases a with
  | store a =>
      simp only [next] at h
      split at h
      · next hallows =>
          split at h
          · cases h
          · next store hstore =>
              rw [← Option.some.inj h]
              exact .store a store hallows hstore
      · cases h
  | wakeNotified t =>
      simp only [next] at h
      split_ifs at h with hn
      split at h
      · cases h
      · next store hstore =>
          rw [← Option.some.inj h]
          exact .wakeNotified t store hn.1 hn.2 hstore
  | notifyAll =>
      simp only [next] at h
      split_ifs at h with hdue
      rw [← Option.some.inj h]
      exact .notifyAll hdue.1 hdue.2
  | cancel =>
      simp only [next] at h
      split at h
      · next drained hend hd =>
          rw [← Option.some.inj h]
          exact .cancel drained hend hd
      · cases h
  | stop =>
      simp only [next] at h
      split at h
      · next hend =>
          rw [← Option.some.inj h]
          exact .stop hend
      · cases h
  | join =>
      simp only [next] at h
      split_ifs at h with hready
      rw [← Option.some.inj h]
      exact .join hready.1 hready.2

/-! ## The store underneath -/

/-- What the store sees of a step. -/
def seen : Action → Option Store.Action
  | .store a => some a
  | .wakeNotified t => some (.wake t)
  | _ => none

theorem simulation (o : Options) :
    System.Simulation (system o) (Store.system o) seen fun s store => s.store = store where
  init s h := ⟨s.store, h.1, rfl⟩
  silent s store a s' hs hstep hseen := by
    cases Steps.of_next hstep with
    | store a store hallows h => cases hseen
    | wakeNotified t store hend hn h => cases hseen
    | notifyAll | cancel | stop | join => exact hs
  visible s store a s' m hs hstep hseen := by
    subst hs
    cases Steps.of_next hstep with
    | store a store hallows h =>
        injection hseen with hseen
        subst hseen
        exact ⟨store, h, rfl⟩
    | wakeNotified t store hend hn h =>
        injection hseen with hseen
        subst hseen
        exact ⟨store, h, rfl⟩
    | notifyAll | cancel | stop | join => cases hseen

/-! ## No wakeup is lost -/

/-- A sleeper was notified, or a call of `notify_all` is due, or it has to sleep. -/
def Heard (o : Options) (s : State) : Prop :=
  ∀ t packet, s.store.callers t = .waiting packet →
    s.notified t = true ∨ 0 < s.due ∨
      (s.store.pendingWrites = o.maxPendingWrites ∧ s.store.acceptingWrites = true)

structure Inv (o : Options) (s : State) : Prop where
  store : Store.Inv o s.store
  heard : Heard o s
  /-- a thread past `ReservePendingWriteSlot` has its packet admitted -/
  admitted : ∀ t id, s.store.callers t = .storing id → id < s.store.jobs.length
  /-- the end comes after the wait -/
  ending : s.ending ≠ .notStarted → ∃ drained, s.store.destructor = .finished drained

/-- A thread falls asleep only when the backlog is full. -/
theorem reserve_waiting {st : Store.State} {t u : Nat} {packet p : PacketInfo}
    (hle : st.pendingWrites ≤ o.maxPendingWrites)
    (h : (reserve o st t packet).callers u = .waiting p) (hu : u = t) :
    (reserve o st t packet).pendingWrites = o.maxPendingWrites ∧
      (reserve o st t packet).acceptingWrites = true := by
  subst hu
  unfold reserve at h ⊢
  split at h
  · next hfull =>
      rw [if_pos hfull]
      rw [not_or, Bool.not_eq_false] at hfull
      exact ⟨Nat.le_antisymm hle (Nat.not_lt.mp hfull.1), hfull.2⟩
  · split at h <;> simp [Store.State.setCaller] at h

/-- Reserving leaves a full backlog full. -/
theorem reserve_full {st : Store.State} (t : Nat) (packet : PacketInfo)
    (h : st.pendingWrites = o.maxPendingWrites ∧ st.acceptingWrites = true) :
    (reserve o st t packet).pendingWrites = o.maxPendingWrites ∧
      (reserve o st t packet).acceptingWrites = true := by
  have hfull : ¬(st.pendingWrites < o.maxPendingWrites ∨ st.acceptingWrites = false) := by
    rw [h.1, h.2]
    simp
  rw [reserve, if_pos hfull]
  exact h

/-- A thread moves on, and is not asleep then. -/
theorem Heard.setCaller (h : Heard o s) {t : Nat} {c : Caller}
    (hc : ∀ packet, c ≠ .waiting packet) :
    Heard o { s with store := s.store.setCaller t c } := by
  intro u packet hu
  by_cases hut : u = t
  · subst hut
    simp only [Store.State.setCaller, Function.update_self] at hu
    exact absurd hu (hc packet)
  · simp only [Store.State.setCaller, Function.update_of_ne hut] at hu
    exact h u packet hu

theorem Heard.step (hle : s.store.pendingWrites ≤ o.maxPendingWrites) (h : Heard o s)
    (hstep : Steps o s a s') : Heard o s' := by
  cases hstep with
  | notifyAll hend hdue => exact fun t packet ht => Or.inl rfl
  | cancel | stop | join => exact h
  | wakeNotified t store hend hn hstore =>
      cases Store.Steps.of_next hstore with
      | wake _ packet hc => exact h.setCaller (fun _ => Caller.noConfusion)
  | store b store hallows hstore =>
      cases Store.Steps.of_next hstore with
      | store t packet hc => exact h.setCaller (fun _ => Caller.noConfusion)
      | wake t packet hc => exact h.setCaller (fun _ => Caller.noConfusion)
      | storeReturn t id hc => exact h.setCaller (fun _ => Caller.noConfusion)
      | waitEnds hd => exact h
      | stopAccepting hd => exact fun t packet ht => Or.inr (Or.inl (Nat.succ_pos _))
      | reserve t packet hc =>
          intro u p hu
          by_cases hut : u = t
          · exact Or.inr (Or.inr (reserve_waiting hle hu hut))
          · have hu' : s.store.callers u = .waiting p := by
              rw [← hu]
              exact (reserve_callers_of_ne packet hut).symm
            rcases h u p hu' with hn | hdue | hfull
            · apply Or.inl
              show Function.update s.notified t false u = true
              rw [Function.update_of_ne hut]
              exact hn
            · exact Or.inr (Or.inl hdue)
            · exact Or.inr (Or.inr (reserve_full t packet hfull))
      | job id act j j' hj hjob =>
          intro u p hu
          by_cases hact : act = .completePendingWrite
          · subst hact
            exact Or.inr (Or.inl (Nat.succ_pos _))
          · rcases h u p hu with hn | hdue | hfull
            · exact Or.inl hn
            · apply Or.inr (Or.inl _)
              show 0 < if _ then _ else _
              split
              · exact Nat.succ_pos _
              · exact hdue
            · apply Or.inr (Or.inr _)
              show (if act = .completePendingWrite then _ else _) = _ ∧ _
              rw [if_neg hact]
              exact hfull

/-- What a step of the store admits stays admitted. -/
theorem length_le_next {st st' : Store.State} {b : Store.Action}
    (h : Store.next o st b = some st') : st.jobs.length ≤ st'.jobs.length := by
  cases Store.Steps.of_next h with
  | reserve t packet hc =>
      unfold reserve
      split
      · exact Nat.le_refl _
      · split
        · exact Nat.le_refl _
        · simp
  | job id act j j' hj hjob => exact Nat.le_of_eq (List.length_set).symm
  | store | wake | storeReturn | stopAccepting | waitEnds => exact Nat.le_refl _

/-- A thread past `ReservePendingWriteSlot` was there before, or has just taken
the newest slot. -/
theorem storing_next {st st' : Store.State} {b : Store.Action}
    (h : Store.next o st b = some st') {t id : Nat} (ht : st'.callers t = .storing id) :
    st.callers t = .storing id ∨ id < st'.jobs.length := by
  have other : ∀ {u : Nat} {c : Caller}, (∀ id, c ≠ .storing id) →
      (st.setCaller u c).callers t = .storing id → st.callers t = .storing id := by
    intro u c hc heq
    by_cases hu : t = u
    · subst hu
      simp only [Store.State.setCaller, Function.update_self] at heq
      exact absurd heq (hc id)
    · simpa only [Store.State.setCaller, Function.update_of_ne hu] using heq
  cases Store.Steps.of_next h with
  | store u packet hc => exact Or.inl (other (fun _ => Caller.noConfusion) ht)
  | wake u packet hc => exact Or.inl (other (fun _ => Caller.noConfusion) ht)
  | storeReturn u id hc => exact Or.inl (other (fun _ => Caller.noConfusion) ht)
  | job | stopAccepting | waitEnds => exact Or.inl ht
  | reserve u packet hc =>
      by_cases hu : t = u
      · subst hu
        unfold reserve at ht ⊢
        split at ht
        · simp [Store.State.setCaller] at ht
        · next hlook =>
            rw [if_neg hlook]
            split at ht
            · simp [Store.State.setCaller] at ht
            · next hacc =>
                rw [if_neg hacc]
                simp only [Store.State.setCaller, Function.update_self, Caller.storing.injEq] at ht
                simp [← ht]
      · rw [reserve_callers_of_ne packet hu] at ht
        exact Or.inl ht

/-- The wait of the destructor ends once. -/
theorem finished_next {st st' : Store.State} {b : Store.Action}
    (h : Store.next o st b = some st') {drained : Bool} (hd : st.destructor = .finished drained) :
    st'.destructor = .finished drained := by
  cases Store.Steps.of_next h with
  | stopAccepting hnot =>
      rw [hd] at hnot
      cases hnot
  | waitEnds hnot =>
      rw [hd] at hnot
      cases hnot
  | reserve t packet hc =>
      unfold reserve
      split
      · exact hd
      · split
        · exact hd
        · exact hd
  | job | store | wake | storeReturn => exact hd

theorem Inv.step (h : Inv o s) (hstep : Steps o s a s') : Inv o s' := by
  have hheard := h.heard.step h.store.le hstep
  have admitted : ∀ {b : Store.Action} {store : Store.State}, Store.next o s.store b = some store →
      ∀ t id, store.callers t = .storing id → id < store.jobs.length := by
    intro b store hstore t id ht
    rcases storing_next hstore ht with hold | hnew
    · exact Nat.lt_of_lt_of_le (h.admitted t id hold) (length_le_next hstore)
    · exact hnew
  have ending : ∀ {b : Store.Action} {store : Store.State}, Store.next o s.store b = some store →
      s.ending ≠ .notStarted → ∃ drained, store.destructor = .finished drained := by
    intro b store hstore hend
    obtain ⟨drained, hd⟩ := h.ending hend
    exact ⟨drained, finished_next hstore hd⟩
  cases hstep with
  | notifyAll hend hdue => exact ⟨h.store, hheard, h.admitted, h.ending⟩
  | wakeNotified t store hend hn hstore =>
      exact ⟨h.store.next hstore, hheard, admitted hstore, ending hstore⟩
  | store b store hallows hstore =>
      exact ⟨h.store.next hstore, hheard, admitted hstore, ending hstore⟩
  | cancel drained hend hd => exact ⟨h.store, hheard, h.admitted, fun _ => ⟨drained, hd⟩⟩
  | stop hend =>
      have hended := h.ending (by rw [hend]; exact Ending.noConfusion)
      exact ⟨h.store, hheard, h.admitted, fun _ => hended⟩
  | join hend hidle =>
      have hended := h.ending (by rw [hend]; exact Ending.noConfusion)
      exact ⟨h.store, hheard, h.admitted, fun _ => hended⟩

theorem Inv.run {tr : List Action} (h : (system o).Run tr s) : Inv o s := by
  apply h.invariant (P := fun _ s => Inv o s)
  · intro s hs
    refine ⟨Store.Inv.init hs.1, ?_, ?_, ?_⟩
    · intro t packet ht
      rw [hs.1.2.2.1 t] at ht
      cases ht
    · intro t id ht
      rw [hs.1.2.2.1 t] at ht
      cases ht
    · exact fun hend => absurd hs.2.2 hend
  · intro tr s a s' ih hstep
    exact ih.step (.of_next hstep)

end ElephantShrew.Store.Wakeups
