import ElephantShrew.Store.SlotAccounting

/-!
# Teardown while Redis is stalled

`~ElephantShrew` destroys the receivers one by one, each stopping its capture,
and only the release of the last one destroys the store they share.  A capture
thread asleep in `ReservePendingWriteSlot` is woken by a completion or by the
destructor of the store.  When the connection no longer completes anything,
the teardown thread can wait for such a thread, which waits for the
destructor, which waits for the teardown thread.

`next` puts the store under a teardown thread and a connection that may stop
answering.  Two things hold whatever the schedule: the store outlives the
captures (`Orderly`), and a circular wait, once closed, is never left.
-/

namespace ElephantShrew.Store.Teardown

open ElephantShrew.Verified

/-- Where `~ElephantShrew` is. -/
inductive Progress where
  | notStarted
  /-- in `receivers_.clear()`, about to destroy receiver `k` -/
  | clearing (k : Nat)
  /-- in `PcapReceiver::Stop` of receiver `k`, inside `stopCapture` -/
  | stopping (k : Nat)
  /-- the last receiver has released the store -/
  | released
  deriving DecidableEq, Repr

/-- The store, the teardown thread, and the captures. Receiver `k` captures on
thread `k`. -/
structure State where
  store : Store.State
  teardown : Progress
  capturing : Nat → Bool
  /-- the connection completes nothing any more -/
  stalled : Bool

inductive Action where
  | destroy
  | stop
  | stopReturns
  | release
  | stall
  | store (a : Store.Action)
  deriving DecidableEq, Repr

/-- Capturing on any of `n` receivers, the store freshly constructed. -/
def Initial (s : State) : Prop :=
  Store.Initial s.store ∧ s.teardown = .notStarted ∧ s.stalled = false

/-- What threads and connection may do with the store: a callback needs a
capture, a completion handler an answering connection, and the destructor is
run by the teardown thread. -/
def allowed (n : Nat) (s : State) : Store.Action → Bool
  | .store t _ => decide (t < n) && s.capturing t
  | .job _ (.handler _) => !s.stalled
  | .stopAccepting => false
  | _ => true

/-- One step, with `n` receivers. -/
def next (o : Options) (n : Nat) (s : State) : Action → Option State
  | .destroy =>
      match s.teardown with
      | .notStarted => some { s with teardown := .clearing 0 }
      | _ => none
  | .stop =>
      match s.teardown with
      | .clearing k =>
          if k < n then
            some { s with teardown := if s.capturing k then .stopping k else .clearing (k + 1) }
          else none
      | _ => none
  | .stopReturns =>
      -- `stopCapture` returns after the running callback has returned
      match s.teardown with
      | .stopping k =>
          if s.store.callers k = .idle then
            some { s with
              capturing := Function.update s.capturing k false
              teardown := .clearing (k + 1) }
          else none
      | _ => none
  | .release =>
      match s.teardown with
      | .clearing k =>
          if k = n then
            match Store.next o s.store .stopAccepting with
            | some store => some { s with store := store, teardown := .released }
            | none => none
          else none
      | _ => none
  | .stall => some { s with stalled := true }
  | .store a =>
      if allowed n s a then
        match Store.next o s.store a with
        | some store => some { s with store := store }
        | none => none
      else none

/-- The program under every schedule. -/
def system (o : Options) (n : Nat) : System State Action := .ofAct Initial (next o n)

/-! ## What a step does -/

variable {o : Options} {n : Nat} {s s' : State}

/-- The steps of the store, seen from the whole program. -/
theorem next_store {a : Store.Action} (h : next o n s (.store a) = some s') :
    allowed n s a = true ∧ ∃ store, Store.next o s.store a = some store ∧
      s' = { s with store := store } := by
  simp only [next] at h
  split at h
  · next hallowed =>
      split at h
      · next store hstore =>
          injection h with h
          exact ⟨hallowed, store, hstore, h.symm⟩
      · cases h
  · cases h

/-- The teardown touches the store only to release it. -/
theorem store_kept {a : Action} (h : next o n s a = some s') (hrelease : a ≠ .release)
    (hstore : ∀ b, a ≠ .store b) : s'.store = s.store := by
  cases a with
  | destroy =>
      cases ht : s.teardown <;>
        simp only [next, ht, Option.some.injEq, reduceCtorEq] at h
      rw [← h]
  | stop =>
      cases ht : s.teardown <;> simp only [next, ht, reduceCtorEq] at h
      split at h
      · rw [← Option.some.inj h]
      · cases h
  | stopReturns =>
      cases ht : s.teardown <;> simp only [next, ht, reduceCtorEq] at h
      split at h
      · rw [← Option.some.inj h]
      · cases h
  | release => exact absurd rfl hrelease
  | stall => rw [← Option.some.inj h]
  | store b => exact absurd rfl (hstore b)

/-- A step that leaves the store alone, and one that does not. -/
theorem next_store_cases {a : Action} (h : next o n s a = some s') :
    s'.store = s.store ∨ ∃ b, Store.next o s.store b = some s'.store := by
  cases a with
  | destroy | stop | stopReturns | stall =>
      exact Or.inl (store_kept h Action.noConfusion fun _ => Action.noConfusion)
  | release =>
      cases ht : s.teardown <;> simp only [next, ht, reduceCtorEq] at h
      split at h
      · split at h
        · next store hstore =>
            injection h with h
            rw [← h]
            exact Or.inr ⟨_, hstore⟩
        · cases h
      · cases h
  | store b =>
      obtain ⟨-, store, hstore, rfl⟩ := next_store h
      exact Or.inr ⟨b, hstore⟩

/-- The slots stay accounted under teardown. -/
theorem run_inv {tr : List Action} (h : (system o n).Run tr s) : Inv o s.store := by
  apply h.invariant (P := fun _ s => Inv o s.store) (fun s (hs : Initial s) => Inv.init hs.1)
  intro _ s a s' hinv hstep
  rcases next_store_cases hstep with heq | ⟨b, hb⟩
  · rw [heq]
    exact hinv
  · exact hinv.next hb

/-! ## The store outlives the captures -/

/-- The receivers whose capture the teardown has stopped. -/
def passed (n : Nat) : Progress → Nat
  | .notStarted => 0
  | .clearing k => k
  | .stopping k => k
  | .released => n

/-- A thread in `Store` is the thread of a capture that runs. -/
structure Orderly (n : Nat) (s : State) : Prop where
  busy : ∀ t, s.store.callers t ≠ .idle → t < n ∧ s.capturing t = true
  stopped : ∀ k < passed n s.teardown, s.capturing k = false
  accepting : s.teardown ≠ .released → s.store.acceptingWrites = true

/-- A thread that asks for a slot finds the store open. -/
theorem Orderly.accepting_of_busy (h : Orderly n s) {t : Nat}
    (hbusy : s.store.callers t ≠ .idle) : s.store.acceptingWrites = true := by
  apply h.accepting
  intro hreleased
  obtain ⟨ht, hcapturing⟩ := h.busy t hbusy
  have hstopped := h.stopped t (by rwa [hreleased])
  rw [hcapturing] at hstopped
  cases hstopped

theorem reserve_accepting (st : Store.State) (t : Nat) (packet : PacketInfo) :
    (Store.reserve o st t packet).acceptingWrites = st.acceptingWrites := by
  unfold Store.reserve
  split
  · rfl
  · split <;> rfl

/-- Only a call of `Store` makes a thread busy, and only the destructor closes the
store. -/
theorem store_next {st st' : Store.State} {a : Store.Action} (h : Store.next o st a = some st') :
    (∀ t, st'.callers t ≠ .idle → st.callers t ≠ .idle ∨ ∃ packet, a = .store t packet) ∧
      (a ≠ .stopAccepting → st'.acceptingWrites = st.acceptingWrites) := by
  have moved : ∀ t (c : Caller), st.callers t ≠ .idle →
      ∀ t', (st.setCaller t c).callers t' ≠ .idle → st.callers t' ≠ .idle := by
    intro t c hbusy t' hbusy'
    by_cases hsame : t' = t
    · rwa [hsame]
    · rwa [st.setCaller_of_ne c hsame] at hbusy'
  cases Store.Steps.of_next h with
  | store t packet hc =>
      refine ⟨fun t' hbusy => ?_, fun _ => rfl⟩
      by_cases hsame : t' = t
      · exact Or.inr ⟨packet, by rw [hsame]⟩
      · rw [st.setCaller_of_ne _ hsame] at hbusy
        exact Or.inl hbusy
  | reserve t packet hc =>
      refine ⟨fun t' hbusy => Or.inl ?_, fun _ => reserve_accepting st t packet⟩
      by_cases hsame : t' = t
      · rw [hsame, hc]
        exact Caller.noConfusion
      · rwa [Store.reserve_callers_of_ne packet hsame] at hbusy
  | wake t packet hc =>
      exact ⟨fun t' hbusy => Or.inl (moved t _ (by rw [hc]; exact Caller.noConfusion) t' hbusy),
        fun _ => rfl⟩
  | storeReturn t id hc =>
      exact ⟨fun t' hbusy => Or.inl (moved t _ (by rw [hc]; exact Caller.noConfusion) t' hbusy),
        fun _ => rfl⟩
  | job id a j j' hj hstep => exact ⟨fun t hbusy => Or.inl hbusy, fun _ => rfl⟩
  | stopAccepting hd => exact ⟨fun t hbusy => Or.inl hbusy, fun hne => absurd rfl hne⟩
  | waitEnds hd => exact ⟨fun t hbusy => Or.inl hbusy, fun _ => rfl⟩

theorem Orderly.init (h : Initial s) : Orderly n s := by
  obtain ⟨⟨-, hacc, hidle, -, -⟩, hteardown, -⟩ := h
  constructor
  · intro t hbusy
    exact absurd (hidle t) hbusy
  · intro k hk
    rw [hteardown] at hk
    exact absurd hk (Nat.not_lt_zero k)
  · exact fun _ => hacc

/-- **One step** of the store or of the teardown. -/
theorem Orderly.next (h : Orderly n s) {a : Action}
    (hs : Teardown.next o n s a = some s') : Orderly n s' := by
  have hstopped := h.stopped
  have haccepting := h.accepting
  cases a with
  | destroy =>
      cases ht : s.teardown <;>
        simp only [Teardown.next, ht, Option.some.injEq, reduceCtorEq] at hs
      subst hs
      rw [ht] at haccepting
      exact ⟨h.busy, fun k hk => absurd hk (Nat.not_lt_zero k),
        fun _ => haccepting Progress.noConfusion⟩
  | stop =>
      cases ht : s.teardown <;> simp only [Teardown.next, ht, reduceCtorEq] at hs
      next k =>
        split at hs
        · injection hs with hs
          subst hs
          rw [ht] at hstopped haccepting
          refine ⟨h.busy, ?_, fun _ => haccepting Progress.noConfusion⟩
          intro i hi
          dsimp only at hi ⊢
          split at hi
          · exact hstopped i hi
          · next hcapturing =>
              rcases Nat.lt_succ_iff_lt_or_eq.mp hi with hi | rfl
              · exact hstopped i hi
              · simpa using hcapturing
        · cases hs
  | stopReturns =>
      cases ht : s.teardown <;> simp only [Teardown.next, ht, reduceCtorEq] at hs
      next k =>
        split at hs
        · next hidle =>
            injection hs with hs
            subst hs
            rw [ht] at hstopped haccepting
            refine ⟨?_, ?_, fun _ => haccepting Progress.noConfusion⟩
            · intro t hbusy
              have hne : t ≠ k := fun heq => hbusy (by rw [heq]; exact hidle)
              show t < n ∧ Function.update s.capturing k false t = true
              rw [Function.update_of_ne hne]
              exact h.busy t hbusy
            · intro i hi
              show Function.update s.capturing k false i = false
              rcases Nat.lt_succ_iff_lt_or_eq.mp hi with hi | rfl
              · rw [Function.update_of_ne (Nat.ne_of_lt hi)]
                exact hstopped i hi
              · exact Function.update_self ..
        · cases hs
  | release =>
      cases ht : s.teardown <;> simp only [Teardown.next, ht, reduceCtorEq] at hs
      next k =>
        split at hs
        · next hk =>
            split at hs
            · next store hstore =>
                injection hs with hs
                subst hs
                rw [ht] at hstopped
                refine ⟨?_, ?_, fun hne => absurd rfl hne⟩
                · intro t hbusy
                  rcases (store_next hstore).1 t hbusy with hbusy | ⟨packet, heq⟩
                  · exact h.busy t hbusy
                  · cases heq
                · intro i hi
                  exact hstopped i (by rwa [passed, hk])
            · cases hs
        · cases hs
  | stall =>
      injection hs with hs
      subst hs
      exact ⟨h.busy, hstopped, haccepting⟩
  | store b =>
      obtain ⟨hallowed, store, hstore, rfl⟩ := next_store hs
      have hopen : b ≠ .stopAccepting := by
        intro heq
        subst heq
        cases hallowed
      refine ⟨?_, hstopped, ?_⟩
      · intro t hbusy
        rcases (store_next hstore).1 t hbusy with hbusy | ⟨packet, heq⟩
        · exact h.busy t hbusy
        · subst heq
          simpa [allowed] using hallowed
      · intro hne
        rw [(store_next hstore).2 hopen]
        exact haccepting hne

/-! ## The circular wait -/

/-- The packet was handed to the connection, and only the connection can settle it. -/
def Handed (j : Job) : Prop :=
  match j.phase with
  | .executing _ => True
  | _ => False

/-- Every slot is held by a write the connection has, and the limit is reached. -/
structure Full (o : Options) (s : Store.State) : Prop where
  pending : s.pendingWrites = o.maxPendingWrites
  handed : ∀ j ∈ s.jobs, j.Unsettled → Handed j

/-- The teardown thread waits for thread `t`, which is asleep in a store that
still accepts. -/
structure WaitsFor (s : State) (t : Nat) : Prop where
  stopping : s.teardown = .stopping t
  asleep : ∃ packet, s.store.callers t = .waiting packet
  accepting : s.store.acceptingWrites = true

/-- The circular wait. -/
def CircularWait (o : Options) (s : State) : Prop :=
  s.stalled = true ∧ Full o s.store ∧ ∃ t, WaitsFor s t

/-- A circular wait is for ever: no step of any thread ends it, apart from
sleepers that wake up, look, and go back to sleep. -/
structure Wedged (o : Options) (s : State) (t : Nat) : Prop where
  stalled : s.stalled = true
  full : Full o s.store
  stopping : s.teardown = .stopping t
  inside : ∃ packet, s.store.callers t = .waiting packet ∨ s.store.callers t = .reserving packet
  accepting : s.store.acceptingWrites = true

theorem CircularWait.wedged (h : CircularWait o s) : ∃ t, Wedged o s t := by
  obtain ⟨hstalled, hfull, t, hstop, ⟨packet, hasleep⟩, hacc⟩ := h
  exact ⟨t, hstalled, hfull, hstop, ⟨packet, Or.inl hasleep⟩, hacc⟩

/-- The thread waited for stays inside when another thread moves, or itself
between waiting and looking. -/
theorem Wedged.setCaller {t u : Nat} {c : Caller} (h : Wedged o s t)
    (hc : u = t → ∃ packet, c = .waiting packet ∨ c = .reserving packet) :
    Wedged o { s with store := s.store.setCaller u c } t := by
  refine ⟨h.stalled, ⟨h.full.pending, h.full.handed⟩, h.stopping, ?_, h.accepting⟩
  by_cases hu : u = t
  · obtain ⟨packet, hp⟩ := hc hu
    subst hu
    refine ⟨packet, ?_⟩
    simpa only [Store.State.setCaller, Function.update_self] using hp
  · simpa only [Store.State.setCaller, Function.update_of_ne (Ne.symm hu)] using h.inside

theorem Wedged.next {t : Nat} (hinv : Inv o s.store) (h : Wedged o s t) {a : Action}
    (hstep : next o n s a = some s') : Wedged o s' t := by
  have ht := h.stopping
  obtain ⟨packet, hinside⟩ := h.inside
  cases a with
  | destroy | stop | release => simp [Teardown.next, ht] at hstep
  | stopReturns =>
      simp only [Teardown.next, ht] at hstep
      split at hstep
      · next hidle => rcases hinside with hin | hin <;> simp [hin] at hidle
      · cases hstep
  | stall =>
      injection hstep with hstep
      rw [← hstep]
      exact ⟨rfl, h.full, h.stopping, h.inside, h.accepting⟩
  | store b =>
      obtain ⟨hallowed, store, hb, rfl⟩ := next_store hstep
      cases Steps.of_next hb with
      | store u p hc =>
          refine h.setCaller fun hu => ?_
          subst hu
          rcases hinside with hin | hin <;> simp [hin] at hc
      | wake u p hc => exact h.setCaller fun _ => ⟨p, Or.inr rfl⟩
      | storeReturn u id hc =>
          refine h.setCaller fun hu => ?_
          subst hu
          rcases hinside with hin | hin <;> simp [hin] at hc
      | reserve u p hc =>
          have hblocks : ¬ (s.store.pendingWrites < o.maxPendingWrites ∨
              s.store.acceptingWrites = false) := by
            rw [h.full.pending, h.accepting]
            simp
          rw [reserve, if_pos hblocks]
          exact h.setCaller fun _ => ⟨p, Or.inl rfl⟩
      | job id a j j' hj hstep' =>
          -- every unsettled packet is with the connection, which is stalled
          have hun := (Job.step_cases hstep').1
          have hhanded := h.full.handed j (List.mem_of_getElem? hj) hun
          have hstalled := h.stalled
          obtain ⟨p, phase, completions⟩ := j
          cases phase <;> simp only [Handed] at hhanded
          cases a <;> simp only [Job.step, reduceCtorEq] at hstep'
          simp [allowed, hstalled] at hallowed
      | stopAccepting hd => exact absurd hallowed Bool.false_ne_true
      | waitEnds hd =>
          rw [hinv.accepting h.accepting] at hd
          cases hd

/-- **A circular wait never ends.** -/
theorem circularWait_forever {tr tr' : List Action} (h : (system o n).Run tr s)
    (hwait : CircularWait o s)
    (h' : (System.ofAct (· = s) (next o n)).Run tr' s') : ∃ t, s'.teardown = .stopping t := by
  obtain ⟨t, hwedged⟩ := hwait.wedged
  have hinv := run_inv h
  have key : Inv o s'.store ∧ Wedged o s' t := by
    apply h'.invariant (P := fun _ s => Inv o s.store ∧ Wedged o s t)
    · rintro s rfl
      exact ⟨hinv, hwedged⟩
    · rintro _ s₁ a s₂ ⟨hi, hw⟩ hstep
      refine ⟨?_, hw.next hi hstep⟩
      rcases next_store_cases hstep with heq | ⟨b, hb⟩
      · rw [heq]
        exact hi
      · exact hi.next hb
  exact ⟨t, key.2.stopping⟩

end ElephantShrew.Store.Teardown
