import ElephantShrew.Telemetry.DeliveryLaw

/-!
# Why a callback ended as it did

A record is discarded because the callback saw the shutdown cancel, and dropped
because `TryPush` loaded `tail_` when the queue was full.  Each end of a callback
is traced back to the step that decided it.
-/

namespace ElephantShrew.Telemetry.Spsc

variable {n : Nat} {Cell : Type} {c : Capacity} {s s' : State n Cell}

/-- A push is accepted at the store of `head_`. -/
theorem next_push_accepted {a : Action n Cell} {value : Fin n → Cell}
    (hs : next c s a = some (s', some (.push value true))) : a = .pushStoreHead := by
  cases Steps.of_next hs with
  | pushStoreHead _ _ _ _ _ _ => rfl

end ElephantShrew.Telemetry.Spsc

namespace ElephantShrew.Telemetry.Delivery

open ElephantShrew.Verified

variable {c : Capacity} {o : Codec.ByteOrder} {sources : List Source} {s s' : State}

/-- Why the callback that is the one after `n` others to end ended as it did.
`passed t a` is that the object was in the state `t` and took the step `a` there. -/
inductive Cause (c : Capacity) (o : Codec.ByteOrder) (passed : State → Action → Prop) (n : Nat)
    (cb : Callback) : Outcome → Prop
  /-- the shutdown was aborted or its deadline over -/
  | discarded {t : State} {view : ShutdownView} (h : passed t (.decide view))
      (hplace : t.ended.length = n) (hpc : t.pc = .entered cb) (hcancels : view.cancels) :
      Cause c o passed n cb .discarded
  /-- the record did not decode -/
  | decodeError {t : State} {view : ShutdownView} (h : passed t (.decide view))
      (hplace : t.ended.length = n) (hpc : t.pc = .entered cb) (hcancels : ¬view.cancels)
      (hnone : decodeRecord o cb.source cb.data cb.size = none) :
      Cause c o passed n cb .decodeError
  /-- the queue was full -/
  | dropped {t : State} {record : TelemetryRecord} (h : passed t (.queue .pushLoadTail))
      (hplace : t.ended.length = n) (hpc : t.pc = .pushing cb record)
      (hfull : (t.queue.stored c).length = c.capacity) : Cause c o passed n cb .dropped
  /-- the record was stored -/
  | queued {t : State} {record : TelemetryRecord} (h : passed t (.queue .pushStoreHead))
      (hplace : t.ended.length = n) (hpc : t.pc = .pushing cb record) :
      Cause c o passed n cb (.queued record)

/-- What has been passed stays passed. -/
theorem Cause.mono {passed passed' : State → Action → Prop} {n : Nat} {cb : Callback}
    {out : Outcome} (h : Cause c o passed n cb out) (hmono : ∀ t a, passed t a → passed' t a) :
    Cause c o passed' n cb out := by
  cases h with
  | discarded h hplace hpc hcancels => exact .discarded (hmono _ _ h) hplace hpc hcancels
  | decodeError h hplace hpc hcancels hnone =>
      exact .decodeError (hmono _ _ h) hplace hpc hcancels hnone
  | dropped h hplace hpc hfull => exact .dropped (hmono _ _ h) hplace hpc hfull
  | queued h hplace hpc => exact .queued (hmono _ _ h) hplace hpc

/-! ## What one step decides -/

theorem next_callback {cb : Callback} (h : next c o sources s (.callback cb) = some s') :
    s'.made = s.made ++ [cb] ∧ s'.ended = s.ended ∧ s'.pc = .entered cb := by
  cases hpc : s.pc <;> simp only [next, hpc, reduceCtorEq] at h
  split at h
  · injection h with h
    rw [← h]
    exact ⟨rfl, rfl, rfl⟩
  · cases h

/-- The ways in which a step that is not a call ends a callback or not, with what
decides. -/
inductive Ends (c : Capacity) (o : Codec.ByteOrder) (s s' : State) : Action → Prop
  | none {a : Action} (hended : s'.ended = s.ended)
      (hpc : ∀ cb, s'.pc = .refused cb → s.pc = .refused cb) : Ends c o s s' a
  | discards {view : ShutdownView} (cb : Callback) (hpc : s.pc = .entered cb)
      (hcancels : view.cancels) (hended : s'.ended = s.ended ++ [(cb, .discarded)])
      (hpc' : s'.pc = .idle) : Ends c o s s' (.decide view)
  | rejects {view : ShutdownView} (cb : Callback) (hpc : s.pc = .entered cb)
      (hcancels : ¬view.cancels) (hnone : decodeRecord o cb.source cb.data cb.size = Option.none)
      (hended : s'.ended = s.ended ++ [(cb, .decodeError)]) (hpc' : s'.pc = .idle) :
      Ends c o s s' (.decide view)
  | refuses (cb : Callback) (record : TelemetryRecord) (hpc : s.pc = .pushing cb record)
      (hfull : (s.queue.stored c).length = c.capacity) (hended : s'.ended = s.ended)
      (hpc' : s'.pc = .refused cb) : Ends c o s s' (.queue .pushLoadTail)
  | drops (cb : Callback) (hpc : s.pc = .refused cb)
      (hended : s'.ended = s.ended ++ [(cb, .dropped)]) (hpc' : s'.pc = .idle) :
      Ends c o s s' .countDrop
  | queues (cb : Callback) (record : TelemetryRecord) (hpc : s.pc = .pushing cb record)
      (hended : s'.ended = s.ended ++ [(cb, .queued record)]) (hpc' : s'.pc = .idle) :
      Ends c o s s' (.queue .pushStoreHead)

theorem decideEvent_ends {cb : Callback} {view : ShutdownView} (hpc : s.pc = .entered cb)
    (h : decideEvent c o s cb view = some s') :
    s'.made = s.made ∧ Ends c o s s' (.decide view) := by
  unfold decideEvent at h
  split at h
  · next hverdict =>
      injection h with h
      rw [← h]
      have hcancels : view.cancels := by
        by_contra hview
        rw [onEvent, if_neg hview] at hverdict
        split at hverdict <;> cases hverdict
      exact ⟨rfl, .discards cb hpc hcancels rfl rfl⟩
  · next hverdict =>
      injection h with h
      rw [← h]
      unfold onEvent at hverdict
      split at hverdict
      · cases hverdict
      · next hview =>
          split at hverdict
          · next hnone => exact ⟨rfl, .rejects cb hpc hview hnone rfl rfl⟩
          · cases hverdict
  · split at h
    · injection h with h
      rw [← h]
      exact ⟨rfl, .none rfl fun _ => Pc.noConfusion⟩
    · cases h

theorem queue_ends (hinv : Spsc.Inv c s.queue) {a : Spsc.Action recordSize UInt8}
    {queue : Spsc.State recordSize UInt8} {e : Option (QueueEvent (Fin recordSize → UInt8))}
    (hq : Spsc.next c s.queue a = some (queue, e)) :
    (afterQueue o { s with queue := queue } e).made = s.made ∧
      Ends c o s (afterQueue o { s with queue := queue } e) (.queue a) := by
  cases e with
  | none => exact ⟨rfl, .none rfl fun _ h => h⟩
  | some e =>
      cases e with
      | pop r => cases r <;> exact ⟨rfl, .none rfl fun _ h => h⟩
      | push value accepted =>
          simp only [afterQueue]
          split
          · next cb record hpc =>
              cases accepted with
              | true =>
                  rw [Spsc.next_push_accepted hq]
                  exact ⟨rfl, .queues cb record hpc rfl rfl⟩
              | false =>
                  rw [Spsc.next_push_refused hq]
                  exact ⟨rfl, .refuses cb record hpc (hinv.push_refused hq) rfl rfl⟩
          · exact ⟨rfl, .none rfl fun _ h => h⟩

/-- **A step that is not a call.** -/
theorem next_ends (hinv : Inv c o sources s) {a : Action} (ha : ∀ cb, a ≠ .callback cb)
    (h : next c o sources s a = some s') : s'.made = s.made ∧ Ends c o s s' a := by
  cases a with
  | callback cb => exact absurd rfl (ha cb)
  | decide view =>
      cases hpc : s.pc <;> simp only [next, hpc, reduceCtorEq] at h
      exact decideEvent_ends hpc h
  | countDrop =>
      cases hpc : s.pc <;> simp only [next, hpc, Option.some.injEq, reduceCtorEq] at h
      rw [← h]
      exact ⟨rfl, .drops _ hpc rfl rfl⟩
  | queue a =>
      simp only [next] at h
      split at h
      · split at h
        · next queue e hq =>
            injection h with h
            rw [← h]
            obtain ⟨tr, hrun, -⟩ := hinv.history
            exact queue_ends (Spsc.run_inv hrun).1 hq
        · cases h
      · cases h

/-! ## The invariant -/

/-- Every end has its cause, and so has a refusal that is still to be counted. -/
structure Explained (c : Capacity) (o : Codec.ByteOrder) (passed : State → Action → Prop)
    (s : State) : Prop where
  ended : ∀ n p, s.ended[n]? = some p → Cause c o passed n p.1 p.2
  refused : ∀ cb, s.pc = .refused cb → Cause c o passed s.ended.length cb .dropped

variable {passed passed' : State → Action → Prop}

theorem Explained.init (h : Initial s) : Explained c o passed s := by
  constructor
  · intro n p hp
    rw [h.2.2.2.2.1] at hp
    cases hp
  · intro cb hpc
    rw [h.2.1] at hpc
    cases hpc

theorem Explained.mono (h : Explained c o passed s)
    (hmono : ∀ t a, passed t a → passed' t a) : Explained c o passed' s :=
  ⟨fun n p hp => (h.ended n p hp).mono hmono, fun cb hpc => (h.refused cb hpc).mono hmono⟩

/-- A call adds nothing. -/
theorem Explained.callback (h : Explained c o passed s) {cb : Callback}
    (hs : next c o sources s (.callback cb) = some s') : Explained c o passed s' := by
  obtain ⟨-, hended, hpc⟩ := next_callback hs
  constructor
  · rw [hended]
    exact h.ended
  · rw [hpc]
    exact fun cb' h => Pc.noConfusion h

/-- One more callback has ended. -/
theorem Explained.concat (h : Explained c o passed s) {cb : Callback} {out : Outcome}
    (hended : s'.ended = s.ended ++ [(cb, out)]) (hpc : s'.pc = .idle)
    (hcause : Cause c o passed s.ended.length cb out) : Explained c o passed s' := by
  constructor
  · intro n p hp
    rw [hended, List.getElem?_append] at hp
    split at hp
    · exact h.ended n p hp
    · next hlen =>
        obtain ⟨hn, rfl⟩ := List.getElem?_eq_some_iff.mp hp
        have hn' : n = s.ended.length := by
          rw [List.length_singleton] at hn
          omega
        subst hn'
        simpa using hcause
  · rw [hpc]
    exact fun cb' h => Pc.noConfusion h

/-- **A step adds its own cause.** -/
theorem Explained.ends (h : Explained c o passed s) {a : Action} (hpassed : passed s a)
    (hs : Ends c o s s' a) : Explained c o passed s' := by
  cases hs with
  | none hended hpc =>
      constructor
      · rw [hended]
        exact h.ended
      · rw [hended]
        exact fun cb hcb => h.refused cb (hpc cb hcb)
  | discards cb hpc hcancels hended hpc' =>
      exact h.concat hended hpc' (.discarded hpassed rfl hpc hcancels)
  | rejects cb hpc hcancels hnone hended hpc' =>
      exact h.concat hended hpc' (.decodeError hpassed rfl hpc hcancels hnone)
  | refuses cb record hpc hfull hended hpc' =>
      constructor
      · rw [hended]
        exact h.ended
      · intro cb' hcb'
        rw [hpc', Pc.refused.injEq] at hcb'
        rw [hended, ← hcb']
        exact .dropped hpassed rfl hpc hfull
  | drops cb hpc hended hpc' => exact h.concat hended hpc' (h.refused cb hpc)
  | queues cb record hpc hended hpc' => exact h.concat hended hpc' (.queued hpassed rfl hpc)

end ElephantShrew.Telemetry.Delivery
