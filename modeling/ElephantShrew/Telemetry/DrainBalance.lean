import ElephantShrew.Telemetry.DrainLaw

/-!
# What a shutdown accounts for

However a shutdown goes, a pending record is pushed, counted, or still unread
in its ring, and no counter stands for the unread ones: a drain that is not
asked for, or that stops at its deadline, leaves them where they are.  At most
two records are discarded, because the call whose callback discards is the
last call of its thread.
-/

namespace ElephantShrew.Telemetry.Drain

open ElephantShrew.Verified
open ElephantShrew.Bpf
open ElephantShrew.Telemetry

variable {capacity : Nat} {o : Codec.ByteOrder} {pending : List (List Callback)} {lost : Loss}
  {queued : List TelemetryRecord}

/-! ## Discards -/

/-- What the poller may have discarded. -/
def Poller.discards : Poller → Nat
  | .exited => 1
  | .polling (.returned rc) => if rc = eCanceled then 1 else 0
  | _ => 0

/-- What the drain may have discarded. -/
def Finisher.discards : Finisher → Nat
  | .closing => 1
  | .returned => 1
  | .consuming (.returned rc) => if rc = eCanceled then 1 else 0
  | _ => 0

/-- Each thread has discarded one record at most. -/
def FewDiscards (s : State) : Prop := discarded s ≤ s.poller.discards + s.finisher.discards

/-- A step of a call that is not over discards one record at most, and then the
call is over. -/
theorem CallSteps.discards {consuming : Bool} {sh sh' : Shared} {call call' : Call}
    {a : CallAction} (h : CallSteps capacity o consuming sh call a sh' call') :
    (∀ rc, call ≠ .returned rc) ∧
      (times .discarded sh'.ended = times .discarded sh.ended ∨
        (times .discarded sh'.ended = times .discarded sh.ended + 1 ∧
          call' = .returned eCanceled)) := by
  cases h with
  | onEvent ring n deadline nowNs cb rest hring =>
      refine ⟨fun _ => Call.noConfusion, ?_⟩
      by_cases hout : runEvent capacity o sh cb deadline nowNs = .discarded
      · rw [if_pos hout, Shared.consume, times_append, if_pos hout]
        exact Or.inr ⟨rfl, rfl⟩
      · rw [if_neg hout, Shared.consume, times_append, if_neg hout]
        exact Or.inl rfl
  | take ring n => exact ⟨fun _ => Call.noConfusion, Or.inl rfl⟩
  | finish n hall => exact ⟨fun _ => Call.noConfusion, Or.inl rfl⟩
  | interrupt => exact ⟨fun _ => Call.noConfusion, Or.inl rfl⟩
  | fail n rc => exact ⟨fun _ => Call.noConfusion, Or.inl rfl⟩
  | loadDeadline ring n => exact ⟨fun _ => Call.noConfusion, Or.inl rfl⟩

theorem Poller.discards_polling {call : Call} (h : ∀ rc, call ≠ .returned rc) :
    (Poller.polling call).discards = 0 := by
  cases call with
  | returned rc => exact absurd rfl (h rc)
  | _ => rfl

theorem Finisher.discards_consuming {call : Call} (h : ∀ rc, call ≠ .returned rc) :
    (Finisher.consuming call).discards = 0 := by
  cases call with
  | returned rc => exact absurd rfl (h rc)
  | _ => rfl

/-- A poll that was cancelled is the poller's last. -/
theorem checkPoll_discards {s s' : State} (h : next capacity o s .checkPoll = some s') :
    s.poller.discards ≤ s'.poller.discards := by
  simp only [next] at h
  split at h
  · next rc hp =>
      rw [hp, Poller.discards]
      split_ifs at h with hintr hcanceled hneg
      all_goals
        injection h with h
        rw [← h]
      · rw [if_neg (by rw [hintr]; decide)]
        exact Nat.zero_le _
      · exact Nat.le_trans (by split <;> decide) (Nat.le_refl 1)
      · exact Nat.le_trans (by split <;> decide) (Nat.le_refl 1)
      · rw [if_neg (by rw [eCanceled]; omega)]
        exact Nat.zero_le _
  · cases h

theorem checkConsume_discards {s s' : State} (h : next capacity o s .checkConsume = some s') :
    s.finisher.discards ≤ s'.finisher.discards := by
  simp only [next] at h
  split at h
  · next rc hf =>
      rw [hf, Finisher.discards]
      split_ifs at h with hintr hdone hneg
      all_goals
        injection h with h
        rw [← h]
      · rw [if_neg (by rw [hintr]; decide)]
        exact Nat.zero_le _
      · exact Nat.le_trans (by split <;> decide) (Nat.le_refl 1)
      · exact Nat.le_trans (by split <;> decide) (Nat.le_refl 1)
      · rw [if_neg (fun hc => hdone (Or.inl hc))]
        exact Nat.zero_le _
  · cases h

/-- Steps that end no callback. -/
theorem FewDiscards.moves {s s' : State} (h : FewDiscards s)
    (hended : s'.shared.ended = s.shared.ended) (hp : s.poller.discards ≤ s'.poller.discards)
    (hf : s.finisher.discards ≤ s'.finisher.discards) : FewDiscards s' := by
  unfold FewDiscards discarded at *
  rw [hended]
  omega

theorem FewDiscards.next {s s' : State} (h : FewDiscards s) {a : Action}
    (hs : next capacity o s a = some s') : FewDiscards s' := by
  have hsteps := Steps.of_next hs
  cases hsteps with
  | pollerLoop hp => exact h.moves rfl (by rw [hp]; exact Nat.zero_le _) (Nat.le_refl _)
  | poll call call' a sh hp hcall =>
      obtain ⟨hopen, hmore⟩ := hcall.discards
      unfold FewDiscards discarded at *
      rw [hp, Poller.discards_polling hopen] at h
      rcases hmore with heq | ⟨heq, hover⟩
      · dsimp only
        omega
      · dsimp only
        rw [heq, hover, Poller.discards, if_pos rfl]
        omega
  | checkPoll rc p e hpoller hp =>
      exact h.moves rfl (checkPoll_discards hs) (Nat.le_refl _)
  | finishAfterDetach ms hf =>
      exact h.moves rfl (Nat.le_refl _) (by rw [hf]; exact Nat.zero_le _)
  | join ms hf hp => exact h.moves rfl (Nat.le_refl _) (by rw [hf]; exact Nat.zero_le _)
  | skipDrain ms hf hno => exact h.moves rfl (Nat.le_refl _) (by rw [hf]; exact Nat.zero_le _)
  | arm ms nowNs deadline hf =>
      exact h.moves rfl (Nat.le_refl _) (by rw [hf]; exact Nat.zero_le _)
  | clearAbort hf => exact h.moves rfl (Nat.le_refl _) (by rw [hf]; exact Nat.zero_le _)
  | drainLoop nowNs hf => exact h.moves rfl (Nat.le_refl _) (by rw [hf]; exact Nat.zero_le _)
  | consume call call' a sh hf hcall =>
      obtain ⟨hopen, hmore⟩ := hcall.discards
      unfold FewDiscards discarded at *
      rw [hf, Finisher.discards_consuming hopen] at h
      rcases hmore with heq | ⟨heq, hover⟩
      · dsimp only
        omega
      · dsimp only
        rw [heq, hover, Finisher.discards, if_pos rfl]
        omega
  | checkConsume rc f e hf hf' =>
      exact h.moves rfl (Nat.le_refl _) (checkConsume_discards hs)
  | close hf => exact h.moves rfl (Nat.le_refl _) (by rw [hf]; exact Nat.le_refl 1)
  | pop record queue hqueue => exact h.moves rfl (Nat.le_refl _) (Nat.le_refl _)

theorem FewDiscards.le_two {s : State} (h : FewDiscards s) : discarded s ≤ 2 := by
  have hp : s.poller.discards ≤ 1 := by
    unfold Poller.discards
    split
    · exact Nat.le_refl 1
    · split <;> decide
    · decide
  have hf : s.finisher.discards ≤ 1 := by
    unfold Finisher.discards
    split
    · exact Nat.le_refl 1
    · exact Nat.le_refl 1
    · split <;> decide
    · decide
  unfold FewDiscards at h
  omega

/-- Both invariants, of every run. -/
theorem run_books {tr : List Action} {s : State}
    (h : (system capacity o pending lost queued).Run tr s) :
    Books o pending lost queued s ∧ FewDiscards s := by
  apply h.invariant (P := fun _ s => Books o pending lost queued s ∧ FewDiscards s)
  · intro s hs
    refine ⟨Books.init hs, ?_⟩
    rw [FewDiscards, discarded, hs.ended]
    exact Nat.zero_le _
  · intro tr s a s' hs hstep
    exact ⟨hs.1.next hstep, hs.2.next hstep⟩

/-! ## The balance -/

/-- What a shutdown has done with the pending records. -/
structure Balance (pending : List (List Callback)) (lost : Loss) (queued : List TelemetryRecord)
    (s : State) : Prop where
  /-- pushed, counted in one of three ways, or still unread -/
  records : pending.flatten.length =
    (queuedPairs s.shared.ended).length + times .decodeError s.shared.ended +
      times .dropped s.shared.ended + times .discarded s.shared.ended +
      s.shared.rings.flatten.length
  /-- what was pushed is in the queue, or with the sink -/
  pushed : s.popped ++ s.shared.queue = queued ++ (queuedPairs s.shared.ended).map Prod.snd
  /-- the counters have grown by the other callbacks -/
  loss : s.shared.loss = plus lost (lossOf s.shared.ended)
  /-- one for the last call of each thread -/
  discarded : Drain.discarded s ≤ 2

theorem Books.balance {s : State} (h : Books o pending lost queued s) (hfew : FewDiscards s) :
    Balance pending lost queued s where
  records := by
    have hlength := h.once.length_eq
    rw [List.length_append, List.length_map, length_ended] at hlength
    exact hlength.symm
  pushed := h.queue
  loss := h.loss
  discarded := hfew.le_two

/-- **What `Loss` accounts for.**  In every run, with any timeout and any clock:
every pending record but those still unread when `FinishAfterDetach` has
returned; and none is unread after a drain that was asked for and not
disturbed. -/
theorem finishAfterDetach_balance (capacity : Nat) (o : Codec.ByteOrder)
    (pending : List (List Callback)) (lost : Loss) (queued : List TelemetryRecord)
    (tr : List Action) (s : State) (h : (system capacity o pending lost queued).Run tr s)
    (hreturned : s.finisher = .returned) :
    Balance pending lost queued s ∧
      (((system capacity o pending lost queued).guard Undisturbed).Run tr s →
        s.shared.rings.flatten = []) := by
  constructor
  · obtain ⟨hbooks, hfew⟩ := run_books h
    exact hbooks.balance hfew
  · intro hcalm
    have hstage := (run_invariants hcalm).2.stage
    rw [Stage, hreturned] at hstage
    exact List.flatten_eq_nil_iff.mpr hstage.2.2

/-- The object with `records` pending in its one ring, and no poller. -/
def notStartedOn (records : List Callback) : State :=
  ⟨⟨[records], false, 0, ⟨0, 0, 0⟩, [], []⟩, .absent, .notCalled, 0, []⟩

/-- What the destructor does: no drain, and the record stays unread. -/
theorem finishAfterDetach_balance_unread :
    ∃ s, Balance [[nullRecord]] ⟨0, 0, 0⟩ [] s ∧ s.shared.rings = [[nullRecord]] := by
  have start : (system 1 .little [[nullRecord]] ⟨0, 0, 0⟩ []).Run [] (notStartedOn [nullRecord]) :=
    .init ⟨rfl, rfl, rfl, rfl, rfl, rfl, Or.inl rfl, rfl, rfl⟩
  have done := (((start.act (.finishAfterDetach 0) rfl).act .join rfl).act .skipDrain rfl).act
    .close rfl
  exact ⟨_, (finishAfterDetach_balance _ _ _ _ _ _ _ done rfl).1, rfl⟩

/-- With timeout 0 a pending record is neither pushed nor counted. -/
theorem finishAfterDetach_unreported :
    ¬ ∀ tr s, (system 1 .little [[nullRecord]] ⟨0, 0, 0⟩ []).Run tr s → s.finisher = .returned →
      [[nullRecord]].flatten.length =
        (queuedPairs s.shared.ended).length + s.shared.loss.decodeErrors.toNat +
          s.shared.loss.queueDropped.toNat + s.shared.loss.shutdownDiscarded.toNat := by
  intro h
  have start : (system 1 .little [[nullRecord]] ⟨0, 0, 0⟩ []).Run [] (notStartedOn [nullRecord]) :=
    .init ⟨rfl, rfl, rfl, rfl, rfl, rfl, Or.inl rfl, rfl, rfl⟩
  have done := (((start.act (.finishAfterDetach 0) rfl).act .join rfl).act .skipDrain rfl).act
    .close rfl
  exact absurd (h _ _ done rfl) (by decide)

end ElephantShrew.Telemetry.Drain
