import ElephantShrew.Telemetry.Drain

/-!
# What a drain loses

Two invariants.  `Books` says that every pending record is either still in its
ring or has had exactly one callback, with the outcome counted; it holds
however the threads interleave.  `Handover` says where a callback can see
`abort`: only in the poller, between the two stores of `FinishAfterDetach`, and
at most once, because the poll that saw it is the poller's last.
-/

namespace ElephantShrew.Telemetry.Drain

open ElephantShrew.Verified
open ElephantShrew.Bpf
open ElephantShrew.Telemetry

variable {capacity : Nat} {o : Codec.ByteOrder} {pending : List (List Callback)} {lost : Loss}
  {queued : List TelemetryRecord}

/-! ## One step of a library call -/

/-- Everything a step inside a call can be. -/
inductive CallSteps (capacity : Nat) (o : Codec.ByteOrder) (consuming : Bool) (sh : Shared) :
    Call → CallAction → Shared → Call → Prop
  | take (ring n : Nat) : CallSteps capacity o consuming sh (.between n) (.take ring) sh
      (.entered ring n)
  | finish (n : Nat) (h : consuming = true → ∀ ring ∈ sh.rings, ring = []) :
      CallSteps capacity o consuming sh (.between n) .finish sh (.returned n)
  | interrupt : CallSteps capacity o consuming sh (.between 0) .interrupt sh (.returned eIntr)
  | fail (n : Nat) (rc : Int) :
      CallSteps capacity o consuming sh (.between n) (.fail rc) sh (.returned rc)
  | loadDeadline (ring n : Nat) :
      CallSteps capacity o consuming sh (.entered ring n) .loadDeadline sh
        (.loaded ring n sh.deadlineNs)
  | onEvent (ring n : Nat) (deadline nowNs : UInt64) (cb : Callback) (rest : List Callback)
      (h : sh.rings[ring]? = some (cb :: rest)) :
      CallSteps capacity o consuming sh (.loaded ring n deadline) (.onEvent nowNs)
        (sh.consume ring rest cb (runEvent capacity o sh cb deadline nowNs))
        (if runEvent capacity o sh cb deadline nowNs = .discarded then .returned eCanceled
          else .between (n + 1))

theorem CallSteps.of_next {consuming : Bool} {sh sh' : Shared} {call call' : Call}
    {a : CallAction} (h : callNext capacity o consuming sh call a = some (sh', call')) :
    CallSteps capacity o consuming sh call a sh' call' := by
  cases call with
  | between n =>
      cases a with
      | take ring =>
          simp only [callNext] at h
          split at h
          · injection h with h
            injection h with hsh hcall
            rw [← hsh, ← hcall]
            exact .take ring n
          · cases h
      | finish =>
          simp only [callNext] at h
          split at h
          · cases h
          · next hall =>
              injection h with h
              injection h with hsh hcall
              rw [← hsh, ← hcall]
              exact .finish n fun hc => not_not.mp fun hn => hall ⟨hc, hn⟩
      | interrupt =>
          simp only [callNext] at h
          split at h
          · next hn =>
              injection h with h
              injection h with hsh hcall
              rw [← hsh, ← hcall, hn]
              exact .interrupt
          · cases h
      | fail rc =>
          simp only [callNext] at h
          split at h
          · injection h with h
            injection h with hsh hcall
            rw [← hsh, ← hcall]
            exact .fail n rc
          · cases h
      | loadDeadline => cases h
      | onEvent nowNs => cases h
  | entered ring n =>
      cases a with
      | loadDeadline =>
          injection h with h
          injection h with hsh hcall
          rw [← hsh, ← hcall]
          exact .loadDeadline ring n
      | _ => cases h
  | loaded ring n deadline =>
      cases a with
      | onEvent nowNs =>
          simp only [callNext] at h
          split at h
          · next cb rest hring =>
              injection h with h
              injection h with hsh hcall
              rw [← hsh, ← hcall]
              exact .onEvent ring n deadline nowNs cb rest hring
          · cases h
      | _ => cases h
  | returned rc => cases a <;> cases h

/-! ## One step of the object -/

/-- Everything a step can be. -/
inductive Steps (capacity : Nat) (o : Codec.ByteOrder) (s : State) : Action → State → Prop
  | pollerLoop (h : s.poller = .top) :
      Steps capacity o s .pollerLoop
        { s with poller := if s.shared.abort then .exited else .polling (.between 0) }
  | poll (call call' : Call) (a : CallAction) (sh : Shared) (h : s.poller = .polling call)
      (hcall : CallSteps capacity o false s.shared call a sh call') :
      Steps capacity o s (.poll a) { s with shared := sh, poller := .polling call' }
  | checkPoll (rc : Int) (p : Poller) (e : Int) (h : s.poller = .polling (.returned rc))
      (hp : p = .exited ∨ (p = .top ∧ (s.shared.abort = true → rc ≠ eCanceled))) :
      Steps capacity o s .checkPoll { s with pollError := e, poller := p }
  | finishAfterDetach (ms : Int) (h : s.finisher = .notCalled) :
      Steps capacity o s (.finishAfterDetach ms)
        { s with shared := { s.shared with abort := true }, finisher := .joining ms }
  | join (ms : Int) (h : s.finisher = .joining ms)
      (hp : s.poller = .absent ∨ s.poller = .exited) :
      Steps capacity o s .join { s with finisher := .joined ms }
  | skipDrain (ms : Int) (h : s.finisher = .joined ms)
      (hno : ¬ (clampMs ms > 0 ∧ s.shared.rings ≠ [])) :
      Steps capacity o s .skipDrain { s with finisher := .closing }
  | arm (ms : Int) (nowNs deadline : UInt64) (h : s.finisher = .joined ms) :
      Steps capacity o s (.arm nowNs)
        { s with shared := { s.shared with deadlineNs := deadline }, finisher := .armed }
  | clearAbort (h : s.finisher = .armed) :
      Steps capacity o s .clearAbort
        { s with shared := { s.shared with abort := false }, finisher := .top }
  | drainLoop (nowNs : UInt64) (h : s.finisher = .top) :
      Steps capacity o s (.drainLoop nowNs)
        { s with
          finisher := if nowNs ≥ s.shared.deadlineNs then .closing else .consuming (.between 0) }
  | consume (call call' : Call) (a : CallAction) (sh : Shared) (h : s.finisher = .consuming call)
      (hcall : CallSteps capacity o true s.shared call a sh call') :
      Steps capacity o s (.consume a) { s with shared := sh, finisher := .consuming call' }
  | checkConsume (rc : Int) (f : Finisher) (e : Int)
      (h : s.finisher = .consuming (.returned rc))
      (hf : f = .top ∨ (f = .closing ∧ rc ≠ eIntr ∧ (rc = eCanceled ∨ rc ≤ 0))) :
      Steps capacity o s .checkConsume { s with pollError := e, finisher := f }
  | close (h : s.finisher = .closing) :
      Steps capacity o s .close
        { s with shared := { s.shared with abort := true }, finisher := .returned }
  | pop (record : TelemetryRecord) (queue : List TelemetryRecord)
      (h : s.shared.queue = record :: queue) :
      Steps capacity o s .pop
        { s with
          shared := { s.shared with queue := queue }
          popped := s.popped ++ [record] }

theorem Steps.of_next {s s' : State} {a : Action} (h : next capacity o s a = some s') :
    Steps capacity o s a s' := by
  cases a with
  | pollerLoop =>
      cases hp : s.poller <;> simp only [next, hp, Option.some.injEq, reduceCtorEq] at h
      rw [← h]
      exact .pollerLoop hp
  | poll a =>
      cases hp : s.poller <;> simp only [next, hp, reduceCtorEq] at h
      split at h
      · next sh call' hcall =>
          injection h with h
          rw [← h]
          exact .poll _ call' a sh hp (.of_next hcall)
      · cases h
  | checkPoll =>
      simp only [next] at h
      split at h
      · next rc hp =>
          split_ifs at h with hintr hcanceled hneg
          all_goals
            injection h with h
            rw [← h]
          · refine .checkPoll rc _ _ hp (Or.inr ⟨rfl, fun _ hrc => ?_⟩)
            rw [hintr] at hrc
            exact absurd hrc (by decide)
          · exact .checkPoll rc _ _ hp (Or.inl rfl)
          · exact .checkPoll rc _ _ hp (Or.inl rfl)
          · exact .checkPoll rc _ _ hp (Or.inr ⟨rfl, fun habort hrc => hcanceled ⟨hrc, habort⟩⟩)
      · cases h
  | finishAfterDetach ms =>
      cases hf : s.finisher <;> simp only [next, hf, Option.some.injEq, reduceCtorEq] at h
      rw [← h]
      exact .finishAfterDetach ms hf
  | join =>
      cases hf : s.finisher <;> simp only [next, hf, reduceCtorEq] at h
      split at h
      · next hp =>
          injection h with h
          rw [← h]
          exact .join _ hf hp
      · cases h
  | skipDrain =>
      cases hf : s.finisher <;> simp only [next, hf, reduceCtorEq] at h
      split at h
      · cases h
      · next hno =>
          injection h with h
          rw [← h]
          exact .skipDrain _ hf hno
  | arm nowNs =>
      cases hf : s.finisher <;> simp only [next, hf, reduceCtorEq] at h
      split at h
      · injection h with h
        rw [← h]
        exact .arm _ nowNs _ hf
      · cases h
  | clearAbort =>
      cases hf : s.finisher <;> simp only [next, hf, Option.some.injEq, reduceCtorEq] at h
      rw [← h]
      exact .clearAbort hf
  | drainLoop nowNs =>
      cases hf : s.finisher <;> simp only [next, hf, Option.some.injEq, reduceCtorEq] at h
      rw [← h]
      exact .drainLoop nowNs hf
  | consume a =>
      cases hf : s.finisher <;> simp only [next, hf, reduceCtorEq] at h
      split at h
      · next sh call' hcall =>
          injection h with h
          rw [← h]
          exact .consume _ call' a sh hf (.of_next hcall)
      · cases h
  | checkConsume =>
      simp only [next] at h
      split at h
      · next rc hf =>
          split_ifs at h with hintr hdone hneg
          all_goals
            injection h with h
            rw [← h]
          · exact .checkConsume rc _ _ hf (Or.inl rfl)
          · exact .checkConsume rc _ _ hf (Or.inr ⟨rfl, hintr, hdone.imp id fun hz => by omega⟩)
          · exact .checkConsume rc _ _ hf (Or.inr ⟨rfl, hintr, Or.inr (by omega)⟩)
          · exact .checkConsume rc _ _ hf (Or.inl rfl)
      · cases h
  | close =>
      cases hf : s.finisher <;> simp only [next, hf, Option.some.injEq, reduceCtorEq] at h
      rw [← h]
      exact .close hf
  | pop =>
      simp only [next] at h
      split at h
      · next record queue hqueue =>
          injection h with h
          rw [← h]
          exact .pop record queue hqueue
      · cases h

/-! ## The books -/

/-- Two counts added. -/
def plus (l l' : Loss) : Loss where
  decodeErrors := l.decodeErrors + l'.decodeErrors
  queueDropped := l.queueDropped + l'.queueDropped
  shutdownDiscarded := l.shutdownDiscarded + l'.shutdownDiscarded

theorem plus_count (l l' : Loss) (out : Outcome) :
    (plus l l').count out = plus l (l'.count out) := by
  cases out <;> simp [plus, Loss.count, UInt64.add_assoc]

/-- The outcome is what `DecodeEvent` says of the record, unless it was
discarded unread. -/
def Agrees (o : Codec.ByteOrder) (cb : Callback) (out : Outcome) : Prop :=
  match out with
  | .discarded => True
  | .decodeError => decodeRecord o cb.source cb.data cb.size = none
  | .dropped => ∃ record, decodeRecord o cb.source cb.data cb.size = some record
  | .queued record => decodeRecord o cb.source cb.data cb.size = some record

theorem runEvent_agrees (sh : Shared) (cb : Callback) (deadline nowNs : UInt64) :
    Agrees o cb (runEvent capacity o sh cb deadline nowNs) := by
  unfold runEvent onEvent
  split
  · trivial
  · next h =>
      split at h
      · cases h
      · split at h
        · next hnone => exact hnone
        · cases h
  · next record h =>
      split at h
      · cases h
      · split at h
        · cases h
        · next r hr =>
            injection h with h
            rw [← h]
            split
            · exact hr
            · exact ⟨r, hr⟩

/-- Discarding is what the shutdown check asks for. -/
theorem runEvent_discarded {sh : Shared} {cb : Callback} {deadline nowNs : UInt64}
    (h : runEvent capacity o sh cb deadline nowNs = .discarded) :
    sh.abort = true ∨ (deadline ≠ 0 ∧ nowNs ≥ deadline) := by
  unfold runEvent onEvent at h
  by_cases hc : (ShutdownView.mk deadline sh.abort nowNs).cancels
  · exact hc
  · rw [if_neg hc] at h
    split at h
    · next heq => split at heq <;> cases heq
    · cases h
    · split at h <;> cases h

/-- A callback that sees neither `abort` nor its deadline reads the record. -/
theorem runEvent_read {sh : Shared} {cb : Callback} {deadline nowNs : UInt64}
    (habort : sh.abort = false) (hearly : deadline = 0 ∨ nowNs < deadline) :
    runEvent capacity o sh cb deadline nowNs ≠ .discarded := by
  intro hd
  rcases runEvent_discarded hd with ha | ⟨hne, hge⟩
  · rw [habort] at ha
    cases ha
  · rcases hearly with hz | hlt
    · exact hne hz
    · exact absurd hlt (UInt64.not_lt.mpr hge)

/-- The records in the rings, the callbacks that ended, and what came of them. -/
structure Books (o : Codec.ByteOrder) (pending : List (List Callback)) (lost : Loss)
    (queued : List TelemetryRecord) (s : State) : Prop where
  once : (s.shared.ended.map Prod.fst ++ s.shared.rings.flatten).Perm pending.flatten
  loss : s.shared.loss = plus lost (lossOf s.shared.ended)
  queue : s.popped ++ s.shared.queue =
    queued ++ (queuedPairs s.shared.ended).map Prod.snd
  agrees : ∀ p ∈ s.shared.ended, Agrees o p.1 p.2

theorem Books.init {s : State} (h : Initial pending lost queued s) :
    Books o pending lost queued s := by
  constructor
  case once =>
    rw [h.ended, h.rings]
    exact .refl _
  case loss =>
    rw [h.loss, h.ended]
    simp [plus, lossOf, times]
  case queue =>
    rw [h.popped, h.queue, h.ended]
    simp [queuedPairs]
  case agrees =>
    rw [h.ended]
    exact fun p hp => absurd hp List.not_mem_nil

/-- Reading the first record of a ring takes it out of what is pending. -/
theorem flatten_perm_set {rings : List (List Callback)} {ring : Nat} {cb : Callback}
    {rest : List Callback} (h : rings[ring]? = some (cb :: rest)) :
    rings.flatten.Perm (cb :: (rings.set ring rest).flatten) := by
  induction rings generalizing ring with
  | nil => simp at h
  | cons r rings ih =>
      cases ring with
      | zero =>
          rw [List.getElem?_cons_zero] at h
          injection h with h
          rw [h]
          exact .refl _
      | succ ring =>
          rw [List.getElem?_cons_succ] at h
          rw [List.set_cons_succ, List.flatten_cons, List.flatten_cons]
          exact ((ih h).append_left r).trans List.perm_middle

/-- A callback returns, in either thread. -/
theorem Books.consume {s : State} (h : Books o pending lost queued s) {ring : Nat}
    {cb : Callback} {rest : List Callback} {out : Outcome} {p : Poller} {f : Finisher}
    (hring : s.shared.rings[ring]? = some (cb :: rest)) (hagrees : Agrees o cb out) :
    Books o pending lost queued
      { s with shared := s.shared.consume ring rest cb out, poller := p, finisher := f } := by
  constructor
  case once =>
    refine List.Perm.trans ?_ h.once
    simp only [Shared.consume, List.map_append, List.map_singleton, List.append_assoc,
      List.singleton_append]
    exact ((flatten_perm_set hring).symm).append_left _
  case loss =>
    simp only [Shared.consume, h.loss, lossOf_append, plus_count]
  case queue =>
    simp only [Shared.consume]
    rw [← List.append_assoc, h.queue]
    cases out with
    | queued record => simp [pushedBy, queuedPairs_append_queued]
    | _ => simp [pushedBy, queuedPairs]
  case agrees =>
    intro p hp
    rcases List.mem_append.mp hp with hp | hp
    · exact h.agrees p hp
    · rw [List.mem_singleton.mp hp]
      exact hagrees

/-- A step that touches neither rings, counters nor history keeps the books. -/
theorem Books.frame {s s' : State} (h : Books o pending lost queued s)
    (hrings : s'.shared.rings = s.shared.rings) (hloss : s'.shared.loss = s.shared.loss)
    (hended : s'.shared.ended = s.shared.ended)
    (hqueue : s'.popped ++ s'.shared.queue = s.popped ++ s.shared.queue) :
    Books o pending lost queued s' := by
  constructor
  · rw [hended, hrings]
    exact h.once
  · rw [hloss, hended]
    exact h.loss
  · rw [hqueue, hended]
    exact h.queue
  · rw [hended]
    exact h.agrees

/-- A step inside a call, in either thread. -/
theorem Books.call {s : State} (h : Books o pending lost queued s) {consuming : Bool}
    {call call' : Call} {a : CallAction} {sh : Shared} {p : Poller} {f : Finisher}
    (hcall : CallSteps capacity o consuming s.shared call a sh call') :
    Books o pending lost queued { s with shared := sh, poller := p, finisher := f } := by
  cases hcall with
  | onEvent ring n deadline nowNs cb rest hring => exact h.consume hring (runEvent_agrees _ _ _ _)
  | take | finish | interrupt | fail | loadDeadline => exact h.frame rfl rfl rfl rfl

/-- **The books balance** after every step of either thread. -/
theorem Books.next {s s' : State} (h : Books o pending lost queued s) {a : Action}
    (hs : next capacity o s a = some s') : Books o pending lost queued s' := by
  cases Steps.of_next hs with
  | poll call call' a sh _ hcall => exact h.call hcall
  | consume call call' a sh _ hcall => exact h.call hcall
  | pop record queue hqueue =>
      refine h.frame rfl rfl rfl ?_
      rw [hqueue, List.append_assoc]
      rfl
  | pollerLoop | checkPoll | finishAfterDetach | join | skipDrain | arm | clearAbort | drainLoop
  | checkConsume | close => exact h.frame rfl rfl rfl rfl

/-! ## The handover -/

/-- The records discarded unread. -/
def discarded (s : State) : Nat := times .discarded s.shared.ended

theorem times_append (out out' : Outcome) (ended : List (Callback × Outcome)) (cb : Callback) :
    times out (ended ++ [(cb, out')]) = times out ended + if out' = out then 1 else 0 := by
  rw [times, List.countP_append, List.countP_singleton]
  by_cases h : out' = out <;> simp [h, times]

/-- The poller reads no more. -/
def Gone (p : Poller) : Prop := p = .absent ∨ p = .exited

/-- Nothing is left in the rings. -/
def RingsEmpty (s : State) : Prop := ∀ ring ∈ s.shared.rings, ring = []

/-- While the poller may run, no deadline is set, and the callback that sees
`abort` is in its last poll. -/
structure Polling (s : State) : Prop where
  deadline : s.shared.deadlineNs = 0
  fresh : ∀ ring n deadline, s.poller = .polling (.loaded ring n deadline) → deadline = 0
  once : discarded s = 0 ∨ (discarded s = 1 ∧ s.shared.abort = true ∧
    (s.poller = .exited ∨ s.poller = .polling (.returned eCanceled)))

/-- What a call of the drain may return. -/
def DrainReturns (s : State) (call : Call) : Prop :=
  ∀ rc, call = .returned rc → rc ≠ eCanceled ∧ (rc < 0 → rc = eIntr) ∧ (rc = 0 → RingsEmpty s)

/-- What holds at each point of `FinishAfterDetach`. -/
def Stage (s : State) : Prop :=
  match s.finisher with
  | .notCalled => s.shared.abort = false ∧ Polling s
  | .joining ms => 0 < ms ∧ Polling s
  | .joined ms => 0 < ms ∧ Gone s.poller ∧ discarded s ≤ 1
  | .armed => Gone s.poller ∧ discarded s ≤ 1
  | .top => Gone s.poller ∧ discarded s ≤ 1 ∧ s.shared.abort = false
  | .consuming call =>
      Gone s.poller ∧ discarded s ≤ 1 ∧ s.shared.abort = false ∧ DrainReturns s call
  | .closing => Gone s.poller ∧ discarded s ≤ 1 ∧ RingsEmpty s
  | .returned => Gone s.poller ∧ discarded s ≤ 1 ∧ RingsEmpty s

/-- The invariant of the handover. -/
structure Handover (s : State) : Prop where
  absent : s.poller = .absent → discarded s = 0
  stage : Stage s

theorem Handover.init {s : State} (h : Initial pending lost queued s) : Handover s := by
  have hnone : discarded s = 0 := by
    rw [discarded, h.ended]
    rfl
  refine ⟨fun _ => hnone, ?_⟩
  rw [Stage, h.finisher]
  refine ⟨h.abort, h.deadline, fun ring n deadline hp => ?_, Or.inl hnone⟩
  rcases h.poller with hp' | hp' | ⟨m, hp'⟩ <;> rw [hp'] at hp <;> cases hp

/-- A step of the poller. -/
theorem Polling.poll {s : State} (h : Polling s) {call call' : Call} {a : CallAction}
    {sh : Shared} (hpoller : s.poller = .polling call)
    (hcall : CallSteps capacity o false s.shared call a sh call') :
    Polling { s with shared := sh, poller := .polling call' } := by
  have hopen (hcall : ∀ rc, call ≠ .returned rc) : discarded s = 0 := by
    rcases h.once with h0 | ⟨-, -, hp | hp⟩
    · exact h0
    · rw [hpoller] at hp
      cases hp
    · rw [hpoller] at hp
      injection hp with hp
      exact absurd hp (hcall _)
  cases hcall with
  | take ring n =>
      exact ⟨h.deadline, (fun _ _ _ hp => nomatch hp), Or.inl (hopen fun _ => Call.noConfusion)⟩
  | finish n hall =>
      exact ⟨h.deadline, (fun _ _ _ hp => nomatch hp), Or.inl (hopen fun _ => Call.noConfusion)⟩
  | interrupt =>
      exact ⟨h.deadline, (fun _ _ _ hp => nomatch hp), Or.inl (hopen fun _ => Call.noConfusion)⟩
  | fail n rc =>
      exact ⟨h.deadline, (fun _ _ _ hp => nomatch hp), Or.inl (hopen fun _ => Call.noConfusion)⟩
  | loadDeadline ring n =>
      refine ⟨h.deadline, fun _ _ _ hp => ?_, Or.inl (hopen fun _ => Call.noConfusion)⟩
      injection hp with hp
      injection hp with _ _ hp
      rw [← hp]
      exact h.deadline
  | onEvent ring n deadline nowNs cb rest hring =>
      have h0 := hopen fun _ => Call.noConfusion
      have hzero := h.fresh ring n deadline hpoller
      by_cases hout : runEvent capacity o s.shared cb deadline nowNs = .discarded
      · rw [if_pos hout]
        refine ⟨h.deadline, (fun _ _ _ hp => nomatch hp), Or.inr ⟨?_, ?_, Or.inr rfl⟩⟩
        · rw [discarded, Shared.consume, times_append, if_pos hout]
          exact congrArg (· + 1) h0
        · exact (runEvent_discarded hout).resolve_right fun hd => hd.1 hzero
      · rw [if_neg hout]
        refine ⟨h.deadline, (fun _ _ _ hp => nomatch hp), Or.inl ?_⟩
        rw [discarded, Shared.consume, times_append, if_neg hout]
        exact h0

/-- The poller at the end of a poll or at the head of its loop. -/
theorem Polling.moves {s : State} (h : Polling s) {p : Poller} {e : Int}
    (hfresh : ∀ ring n deadline, p ≠ .polling (.loaded ring n deadline))
    (hstays : discarded s = 1 → p = .exited ∨ p = .polling (.returned eCanceled)) :
    Polling { s with pollError := e, poller := p } :=
  ⟨h.deadline, fun ring n deadline hp => absurd hp (hfresh ring n deadline),
    h.once.imp id fun hone => ⟨hone.1, hone.2.1, hstays hone.1⟩⟩

theorem Polling.pollerLoop {s : State} (h : Polling s) (hp : s.poller = .top) :
    Polling { s with poller := if s.shared.abort then .exited else .polling (.between 0) } := by
  refine h.moves (e := s.pollError) (fun ring n deadline heq => ?_) fun hone => ?_
  · split at heq <;> cases heq
  · rcases h.once with h0 | ⟨-, -, hp' | hp'⟩
    · rw [h0] at hone
      cases hone
    · rw [hp] at hp'
      cases hp'
    · rw [hp] at hp'
      cases hp'

/-- The poll that saw `abort` is the last. -/
theorem Polling.checkPoll {s : State} (h : Polling s) {rc : Int} {p : Poller} {e : Int}
    (hpoller : s.poller = .polling (.returned rc))
    (hp : p = .exited ∨ (p = .top ∧ (s.shared.abort = true → rc ≠ eCanceled))) :
    Polling { s with pollError := e, poller := p } := by
  refine h.moves (fun ring n deadline heq => ?_) fun hone => ?_
  · rcases hp with rfl | ⟨rfl, -⟩ <;> cases heq
  · rcases h.once with h0 | ⟨-, habort, hp' | hp'⟩
    · rw [h0] at hone
      cases hone
    · rw [hpoller] at hp'
      cases hp'
    · rw [hpoller] at hp'
      injection hp' with hp'
      injection hp' with hrc
      exact hp.imp id fun htop => absurd hrc (htop.2 habort)

theorem Polling.discarded_le {s : State} (h : Polling s) : discarded s ≤ 1 := by
  rcases h.once with h0 | ⟨h1, -⟩ <;> omega

/-- A stage in which the poller may still run is one of its own; in the others
no step of the poller is possible. -/
theorem Stage.of_poller {s : State} (h : Stage s) (hrun : ¬ Gone s.poller) {s' : State}
    (hf : s'.finisher = s.finisher) (habort : s'.shared.abort = s.shared.abort)
    (hpolling : Polling s → Polling s') : Stage s' := by
  unfold Stage at h ⊢
  rw [hf]
  split at h
  · exact ⟨habort.trans h.1, hpolling h.2⟩
  · exact ⟨h.1, hpolling h.2⟩
  · exact absurd h.2.1 hrun
  · exact absurd h.1 hrun
  · exact absurd h.1 hrun
  · exact absurd h.1 hrun
  · exact absurd h.1 hrun
  · exact absurd h.1 hrun

/-- The sink touches neither the flags nor the rings. -/
theorem Stage.pop {s : State} (h : Stage s) {queue popped : List TelemetryRecord} :
    Stage { s with shared := { s.shared with queue := queue }, popped := popped } := by
  cases hf : s.finisher <;> simp only [Stage, hf] at h ⊢
  case notCalled => exact ⟨h.1, h.2.deadline, h.2.fresh, h.2.once⟩
  case joining => exact ⟨h.1, h.2.deadline, h.2.fresh, h.2.once⟩
  all_goals exact h

/-- A step inside a call reads the flags and never writes them. -/
theorem CallSteps.abort {consuming : Bool} {sh sh' : Shared} {call call' : Call} {a : CallAction}
    (h : CallSteps capacity o consuming sh call a sh' call') : sh'.abort = sh.abort := by
  cases h <;> rfl

/-- A step of the drain, with its deadline not reached and no library error. -/
theorem Stage.consume {s : State} {call call' : Call} {a : CallAction} {sh : Shared}
    (hgone : Gone s.poller) (hle : discarded s ≤ 1) (habort : s.shared.abort = false)
    (hcalm : Undisturbed s (.consume a)) (hf : s.finisher = .consuming call)
    (hcall : CallSteps capacity o true s.shared call a sh call') :
    discarded { s with shared := sh, finisher := .consuming call' } = discarded s ∧
      Stage { s with shared := sh, finisher := .consuming call' } := by
  have same (hsh : sh = s.shared) (hreturns : DrainReturns s call') :
      discarded { s with shared := sh, finisher := .consuming call' } = discarded s ∧
        Stage { s with shared := sh, finisher := .consuming call' } := by
    subst hsh
    exact ⟨rfl, hgone, hle, habort, hreturns⟩
  cases hcall with
  | take ring n => exact same rfl fun rc hrc => by cases hrc
  | finish n hall =>
      refine same rfl fun rc hrc => ?_
      injection hrc with hrc
      refine ⟨fun he => ?_, fun hneg => ?_, fun _ => hall rfl⟩
      · rw [← hrc, eCanceled] at he
        omega
      · omega
  | interrupt =>
      refine same rfl fun rc hrc => ?_
      injection hrc with hrc
      rw [← hrc]
      exact ⟨by decide, fun _ => rfl, fun hz => absurd hz (by decide)⟩
  | fail n rc => exact absurd hcalm id
  | loadDeadline ring n => exact same rfl fun rc hrc => by cases hrc
  | onEvent ring n deadline nowNs cb rest hring =>
      have hearly : deadline = 0 ∨ nowNs < deadline := by
        have hcalm' := hcalm
        simp only [Undisturbed, hf] at hcalm'
        exact hcalm'
      have hout : runEvent capacity o s.shared cb deadline nowNs ≠ .discarded :=
        runEvent_read habort hearly
      have hsame : times .discarded (s.shared.ended ++
          [(cb, runEvent capacity o s.shared cb deadline nowNs)]) = discarded s := by
        rw [times_append, if_neg hout]
        rfl
      rw [if_neg hout]
      refine ⟨hsame, hgone, ?_, habort, fun rc hrc => by cases hrc⟩
      exact hsame.le.trans hle

/-- **One undisturbed step.** -/
theorem Handover.next {s s' : State} (h : Handover s) {a : Action}
    (hs : next capacity o s a = some s') (hcalm : Undisturbed s a) : Handover s' := by
  obtain ⟨habsent, hstage⟩ := h
  cases Steps.of_next hs with
  | pollerLoop hp =>
      have hrun : ¬ Gone s.poller := by
        rw [hp]
        rintro (hg | hg) <;> cases hg
      refine ⟨fun hp' => ?_, hstage.of_poller hrun rfl rfl fun hpolling => hpolling.pollerLoop hp⟩
      dsimp only at hp'
      split at hp' <;> cases hp'
  | poll call call' a sh hp hcall =>
      have hrun : ¬ Gone s.poller := by
        rw [hp]
        rintro (hg | hg) <;> cases hg
      exact ⟨(fun hp' => nomatch hp'),
        hstage.of_poller hrun rfl hcall.abort fun hpolling => hpolling.poll hp hcall⟩
  | checkPoll rc p e hpoller hp =>
      have hrun : ¬ Gone s.poller := by
        rw [hpoller]
        rintro (hg | hg) <;> cases hg
      refine ⟨fun hp' => ?_,
        hstage.of_poller hrun rfl rfl fun hpolling => hpolling.checkPoll hpoller hp⟩
      rcases hp with rfl | ⟨rfl, -⟩ <;> cases hp'
  | finishAfterDetach ms hf =>
      rw [Stage, hf] at hstage
      obtain ⟨-, hpolling⟩ := hstage
      exact ⟨habsent, hcalm, hpolling.deadline, hpolling.fresh,
        hpolling.once.imp id fun hone => ⟨hone.1, rfl, hone.2.2⟩⟩
  | join ms hf hp =>
      rw [Stage, hf] at hstage
      exact ⟨habsent, hstage.1, hp, hstage.2.discarded_le⟩
  | skipDrain ms hf hno =>
      rw [Stage, hf] at hstage
      obtain ⟨hms, hgone, hle⟩ := hstage
      have hclamp : clampMs ms > 0 := by
        unfold clampMs
        split <;> omega
      have hnil : s.shared.rings = [] := not_not.mp fun hn => hno ⟨hclamp, hn⟩
      refine ⟨habsent, hgone, hle, fun ring hring => ?_⟩
      have hring' : ring ∈ s.shared.rings := hring
      rw [hnil] at hring'
      cases hring'
  | arm ms nowNs deadline hf =>
      rw [Stage, hf] at hstage
      exact ⟨habsent, hstage.2⟩
  | clearAbort hf =>
      rw [Stage, hf] at hstage
      exact ⟨habsent, hstage.1, hstage.2, rfl⟩
  | drainLoop nowNs hf =>
      rw [Stage, hf] at hstage
      have hlate : ¬ nowNs ≥ s.shared.deadlineNs := UInt64.not_le.mpr hcalm
      rw [if_neg hlate]
      exact ⟨habsent, hstage.1, hstage.2.1, hstage.2.2, fun rc hrc => by cases hrc⟩
  | consume call call' a sh hf hcall =>
      rw [Stage, hf] at hstage
      obtain ⟨hgone, hle, habort, -⟩ := hstage
      obtain ⟨hsame, hstage'⟩ := Stage.consume hgone hle habort hcalm hf hcall
      exact ⟨fun hp => hsame.trans (habsent hp), hstage'⟩
  | checkConsume rc f e hf hf' =>
      rw [Stage, hf] at hstage
      obtain ⟨hgone, hle, habort, hreturns⟩ := hstage
      obtain ⟨hcanceled, hneg, hzero⟩ := hreturns rc rfl
      rcases hf' with rfl | ⟨rfl, hintr, hdone⟩
      · exact ⟨habsent, hgone, hle, habort⟩
      · have hrc : rc = 0 := by
          rcases hdone with hc | hle0
          · exact absurd hc hcanceled
          · by_contra hne
            exact hintr (hneg (by omega))
        exact ⟨habsent, hgone, hle, hzero hrc⟩
  | close hf =>
      rw [Stage, hf] at hstage
      exact ⟨habsent, hstage⟩
  | pop record queue hqueue =>
      exact ⟨habsent, hstage.pop⟩

/-! ## The window -/

/-- The poller's callback does not run between the first store of `abort` and
the second. -/
def MissesAbort (s : State) : Action → Prop
  | .poll (.onEvent _) => s.shared.abort = false
  | _ => True

/-- Only a callback of the poller can discard, and only if it sees `abort`. -/
theorem discards_none {s s' : State} (h : Handover s) (h0 : discarded s = 0) {a : Action}
    (hs : next capacity o s a = some s') (hcalm : Undisturbed s a) (hmiss : MissesAbort s a) :
    discarded s' = 0 := by
  cases Steps.of_next hs with
  | poll call call' a sh hp hcall =>
      cases hcall with
      | onEvent ring n deadline nowNs cb rest hring =>
          have hearly : deadline = 0 ∨ nowNs < deadline := by
            simp only [Undisturbed, hp] at hcalm
            exact hcalm
          have hout : runEvent capacity o s.shared cb deadline nowNs ≠ .discarded :=
            runEvent_read hmiss hearly
          rw [discarded, Shared.consume, times_append, if_neg hout]
          exact h0
      | take | finish | interrupt | fail | loadDeadline => exact h0
  | consume call call' a sh hf hcall =>
      have hstage := h.stage
      rw [Stage, hf] at hstage
      obtain ⟨hgone, hle, habort, -⟩ := hstage
      exact (Stage.consume hgone hle habort hcalm hf hcall).1.trans h0
  | pollerLoop | checkPoll | finishAfterDetach | join | skipDrain | arm | clearAbort | drainLoop
  | checkConsume | close | pop => exact h0

/-! ## The law -/

/-- What a drain that was not disturbed leaves behind. -/
structure Drained (o : Codec.ByteOrder) (pending : List (List Callback)) (lost : Loss)
    (queued : List TelemetryRecord) (s : State) : Prop where
  /-- nothing is left in the rings -/
  empty : RingsEmpty s
  /-- every pending record had exactly one callback -/
  once : (s.shared.ended.map Prod.fst).Perm pending.flatten
  /-- at most one callback discarded its record unread, and none without a poller -/
  discarded : discarded s ≤ 1 ∧ (s.poller = .absent → Drain.discarded s = 0)
  /-- the others handed it to `DecodeEvent` and did with it as that said -/
  agrees : ∀ p ∈ s.shared.ended, Agrees o p.1 p.2
  /-- the queue holds, or has given to the sink, what was pushed -/
  queue : s.popped ++ s.shared.queue = queued ++ (queuedPairs s.shared.ended).map Prod.snd
  /-- and everything else is counted -/
  loss : s.shared.loss = plus lost (lossOf s.shared.ended)

/-- Both invariants, of every undisturbed run. -/
theorem run_invariants {tr : List Action} {s : State}
    (h : ((system capacity o pending lost queued).guard Undisturbed).Run tr s) :
    Books o pending lost queued s ∧ Handover s := by
  apply h.invariant (P := fun _ s => Books o pending lost queued s ∧ Handover s)
  · exact fun s hs => ⟨Books.init hs, Handover.init hs⟩
  · rintro _ s a s' ⟨hb, hh⟩ ⟨hstep, hcalm⟩
    exact ⟨hb.next hstep, hh.next hstep hcalm⟩

theorem discarded_of_missesAbort {tr : List Action} {s : State}
    (h : (((system capacity o pending lost queued).guard Undisturbed).guard MissesAbort).Run tr s) :
    discarded s = 0 := by
  induction h with
  | init hs =>
      rw [discarded, hs.ended]
      rfl
  | step hrun hs ih =>
      obtain ⟨-, hhandover⟩ := run_invariants hrun.of_guard
      exact discards_none hhandover ih hs.1.1 hs.1.2 hs.2

/-- **A drain discards at most one record**, the one its poller's last callback
was on, and none if no callback of the poller sees `abort`; for every set of
pending records, every queue and every schedule. -/
theorem finishAfterDetach_drained (capacity : Nat) (o : Codec.ByteOrder)
    (pending : List (List Callback)) (lost : Loss) (queued : List TelemetryRecord)
    (tr : List Action) (s : State)
    (h : ((system capacity o pending lost queued).guard Undisturbed).Run tr s)
    (hreturned : s.finisher = .returned) :
    Drained o pending lost queued s ∧
      ((((system capacity o pending lost queued).guard Undisturbed).guard MissesAbort).Run tr s →
        discarded s = 0) := by
  constructor
  · obtain ⟨hbooks, hhandover⟩ := run_invariants h
    have hstage := hhandover.stage
    rw [Stage, hreturned] at hstage
    obtain ⟨-, hle, hempty⟩ := hstage
    have hflat : s.shared.rings.flatten = [] := List.flatten_eq_nil_iff.mpr hempty
    have honce := hbooks.once
    rw [hflat, List.append_nil] at honce
    exact
      { empty := hempty
        once := honce
        discarded := ⟨hle, hhandover.absent⟩
        agrees := hbooks.agrees
        queue := hbooks.queue
        loss := hbooks.loss }
  · exact discarded_of_missesAbort

/-- A record without data, of the one registered source. -/
def nullRecord : Callback := ⟨⟨3, 40, 50⟩, none, 0⟩

/-- The object with `records` pending in its one ring, its poller inside a
poll. -/
def pollingOn (records : List Callback) : State :=
  ⟨⟨[records], false, 0, ⟨0, 0, 0⟩, [], []⟩, .polling (.between 0), .notCalled, 0, []⟩

/-- `FinishAfterDetach` while the poller is between two callbacks, with the
second of two records left for the drain. -/
theorem finishAfterDetach_drained_null :
    ∃ s, Drained .little [[nullRecord, nullRecord]] ⟨0, 0, 0⟩ [] s ∧
      s.shared.loss = ⟨1, 0, 1⟩ := by
  have early : (0 : UInt64) < 1000000 := by decide
  have start : ((system 1 .little [[nullRecord, nullRecord]] ⟨0, 0, 0⟩ []).guard Undisturbed).Run
      [] (pollingOn [nullRecord, nullRecord]) :=
    .init ⟨rfl, rfl, rfl, rfl, rfl, rfl, Or.inr (Or.inr ⟨0, rfl⟩), rfl, rfl⟩
  have seen := (((start.actMeeting (.finishAfterDetach 1) rfl Int.one_pos).actMeeting
    (.poll (.take 0)) rfl trivial).actMeeting (.poll .loadDeadline) rfl trivial).actMeeting
    (.poll (.onEvent 0)) rfl (Or.inl rfl)
  have armed := (((seen.actMeeting .checkPoll rfl trivial).actMeeting .join rfl
    trivial).actMeeting (.arm 0) rfl trivial).actMeeting .clearAbort rfl trivial
  have second := (((armed.actMeeting (.drainLoop 0) rfl early).actMeeting
    (.consume (.take 0)) rfl trivial).actMeeting (.consume .loadDeadline) rfl trivial).actMeeting
    (.consume (.onEvent 0)) rfl (Or.inr early)
  have empty := (((second.actMeeting (.consume .finish) rfl trivial).actMeeting .checkConsume rfl
    trivial).actMeeting (.drainLoop 0) rfl early).actMeeting (.consume .finish) rfl trivial
  have done := (empty.actMeeting .checkConsume rfl trivial).actMeeting .close rfl trivial
  exact ⟨_, (finishAfterDetach_drained _ _ _ _ _ _ _ done rfl).1, rfl⟩

/-- The record the poller was on when `abort` was set is discarded. -/
theorem finishAfterDetach_discards :
    ¬ ∀ tr s, ((system 1 .little [[nullRecord]] ⟨0, 0, 0⟩ []).guard Undisturbed).Run tr s →
      s.finisher = .returned → s.shared.loss.shutdownDiscarded = 0 := by
  intro h
  have early : (0 : UInt64) < 1000000 := by decide
  have start : ((system 1 .little [[nullRecord]] ⟨0, 0, 0⟩ []).guard Undisturbed).Run
      [] (pollingOn [nullRecord]) :=
    .init ⟨rfl, rfl, rfl, rfl, rfl, rfl, Or.inr (Or.inr ⟨0, rfl⟩), rfl, rfl⟩
  have seen := (((start.actMeeting (.finishAfterDetach 1) rfl Int.one_pos).actMeeting
    (.poll (.take 0)) rfl trivial).actMeeting (.poll .loadDeadline) rfl trivial).actMeeting
    (.poll (.onEvent 0)) rfl (Or.inl rfl)
  have armed := (((seen.actMeeting .checkPoll rfl trivial).actMeeting .join rfl
    trivial).actMeeting (.arm 0) rfl trivial).actMeeting .clearAbort rfl trivial
  have done := (((armed.actMeeting (.drainLoop 0) rfl early).actMeeting
    (.consume .finish) rfl trivial).actMeeting .checkConsume rfl trivial).actMeeting .close rfl
    trivial
  exact absurd (h _ _ done rfl) (by decide)

end ElephantShrew.Telemetry.Drain
