import ElephantShrew.Telemetry.DeliveryCalls
import Mathlib.Data.List.Forall2

/-!
# Every callback is accounted once

The refinement of the queue says what the queue did to the values it was
given; the invariant here says that those values are the records of the
callbacks that ended in the queue, in order.  The counting law and the
attribution of every popped record follow from the two together.
-/

namespace ElephantShrew.Telemetry

open ElephantShrew.Verified
open ElephantShrew.Bpf

/-- How many callbacks ended in a given way. -/
def times (out : Outcome) (ended : List (Callback × Outcome)) : Nat :=
  ended.countP fun p => p.2 = out

/-- The callbacks that ended in the queue, with their records. -/
def queuedPairs (ended : List (Callback × Outcome)) : List (Callback × TelemetryRecord) :=
  ended.filterMap fun p =>
    match p.2 with
    | .queued record => some (p.1, record)
    | _ => none

/-- The counters a history leaves. -/
def lossOf (ended : List (Callback × Outcome)) : Loss where
  decodeErrors := UInt64.ofNat (times .decodeError ended)
  queueDropped := UInt64.ofNat (times .dropped ended)
  shutdownDiscarded := UInt64.ofNat (times .discarded ended)

/-- Every ended callback ended in exactly one of the four ways. -/
theorem length_ended (ended : List (Callback × Outcome)) :
    ended.length = (queuedPairs ended).length + times .decodeError ended +
      times .dropped ended + times .discarded ended := by
  induction ended with
  | nil => rfl
  | cons p ended ih =>
      obtain ⟨cb, out⟩ := p
      unfold queuedPairs times at ih ⊢
      cases out <;> simp <;> omega

/-- One more callback ended. -/
theorem lossOf_append (ended : List (Callback × Outcome)) (cb : Callback) (out : Outcome) :
    lossOf (ended ++ [(cb, out)]) = (lossOf ended).count out := by
  have one (out' : Outcome) : UInt64.ofNat (times out' (ended ++ [(cb, out)])) =
      UInt64.ofNat (times out' ended) + if out = out' then 1 else 0 := by
    rw [times, List.countP_append, List.countP_singleton, UInt64.ofNat_add]
    by_cases h : out = out' <;> simp [h, times]
  cases out <;> simp [lossOf, one, Loss.count]

theorem queuedPairs_append (ended : List (Callback × Outcome)) (cb : Callback) (out : Outcome)
    (h : ∀ record, out ≠ .queued record) :
    queuedPairs (ended ++ [(cb, out)]) = queuedPairs ended := by
  cases out with
  | queued record => exact absurd rfl (h record)
  | _ => simp [queuedPairs]

theorem queuedPairs_append_queued (ended : List (Callback × Outcome)) (cb : Callback)
    (record : TelemetryRecord) :
    queuedPairs (ended ++ [(cb, .queued record)]) = queuedPairs ended ++ [(cb, record)] := by
  simp [queuedPairs]

namespace Delivery

variable {c : Capacity} {o : Codec.ByteOrder} {sources : List Source}

/-- The callback that has not ended. -/
def Pc.inFlight : Pc → List Callback
  | .idle => []
  | .entered cb => [cb]
  | .pushing cb _ => [cb]
  | .refused cb => [cb]

/-- The bytes `TryPush` was called with. -/
def Pc.value (o : Codec.ByteOrder) : Pc → Option (Fin recordSize → UInt8)
  | .pushing _ record => some (toCells o record)
  | _ => none

/-- The record of a callback is the image of its own data, under its own source. -/
def Decoded (o : Codec.ByteOrder) (cb : Callback) (record : TelemetryRecord) : Prop :=
  decodeRecord o cb.source cb.data cb.size = some record

/-- The queue was given the records of the callbacks that ended in it, and gave
the consumer what it popped. -/
def QueueHistory (c : Capacity) (o : Codec.ByteOrder) (s : State) : Prop :=
  ∃ tr, (Spsc.system recordSize UInt8 c).Run tr s.queue ∧
    Fifo.pushed (System.events tr) = (queuedPairs s.ended).map (fun p => toCells o p.2) ∧
    s.popped = (Fifo.popped (System.events tr)).map (ofCells o)

/-- The invariant. -/
structure Inv (c : Capacity) (o : Codec.ByteOrder) (sources : List Source) (s : State) :
    Prop where
  history : QueueHistory c o s
  producer : s.queue.producer.value = s.pc.value o
  made : s.made = s.ended.map Prod.fst ++ s.pc.inFlight
  pushing : ∀ cb record, s.pc = .pushing cb record → Decoded o cb record
  queued : ∀ p ∈ queuedPairs s.ended, Decoded o p.1 p.2
  sources : ∀ cb ∈ s.made, cb.source ∈ sources
  loss : s.loss = lossOf s.ended

theorem Inv.init {s : State} (h : Initial s) : Inv c o sources s := by
  obtain ⟨hq, hpc, hloss, hmade, hended, hpopped⟩ := h
  constructor
  case history =>
    refine ⟨[], .init hq, ?_, ?_⟩
    · rw [hended]
      rfl
    · rw [hpopped]
      rfl
  case producer =>
    rw [hq.2.2.1, hpc]
    rfl
  case made =>
    rw [hmade, hended, hpc]
    rfl
  case pushing =>
    rw [hpc]
    exact fun cb record h => Pc.noConfusion h
  case queued =>
    rw [hended]
    exact fun p hp => absurd hp List.not_mem_nil
  case sources =>
    rw [hmade]
    exact fun cb hcb => absurd hcb List.not_mem_nil
  case loss =>
    rw [hloss, hended]
    rfl

/-- The callback in flight ends without the queue. -/
theorem Inv.ends {s : State} (h : Inv c o sources s) {cb : Callback} (out : Outcome)
    (hflight : s.pc.inFlight = [cb]) (hvalue : s.pc.value o = none)
    (hout : ∀ record, out ≠ .queued record) :
    Inv c o sources { s with
      pc := .idle
      loss := lossOf (s.ended ++ [(cb, out)])
      ended := s.ended ++ [(cb, out)] } := by
  constructor
  case history =>
    obtain ⟨tr, hrun, hpushed, hpopped⟩ := h.history
    exact ⟨tr, hrun, by rw [queuedPairs_append _ _ _ hout]; exact hpushed, hpopped⟩
  case producer => exact h.producer.trans hvalue
  case made =>
    show s.made = _
    rw [h.made, hflight, List.map_append, List.append_assoc]
    rfl
  case pushing => exact fun cb record h => Pc.noConfusion h
  case queued =>
    rw [queuedPairs_append _ _ _ hout]
    exact h.queued
  case sources => exact h.sources
  case loss => rfl

/-- The steps of `OnEvent` up to the queue. -/
theorem Inv.decide {s s' : State} (h : Inv c o sources s) {cb : Callback} {view : ShutdownView}
    (hpc : s.pc = .entered cb) (hs : decideEvent c o s cb view = some s') :
    Inv c o sources s' := by
  have hflight : s.pc.inFlight = [cb] := by rw [hpc]; rfl
  have hvalue : s.pc.value o = none := by rw [hpc]; rfl
  have hloss := h.loss
  unfold decideEvent at hs
  split at hs
  · injection hs with hs
    have hends := h.ends .discarded hflight hvalue fun _ => Outcome.noConfusion
    rw [lossOf_append, ← hloss] at hends
    rw [← hs]
    exact hends
  · injection hs with hs
    have hends := h.ends .decodeError hflight hvalue fun _ => Outcome.noConfusion
    rw [lossOf_append, ← hloss] at hends
    rw [← hs]
    exact hends
  · next record hverdict =>
      have hdecoded : Decoded o cb record := by
        unfold onEvent at hverdict
        split at hverdict
        · cases hverdict
        · split at hverdict
          · cases hverdict
          · next r hr =>
              injection hverdict with hverdict
              rw [← hverdict]
              exact hr
      split at hs
      · next queue e hq =>
          injection hs with hs
          rw [← hs]
          obtain ⟨tr, hrun, hpushed, hpopped⟩ := h.history
          obtain ⟨-, hvalue', rfl⟩ := Spsc.next_tryPush hq
          constructor
          case history => exact ⟨_, hrun.next _ hq, by simpa using hpushed, by simpa using hpopped⟩
          case producer => exact hvalue'
          case made =>
            have hmade := h.made
            rw [hflight] at hmade
            exact hmade
          case pushing =>
            intro cb' record' heq
            injection heq with hcb hrecord
            rw [← hcb, ← hrecord]
            exact hdecoded
          case queued => exact h.queued
          case sources => exact h.sources
          case loss => exact h.loss
      · cases hs

/-- The consumer pops. -/
theorem Inv.pops {s : State} (h : Inv c o sources s) {queue : Spsc.State recordSize UInt8}
    {a : Spsc.Action recordSize UInt8} {r : Option (Fin recordSize → UInt8)}
    (hq : Spsc.next c s.queue a = some (queue, some (.pop r)))
    (hsame : queue.producer = s.queue.producer) :
    Inv c o sources (afterQueue o { s with queue := queue } (some (.pop r))) := by
  obtain ⟨tr, hrun, hpushed, hpopped⟩ := h.history
  have hrun' := hrun.next a hq
  have hproducer : queue.producer.value = s.pc.value o := by rw [hsame, h.producer]
  have hpushed' : Fifo.pushed (System.events (tr ++ [(a, some (.pop r))])) =
      (queuedPairs s.ended).map (fun p => toCells o p.2) := by
    simpa using hpushed
  cases r with
  | none =>
      refine ⟨⟨_, hrun', hpushed', ?_⟩, hproducer, h.made, h.pushing, h.queued, h.sources, h.loss⟩
      show s.popped = _
      simpa using hpopped
  | some cells =>
      refine ⟨⟨_, hrun', hpushed', ?_⟩, hproducer, h.made, h.pushing, h.queued, h.sources, h.loss⟩
      show s.popped ++ [ofCells o cells] = _
      simp [hpopped]

/-- The queue answers the callback that is pushing. -/
theorem Inv.pushes {s : State} (h : Inv c o sources s) {queue : Spsc.State recordSize UInt8}
    {a : Spsc.Action recordSize UInt8} {value : Fin recordSize → UInt8} {accepted : Bool}
    (hq : Spsc.next c s.queue a = some (queue, some (.push value accepted)))
    (hsome : s.queue.producer.value = some value) (hnone : queue.producer.value = none) :
    Inv c o sources (afterQueue o { s with queue := queue } (some (.push value accepted))) := by
  obtain ⟨tr, hrun, hpushed, hpopped⟩ := h.history
  have hrun' := hrun.next a hq
  have hpopped' : s.popped =
      (Fifo.popped (System.events (tr ++ [(a, some (.push value accepted))]))).map
        (ofCells o) := by
    simpa using hpopped
  have hvalue := h.producer
  have hmade := h.made
  rw [hsome] at hvalue
  cases hpc : s.pc with
  | pushing cb record =>
      rw [hpc] at hvalue hmade
      injection hvalue with hvalue
      have hdecoded := h.pushing cb record hpc
      cases accepted with
      | true =>
          simp only [afterQueue, if_true]
          constructor
          case history =>
            refine ⟨_, hrun', ?_, hpopped'⟩
            rw [queuedPairs_append_queued]
            simp [hpushed, hvalue]
          case producer => exact hnone
          case made =>
            show s.made = _
            rw [hmade, List.map_append, List.append_assoc]
            rfl
          case pushing => exact fun cb record h => Pc.noConfusion h
          case queued =>
            intro p hp
            rw [queuedPairs_append_queued] at hp
            rcases List.mem_append.mp hp with hp | hp
            · exact h.queued p hp
            · rw [List.mem_singleton.mp hp]
              exact hdecoded
          case sources => exact h.sources
          case loss =>
            show s.loss = _
            rw [lossOf_append, h.loss]
            rfl
      | false =>
          simp only [afterQueue, Bool.false_eq_true, if_false]
          constructor
          case history =>
            refine ⟨_, hrun', ?_, hpopped'⟩
            simpa using hpushed
          case producer => exact hnone
          case made => exact hmade
          case pushing => exact fun cb record h => Pc.noConfusion h
          case queued => exact h.queued
          case sources => exact h.sources
          case loss => exact h.loss
  | idle => rw [hpc] at hvalue; cases hvalue
  | entered cb => rw [hpc] at hvalue; cases hvalue
  | refused cb => rw [hpc] at hvalue; cases hvalue

/-- A step inside the queue that returns nothing. -/
theorem Inv.quiet {s : State} (h : Inv c o sources s) {queue : Spsc.State recordSize UInt8}
    {a : Spsc.Action recordSize UInt8} (hq : Spsc.next c s.queue a = some (queue, none))
    (hvalue : queue.producer.value = s.queue.producer.value) :
    Inv c o sources { s with queue := queue } := by
  obtain ⟨tr, hrun, hpushed, hpopped⟩ := h.history
  refine ⟨⟨_, hrun.next a hq, ?_, ?_⟩, hvalue.trans h.producer, h.made, h.pushing, h.queued,
    h.sources, h.loss⟩
  · simpa using hpushed
  · simpa using hpopped

/-- **One step of either party.** -/
theorem Inv.next {s s' : State} (h : Inv c o sources s) {a : Action}
    (hs : next c o sources s a = some s') : Inv c o sources s' := by
  cases a with
  | callback cb =>
      cases hpc : s.pc <;> simp only [Delivery.next, hpc, reduceCtorEq] at hs
      split at hs
      · next hsource =>
          injection hs with hs
          rw [← hs]
          have hmade := h.made
          rw [hpc] at hmade
          constructor
          case history => exact h.history
          case producer => rw [h.producer, hpc]; rfl
          case made =>
            show s.made ++ [cb] = _
            rw [hmade]
            simp [Pc.inFlight]
          case pushing => exact fun cb record h => Pc.noConfusion h
          case queued => exact h.queued
          case sources =>
            intro cb' hcb'
            rcases List.mem_append.mp hcb' with hcb' | hcb'
            · exact h.sources cb' hcb'
            · rw [List.mem_singleton.mp hcb']
              exact hsource
          case loss => exact h.loss
      · cases hs
  | decide view =>
      cases hpc : s.pc <;> simp only [Delivery.next, hpc, reduceCtorEq] at hs
      exact h.decide hpc hs
  | countDrop =>
      cases hpc : s.pc <;> simp only [Delivery.next, hpc, Option.some.injEq, reduceCtorEq] at hs
      next cb =>
        have hends := h.ends .dropped (by rw [hpc]; rfl) (by rw [hpc]; rfl)
          fun _ => Outcome.noConfusion
        rw [lossOf_append, ← h.loss] at hends
        rw [← hs]
        exact hends
  | queue a =>
      simp only [Delivery.next] at hs
      split at hs
      · next hinside =>
          split at hs
          · next queue e hq =>
              injection hs with hs
              rw [← hs]
              cases Spsc.next_party hq with
              | tryPush value => exact absurd hinside Bool.false_ne_true
              | pushing value hsome hsome' => exact h.quiet hq (hsome'.trans hsome.symm)
              | pushed value accepted hsome hnone => exact h.pushes hq hsome hnone
              | consumer hsame => exact h.quiet hq (by rw [hsame])
              | popped r hsame => exact h.pops hq hsame
          · cases hs
      · cases hs

/-! ## The law -/

/-- The record is the image of the callback's data, and carries the identity of
the callback's source. -/
structure Attributed (o : Codec.ByteOrder) (sources : List Source) (cb : Callback)
    (record : TelemetryRecord) : Prop where
  registered : cb.source ∈ sources
  event : decodeEvent o cb.data cb.size = some record.event
  ifindex : record.event.ifindex = cb.source.ifindex
  netnsInode : record.netnsInode = cb.source.netnsInode
  sessionId : record.sessionId = cb.source.sessionId

/-- What the delivery promises in a state. -/
structure Delivered (c : Capacity) (o : Codec.ByteOrder) (sources : List Source) (s : State) :
    Prop where
  /-- the callbacks are those that ended, each in one way, and the one in flight -/
  once : s.made = s.ended.map Prod.fst ++ s.pc.inFlight
  /-- the counting law -/
  accounted : s.made.length = s.popped.length + (s.queue.stored c).length +
    times .decodeError s.ended + times .dropped s.ended + times .discarded s.ended +
      s.pc.inFlight.length
  /-- the counters are the counts -/
  loss : s.loss = lossOf s.ended
  /-- the popped records are the images of a subsequence of the callbacks -/
  images : ∃ cbs, List.Sublist cbs s.made ∧ List.Forall₂ (Attributed o sources) cbs s.popped

/-- The records of the callbacks that ended in the queue: popped, or stored. -/
theorem Inv.records {s : State} (h : Inv c o sources s) :
    (queuedPairs s.ended).map Prod.snd = s.popped ++ (s.queue.stored c).map (ofCells o) := by
  obtain ⟨tr, hrun, hpushed, hpopped⟩ := h.history
  have hrest := Fifo.pushed_eq (Spsc.run_inv hrun).2
  rw [hpushed] at hrest
  have himage := congrArg (List.map (ofCells o)) hrest
  rw [List.map_map, List.map_append, ← hpopped] at himage
  rw [← himage]
  refine List.map_congr_left fun p _ => ?_
  exact (ofCells_toCells o p.2).symm

theorem Decoded.attributed {cb : Callback} {record : TelemetryRecord} (h : Decoded o cb record)
    (hsource : cb.source ∈ sources) : Attributed o sources cb record := by
  obtain ⟨hevent, hifindex, hnetns, hsession⟩ :=
    (decodeRecord_eq_some_iff o cb.source cb.data cb.size record).mp h
  exact ⟨hsource, hevent, hifindex, hnetns, hsession⟩

/-- The callbacks of the queue are callbacks, in order. -/
theorem queuedPairs_sublist (ended : List (Callback × Outcome)) :
    List.Sublist ((queuedPairs ended).map Prod.fst) (ended.map Prod.fst) := by
  induction ended with
  | nil => exact .slnil
  | cons p ended ih =>
      obtain ⟨cb, out⟩ := p
      unfold queuedPairs at ih ⊢
      cases out with
      | queued record => exact ih.cons_cons cb
      | _ => exact ih.cons cb

theorem Inv.images {s : State} (h : Inv c o sources s) :
    ∃ cbs, List.Sublist cbs s.made ∧ List.Forall₂ (Attributed o sources) cbs s.popped := by
  have hsub : List.Sublist ((queuedPairs s.ended).map Prod.fst) s.made := by
    rw [h.made]
    exact (queuedPairs_sublist s.ended).trans (List.sublist_append_left _ _)
  have hpopped : ((queuedPairs s.ended).take s.popped.length).map Prod.snd = s.popped := by
    rw [List.map_take, h.records, List.take_left]
  refine ⟨((queuedPairs s.ended).take s.popped.length).map Prod.fst, ?_, ?_⟩
  · exact ((List.take_sublist _ _).map Prod.fst).trans hsub
  · have hforall : List.Forall₂ (Attributed o sources)
        (((queuedPairs s.ended).take s.popped.length).map Prod.fst)
        (((queuedPairs s.ended).take s.popped.length).map Prod.snd) := by
      rw [List.forall₂_map_left_iff, List.forall₂_map_right_iff, List.forall₂_same]
      intro p hp
      have hp' := List.mem_of_mem_take hp
      have hmade : p.1 ∈ s.made := hsub.subset (List.mem_map_of_mem hp')
      exact (h.queued p hp').attributed (h.sources p.1 hmade)
    rwa [hpopped] at hforall

/-- **Telemetry delivery.**  For every capacity, set of sources and schedule of
callbacks and pops. -/
theorem onEvent_delivered (c : Capacity) (o : Codec.ByteOrder) (sources : List Source)
    (tr : List Action) (s : State) (h : (system c o sources).Run tr s) :
    Delivered c o sources s := by
  have hinv : Inv c o sources s :=
    h.invariant (P := fun _ s => Inv c o sources s) (fun _ hs => Inv.init hs)
      fun _ _ _ _ hi hs => hi.next hs
  have hrecords := congrArg List.length hinv.records
  simp only [List.length_map, List.length_append] at hrecords
  have hmade := congrArg List.length hinv.made
  rw [List.length_append, List.length_map, length_ended] at hmade
  exact
    { once := hinv.made
      accounted := by omega
      loss := hinv.loss
      images := hinv.images }

/-- An event the decoder accepts, of interface 3. -/
def sampleEvent (sequence : UInt64) : EsEvent :=
  { EsEvent.zero with
    sequence := sequence
    ifindex := 3
    abiVersion := esAbiVersion
    recordSize := 216
    linkType := esLinktypeEthernet
    hook := esHookTc }

/-- The callback that delivers it, on the one registered source. -/
def sampleCallback (sequence : UInt64) : Callback :=
  ⟨⟨3, 40, 50⟩, some ((eventCodec .little).encode (sampleEvent sequence)), esEventSize⟩

/-- A null record, a record that is queued, one that finds the queue full, and a pop. -/
theorem onEvent_delivered_fourCalls :
    ∃ s, Delivered ⟨1, 255, by decide, by decide⟩ .little [⟨3, 40, 50⟩] s ∧
      s.loss = ⟨1, 1, 0⟩ ∧ s.popped = [⟨sampleEvent 1, 40, 50⟩] := by
  have hview : ¬(⟨0, false, 0⟩ : ShutdownView).cancels := by decide
  have decodes (sequence : UInt64) (h : WellFormed (sampleEvent sequence)) :
      decodeRecord .little (sampleCallback sequence).source (sampleCallback sequence).data
        (sampleCallback sequence).size = some ⟨sampleEvent sequence, 40, 50⟩ :=
    (decodeRecord_eq_some_iff _ _ _ _ _).mpr ⟨decodeEvent_encode _ h, rfl, rfl, rfl⟩
  have start : ∃ tr, (system ⟨1, 255, by decide, by decide⟩ .little [⟨3, 40, 50⟩]).Run tr .empty :=
    ⟨[], .init State.initial_empty⟩
  have refused := run_callback start rfl List.mem_cons_self
    (callback_decodeError ⟨⟨3, 40, 50⟩, none, 0⟩ hview rfl)
  obtain ⟨queue, halone, hfull⟩ := callback_queued (c := ⟨1, 255, by decide, by decide⟩)
    (s := left .empty _ .decodeError _) (Spsc.Resting.init State.initial_empty.1) Nat.one_pos hview
    (decodes 1 ⟨by decide, by decide, by decide⟩)
  have queued := run_callback refused rfl List.mem_cons_self halone
  have dropped := run_callback queued rfl List.mem_cons_self
    (callback_dropped hfull rfl hview (decodes 2 ⟨by decide, by decide, by decide⟩))
  obtain ⟨queue', halone', -⟩ := pop_oldest (s := left _ _ .dropped _) hfull
  obtain ⟨tr, run⟩ := halone'.run dropped
  refine ⟨_, onEvent_delivered _ _ _ tr _ run, rfl, ?_⟩
  exact congrArg (fun r => [r]) (ofCells_toCells _ _)

end Delivery

end ElephantShrew.Telemetry
