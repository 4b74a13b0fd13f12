import ElephantShrew.Telemetry.OnEvent
import ElephantShrew.Telemetry.SpscRefinement

/-!
# From the ring callback to the sink

`EbpfTelemetry` between its ring and its consumer: the current producer runs
one `OnEvent` after another, each ending in a counter or in the queue, while
the consumer pops.  The queue is the one of `SpscQueue.lean`, step by step;
its cells are the bytes of a `TelemetryRecord`.  What the callback reads of
the shutdown flags and the clock is whatever the other threads left there.
-/

namespace ElephantShrew.Telemetry

open ElephantShrew.Verified
open ElephantShrew.Bpf

/-! ## Records as queue elements -/

/-- `struct TelemetryRecord`, member by member. -/
def recordCodec (o : Codec.ByteOrder) : Codec TelemetryRecord :=
  Codec.record ((eventCodec o).pair <| (Codec.uint64 o).pair <| Codec.uint64 o)
    (fun (event, netnsInode, sessionId) => ⟨event, netnsInode, sessionId⟩)
    (fun r => (r.event, r.netnsInode, r.sessionId))
    fun _ => rfl

/-- `sizeof(TelemetryRecord)`. -/
def recordSize : Nat := 232

theorem recordCodec_size (o : Codec.ByteOrder) : (recordCodec o).size = recordSize := by
  simp [recordCodec, eventCodec_size, esEventSize, recordSize]

/-- The bytes the queue copies. -/
def toCells (o : Codec.ByteOrder) (r : TelemetryRecord) : Fin recordSize → UInt8 :=
  fun k => Bytes.get ((recordCodec o).encode r) k

/-- The record in the consumer's variable. -/
def ofCells (o : Codec.ByteOrder) (cells : Fin recordSize → UInt8) : TelemetryRecord :=
  (recordCodec o).decode (List.ofFn cells) 0

/-- A record is itself again after its bytes were copied. -/
theorem ofCells_toCells (o : Codec.ByteOrder) (r : TelemetryRecord) :
    ofCells o (toCells o r) = r := by
  have hlen : ((recordCodec o).encode r).length = recordSize := by
    rw [(recordCodec o).length_encode, recordCodec_size]
  have hcells : List.ofFn (toCells o r) = (recordCodec o).encode r := by
    refine List.ext_getElem (by rw [List.length_ofFn, hlen]) fun i hi hi' => ?_
    rw [List.getElem_ofFn, toCells, Bytes.get, List.getD_eq_getElem?_getD,
      List.getElem?_eq_getElem hi', Option.getD_some]
  rw [ofCells, hcells, Codec.decode_encode]

/-! ## The system -/

/-- One call of `OnEvent`. -/
structure Callback where
  source : Source
  data : Option Bytes
  size : Nat
  deriving DecidableEq, Repr

/-- How a callback ended. -/
inductive Outcome where
  | discarded
  | decodeError
  | dropped
  | queued (record : TelemetryRecord)
  deriving DecidableEq, Repr

/-- The counters of `TelemetryLoss`. -/
structure Loss where
  decodeErrors : UInt64
  queueDropped : UInt64
  shutdownDiscarded : UInt64
  deriving DecidableEq, Repr

/-- One `fetch_add` on the counter of an outcome; the queue has none. -/
def Loss.count (l : Loss) : Outcome → Loss
  | .discarded => { l with shutdownDiscarded := l.shutdownDiscarded + 1 }
  | .decodeError => { l with decodeErrors := l.decodeErrors + 1 }
  | .dropped => { l with queueDropped := l.queueDropped + 1 }
  | .queued _ => l

namespace Delivery

/-- Where the producer is in `OnEvent`. -/
inductive Pc where
  | idle
  | entered (cb : Callback)
  | pushing (cb : Callback) (record : TelemetryRecord)
  /-- `TryPush` returned false -/
  | refused (cb : Callback)
  deriving DecidableEq, Repr

/-- The telemetry object, its two parties, and the history of the run. -/
structure State where
  queue : Spsc.State recordSize UInt8
  pc : Pc
  loss : Loss
  /-- the callbacks made, in order of arrival -/
  made : List Callback
  /-- those that have ended, and how -/
  ended : List (Callback × Outcome)
  popped : List TelemetryRecord

inductive Action where
  | callback (cb : Callback)
  | decide (view : ShutdownView)
  | countDrop
  | queue (a : Spsc.Action recordSize UInt8)

/-- A telemetry object with nothing in it. -/
def Initial (s : State) : Prop :=
  Spsc.Initial s.queue ∧ s.pc = .idle ∧ s.loss = ⟨0, 0, 0⟩ ∧ s.made = [] ∧ s.ended = [] ∧
    s.popped = []

/-- One such object. -/
def State.empty : State where
  queue := ⟨fun _ _ => 0, 0, 0, .idle, .idle⟩
  pc := .idle
  loss := ⟨0, 0, 0⟩
  made := []
  ended := []
  popped := []

theorem State.initial_empty : Initial State.empty :=
  ⟨⟨rfl, rfl, rfl, rfl⟩, rfl, rfl, rfl, rfl, rfl⟩

/-- `OnEvent` up to the queue, with what it read of the shutdown state. -/
def decideEvent (c : Capacity) (o : Codec.ByteOrder) (s : State) (cb : Callback)
    (view : ShutdownView) : Option State :=
  match onEvent o cb.source view cb.data cb.size with
  | .discard =>
      some { s with
        pc := .idle
        loss := s.loss.count .discarded
        ended := s.ended ++ [(cb, .discarded)] }
  | .decodeError =>
      some { s with
        pc := .idle
        loss := s.loss.count .decodeError
        ended := s.ended ++ [(cb, .decodeError)] }
  | .push record =>
      match Spsc.next c s.queue (.tryPush (toCells o record)) with
      | some (queue, _) => some { s with queue := queue, pc := .pushing cb record }
      | none => none

/-- What a return of the queue means to its caller. -/
def afterQueue (o : Codec.ByteOrder) (s : State) :
    Option (QueueEvent (Fin recordSize → UInt8)) → State
  | none => s
  | some (.pop none) => s
  | some (.pop (some cells)) => { s with popped := s.popped ++ [ofCells o cells] }
  | some (.push _ accepted) =>
      match s.pc with
      | .pushing cb record =>
          if accepted then
            { s with pc := .idle, ended := s.ended ++ [(cb, .queued record)] }
          else { s with pc := .refused cb }
      | _ => s

/-- A step of `TryPush` or `TryPop` that is not a call of `TryPush`. -/
def insideQueue : Spsc.Action recordSize UInt8 → Bool
  | .tryPush _ => false
  | _ => true

/-- One step, with the contexts that were registered. -/
def next (c : Capacity) (o : Codec.ByteOrder) (sources : List Source) (s : State) :
    Action → Option State
  | .callback cb =>
      match s.pc with
      | .idle =>
          if cb.source ∈ sources then
            some { s with pc := .entered cb, made := s.made ++ [cb] }
          else none
      | _ => none
  | .decide view =>
      match s.pc with
      | .entered cb => decideEvent c o s cb view
      | _ => none
  | .countDrop =>
      match s.pc with
      | .refused cb =>
          some { s with
            pc := .idle
            loss := s.loss.count .dropped
            ended := s.ended ++ [(cb, .dropped)] }
      | _ => none
  | .queue a =>
      if insideQueue a then
        match Spsc.next c s.queue a with
        | some (queue, e) => some (afterQueue o { s with queue := queue } e)
        | none => none
      else none

/-- The telemetry object under every schedule. -/
def system (c : Capacity) (o : Codec.ByteOrder) (sources : List Source) :
    System State Action := .ofAct Initial (next c o sources)

end Delivery

end ElephantShrew.Telemetry
