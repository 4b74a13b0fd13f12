import ElephantShrew.Telemetry.DeliveryLaw

/-!
# Shutting down the ring poller

`EbpfTelemetry::Start` and `FinishAfterDetach`, one step for each access to
`abort` and `deadline_ns`, for each record the ring library reads, and for
each return.  The producers are detached: the rings hold what is pending and
grow no more.

The ring library is used as it is documented.  A call reads records one at a
time and runs the callback on each; a record is consumed when its callback
returns, whatever it returns, and a negative value ends the call at once with
that value.  `ring_buffer__poll` may return at any point between two records,
`ring_buffer__consume` once every ring is empty; both return how many records
they consumed.  A call may be interrupted before its first record, and may
fail.

The queue between the callback and the sink is the bounded queue that
`SpscQueue` refines.
-/

namespace ElephantShrew.Telemetry.Drain

open ElephantShrew.Verified
open ElephantShrew.Bpf
open ElephantShrew.Telemetry

/-- `-ECANCELED` and `-EINTR`. -/
def eCanceled : Int := -125
def eIntr : Int := -4

/-- What both threads may touch. -/
structure Shared where
  /-- the records pending in each ring, oldest first -/
  rings : List (List Callback)
  abort : Bool
  deadlineNs : UInt64
  loss : Loss
  queue : List TelemetryRecord
  /-- the callbacks that have returned, and how they ended -/
  ended : List (Callback × Outcome)
  deriving DecidableEq, Repr

/-- Where a thread is in `ring_buffer__poll` or `ring_buffer__consume`, with the
records consumed by this call. -/
inductive Call where
  | between (n : Nat)
  /-- in the callback, on the first record of `ring` -/
  | entered (ring n : Nat)
  /-- `deadline_ns` is loaded -/
  | loaded (ring n : Nat) (deadline : UInt64)
  | returned (rc : Int)
  deriving DecidableEq, Repr

inductive CallAction where
  | take (ring : Nat)
  | loadDeadline
  | onEvent (nowNs : UInt64)
  | finish
  | interrupt
  | fail (rc : Int)
  deriving DecidableEq, Repr

/-- The rest of `OnEvent`, once the deadline is loaded. -/
def runEvent (capacity : Nat) (o : Codec.ByteOrder) (sh : Shared) (cb : Callback)
    (deadline nowNs : UInt64) : Outcome :=
  match onEvent o cb.source ⟨deadline, sh.abort, nowNs⟩ cb.data cb.size with
  | .discard => .discarded
  | .decodeError => .decodeError
  | .push record => if sh.queue.length < capacity then .queued record else .dropped

/-- What a callback that ended so adds to the queue. -/
def pushedBy : Outcome → List TelemetryRecord
  | .queued record => [record]
  | _ => []

/-- The callback has returned: its record is consumed. -/
def Shared.consume (sh : Shared) (ring : Nat) (rest : List Callback) (cb : Callback)
    (out : Outcome) : Shared :=
  { sh with
    rings := sh.rings.set ring rest
    loss := sh.loss.count out
    queue := sh.queue ++ pushedBy out
    ended := sh.ended ++ [(cb, out)] }

/-- A step inside a call of the ring library; `consuming` is whether the call is
`ring_buffer__consume`. -/
def callNext (capacity : Nat) (o : Codec.ByteOrder) (consuming : Bool) (sh : Shared) :
    Call → CallAction → Option (Shared × Call)
  | .between n, .take ring =>
      match sh.rings[ring]? with
      | some (_ :: _) => some (sh, .entered ring n)
      | _ => none
  | .between n, .finish =>
      if consuming = true ∧ ¬ ∀ ring ∈ sh.rings, ring = [] then none
      else some (sh, .returned n)
  | .between n, .interrupt => if n = 0 then some (sh, .returned eIntr) else none
  | .between _, .fail rc => if rc < 0 then some (sh, .returned rc) else none
  | .entered ring n, .loadDeadline => some (sh, .loaded ring n sh.deadlineNs)
  | .loaded ring n deadline, .onEvent nowNs =>
      match sh.rings[ring]? with
      | some (cb :: rest) =>
          let out := runEvent capacity o sh cb deadline nowNs
          some (sh.consume ring rest cb out,
            if out = .discarded then .returned eCanceled else .between (n + 1))
      | _ => none
  | _, _ => none

/-- Where the poller thread is. -/
inductive Poller where
  /-- `Start` was not called -/
  | absent
  /-- about to load `abort` in the loop condition -/
  | top
  | polling (call : Call)
  | exited
  deriving DecidableEq, Repr

/-- Where `FinishAfterDetach` is. -/
inductive Finisher where
  | notCalled
  /-- `abort` is set; joining the poller -/
  | joining (ms : Int)
  | joined (ms : Int)
  /-- `deadline_ns` is set -/
  | armed
  /-- about to look at the clock -/
  | top
  | consuming (call : Call)
  /-- past the drain, about to set `abort` again -/
  | closing
  | returned
  deriving DecidableEq, Repr

/-- The telemetry object during its shutdown. -/
structure State where
  shared : Shared
  poller : Poller
  finisher : Finisher
  pollError : Int
  popped : List TelemetryRecord
  deriving DecidableEq, Repr

inductive Action where
  | pollerLoop
  | poll (a : CallAction)
  | checkPoll
  | finishAfterDetach (ms : Int)
  | join
  | skipDrain
  | arm (nowNs : UInt64)
  | clearAbort
  | drainLoop (nowNs : UInt64)
  | consume (a : CallAction)
  | checkConsume
  | close
  | pop
  deriving DecidableEq, Repr

/-- `if (ms > 60000) ms = 60000`. -/
def clampMs (ms : Int) : Int := if ms > 60000 then 60000 else ms

/-- One step. -/
def next (capacity : Nat) (o : Codec.ByteOrder) (s : State) : Action → Option State
  | .pollerLoop =>
      match s.poller with
      | .top =>
          some { s with poller := if s.shared.abort then .exited else .polling (.between 0) }
      | _ => none
  | .poll a =>
      match s.poller with
      | .polling call =>
          match callNext capacity o false s.shared call a with
          | some (shared, call) => some { s with shared := shared, poller := .polling call }
          | none => none
      | _ => none
  | .checkPoll =>
      match s.poller with
      | .polling (.returned rc) =>
          if rc = eIntr then some { s with poller := .top }
          else if rc = eCanceled ∧ s.shared.abort = true then some { s with poller := .exited }
          else if rc < 0 then some { s with pollError := rc, poller := .exited }
          else some { s with poller := .top }
      | _ => none
  | .finishAfterDetach ms =>
      match s.finisher with
      | .notCalled =>
          some { s with shared := { s.shared with abort := true }, finisher := .joining ms }
      | _ => none
  | .join =>
      match s.finisher with
      | .joining ms =>
          if s.poller = .absent ∨ s.poller = .exited then some { s with finisher := .joined ms }
          else none
      | _ => none
  | .skipDrain =>
      match s.finisher with
      | .joined ms =>
          if clampMs ms > 0 ∧ s.shared.rings ≠ [] then none
          else some { s with finisher := .closing }
      | _ => none
  | .arm nowNs =>
      match s.finisher with
      | .joined ms =>
          if clampMs ms > 0 ∧ s.shared.rings ≠ [] then
            some { s with
              shared := { s.shared with
                deadlineNs := nowNs + UInt64.ofNat (clampMs ms).toNat * 1000000 }
              finisher := .armed }
          else none
      | _ => none
  | .clearAbort =>
      match s.finisher with
      | .armed => some { s with shared := { s.shared with abort := false }, finisher := .top }
      | _ => none
  | .drainLoop nowNs =>
      match s.finisher with
      | .top =>
          some { s with
            finisher :=
              if nowNs ≥ s.shared.deadlineNs then .closing else .consuming (.between 0) }
      | _ => none
  | .consume a =>
      match s.finisher with
      | .consuming call =>
          match callNext capacity o true s.shared call a with
          | some (shared, call) => some { s with shared := shared, finisher := .consuming call }
          | none => none
      | _ => none
  | .checkConsume =>
      match s.finisher with
      | .consuming (.returned rc) =>
          if rc = eIntr then some { s with finisher := .top }
          else if rc = eCanceled ∨ rc = 0 then some { s with finisher := .closing }
          else if rc < 0 then some { s with pollError := rc, finisher := .closing }
          else some { s with finisher := .top }
      | _ => none
  | .close =>
      match s.finisher with
      | .closing =>
          some { s with shared := { s.shared with abort := true }, finisher := .returned }
      | _ => none
  | .pop =>
      match s.shared.queue with
      | record :: queue =>
          some { s with
            shared := { s.shared with queue := queue }
            popped := s.popped ++ [record] }
      | [] => none

/-- The poller of a started object, outside any callback, or none. -/
def PollerStarts (p : Poller) : Prop := p = .absent ∨ p = .top ∨ ∃ n, p = .polling (.between n)

/-- The moment the producers are detached: what is pending, what was lost
before and what is queued. -/
structure Initial (pending : List (List Callback)) (lost : Loss) (queued : List TelemetryRecord)
    (s : State) : Prop where
  rings : s.shared.rings = pending
  abort : s.shared.abort = false
  deadline : s.shared.deadlineNs = 0
  loss : s.shared.loss = lost
  queue : s.shared.queue = queued
  ended : s.shared.ended = []
  poller : PollerStarts s.poller
  finisher : s.finisher = .notCalled
  popped : s.popped = []

/-- The shutdown under every schedule. -/
def system (capacity : Nat) (o : Codec.ByteOrder) (pending : List (List Callback)) (lost : Loss)
    (queued : List TelemetryRecord) : System State Action :=
  .ofAct (Initial pending lost queued) (next capacity o)

/-- The deadline a call has loaded was not reached at `nowNs`. -/
def Call.Early (nowNs : UInt64) : Call → Prop
  | .loaded _ _ deadline => deadline = 0 ∨ nowNs < deadline
  | _ => True

/-- The drain is asked for and not disturbed: its timeout is positive, its
deadline is never reached, and the library reports no error. -/
def Undisturbed (s : State) : Action → Prop
  | .finishAfterDetach ms => 0 < ms
  | .drainLoop nowNs => nowNs < s.shared.deadlineNs
  | .consume (.onEvent nowNs) =>
      match s.finisher with
      | .consuming call => call.Early nowNs
      | _ => True
  | .poll (.onEvent nowNs) =>
      match s.poller with
      | .polling call => call.Early nowNs
      | _ => True
  | .poll (.fail _) => False
  | .consume (.fail _) => False
  | _ => True

end ElephantShrew.Telemetry.Drain
