import ElephantShrew.Verified.StepSystem
import Mathlib.Logic.Function.Basic

/-!
# The Redis packet store

`RedisPacketStore.cpp`, one step for each critical section of
`pending_mutex_` and for each thing the io thread does with a write.  A thread
that calls `Store` reserves a slot, possibly after waiting; the packet it
admits then lives a life of its own: posted, turned into a request, handed to
the connection, completed.  Each point where the code can throw is an action
with an outcome.

A wait on `pending_cv_` may end at any time; whether it has to is not modelled
here.
-/

namespace ElephantShrew.Store

open ElephantShrew.Verified

/-- `PacketInfo`. -/
structure PacketInfo where
  iface : String
  srcIp : String
  dstIp : String
  protocol : String
  length : UInt32
  timestampUs : UInt64
  dataHex : String
  deriving DecidableEq, Repr

/-- The options `Store` reads, as the constructor accepts them. -/
structure Options where
  streamKey : String
  maxPendingWrites : Nat
  maxPendingWrites_pos : 0 < maxPendingWrites

/-- The request pushed for a packet. -/
def xadd (o : Options) (p : PacketInfo) : List String :=
  ["XADD", o.streamKey, "*",
    "iface", p.iface,
    "src_ip", p.srcIp,
    "dst_ip", p.dstIp,
    "protocol", p.protocol,
    "length", toString p.length.toNat,
    "timestamp_us", toString p.timestampUs.toNat,
    "data", p.dataHex]

/-! ## The life of an admitted packet -/

/-- Where an admitted packet is. -/
inductive Phase where
  /-- its slot is reserved, `asio::post` not yet called -/
  | posting
  /-- `asio::post` threw; the handler of `Store` runs -/
  | postFailed
  /-- the task waits in the io context -/
  | posted
  /-- building the request or `async_exec` threw; the handler of the task runs -/
  | taskFailed
  /-- the connection has the request and will call the completion handler -/
  | executing (request : List String)
  /-- the completion handler runs -/
  | completing (failed : Bool)
  /-- `CompletePendingWrite` was called for it -/
  | settled
  deriving DecidableEq, Repr

/-- An admitted packet, with how often `CompletePendingWrite` was called for it. -/
structure Job where
  packet : PacketInfo
  phase : Phase
  completions : Nat
  deriving DecidableEq, Repr

/-- How a task ends. -/
inductive TaskResult where
  | buildThrew
  | execThrew
  | accepted
  deriving DecidableEq, Repr

/-- The steps in the life of an admitted packet. -/
inductive JobAction where
  | post (ok : Bool)
  | task (r : TaskResult)
  | handler (failed : Bool)
  | completePendingWrite
  deriving DecidableEq, Repr

/-- One step of one packet. -/
def Job.step (o : Options) (j : Job) : JobAction → Option Job
  | .post ok =>
      match j.phase with
      | .posting => some { j with phase := if ok then .posted else .postFailed }
      | _ => none
  | .task r =>
      match j.phase with
      | .posted =>
          some { j with
            phase := match r with
              | .buildThrew => .taskFailed
              | .execThrew => .taskFailed
              | .accepted => .executing (xadd o j.packet) }
      | _ => none
  | .handler failed =>
      match j.phase with
      | .executing _ => some { j with phase := .completing failed }
      | _ => none
  | .completePendingWrite =>
      match j.phase with
      | .postFailed | .taskFailed | .completing _ =>
          some { j with phase := .settled, completions := j.completions + 1 }
      | _ => none

/-! ## The store -/

/-- Where a thread is in `Store(packet)`. -/
inductive Caller where
  | idle
  /-- holds the lock in `ReservePendingWriteSlot`, about to look -/
  | reserving (packet : PacketInfo)
  /-- asleep in `pending_cv_.wait` -/
  | waiting (packet : PacketInfo)
  /-- past `ReservePendingWriteSlot`, with job `id` -/
  | storing (id : Nat)
  deriving DecidableEq, Repr

/-- Where `~RedisPacketStore` is. -/
inductive Destructor where
  | notStarted
  /-- `accepting_writes_` is false; in `WaitForPendingWrites` -/
  | waiting
  | finished (drained : Bool)
  deriving DecidableEq, Repr

/-- The members of the store, its callers, and the packets it has admitted. -/
structure State where
  pendingWrites : Nat
  acceptingWrites : Bool
  callers : Nat → Caller
  jobs : List Job
  destructor : Destructor

inductive Action where
  | store (t : Nat) (packet : PacketInfo)
  | reserve (t : Nat)
  | wake (t : Nat)
  | storeReturn (t : Nat)
  | job (id : Nat) (a : JobAction)
  | stopAccepting
  | waitEnds
  deriving DecidableEq, Repr

/-- A constructed store. -/
def Initial (s : State) : Prop :=
  s.pendingWrites = 0 ∧ s.acceptingWrites = true ∧ (∀ t, s.callers t = .idle) ∧ s.jobs = [] ∧
    s.destructor = .notStarted

/-- The thread `t` moved on. -/
def State.setCaller (s : State) (t : Nat) (c : Caller) : State :=
  { s with callers := Function.update s.callers t c }

/-- The critical section of `CompletePendingWrite`. -/
def completePendingWrite (pendingWrites : Nat) : Nat :=
  if pendingWrites > 0 then pendingWrites - 1 else pendingWrites

/-- `ReservePendingWriteSlot`, each time it looks: sleep, give up, or take a
slot. -/
def reserve (o : Options) (s : State) (t : Nat) (packet : PacketInfo) : State :=
  if ¬ (s.pendingWrites < o.maxPendingWrites ∨ s.acceptingWrites = false) then
    s.setCaller t (.waiting packet)
  else if s.acceptingWrites = false then
    -- dropping packet while store is shutting down
    s.setCaller t .idle
  else
    { s.setCaller t (.storing s.jobs.length) with
      pendingWrites := s.pendingWrites + 1
      jobs := s.jobs ++ [⟨packet, .posting, 0⟩] }

theorem State.setCaller_self (s : State) (t : Nat) (c : Caller) :
    (s.setCaller t c).callers t = c := Function.update_self ..

theorem State.setCaller_of_ne (s : State) {t u : Nat} (c : Caller) (hu : u ≠ t) :
    (s.setCaller t c).callers u = s.callers u := Function.update_of_ne hu ..

/-- Another thread is where it was. -/
theorem reserve_callers_of_ne {o : Options} {s : State} {t u : Nat} (packet : PacketInfo)
    (hu : u ≠ t) : (reserve o s t packet).callers u = s.callers u := by
  unfold reserve
  split
  · exact s.setCaller_of_ne _ hu
  · split
    · exact s.setCaller_of_ne _ hu
    · exact s.setCaller_of_ne _ hu

/-- A thread leaves `Store` when its packet is posted, or the handler is done. -/
def Phase.returns : Phase → Bool
  | .posting => false
  | .postFailed => false
  | _ => true

/-- A packet after one of its steps, which gives its slot back if it is the last. -/
def State.setJob (s : State) (id : Nat) (a : JobAction) (j : Job) : State :=
  { s with
    jobs := s.jobs.set id j
    pendingWrites :=
      if a = .completePendingWrite then completePendingWrite s.pendingWrites
      else s.pendingWrites }

/-- One step. -/
def next (o : Options) (s : State) : Action → Option State
  | .store t packet =>
      match s.callers t with
      | .idle => some (s.setCaller t (.reserving packet))
      | _ => none
  | .reserve t =>
      match s.callers t with
      | .reserving packet => some (reserve o s t packet)
      | _ => none
  | .wake t =>
      match s.callers t with
      | .waiting packet => some (s.setCaller t (.reserving packet))
      | _ => none
  | .storeReturn t =>
      match s.callers t with
      | .storing id =>
          match s.jobs[id]? with
          | some j => if j.phase.returns then some (s.setCaller t .idle) else none
          | none => none
      | _ => none
  | .job id a =>
      match s.jobs[id]? with
      | some j =>
          match j.step o a with
          | some j' => some (s.setJob id a j')
          | none => none
      | none => none
  | .stopAccepting =>
      match s.destructor with
      | .notStarted => some { s with acceptingWrites := false, destructor := .waiting }
      | _ => none
  | .waitEnds =>
      -- `wait_for` returns the predicate, whether it timed out or not
      match s.destructor with
      | .waiting => some { s with destructor := .finished (decide (s.pendingWrites = 0)) }
      | _ => none

/-- Everything a step can be. -/
inductive Steps (o : Options) (s : State) : Action → State → Prop
  | store (t : Nat) (packet : PacketInfo) (h : s.callers t = .idle) :
      Steps o s (.store t packet) (s.setCaller t (.reserving packet))
  | reserve (t : Nat) (packet : PacketInfo) (h : s.callers t = .reserving packet) :
      Steps o s (.reserve t) (reserve o s t packet)
  | wake (t : Nat) (packet : PacketInfo) (h : s.callers t = .waiting packet) :
      Steps o s (.wake t) (s.setCaller t (.reserving packet))
  | storeReturn (t id : Nat) (h : s.callers t = .storing id) :
      Steps o s (.storeReturn t) (s.setCaller t .idle)
  | job (id : Nat) (a : JobAction) (j j' : Job) (hj : s.jobs[id]? = some j)
      (hstep : j.step o a = some j') : Steps o s (.job id a) (s.setJob id a j')
  | stopAccepting (h : s.destructor = .notStarted) :
      Steps o s .stopAccepting { s with acceptingWrites := false, destructor := .waiting }
  | waitEnds (h : s.destructor = .waiting) :
      Steps o s .waitEnds { s with destructor := .finished (decide (s.pendingWrites = 0)) }

theorem Steps.of_next {o : Options} {s s' : State} {a : Action} (h : next o s a = some s') :
    Steps o s a s' := by
  cases a with
  | store t packet =>
      cases hc : s.callers t <;> simp only [next, hc, Option.some.injEq, reduceCtorEq] at h
      rw [← h]
      exact .store t packet hc
  | reserve t =>
      cases hc : s.callers t <;> simp only [next, hc, Option.some.injEq, reduceCtorEq] at h
      rw [← h]
      exact .reserve t _ hc
  | wake t =>
      cases hc : s.callers t <;> simp only [next, hc, Option.some.injEq, reduceCtorEq] at h
      rw [← h]
      exact .wake t _ hc
  | storeReturn t =>
      cases hc : s.callers t <;> simp only [next, hc, reduceCtorEq] at h
      split at h
      · split at h
        · injection h with h
          rw [← h]
          exact .storeReturn t _ hc
        · cases h
      · cases h
  | job id a =>
      simp only [next] at h
      split at h
      · next j hj =>
          split at h
          · next j' hstep =>
              injection h with h
              rw [← h]
              exact .job id a j j' hj hstep
          · cases h
      · cases h
  | stopAccepting =>
      cases hd : s.destructor <;> simp only [next, hd, Option.some.injEq, reduceCtorEq] at h
      rw [← h]
      exact .stopAccepting hd
  | waitEnds =>
      cases hd : s.destructor <;> simp only [next, hd, Option.some.injEq, reduceCtorEq] at h
      rw [← h]
      exact .waitEnds hd

/-- The store under every schedule. -/
def system (o : Options) : System State Action := .ofAct Initial (next o)

end ElephantShrew.Store
