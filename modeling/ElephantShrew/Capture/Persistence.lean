import ElephantShrew.Capture.Recording
import ElephantShrew.Capture.TrafficLaw
import ElephantShrew.Store.Teardown

/-!
# From the wire to Redis

The receivers, the devices and the packet store they share, from the return of
`Init` to the end of the store.  The capture thread of receiver `i` is the
thread `i` of the store: `onPacketArrives` runs up to its call of `Store`, which
is its last, and the thread handles no other packet before `Store` has
returned.  The receivers are torn down as in `Teardown.lean`.
-/

namespace ElephantShrew.Capture.Persistence

open ElephantShrew.Verified
open ElephantShrew.Verified.ExitM
open ElephantShrew.Store (PacketInfo Caller Job JobAction)
open ElephantShrew.Store.Teardown (Progress)

variable {D Buffer : Type}

/-- The traffic, and the store with the thread that tears it down; `admitted` are
the packets it has given a slot, in order, with the threads they come from. -/
structure State (D Buffer : Type) where
  traffic : Traffic D Buffer
  program : Store.Teardown.State
  admitted : List (Nat × PacketInfo)

inductive Action (D : Type) where
  | arrives (device : D) (packet : RawPacket)
  | hostSends (device : D) (packet : RawPacket)
  /-- the capture thread of a receiver takes its next packet -/
  | handles (i : Nat)
  /-- a step of the store or of the teardown -/
  | program (a : Store.Teardown.Action)

/-- `Store` of the Redis store catches what it throws. -/
def quiet (env : PacketEnvironment D) : PacketEnvironment D :=
  { env with storeThrows := fun _ => none }

/-- What a step has admitted. -/
def admits (before after : Store.State) : Store.Teardown.Action → List (Nat × PacketInfo)
  | .store (.reserve t) => (after.jobs.drop before.jobs.length).map fun j => (t, j.packet)
  | _ => []

section Step

variable [DecidableEq D] (lib : CaptureLibrary Buffer) (env : PacketEnvironment D)
  (captures : D → Option Direction) (receivers : List (RunningReceiver D)) (o : Store.Options)

/-- The thread of receiver `i` takes a packet and, if it is to be recorded, is in
`Store`. -/
def handles (s : State D Buffer) (i : Nat) (r : RunningReceiver D) : Option (State D Buffer) :=
  if s.program.capturing i = true ∧ s.program.store.callers i = .idle then
    (Traffic.handle lib (quiet env) captures r s.traffic).bind fun traffic =>
      match storedOf (traffic.log.drop s.traffic.log.length) with
      | [] => some { s with traffic := traffic }
      | info :: _ =>
          (Store.Teardown.next o receivers.length s.program (.store (.store i info))).map
            fun program => { s with traffic := traffic, program := program }
  else none

/-- One step. -/
def next (s : State D Buffer) : Action D → Option (State D Buffer)
  | .arrives device packet =>
      some { s with traffic := s.traffic.put lib captures device (.outside, packet) }
  | .hostSends device packet =>
      some { s with traffic := s.traffic.put lib captures device (.host, packet) }
  | .handles i => receivers[i]?.bind (handles lib env captures receivers o s i)
  | .program (.store (.store _ _)) => none
  | .program a =>
      (Store.Teardown.next o receivers.length s.program a).map fun program =>
        { s with
          program := program
          admitted := s.admitted ++ admits s.program.store program.store a }

/-- The receivers capture, and nothing has happened yet. -/
def Initial (s : State D Buffer) : Prop :=
  s.traffic = .initial lib ∧ Store.Teardown.Initial s.program ∧
    (∀ i < receivers.length, s.program.capturing i = true) ∧ s.admitted = []

/-- The packets, the threads and the store under every schedule. -/
def system : System (State D Buffer) (Action D) :=
  .ofAct (Initial lib receivers) (next lib env captures receivers o)

end Step

/-! ## What is recorded -/

/-- The packets that a receiver has carried on: those it has put on its route, or all
it was handed if it has none. -/
def carriedOn (r : RunningReceiver D) (t : Traffic D Buffer) : List RawPacket :=
  match r.routeDevice with
  | none => (t.handled r.device).map Prod.snd
  | some route => ofOrigin .program (t.wire route)

/-- What the store has admitted from thread `i`. -/
def admittedFrom (i : Nat) (s : State D Buffer) : List PacketInfo :=
  (s.admitted.filter fun e => e.1 = i).map Prod.snd

/-- What a thread holds that asks for a slot. -/
def inHand : Caller → List PacketInfo
  | .reserving packet => [packet]
  | .waiting packet => [packet]
  | _ => []

/-- The packet is given up, with a line in the log. -/
def givesUp (a : JobAction) : Bool := a = .post false ∨ a = .task .buildThrew ∨ a = .task .execThrew

/-- The packet of a step, if it is of this kind. -/
def Action.packetOf (kind : JobAction → Bool) : Action D → Option Nat
  | .program (.store (.job id a)) => if kind a then some id else none
  | _ => none

/-- How often a packet's request was given to the connection. -/
def asked (tr : List (Action D)) (id : Nat) : Nat :=
  (tr.filterMap (Action.packetOf fun a => a = .task .accepted)).count id

/-- How often a packet was given up. -/
def givenUp (tr : List (Action D)) (id : Nat) : Nat :=
  (tr.filterMap (Action.packetOf givesUp)).count id

end ElephantShrew.Capture.Persistence
