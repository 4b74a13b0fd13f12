import ElephantShrew.Capture.ProcessPacket
import ElephantShrew.Verified.StepSystem

/-!
# Packets on the wire

Running receivers, and the devices that packets pass.  A packet comes in from
outside, or is sent on a device by the host or by the program.  What the capture
of a device makes of it is up to the capture library, a parameter here: the
library keeps a buffer for each capture, and its thread hands the receiver one
packet after the other.

Packets and threads take their steps in any order.  What a receiver does with one
packet is one step: the receivers share nothing but the devices and the store.
-/

namespace ElephantShrew.Capture

open ElephantShrew.Verified
open ElephantShrew.Verified.ExitM

/-- Who put a packet on a device. -/
inductive Origin where
  | outside
  | host
  | program
  deriving DecidableEq, Repr

/-- The capture library: how the buffer of a capture starts, what a packet that
passes the device leaves in it, and what the callback is given next. -/
structure CaptureLibrary (Buffer : Type) where
  empty : Buffer
  passes : Direction → Origin × RawPacket → Buffer → Buffer
  handOver : Buffer → Option ((Origin × RawPacket) × Buffer)

namespace CaptureLibrary

variable {Buffer : Type} (lib : CaptureLibrary Buffer)
  (pending : Buffer → List (Origin × RawPacket))

/-- What the program relies on, with the packets that a buffer has in it: those that
are captured wait in their order, and an incoming-only capture takes in nothing
else.  A packet may be lost. -/
structure Documented : Prop where
  empty : pending lib.empty = []
  passes : ∀ dir e b, pending (lib.passes dir e b) = pending b ∨
    pending (lib.passes dir e b) = pending b ++ [e]
  incoming : ∀ e b, e.1 ≠ .outside → pending (lib.passes .pcppIn e b) = pending b
  handOver : ∀ b e b', lib.handOver b = some (e, b') → pending b = e :: pending b'

/-- Nothing is lost. -/
structure Lossless : Prop where
  incoming : ∀ e b, e.1 = .outside → pending (lib.passes .pcppIn e b) = pending b ++ [e]
  all : ∀ e b, pending (lib.passes .pcppInOut e b) = pending b ++ [e]

end CaptureLibrary

variable {D Buffer : Type}

/-- What has passed each device, the buffers of the captures, the packets that the
receivers were handed and what they have done. -/
structure Traffic (D Buffer : Type) where
  wire : D → List (Origin × RawPacket)
  buffers : D → Buffer
  handled : D → List (Origin × RawPacket)
  calls : Calls
  log : List (PacketOp D)

/-- Nothing has passed yet. -/
def Traffic.initial (lib : CaptureLibrary Buffer) : Traffic D Buffer where
  wire _ := []
  buffers _ := lib.empty
  handled _ := []
  calls := {}
  log := []

namespace Traffic

variable [DecidableEq D] (lib : CaptureLibrary Buffer)

/-- A packet passes a device. -/
def put (captures : D → Option Direction) (t : Traffic D Buffer) (device : D)
    (entry : Origin × RawPacket) : Traffic D Buffer :=
  { t with
    wire := Function.update t.wire device (t.wire device ++ [entry])
    buffers :=
      match captures device with
      | none => t.buffers
      | some dir => Function.update t.buffers device (lib.passes dir entry (t.buffers device)) }

/-- The packets that were sent pass the devices they were sent on. -/
def putSent (captures : D → Option Direction) (t : Traffic D Buffer) :
    List (PacketOp D) → Traffic D Buffer
  | [] => t
  | .sendPacket device packet true :: rest =>
      putSent captures (t.put lib captures device (.program, packet)) rest
  | _ :: rest => putSent captures t rest

/-- `onPacketArrives` for the packet that the library hands over next. -/
def handle (env : PacketEnvironment D) (captures : D → Option Direction)
    (r : RunningReceiver D) (t : Traffic D Buffer) : Option (Traffic D Buffer) :=
  match lib.handOver (t.buffers r.device) with
  | none => none
  | some (entry, rest) =>
      let ops := (onPacketArrives env r entry.2).trace t.calls
      some (putSent lib captures
        { t with
          buffers := Function.update t.buffers r.device rest
          handled := Function.update t.handled r.device (t.handled r.device ++ [entry])
          calls := ((onPacketArrives env r entry.2).exec t.calls).1
          log := t.log ++ ops } ops)

inductive Action (D : Type) where
  | arrives (device : D) (packet : RawPacket)
  | hostSends (device : D) (packet : RawPacket)
  /-- the capture thread of a receiver, by its place in the vector -/
  | handles (i : Nat)

def act (env : PacketEnvironment D) (captures : D → Option Direction)
    (receivers : List (RunningReceiver D)) (t : Traffic D Buffer) :
    Action D → Option (Traffic D Buffer)
  | .arrives device packet => some (t.put lib captures device (.outside, packet))
  | .hostSends device packet => some (t.put lib captures device (.host, packet))
  | .handles i =>
      match receivers[i]? with
      | none => none
      | some r => handle lib env captures r t

/-- The receivers, and packets at any time. -/
def system (env : PacketEnvironment D) (captures : D → Option Direction)
    (receivers : List (RunningReceiver D)) : System (Traffic D Buffer) (Action D) :=
  .ofAct (· = initial lib) (act lib env captures receivers)

end Traffic

/-! ## What a receiver sends -/

section Sends

variable [DecidableEq D]

/-- The packet offered to a device, and whether it was sent. -/
def PacketOp.offered (device : D) : PacketOp D → Option (RawPacket × Bool)
  | .sendPacket d packet ok => if d = device then some (packet, ok) else none
  | _ => none

/-- What was offered to a device, in its order. -/
def offers (device : D) (log : List (PacketOp D)) : List (RawPacket × Bool) :=
  log.filterMap (PacketOp.offered device)

theorem offers_append (device : D) (log log' : List (PacketOp D)) :
    offers device (log ++ log') = offers device log ++ offers device log' :=
  List.filterMap_append

variable {env : PacketEnvironment D} {r : RunningReceiver D} {log : List (PacketOp D)}
  {calls : Calls} {device : D}

@[simp] theorem offers_debug (text : String) :
    offers device (log ++ [.debug text]) = offers device log := by
  simp [offers, PacketOp.offered]

@[simp] theorem offers_store (info : Store.PacketInfo) :
    offers device (log ++ [.store info]) = offers device log := by
  simp [offers, PacketOp.offered]

@[simp] theorem offers_error (text : String) :
    offers device (log ++ [.error text]) = offers device log := by
  simp [offers, PacketOp.offered]

@[simp] theorem offers_sendPacket (d : D) (packet : RawPacket) (ok : Bool) :
    offers device (log ++ [.sendPacket d packet ok]) =
      offers device log ++ if d = device then [(packet, ok)] else [] := by
  by_cases hd : d = device <;> simp [offers, PacketOp.offered, hd]

/-- What one packet adds to the offers. -/
def offersOf (env : PacketEnvironment D) (r : RunningReceiver D) (packet : RawPacket)
    (calls : Calls) (device : D) : List (RawPacket × Bool) :=
  if r.routeDevice = some device then [(packet, env.sends calls.sent)] else []

theorem wpLog_recordPacket_offers (packet : RawPacket) (info : Store.PacketInfo)
    {xs : List (RawPacket × Bool)} (h : offers device log = xs) :
    WpLog (recordPacket env r packet info) (fun _ log' _ => offers device log' = xs)
      (fun _ log' _ => offers device log' = xs) log calls := by
  unfold recordPacket
  rw [wpLog_ite]
  constructor
  · intro _
    simp only [storePacket, wpLog_bind, wpLog_exitIf, wpLog_state, wpLog_note, wpLog_update]
    refine ⟨fun _ => h, fun _ => ?_⟩
    cases env.storeThrows calls.stored with
    | none => simpa using h
    | some what => simpa using h
  · intro _
    simpa using h

theorem wpLog_forwardPacket_offers (packet : RawPacket) (info : Store.PacketInfo)
    (h : offers device log = []) :
    WpLog (forwardPacket env r packet >>= fun _ => recordPacket env r packet info)
      (fun _ log' _ => offers device log' = offersOf env r packet calls device)
      (fun _ log' _ => offers device log' = offersOf env r packet calls device) log calls := by
  unfold forwardPacket offersOf
  rw [wpLog_bind]
  cases hroute : r.routeDevice with
  | none =>
      rw [wpLog_pure]
      apply wpLog_recordPacket_offers
      simpa using h
  | some route =>
      simp only [sendPacket, wpLog_bind, wpLog_state, wpLog_note, wpLog_update, wpLog_pure,
        wpLog_exitIf, Option.some.injEq]
      have hsent : offers device (log ++ [.sendPacket route packet (env.sends calls.sent)]) =
          if route = device then [(packet, env.sends calls.sent)] else [] := by
        rw [offers_sendPacket, h, List.nil_append]
      exact ⟨fun _ => hsent, fun _ => wpLog_recordPacket_offers packet info hsent⟩

/-- **One packet is offered to the route**, once, whatever comes of it. -/
theorem offers_onPacketArrives (packet : RawPacket) (calls : Calls) (device : D) :
    offers device ((onPacketArrives env r packet).trace calls) =
      offersOf env r packet calls device := by
  have hcaught : ∀ log : List (PacketOp D), offers device log = [] →
      WpLog (attempt (forwardPacket env r packet >>= fun _ =>
          recordPacket env r packet (packetInfo env r packet)) >>= reportPacket env r)
        (fun _ log' _ => offers device log' = offersOf env r packet calls device)
        (fun _ _ _ => False) log calls := by
    intro log hlog
    rw [wpLog_bind, wpLog_attempt]
    apply (wpLog_forwardPacket_offers packet (packetInfo env r packet) hlog).mono
    · intro _ log' calls' h
      simpa [reportPacket] using h
    · intro what log' calls' h
      simpa [reportPacket] using h
  have hrun : WpLog (onPacketArrives env r packet)
      (fun _ log' _ => offers device log' = offersOf env r packet calls device)
      (fun _ _ _ => False) [] calls := by
    simp only [onPacketArrives, processPacket, wpLog_bind, wpLog_attempt] at hcaught ⊢
    rw [wpLog_ite]
    constructor
    · intro _
      simp only [wpLog_bind, wpLog_note]
      exact hcaught _ (offers_debug _)
    · intro _
      simp only [wpLog_bind]
      exact hcaught [] rfl
  exact hrun.outcome_of_returns

end Sends

end ElephantShrew.Capture
