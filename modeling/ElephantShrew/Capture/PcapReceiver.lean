import Mathlib.Logic.Function.Basic
import ElephantShrew.Verified.ExitLog

/-!
# Capture devices and receivers

`Receive`, `Stop` and the destructor of `PcapReceiver.cpp`, over the devices a
receiver captures from.  A device is closed, open or capturing; nobody but the
program opens one.  What the capture library answers is the environment's
choice, question by question, but for the refusal of a second capture on one
device.  The operations on devices are recorded in the order they are made.

A receiver is an allocation, and carries its number.  What it does with a
packet, and the store and the two flags it needs for that, are not part of it
here.
-/

namespace ElephantShrew.Capture

open ElephantShrew.Verified

inductive Status where
  | closed
  | opened
  | capturing
  deriving DecidableEq, Repr

/-- `PcapLiveDevice::PcapDirection`. -/
inductive Direction where
  | pcppIn
  | pcppInOut
  deriving DecidableEq, Repr

variable {D : Type}

/-- What is done to the devices, and with what result. -/
inductive Op (D : Type) where
  /-- a call of `Init` begins -/
  | init
  | openDevice (device : D) (direction : Direction) (ok : Bool)
  | closeDevice (device : D)
  /-- the receiver calls `startCapture` -/
  | startCapture (receiver : Nat) (device : D) (ok : Bool)
  | stopCapture (receiver : Nat) (device : D)
  deriving DecidableEq, Repr

structure PcapReceiver (D : Type) where
  id : Nat
  device : Option D
  routeDevice : Option D
  capturing : Bool := false
  deriving DecidableEq, Repr

/-- The devices, the two lists of the `ElephantShrew` object, and the numbers of
receivers allocated and of questions asked so far. -/
structure State (D : Type) where
  status : D → Status
  receivers : List (PcapReceiver D) := []
  openedDevices : List D := []
  allocated : Nat := 0
  clock : Nat := 0

/-- The answers of the capture library and of the store, by the time of the
question; `store` is what the rest of the store's constructor throws. -/
structure Environment (D : Type) where
  name : D → String
  devicesList : Nat → List D
  deviceByName : Nat → String → Option D
  opens : Nat → D → Bool
  starts : Nat → D → Bool
  store : Nat → Option String

/-- A call of the object: it may throw, and what it did stays. -/
abbrev CaptureM (D : Type) := ExitM (Op D) (State D) String

open ExitM

/-- Put a question to the environment. -/
def ask {α : Type} (answer : Nat → α) : CaptureM D α := do
  let s ← state
  update fun s => { s with clock := s.clock + 1 }
  return answer s.clock

section Devices

variable [DecidableEq D]

def State.setStatus (s : State D) (device : D) (status : Status) : State D :=
  { s with status := Function.update s.status device status }

def isOpened (device : D) : CaptureM D Bool := do
  let s ← state
  return s.status device != .closed

def openLive (env : Environment D) (device : D) (direction : Direction) : CaptureM D Bool := do
  let ok ← ask fun t => env.opens t device
  note (.openDevice device direction ok)
  update fun s => if ok then s.setStatus device .opened else s
  return ok

def close (device : D) : CaptureM D Unit := do
  note (.closeDevice device)
  update fun s => s.setStatus device .closed

/-- It fails on a device that is not open or already capturing. -/
def startCapture (env : Environment D) (receiver : Nat) (device : D) : CaptureM D Bool := do
  let answer ← ask fun t => env.starts t device
  let s ← state
  let ok := answer && s.status device == .opened
  note (.startCapture receiver device ok)
  update fun s => if ok then s.setStatus device .capturing else s
  return ok

def stopCapture (receiver : Nat) (device : D) : CaptureM D Unit := do
  note (.stopCapture receiver device)
  update fun s => if s.status device = .capturing then s.setStatus device .opened else s

/-! ## The receiver -/

namespace PcapReceiver

/-- `what` is how the message names the device. -/
def requireOpened (env : Environment D) (what : String) (device : D) : CaptureM D Unit := do
  let opened ← isOpened device
  exitIf (opened = false)
    ("PcapReceiver: " ++ what ++ " device '" ++ env.name device ++ "' is not open")

def requireRoute (env : Environment D) (r : PcapReceiver D) : CaptureM D Unit :=
  match r.routeDevice with
  | none => pure ()
  | some routeDevice => requireOpened env "route" routeDevice

/-- The receiver as `Receive` leaves it. -/
def receive (env : Environment D) (r : PcapReceiver D) : CaptureM D (PcapReceiver D) :=
  match r.device with
  | none => exit "PcapReceiver: capture device is not set"
  | some device => do
      requireOpened env "capture" device
      r.requireRoute env
      let started ← startCapture env r.id device
      exitIf (started = false)
        ("PcapReceiver: failed to start capture on '" ++ env.name device ++ "'")
      return { r with capturing := true }

/-- The receiver as `Stop` leaves it. -/
def stop (r : PcapReceiver D) : CaptureM D (PcapReceiver D) :=
  match r.device with
  | none => pure r
  | some device =>
      if r.capturing then do
        stopCapture r.id device
        return { r with capturing := false }
      else pure r

/-- `~PcapReceiver`. -/
def destroy (r : PcapReceiver D) : CaptureM D Unit := do
  let _ ← r.stop

end PcapReceiver

end Devices

end ElephantShrew.Capture
