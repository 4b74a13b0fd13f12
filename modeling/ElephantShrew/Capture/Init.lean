import ElephantShrew.Capture.PcapReceiver
import ElephantShrew.Config.EffectiveConfig

/-!
# The capture service

`ElephantShrew.cpp`: `Init`, `CloseDevices` and the destructor.  `Init` drops
what an earlier call has left, builds the store when packets are recorded, and
brings the capture up in one of three ways; each step of it may throw.  The
receiver being started is a local of `Init` until it is pushed, and is destroyed
when its `Receive` throws.
-/

namespace ElephantShrew.Capture

open ElephantShrew.Verified
open ElephantShrew.Verified.ExitM
open ElephantShrew.Config

variable {D : Type} [DecidableEq D]

def resolveCaptureDevice (env : Environment D) (iface : String) : CaptureM D D := do
  if iface = "" then
    match ← ask env.devicesList with
    | [] => exit "ElephantShrew: no network interfaces found"
    | device :: _ => return device
  else
    match ← ask fun t => env.deviceByName t iface with
    | none => exit ("ElephantShrew: interface '" ++ iface ++ "' not found")
    | some device => return device

def openDevice (env : Environment D) (device : D) (direction : Direction) : CaptureM D Unit := do
  let opened ← isOpened device
  if opened then pure ()
  else do
    let ok ← openLive env device direction
    exitIf (ok = false) ("ElephantShrew: failed to open interface '" ++ env.name device ++ "'")

def trackOpenedDevice (device : D) : CaptureM D Unit :=
  update fun s =>
    { s with
      openedDevices :=
        if device ∈ s.openedDevices then s.openedDevices else s.openedDevices ++ [device] }

/-! ## Dropping what is there -/

/-- The receivers of the vector, destroyed in its order. -/
def destroyReceivers : List (PcapReceiver D) → CaptureM D Unit
  | [] => pure ()
  | r :: rest => do
      r.destroy
      destroyReceivers rest

/-- `receivers_.clear()`. -/
def clearReceivers : CaptureM D Unit := do
  let s ← state
  destroyReceivers s.receivers
  update fun s => { s with receivers := [] }

/-- The body of the loop of `CloseDevices`. -/
def closeOpened (device : D) : CaptureM D Unit := do
  let opened ← isOpened device
  if opened then close device else pure ()

/-- The loop of `CloseDevices`. -/
def closeEach : List D → CaptureM D Unit
  | [] => pure ()
  | device :: rest => do
      closeOpened device
      closeEach rest

def closeDevices : CaptureM D Unit := do
  let s ← state
  closeEach s.openedDevices.reverse
  update fun s => { s with openedDevices := [] }

/-! ## Bringing the capture up -/

/-- `RedisPacketStore(config.redis)`: its option checks, and what may go wrong after. -/
def newStore (env : Environment D) (options : RedisStoreOptions) : CaptureM D Unit :=
  match checkStoreOptions options with
  | .error what => exit what
  | .ok () => do
      match ← ask env.store with
      | none => return
      | some what => exit what

/-- The store of the capture, if packets are recorded. -/
def makeStore (env : Environment D) (config : RuntimeConfig) : CaptureM D Unit :=
  if config.capture.recordPackets then newStore env config.redis else pure ()

/-- A receiver is made and started; then it is pushed, or destroyed as the
exception passes. -/
def addReceiver (env : Environment D) (device : D) (routeDevice : Option D) :
    CaptureM D Unit := do
  let s ← state
  update fun s => { s with allocated := s.allocated + 1 }
  let receiver : PcapReceiver D := { id := s.allocated, device := some device, routeDevice }
  match ← attempt (receiver.receive env) with
  | .error what =>
      receiver.destroy
      exit what
  | .ok receiver => update fun s => { s with receivers := s.receivers ++ [receiver] }

def initRouting (env : Environment D) (routing : RoutingOptions) : CaptureM D Unit := do
  let ingress ← resolveCaptureDevice env routing.ingressIface
  let egress ← resolveCaptureDevice env routing.egressIface
  openDevice env ingress .pcppIn
  trackOpenedDevice ingress
  openDevice env egress .pcppIn
  trackOpenedDevice egress
  addReceiver env ingress (some egress)
  if routing.bidirectional then addReceiver env egress (some ingress)

/-- One interface, the first there is when its name is empty. -/
def initIface (env : Environment D) (iface : String) : CaptureM D Unit := do
  let device ← resolveCaptureDevice env iface
  openDevice env device .pcppInOut
  trackOpenedDevice device
  addReceiver env device none

def initIfaces (env : Environment D) : List String → CaptureM D Unit
  | [] => pure ()
  | iface :: rest => do
      initIface env iface
      initIfaces env rest

/-- `Init` after the two calls that drop what an earlier one has left. -/
def bringUp (env : Environment D) (config : RuntimeConfig) : CaptureM D Unit := do
  makeStore env config
  if config.routing.enabled then initRouting env config.routing
  else if config.capture.ifaces = [] then initIface env ""
  else initIfaces env config.capture.ifaces

def init (env : Environment D) (config : RuntimeConfig) : CaptureM D Unit := do
  note .init
  clearReceivers
  closeDevices
  bringUp env config

/-- `~ElephantShrew`. -/
def destroy : CaptureM D Unit := do
  clearReceivers
  closeDevices

/-! ## A life of the object -/

/-- Every device is closed, and the object has just been constructed. -/
def State.initial : State D where
  status := fun _ => .closed

/-- Calls of `Init`, one after the other; what each throws is caught. -/
def inits (env : Environment D) : List RuntimeConfig → CaptureM D Unit
  | [] => pure ()
  | config :: rest => do
      let _ ← attempt (init env config)
      inits env rest

/-- Calls of `Init`, and then the destruction of the object. -/
def lifetime (env : Environment D) (configs : List RuntimeConfig) : CaptureM D Unit := do
  inits env configs
  destroy

end ElephantShrew.Capture
