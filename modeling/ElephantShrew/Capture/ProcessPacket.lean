import ElephantShrew.Capture.Init
import ElephantShrew.Store.RedisPacketStore
import ElephantShrew.Verified.Bytes

/-!
# What a receiver does with a packet

`onPacketArrives` and `processPacket` of `PcapReceiver.cpp`: a packet is
described, logged, forwarded and recorded, in this order, and an exception on
the way is caught and logged.  What the layers of a packet are is the business
of the packet library; whether a packet can be sent is answered call by call,
and so is what the store throws.
-/

namespace ElephantShrew.Capture

open ElephantShrew.Verified
open ElephantShrew.Verified.ExitM
open ElephantShrew.Config
open ElephantShrew.Store (PacketInfo)

/-- `pcpp::RawPacket`: the length of its data is an `int`. -/
structure RawPacket where
  data : Bytes
  sec : Int64
  nsec : Int64
  length_lt : data.length < 2 ^ 31

/-- What is asked of the parsed packet: the addresses of a layer, if there is
one, as texts, and the types the packet is of. -/
structure Layers where
  ip4 : Option (String × String) := none
  ip6 : Option (String × String) := none
  arp : Option (String × String) := none
  isArp : Bool := false
  isTcp : Bool := false
  isUdp : Bool := false
  isIcmp : Bool := false

variable {D : Type}

/-- A receiver whose capture runs, so that its device is set; `store` says
whether it has one. -/
structure RunningReceiver (D : Type) where
  device : D
  routeDevice : Option D
  store : Bool
  recordPackets : Bool
  debugPackets : Bool

/-- The receiver that `Init` has made for these options; it gives it the store when
packets are recorded. -/
def PcapReceiver.running (config : RuntimeConfig) (r : PcapReceiver D) :
    Option (RunningReceiver D) :=
  r.device.map fun device =>
    { device
      routeDevice := r.routeDevice
      store := config.capture.recordPackets
      recordPackets := config.capture.recordPackets
      debugPackets := config.capture.debugPackets }

/-- What a packet causes. -/
inductive PacketOp (D : Type) where
  | debug (text : String)
  | sendPacket (device : D) (packet : RawPacket) (ok : Bool)
  /-- `IPacketStore::Store` is called -/
  | store (info : PacketInfo)
  | error (text : String)

/-- The calls of `sendPacket` and of `Store` so far. -/
structure Calls where
  sent : Nat := 0
  stored : Nat := 0

/-- The packet library, and the answers of `sendPacket` and `Store` by the number
of the call. -/
structure PacketEnvironment (D : Type) where
  name : D → String
  parse : RawPacket → Layers
  sends : Nat → Bool
  storeThrows : Nat → Option String

/-- The handling of a packet: it may throw, and what it did stays. -/
abbrev PacketM (D : Type) := ExitM (PacketOp D) Calls String

/-! ## Describing the packet -/

/-- The source and the destination. -/
def Layers.addresses (layers : Layers) : String × String :=
  match layers.ip4 with
  | some addresses => addresses
  | none =>
      match layers.ip6 with
      | some addresses => addresses
      | none =>
          match layers.arp with
          | some addresses => addresses
          | none => ("N/A", "N/A")

def Layers.protocol (layers : Layers) : String :=
  if layers.isArp then "ARP"
  else if layers.isTcp then "TCP"
  else if layers.isUdp then "UDP"
  else if layers.isIcmp then "ICMP"
  else "OTHER"

def RawPacket.timestampUs (packet : RawPacket) : UInt64 :=
  packet.sec.toUInt64 * 1000000 + (packet.nsec / 1000).toUInt64

/-- `info` before the hexadecimal text is set. -/
def packetInfo (env : PacketEnvironment D) (r : RunningReceiver D) (packet : RawPacket) :
    PacketInfo where
  iface := env.name r.device
  srcIp := (env.parse packet).addresses.1
  dstIp := (env.parse packet).addresses.2
  protocol := (env.parse packet).protocol
  length := UInt32.ofNat packet.data.length
  timestampUs := packet.timestampUs
  dataHex := ""

/-- `oss << std::setw(2) << n`, in hexadecimal and filled with zeros. -/
def hexField (n : Nat) : List Char := List.leftpad 2 '0' (Nat.toDigits 16 n)

/-- The loop over the first `length` bytes. -/
def hexEncode (data : Bytes) (length : UInt32) : String :=
  String.ofList ((List.range length.toNat).flatMap fun i => hexField (data.get i).toNat)

/-! ## Handling it -/

def debugText (env : PacketEnvironment D) (r : RunningReceiver D) (info : PacketInfo) : String :=
  "PcapReceiver: packet on '" ++ info.iface ++ "' " ++ info.srcIp ++ " -> " ++ info.dstIp ++
    " proto=" ++ info.protocol ++ " len=" ++ toString info.length.toNat ++
    match r.routeDevice with
    | some routeDevice => " routed_to='" ++ env.name routeDevice ++ "'"
    | none => ""

def sendPacket (env : PacketEnvironment D) (device : D) (packet : RawPacket) :
    PacketM D Bool := do
  let calls ← state
  let ok := env.sends calls.sent
  note (.sendPacket device packet ok)
  update fun calls => { calls with sent := calls.sent + 1 }
  return ok

/-- The packet is with the store once `Store` is called, whatever it throws. -/
def storePacket (env : PacketEnvironment D) (info : PacketInfo) : PacketM D Unit := do
  let calls ← state
  note (.store info)
  update fun calls => { calls with stored := calls.stored + 1 }
  match env.storeThrows calls.stored with
  | none => return
  | some what => exit what

def forwardPacket (env : PacketEnvironment D) (r : RunningReceiver D) (packet : RawPacket) :
    PacketM D Unit :=
  match r.routeDevice with
  | none => pure ()
  | some routeDevice => do
      let ok ← sendPacket env routeDevice packet
      exitIf (ok = false)
        ("PcapReceiver: failed to forward packet from '" ++ env.name r.device ++ "' to '" ++
          env.name routeDevice ++ "'")

def recordPacket (env : PacketEnvironment D) (r : RunningReceiver D) (packet : RawPacket)
    (info : PacketInfo) : PacketM D Unit :=
  if r.recordPackets then do
    exitIf (r.store = false) "PcapReceiver: packet recording enabled without a packet store"
    storePacket env { info with dataHex := hexEncode packet.data info.length }
  else pure ()

def processPacket (env : PacketEnvironment D) (r : RunningReceiver D) (packet : RawPacket) :
    PacketM D Unit := do
  let info := packetInfo env r packet
  if r.debugPackets then note (.debug (debugText env r info))
  forwardPacket env r packet
  recordPacket env r packet info

/-- The handlers of `onPacketArrives`. -/
def reportPacket (env : PacketEnvironment D) (r : RunningReceiver D) :
    Except String Unit → PacketM D Unit
  | .ok () => pure ()
  | .error what =>
      note (.error ("PcapReceiver: exception while processing packet on '" ++
        env.name r.device ++ "': " ++ what))

def onPacketArrives (env : PacketEnvironment D) (r : RunningReceiver D) (packet : RawPacket) :
    PacketM D Unit := do
  let result ← attempt (processPacket env r packet)
  reportPacket env r result

/-- The packets of a capture, one after the other. -/
def onPackets (env : PacketEnvironment D) (r : RunningReceiver D) : List RawPacket → PacketM D Unit
  | [] => pure ()
  | packet :: rest => do
      onPacketArrives env r packet
      onPackets env r rest

end ElephantShrew.Capture
