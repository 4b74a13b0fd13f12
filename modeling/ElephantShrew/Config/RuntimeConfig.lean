import ElephantShrew.Verified.Checked

/-!
# The runtime configuration

`RuntimeConfig.cpp`: the options and their defaults, and
`LoadRuntimeConfigFromJson`, which reads a document over the defaults, checks
the Redis names, infers the routing switch and then checks the rest.  The JSON
library is a parameter: what a value is and how it converts is its business.
A string is a string of bytes, one character for each byte.
-/

namespace ElephantShrew.Config

open ElephantShrew.Verified.Checked

structure CaptureOptions where
  ifaces : List String := []
  recordPackets : Bool := false
  debugPackets : Bool := false
  deriving DecidableEq, Repr

structure RoutingOptions where
  enabled : Bool := false
  ingressIface : String := ""
  egressIface : String := ""
  bidirectional : Bool := false
  deriving DecidableEq, Repr

structure RedisStoreOptions where
  host : String := "127.0.0.1"
  port : String := "6379"
  streamKey : String := "elephantshrew:packets"
  maxPendingWrites : UInt64 := 1024
  connectTimeoutMs : UInt64 := 5000
  drainTimeoutMs : UInt64 := 5000
  deriving DecidableEq, Repr

structure SupervisorOptions where
  restartDelayMs : UInt64 := 2000
  pollIntervalMs : UInt64 := 200
  deriving DecidableEq, Repr

structure UiOptions where
  showStartupArt : Bool := true
  deriving DecidableEq, Repr

structure RuntimeConfig where
  capture : CaptureOptions := {}
  routing : RoutingOptions := {}
  redis : RedisStoreOptions := {}
  supervisor : SupervisorOptions := {}
  ui : UiOptions := {}
  deriving DecidableEq, Repr

/-- What is used of the JSON library: `is_object`, `find`, and `get` at the four
types read.  A conversion that throws gives the text of its exception. -/
structure JsonLibrary (J : Type) where
  isObject : J → Bool
  find : J → String → Option J
  getBool : J → Except String Bool
  getString : J → Except String String
  getUInt64 : J → Except String UInt64
  getStrings : J → Except String (List String)

/-- What opening a path gives: nothing, or what the parser makes of the text. -/
abbrev Files (J : Type) := String → Option (Except String J)

variable {J : Type}

/-! ## Reading a document -/

def findObject (lib : JsonLibrary J) (parent : J) (key : String) : Except String (Option J) :=
  match lib.find parent key with
  | none => .ok none
  | some it =>
      if lib.isObject it then .ok (some it)
      else .error ("Invalid '" ++ key ++ "': expected object")

/-- `value` is what the field holds before, and keeps when the key is absent. -/
def readValue {T : Type} (lib : JsonLibrary J) (get : J → Except String T) (object : J)
    (group key : String) (value : T) : Except String T :=
  match lib.find object key with
  | none => .ok value
  | some it =>
      match get it with
      | .ok v => .ok v
      | .error what => .error ("Invalid '" ++ group ++ "." ++ key ++ "': " ++ what)

/-- One `if (const auto* … = FindObject(root, key))` block. -/
def readGroup {S : Type} (lib : JsonLibrary J) (root : J) (key : String)
    (read : J → S → Except String S) (options : S) : Except String S := do
  match ← findObject lib root key with
  | none => .ok options
  | some object => read object options

def readCapture (lib : JsonLibrary J) (capture : J) (o : CaptureOptions) :
    Except String CaptureOptions := do
  let ifaces ← readValue lib lib.getStrings capture "capture" "interfaces" o.ifaces
  let ifaces ← readValue lib lib.getStrings capture "capture" "ifaces" ifaces
  let recordPackets ←
    readValue lib lib.getBool capture "capture" "record_packets" o.recordPackets
  let debugPackets ← readValue lib lib.getBool capture "capture" "debug_packets" o.debugPackets
  return { ifaces, recordPackets, debugPackets }

def readRedis (lib : JsonLibrary J) (redis : J) (o : RedisStoreOptions) :
    Except String RedisStoreOptions := do
  let host ← readValue lib lib.getString redis "redis" "host" o.host
  let port ← readValue lib lib.getString redis "redis" "port" o.port
  let streamKey ← readValue lib lib.getString redis "redis" "stream_key" o.streamKey
  let maxPendingWrites ←
    readValue lib lib.getUInt64 redis "redis" "max_pending_writes" o.maxPendingWrites
  let connectTimeoutMs ←
    readValue lib lib.getUInt64 redis "redis" "connect_timeout_ms" o.connectTimeoutMs
  let drainTimeoutMs ←
    readValue lib lib.getUInt64 redis "redis" "drain_timeout_ms" o.drainTimeoutMs
  return { host, port, streamKey, maxPendingWrites, connectTimeoutMs, drainTimeoutMs }

def readRouting (lib : JsonLibrary J) (routing : J) (o : RoutingOptions) :
    Except String RoutingOptions := do
  let enabled ← readValue lib lib.getBool routing "routing" "enabled" o.enabled
  let ingressIface ←
    readValue lib lib.getString routing "routing" "ingress_iface" o.ingressIface
  let egressIface ← readValue lib lib.getString routing "routing" "egress_iface" o.egressIface
  -- the second spelling of each name, read over the first
  let ingressIface ←
    readValue lib lib.getString routing "routing" "from_interface" ingressIface
  let egressIface ← readValue lib lib.getString routing "routing" "to_interface" egressIface
  let bidirectional ←
    readValue lib lib.getBool routing "routing" "bidirectional" o.bidirectional
  return { enabled, ingressIface, egressIface, bidirectional }

def readSupervisor (lib : JsonLibrary J) (supervisor : J) (o : SupervisorOptions) :
    Except String SupervisorOptions := do
  let restartDelayMs ←
    readValue lib lib.getUInt64 supervisor "supervisor" "restart_delay_ms" o.restartDelayMs
  let pollIntervalMs ←
    readValue lib lib.getUInt64 supervisor "supervisor" "poll_interval_ms" o.pollIntervalMs
  return { restartDelayMs, pollIntervalMs }

def readUi (lib : JsonLibrary J) (ui : J) (o : UiOptions) : Except String UiOptions := do
  let showStartupArt ← readValue lib lib.getBool ui "ui" "show_startup_art" o.showStartupArt
  return { showStartupArt }

/-- The document, read over the defaults. -/
def readSettings (lib : JsonLibrary J) (root : J) : Except String RuntimeConfig := do
  let capture ← readGroup lib root "capture" (readCapture lib) {}
  let redis ← readGroup lib root "redis" (readRedis lib) {}
  let routing ← readGroup lib root "routing" (readRouting lib) {}
  let supervisor ← readGroup lib root "supervisor" (readSupervisor lib) {}
  let ui ← readGroup lib root "ui" (readUi lib) {}
  return { capture, routing, redis, supervisor, ui }

/-! ## Checking what was read -/

def requireNonEmpty (key value : String) : Except String Unit :=
  rejectIf (value = "") ("Invalid '" ++ key ++ "': value must not be empty")

def requirePositive (key : String) (value : UInt64) : Except String Unit :=
  rejectIf (value = 0) ("Invalid '" ++ key ++ "': value must be greater than 0")

/-- An interface name switches routing on. -/
def RoutingOptions.infer (routing : RoutingOptions) : RoutingOptions :=
  if routing.ingressIface ≠ "" ∨ routing.egressIface ≠ "" then { routing with enabled := true }
  else routing

def checkRouting (routing : RoutingOptions) : Except String Unit :=
  if routing.enabled then do
    requireNonEmpty "routing.ingress_iface" routing.ingressIface
    requireNonEmpty "routing.egress_iface" routing.egressIface
    rejectIf (routing.ingressIface = routing.egressIface)
      "Invalid routing configuration: ingress and egress interfaces must be different"
  else .ok ()

/-- The checks on what was read, and between them the inference of the switch. -/
def checkSettings (config : RuntimeConfig) : Except String RuntimeConfig := do
  requireNonEmpty "redis.host" config.redis.host
  requireNonEmpty "redis.port" config.redis.port
  requireNonEmpty "redis.stream_key" config.redis.streamKey
  let routing := config.routing.infer
  checkRouting routing
  requirePositive "redis.max_pending_writes" config.redis.maxPendingWrites
  requirePositive "redis.connect_timeout_ms" config.redis.connectTimeoutMs
  requirePositive "redis.drain_timeout_ms" config.redis.drainTimeoutMs
  requirePositive "supervisor.restart_delay_ms" config.supervisor.restartDelayMs
  requirePositive "supervisor.poll_interval_ms" config.supervisor.pollIntervalMs
  return { config with routing := routing }

def openRoot (lib : JsonLibrary J) (files : Files J) (path : String) : Except String J :=
  match files path with
  | none => .error ("Failed to open runtime config '" ++ path ++ "'")
  | some (.error what) =>
      .error ("Failed to parse runtime config '" ++ path ++ "': " ++ what)
  | some (.ok root) =>
      if lib.isObject root then .ok root
      else .error ("Runtime config '" ++ path ++ "' must contain a JSON object")

def loadRuntimeConfigFromJson (lib : JsonLibrary J) (files : Files J) (path : String) :
    Except String RuntimeConfig := do
  let root ← openRoot lib files path
  let config ← readSettings lib root
  checkSettings config

end ElephantShrew.Config
