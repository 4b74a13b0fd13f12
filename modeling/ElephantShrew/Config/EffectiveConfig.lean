import ElephantShrew.Config.RuntimeConfig

/-!
# The effective configuration

The command line of `ElephantShrewMain.cpp` and what it makes of the file: the
arguments, the route specification, and the flags merged over the options
loaded.  Last the option checks in the constructor of `RedisPacketStore`.
-/

namespace ElephantShrew.Config

open ElephantShrew.Verified.Checked

structure CliOptions where
  configPath : Option String := none
  ifaces : List String := []
  routeSpec : Option String := none
  recordPackets : Bool := false
  debugPackets : Bool := false
  bidirectionalRoute : Bool := false
  scanOnly : Bool := false
  deriving DecidableEq, Repr

/-! ## The route specification -/

/-- `std::string::find`: where `pattern` first stands in the text. -/
def find (pattern : List Char) : List Char → Option Nat
  | [] => if pattern = [] then some 0 else none
  | c :: text =>
      if pattern.isPrefixOf (c :: text) then some 0
      else (find pattern text).map (· + 1)

/-- The position and the size of the separator. -/
def findSeparator (routeSpec : List Char) : Option (Nat × Nat) :=
  match find ['-', '>'] routeSpec with
  | some pos => some (pos, 2)
  | none =>
      match find [':'] routeSpec with
      | some pos => some (pos, 1)
      | none => (find [','] routeSpec).map fun pos => (pos, 1)

/-- The names on the two sides, if both are there. -/
def parseRouteSpec (routeSpec : String) : Option (String × String) :=
  match findSeparator routeSpec.toList with
  | none => none
  | some (pos, size) =>
      let ingressIface := String.ofList (routeSpec.toList.take pos)
      let egressIface := String.ofList (routeSpec.toList.drop (pos + size))
      if ingressIface ≠ "" ∧ egressIface ≠ "" then some (ingressIface, egressIface) else none

/-! ## The command line -/

def missingValue (arg : String) : Except String CliOptions :=
  .error ("Missing value for '" ++ arg ++ "'")

/-- The loop over the arguments.  What is logged stands for the `false` returned. -/
def readArguments : List String → CliOptions → Except String CliOptions
  | [], options => .ok options
  | arg :: rest, options =>
      if arg = "-c" then
        match rest with
        | [] => missingValue arg
        | value :: rest => readArguments rest { options with configPath := some value }
      else if arg = "-i" then
        match rest with
        | [] => missingValue arg
        | value :: rest => readArguments rest { options with ifaces := options.ifaces ++ [value] }
      else if arg = "--route" then
        match rest with
        | [] => missingValue arg
        | value :: rest => readArguments rest { options with routeSpec := some value }
      else if arg = "--bidirectional" then
        readArguments rest { options with bidirectionalRoute := true }
      else if arg = "-s" then readArguments rest { options with scanOnly := true }
      else if arg = "-r" then readArguments rest { options with recordPackets := true }
      else if arg = "-d" then readArguments rest { options with debugPackets := true }
      else .error ("Unknown argument '" ++ arg ++ "'")

def checkArguments (options : CliOptions) : Except String CliOptions := do
  rejectIf (options.scanOnly = true ∧
      (options.ifaces ≠ [] ∨ options.routeSpec.isSome ∨ options.recordPackets = true ∨
        options.debugPackets = true ∨ options.bidirectionalRoute = true))
    "'-s' cannot be combined with capture flags"
  rejectIf (options.routeSpec.isSome ∧ options.ifaces ≠ [])
    "'-i' cannot be combined with '--route'"
  rejectIf (options.bidirectionalRoute = true ∧ ¬options.routeSpec.isSome)
    "'--bidirectional' requires '--route'"
  return options

/-- The first argument is the name of the program. -/
def parseArguments (argv : List String) : Except String CliOptions := do
  let options ← readArguments (argv.drop 1) {}
  checkArguments options

/-! ## The options in effect -/

variable {J : Type}

/-- The file, when one is named. -/
def loadFile (lib : JsonLibrary J) (files : Files J) (options : CliOptions) :
    Except String RuntimeConfig :=
  match options.configPath with
  | none => .ok {}
  | some path => loadRuntimeConfigFromJson lib files path

/-- `-i`, `-r` and `-d` over what the file says. -/
def CliOptions.capture (options : CliOptions) (o : CaptureOptions) : CaptureOptions where
  ifaces := if options.ifaces ≠ [] then options.ifaces else o.ifaces
  recordPackets := if options.recordPackets then true else o.recordPackets
  debugPackets := if options.debugPackets then true else o.debugPackets

/-- `--route` over what the file says. -/
def applyRoute (options : CliOptions) (config : RuntimeConfig) : Except String RuntimeConfig :=
  match options.routeSpec with
  | none => .ok config
  | some spec =>
      match parseRouteSpec spec with
      | none =>
          .error ("Invalid '--route' value '" ++ spec ++
            "'. Expected '<ingress>:<egress>', '<ingress>-><egress>', or '<ingress>,<egress>'")
      | some (ingressIface, egressIface) =>
          .ok { config with
            routing := { config.routing with enabled := true, ingressIface, egressIface }
            capture := { config.capture with ifaces := [] } }

def applyBidirectional (options : CliOptions) (config : RuntimeConfig) : RuntimeConfig :=
  if options.bidirectionalRoute then
    { config with routing := { config.routing with bidirectional := true } }
  else config

def loadEffectiveConfig (lib : JsonLibrary J) (files : Files J) (options : CliOptions) :
    Except String RuntimeConfig := do
  let config ← loadFile lib files options
  let config ← applyRoute options { config with capture := options.capture config.capture }
  let config := applyBidirectional options config
  rejectIf (config.routing.enabled = true ∧ options.ifaces ≠ [])
    "'-i' cannot be combined with interface routing"
  return config

/-- The head of the constructor of `RedisPacketStore`. -/
def checkStoreOptions (options : RedisStoreOptions) : Except String Unit := do
  rejectIf (options.host = "") "RedisPacketStore: host must not be empty"
  rejectIf (options.port = "") "RedisPacketStore: port must not be empty"
  rejectIf (options.streamKey = "") "RedisPacketStore: stream_key must not be empty"
  rejectIf (options.maxPendingWrites = 0)
    "RedisPacketStore: max_pending_writes must be greater than 0"
  rejectIf (options.connectTimeoutMs = 0)
    "RedisPacketStore: connect_timeout_ms must be greater than 0"
  rejectIf (options.drainTimeoutMs = 0)
    "RedisPacketStore: drain_timeout_ms must be greater than 0"

end ElephantShrew.Config
