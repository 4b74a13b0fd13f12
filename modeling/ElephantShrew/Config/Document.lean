import Mathlib.Data.List.Basic
import ElephantShrew.Config.RuntimeConfig

/-!
# What a document says

A document is accepted or refused for what its keys hold, and the options come
from those keys alone.  The lookups of a group of keys are a function of the
key; from them this file says which conversions a document needs, what the
settings are, and when `LoadRuntimeConfigFromJson` returns.
-/

namespace ElephantShrew.Config

open ElephantShrew.Verified.Checked

variable {J : Type}

/-! ## Valid options -/

/-- Routing, when it is on, joins two interfaces. -/
def RoutingOptions.Valid (o : RoutingOptions) : Prop :=
  o.enabled = true → o.ingressIface ≠ "" ∧ o.egressIface ≠ "" ∧ o.ingressIface ≠ o.egressIface

structure RedisStoreOptions.Valid (o : RedisStoreOptions) : Prop where
  host : o.host ≠ ""
  port : o.port ≠ ""
  streamKey : o.streamKey ≠ ""
  maxPendingWrites : 0 < o.maxPendingWrites
  connectTimeoutMs : 0 < o.connectTimeoutMs
  drainTimeoutMs : 0 < o.drainTimeoutMs

structure SupervisorOptions.Valid (o : SupervisorOptions) : Prop where
  restartDelayMs : 0 < o.restartDelayMs
  pollIntervalMs : 0 < o.pollIntervalMs

structure RuntimeConfig.Valid (c : RuntimeConfig) : Prop where
  routing : c.routing.Valid
  redis : c.redis.Valid
  supervisor : c.supervisor.Valid

/-- The defaults pass every check. -/
theorem RuntimeConfig.valid_default : ({} : RuntimeConfig).Valid where
  routing := nofun
  redis := by constructor <;> decide
  supervisor := by constructor <;> decide

/-! ## The keys of a group -/

/-- A key is absent, or it converts. -/
def Reads {T : Type} (get : J → Except String T) (it : Option J) : Prop :=
  ∀ j, it = some j → ∃ v, get j = .ok v

/-- What a key gives, over a default. -/
def valueOr {T : Type} (get : J → Except String T) (it : Option J) (value : T) : T :=
  match it with
  | none => value
  | some j => (get j).toOption.getD value

/-- The value of `group.key`, if the document gives one. -/
def entry (lib : JsonLibrary J) (root : J) (group key : String) : Option J :=
  (lib.find root group).bind fun object => lib.find object key

/-- The keys read from a group, by the type they convert to. -/
structure Keys where
  name : String
  bools : List String := []
  strings : List String := []
  numbers : List String := []
  lists : List String := []

def captureKeys : Keys where
  name := "capture"
  bools := ["record_packets", "debug_packets"]
  lists := ["interfaces", "ifaces"]

def redisKeys : Keys where
  name := "redis"
  strings := ["host", "port", "stream_key"]
  numbers := ["max_pending_writes", "connect_timeout_ms", "drain_timeout_ms"]

def routingKeys : Keys where
  name := "routing"
  bools := ["enabled", "bidirectional"]
  strings := ["ingress_iface", "egress_iface", "from_interface", "to_interface"]

def supervisorKeys : Keys where
  name := "supervisor"
  numbers := ["restart_delay_ms", "poll_interval_ms"]

def uiKeys : Keys where
  name := "ui"
  bools := ["show_startup_art"]

/-- Every key of the group that is there converts. -/
structure Keys.Convert (lib : JsonLibrary J) (keys : Keys) (find : String → Option J) : Prop where
  bools : ∀ key ∈ keys.bools, Reads lib.getBool (find key)
  strings : ∀ key ∈ keys.strings, Reads lib.getString (find key)
  numbers : ∀ key ∈ keys.numbers, Reads lib.getUInt64 (find key)
  lists : ∀ key ∈ keys.lists, Reads lib.getStrings (find key)

/-- The group is absent, or an object whose keys convert. -/
structure Keys.WellTyped (lib : JsonLibrary J) (root : J) (keys : Keys) : Prop where
  isObject : ∀ it, lib.find root keys.name = some it → lib.isObject it = true
  convert : keys.Convert lib (entry lib root keys.name)

/-- Every group that is read is well typed. -/
def WellTyped (lib : JsonLibrary J) (root : J) : Prop :=
  ∀ keys ∈ [captureKeys, redisKeys, routingKeys, supervisorKeys, uiKeys],
    keys.WellTyped lib root

/-! ## The settings of a document -/

def captureOf (lib : JsonLibrary J) (find : String → Option J) : CaptureOptions where
  ifaces := valueOr lib.getStrings (find "ifaces") (valueOr lib.getStrings (find "interfaces") [])
  recordPackets := valueOr lib.getBool (find "record_packets") false
  debugPackets := valueOr lib.getBool (find "debug_packets") false

def redisOf (lib : JsonLibrary J) (find : String → Option J) : RedisStoreOptions where
  host := valueOr lib.getString (find "host") "127.0.0.1"
  port := valueOr lib.getString (find "port") "6379"
  streamKey := valueOr lib.getString (find "stream_key") "elephantshrew:packets"
  maxPendingWrites := valueOr lib.getUInt64 (find "max_pending_writes") 1024
  connectTimeoutMs := valueOr lib.getUInt64 (find "connect_timeout_ms") 5000
  drainTimeoutMs := valueOr lib.getUInt64 (find "drain_timeout_ms") 5000

def routingOf (lib : JsonLibrary J) (find : String → Option J) : RoutingOptions where
  enabled := valueOr lib.getBool (find "enabled") false
  ingressIface :=
    valueOr lib.getString (find "from_interface") (valueOr lib.getString (find "ingress_iface") "")
  egressIface :=
    valueOr lib.getString (find "to_interface") (valueOr lib.getString (find "egress_iface") "")
  bidirectional := valueOr lib.getBool (find "bidirectional") false

def supervisorOf (lib : JsonLibrary J) (find : String → Option J) : SupervisorOptions where
  restartDelayMs := valueOr lib.getUInt64 (find "restart_delay_ms") 2000
  pollIntervalMs := valueOr lib.getUInt64 (find "poll_interval_ms") 200

def uiOf (lib : JsonLibrary J) (find : String → Option J) : UiOptions where
  showStartupArt := valueOr lib.getBool (find "show_startup_art") true

/-- The options a document asks for. -/
def settingsOf (lib : JsonLibrary J) (root : J) : RuntimeConfig where
  capture := captureOf lib (entry lib root "capture")
  routing := routingOf lib (entry lib root "routing")
  redis := redisOf lib (entry lib root "redis")
  supervisor := supervisorOf lib (entry lib root "supervisor")
  ui := uiOf lib (entry lib root "ui")

/-! ## Reading returns the settings -/

@[simp] theorem reads_none {T : Type} (get : J → Except String T) : Reads get none := by
  intro j hj
  cases hj

theorem reads_some {T : Type} {get : J → Except String T} {j : J} :
    Reads get (some j) ↔ ∃ v, get j = .ok v := by
  simp [Reads]

theorem readValue_eq_ok {T : Type} {lib : JsonLibrary J} {get : J → Except String T} {object : J}
    {group key : String} {value v : T} :
    readValue lib get object group key value = .ok v ↔
      Reads get (lib.find object key) ∧ valueOr get (lib.find object key) value = v := by
  unfold readValue
  cases hfind : lib.find object key with
  | none => simp [valueOr]
  | some j => cases hget : get j <;> simp [reads_some, valueOr, hget, Except.toOption]

theorem readCapture_eq_ok {lib : JsonLibrary J} {object : J} {o : CaptureOptions} :
    readCapture lib object {} = .ok o ↔
      captureKeys.Convert lib (lib.find object) ∧ captureOf lib (lib.find object) = o := by
  simp only [readCapture, bind_eq_ok, readValue_eq_ok, pure_eq_ok]
  constructor
  · intro hall
    obtain ⟨_, ⟨h1, rfl⟩, _, ⟨h2, rfl⟩, _, ⟨h3, rfl⟩, _, ⟨h4, rfl⟩, rfl⟩ := hall
    exact ⟨by constructor <;> simp [captureKeys, *], rfl⟩
  · intro hall
    obtain ⟨h, rfl⟩ := hall
    have hb := h.bools
    have hl := h.lists
    simp only [captureKeys, List.forall_mem_cons] at hb hl
    exact ⟨_, ⟨hl.1, rfl⟩, _, ⟨hl.2.1, rfl⟩, _, ⟨hb.1, rfl⟩, _, ⟨hb.2.1, rfl⟩, rfl⟩

theorem readRedis_eq_ok {lib : JsonLibrary J} {object : J} {o : RedisStoreOptions} :
    readRedis lib object {} = .ok o ↔
      redisKeys.Convert lib (lib.find object) ∧ redisOf lib (lib.find object) = o := by
  simp only [readRedis, bind_eq_ok, readValue_eq_ok, pure_eq_ok]
  constructor
  · intro hall
    obtain ⟨_, ⟨h1, rfl⟩, _, ⟨h2, rfl⟩, _, ⟨h3, rfl⟩, _, ⟨h4, rfl⟩, _, ⟨h5, rfl⟩, _, ⟨h6, rfl⟩,
      rfl⟩ := hall
    exact ⟨by constructor <;> simp [redisKeys, *], rfl⟩
  · intro hall
    obtain ⟨h, rfl⟩ := hall
    have hs := h.strings
    have hn := h.numbers
    simp only [redisKeys, List.forall_mem_cons] at hs hn
    exact ⟨_, ⟨hs.1, rfl⟩, _, ⟨hs.2.1, rfl⟩, _, ⟨hs.2.2.1, rfl⟩, _, ⟨hn.1, rfl⟩, _, ⟨hn.2.1, rfl⟩,
      _, ⟨hn.2.2.1, rfl⟩, rfl⟩

theorem readRouting_eq_ok {lib : JsonLibrary J} {object : J} {o : RoutingOptions} :
    readRouting lib object {} = .ok o ↔
      routingKeys.Convert lib (lib.find object) ∧ routingOf lib (lib.find object) = o := by
  simp only [readRouting, bind_eq_ok, readValue_eq_ok, pure_eq_ok]
  constructor
  · intro hall
    obtain ⟨_, ⟨h1, rfl⟩, _, ⟨h2, rfl⟩, _, ⟨h3, rfl⟩, _, ⟨h4, rfl⟩, _, ⟨h5, rfl⟩, _, ⟨h6, rfl⟩,
      rfl⟩ := hall
    exact ⟨by constructor <;> simp [routingKeys, *], rfl⟩
  · intro hall
    obtain ⟨h, rfl⟩ := hall
    have hb := h.bools
    have hs := h.strings
    simp only [routingKeys, List.forall_mem_cons] at hb hs
    exact ⟨_, ⟨hb.1, rfl⟩, _, ⟨hs.1, rfl⟩, _, ⟨hs.2.1, rfl⟩, _, ⟨hs.2.2.1, rfl⟩,
      _, ⟨hs.2.2.2.1, rfl⟩, _, ⟨hb.2.1, rfl⟩, rfl⟩

theorem readSupervisor_eq_ok {lib : JsonLibrary J} {object : J} {o : SupervisorOptions} :
    readSupervisor lib object {} = .ok o ↔
      supervisorKeys.Convert lib (lib.find object) ∧ supervisorOf lib (lib.find object) = o := by
  simp only [readSupervisor, bind_eq_ok, readValue_eq_ok, pure_eq_ok]
  constructor
  · intro hall
    obtain ⟨_, ⟨h1, rfl⟩, _, ⟨h2, rfl⟩, rfl⟩ := hall
    exact ⟨by constructor <;> simp [supervisorKeys, *], rfl⟩
  · intro hall
    obtain ⟨h, rfl⟩ := hall
    have hn := h.numbers
    simp only [supervisorKeys, List.forall_mem_cons] at hn
    exact ⟨_, ⟨hn.1, rfl⟩, _, ⟨hn.2.1, rfl⟩, rfl⟩

theorem readUi_eq_ok {lib : JsonLibrary J} {object : J} {o : UiOptions} :
    readUi lib object {} = .ok o ↔
      uiKeys.Convert lib (lib.find object) ∧ uiOf lib (lib.find object) = o := by
  simp only [readUi, bind_eq_ok, readValue_eq_ok, pure_eq_ok]
  constructor
  · intro hall
    obtain ⟨_, ⟨h1, rfl⟩, rfl⟩ := hall
    exact ⟨by constructor <;> simp [uiKeys, *], rfl⟩
  · intro hall
    obtain ⟨h, rfl⟩ := hall
    have hb := h.bools
    simp only [uiKeys, List.forall_mem_cons] at hb
    exact ⟨_, ⟨hb.1, rfl⟩, rfl⟩

/-- Nothing needs converting in a group that is not there. -/
theorem Keys.convert_absent (lib : JsonLibrary J) (keys : Keys) :
    keys.Convert lib fun _ => none := by
  constructor <;> intro key _ <;> exact reads_none _

/-- A group is read when it is well typed, and gives what its keys say. -/
theorem readGroup_eq_ok {S : Type} {lib : JsonLibrary J} {root : J} (keys : Keys)
    {read : J → S → Except String S} {options : S} {of : (String → Option J) → S}
    (hread : ∀ object o, read object options = .ok o ↔
      keys.Convert lib (lib.find object) ∧ of (lib.find object) = o)
    (habsent : of (fun _ => none) = options) {o : S} :
    readGroup lib root keys.name read options = .ok o ↔
      keys.WellTyped lib root ∧ of (entry lib root keys.name) = o := by
  cases hfind : lib.find root keys.name with
  | none =>
      have hentry : entry lib root keys.name = fun _ => none := by
        funext key
        simp [entry, hfind]
      have htyped : keys.WellTyped lib root := by
        constructor
        · intro it hit
          rw [hfind] at hit
          cases hit
        · rw [hentry]
          exact keys.convert_absent lib
      simp only [readGroup, findObject, hfind, hentry, habsent, htyped, bind_eq_ok, true_and]
      simp
  | some object =>
      have hentry : entry lib root keys.name = lib.find object := by
        funext key
        simp [entry, hfind]
      by_cases hobject : lib.isObject object = true
      · have htyped : keys.WellTyped lib root ↔ keys.Convert lib (lib.find object) := by
          rw [← hentry]
          constructor
          · exact Keys.WellTyped.convert
          · intro h
            refine ⟨?_, h⟩
            intro it hit
            rw [hfind, Option.some.injEq] at hit
            rwa [← hit]
        simp [readGroup, findObject, hfind, hobject, hentry, htyped, bind_eq_ok, hread]
      · have htyped : ¬keys.WellTyped lib root := fun h => hobject (h.isObject object hfind)
        simp [readGroup, findObject, hfind, hobject, htyped, bind_eq_ok]

/-- **A document is read exactly when it is well typed**, and the options read
are the settings it asks for. -/
theorem readSettings_eq_ok {lib : JsonLibrary J} {root : J} {config : RuntimeConfig} :
    readSettings lib root = .ok config ↔ WellTyped lib root ∧ settingsOf lib root = config := by
  have hcapture : ∀ o, readGroup lib root "capture" (readCapture lib) {} = .ok o ↔
      captureKeys.WellTyped lib root ∧ captureOf lib (entry lib root "capture") = o :=
    fun _ => readGroup_eq_ok captureKeys (fun _ _ => readCapture_eq_ok) rfl
  have hredis : ∀ o, readGroup lib root "redis" (readRedis lib) {} = .ok o ↔
      redisKeys.WellTyped lib root ∧ redisOf lib (entry lib root "redis") = o :=
    fun _ => readGroup_eq_ok redisKeys (fun _ _ => readRedis_eq_ok) rfl
  have hrouting : ∀ o, readGroup lib root "routing" (readRouting lib) {} = .ok o ↔
      routingKeys.WellTyped lib root ∧ routingOf lib (entry lib root "routing") = o :=
    fun _ => readGroup_eq_ok routingKeys (fun _ _ => readRouting_eq_ok) rfl
  have hsupervisor : ∀ o, readGroup lib root "supervisor" (readSupervisor lib) {} = .ok o ↔
      supervisorKeys.WellTyped lib root ∧ supervisorOf lib (entry lib root "supervisor") = o :=
    fun _ => readGroup_eq_ok supervisorKeys (fun _ _ => readSupervisor_eq_ok) rfl
  have hui : ∀ o, readGroup lib root "ui" (readUi lib) {} = .ok o ↔
      uiKeys.WellTyped lib root ∧ uiOf lib (entry lib root "ui") = o :=
    fun _ => readGroup_eq_ok uiKeys (fun _ _ => readUi_eq_ok) rfl
  simp only [readSettings, bind_eq_ok, pure_eq_ok, hcapture, hredis, hrouting, hsupervisor, hui]
  constructor
  · intro hall
    obtain ⟨_, ⟨h1, rfl⟩, _, ⟨h2, rfl⟩, _, ⟨h3, rfl⟩, _, ⟨h4, rfl⟩, _, ⟨h5, rfl⟩, rfl⟩ := hall
    exact ⟨by simp [WellTyped, *], rfl⟩
  · intro hall
    obtain ⟨h, rfl⟩ := hall
    simp only [WellTyped, List.forall_mem_cons] at h
    exact ⟨_, ⟨h.1, rfl⟩, _, ⟨h.2.1, rfl⟩, _, ⟨h.2.2.1, rfl⟩, _, ⟨h.2.2.2.1, rfl⟩,
      _, ⟨h.2.2.2.2.1, rfl⟩, rfl⟩

/-! ## Accepted documents -/

theorem requireNonEmpty_eq_ok {key value : String} {u : Unit} :
    requireNonEmpty key value = .ok u ↔ value ≠ "" :=
  rejectIf_eq_ok

theorem requirePositive_eq_ok {key : String} {value : UInt64} {u : Unit} :
    requirePositive key value = .ok u ↔ 0 < value := by
  rw [UInt64.pos_iff_ne_zero]
  exact rejectIf_eq_ok

theorem checkRouting_eq_ok {routing : RoutingOptions} {u : Unit} :
    checkRouting routing = .ok u ↔ routing.Valid := by
  by_cases henabled : routing.enabled = true
  · simp [checkRouting, RoutingOptions.Valid, henabled, bind_eq_ok, requireNonEmpty_eq_ok]
  · simp [checkRouting, RoutingOptions.Valid, henabled]

theorem checkSettings_eq_ok {s config : RuntimeConfig} :
    checkSettings s = .ok config ↔
      (s.redis.Valid ∧ s.supervisor.Valid ∧ s.routing.infer.Valid) ∧
        { s with routing := s.routing.infer } = config := by
  simp only [checkSettings, bind_eq_ok, requireNonEmpty_eq_ok, requirePositive_eq_ok,
    checkRouting_eq_ok, pure_eq_ok]
  constructor
  · intro hall
    obtain ⟨_, h1, _, h2, _, h3, _, h4, _, h5, _, h6, _, h7, _, h8, _, h9, rfl⟩ := hall
    exact ⟨⟨⟨h1, h2, h3, h5, h6, h7⟩, ⟨h8, h9⟩, h4⟩, rfl⟩
  · intro hall
    obtain ⟨⟨hr, hs, hrouting⟩, rfl⟩ := hall
    exact ⟨(), hr.host, (), hr.port, (), hr.streamKey, (), hrouting, (), hr.maxPendingWrites,
      (), hr.connectTimeoutMs, (), hr.drainTimeoutMs, (), hs.restartDelayMs,
      (), hs.pollIntervalMs, rfl⟩

/-- The file holds this document, and it is an object. -/
structure Holds (lib : JsonLibrary J) (files : Files J) (path : String) (root : J) : Prop where
  opens : files path = some (.ok root)
  isObject : lib.isObject root = true

theorem openRoot_eq_ok {lib : JsonLibrary J} {files : Files J} {path : String} {root : J} :
    openRoot lib files path = .ok root ↔ Holds lib files path root := by
  unfold openRoot
  constructor
  · intro h
    split at h
    · cases h
    · cases h
    · rename_i root' hopens
      split at h
      · cases h
        constructor <;> assumption
      · cases h
  · intro h
    rw [h.opens]
    simp [h.isObject]

/-- What a document must satisfy apart from its interface names: its keys
convert, the Redis names are given and the numbers are positive. -/
structure Settled (lib : JsonLibrary J) (root : J) : Prop where
  wellTyped : WellTyped lib root
  redis : (settingsOf lib root).redis.Valid
  supervisor : (settingsOf lib root).supervisor.Valid

/-- **A document is accepted exactly when** it is an object that is settled and
whose routing, once the switch is inferred, joins two interfaces. -/
theorem loadRuntimeConfigFromJson_eq_ok {lib : JsonLibrary J} {files : Files J} {path : String}
    {config : RuntimeConfig} :
    loadRuntimeConfigFromJson lib files path = .ok config ↔
      ∃ root, Holds lib files path root ∧ Settled lib root ∧
        (settingsOf lib root).routing.infer.Valid ∧
        { settingsOf lib root with routing := (settingsOf lib root).routing.infer } = config := by
  simp only [loadRuntimeConfigFromJson, bind_eq_ok, openRoot_eq_ok, readSettings_eq_ok,
    checkSettings_eq_ok]
  constructor
  · intro hall
    obtain ⟨root, hroot, _, ⟨htyped, rfl⟩, ⟨hredis, hsupervisor, hrouting⟩, hconfig⟩ := hall
    exact ⟨root, hroot, ⟨htyped, hredis, hsupervisor⟩, hrouting, hconfig⟩
  · intro hall
    obtain ⟨root, hroot, hsettled, hrouting, hconfig⟩ := hall
    exact ⟨root, hroot, _, ⟨hsettled.wellTyped, rfl⟩,
      ⟨hsettled.redis, hsettled.supervisor, hrouting⟩, hconfig⟩

/-- What an accepted document gives. -/
theorem Holds.accepted {lib : JsonLibrary J} {files : Files J} {path : String} {root : J}
    (hroot : Holds lib files path root) {config : RuntimeConfig}
    (h : loadRuntimeConfigFromJson lib files path = .ok config) :
    Settled lib root ∧ { settingsOf lib root with
      routing := (settingsOf lib root).routing.infer } = config := by
  obtain ⟨root', hroot', hsettled, _, hconfig⟩ := loadRuntimeConfigFromJson_eq_ok.mp h
  have hsame : root' = root := by
    have hopens := hroot'.opens.symm.trans hroot.opens
    simpa using hopens
  subst hsame
  exact ⟨hsettled, hconfig⟩

/-- What `LoadRuntimeConfigFromJson` returns passes every check. -/
theorem loadRuntimeConfigFromJson_valid {lib : JsonLibrary J} {files : Files J} {path : String}
    {config : RuntimeConfig} (h : loadRuntimeConfigFromJson lib files path = .ok config) :
    config.Valid := by
  obtain ⟨root, _, hsettled, hrouting, rfl⟩ := loadRuntimeConfigFromJson_eq_ok.mp h
  exact ⟨hrouting, hsettled.redis, hsettled.supervisor⟩

end ElephantShrew.Config
