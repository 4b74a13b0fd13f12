import ElephantShrew.Config.ConfigValidity
import Mathlib.Algebra.GroupWithZero.Nat
import Mathlib.Algebra.Ring.Int.Defs

/-!
# The numeric settings

Five settings are numbers, four of them times.  A number is read as an unsigned
one of 64 bits before it is compared with zero, and a time is read as a signed
count of milliseconds where it is used: below zero the first conversion changes
the value, from 2^63 on the second does.
-/

namespace ElephantShrew.Config

open ElephantShrew.Verified.Checked

variable {J : Type} {lib : JsonLibrary J} {integer : J → Option Int} {files : Files J}
  {path : String} {root : J} {config : RuntimeConfig}

inductive NumericSetting where
  | maxPendingWrites
  | connectTimeoutMs
  | drainTimeoutMs
  | restartDelayMs
  | pollIntervalMs
  deriving DecidableEq, Repr

/-- `std::chrono::milliseconds` of an unsigned count. -/
def milliseconds (count : UInt64) : Int64 := count.toInt64

namespace NumericSetting

/-- What the document holds under the setting's key. -/
def find (lib : JsonLibrary J) (root : J) : NumericSetting → Option J
  | maxPendingWrites => entry lib root "redis" "max_pending_writes"
  | connectTimeoutMs => entry lib root "redis" "connect_timeout_ms"
  | drainTimeoutMs => entry lib root "redis" "drain_timeout_ms"
  | restartDelayMs => entry lib root "supervisor" "restart_delay_ms"
  | pollIntervalMs => entry lib root "supervisor" "poll_interval_ms"

/-- What the options hold. -/
def stored (config : RuntimeConfig) : NumericSetting → UInt64
  | maxPendingWrites => config.redis.maxPendingWrites
  | connectTimeoutMs => config.redis.connectTimeoutMs
  | drainTimeoutMs => config.redis.drainTimeoutMs
  | restartDelayMs => config.supervisor.restartDelayMs
  | pollIntervalMs => config.supervisor.pollIntervalMs

/-- The duration that `RedisPacketStore`, for its two timeouts, and `main`, for
the other two times, build. -/
def duration (config : RuntimeConfig) : NumericSetting → Option Int64
  | maxPendingWrites => none
  | s => some (milliseconds (s.stored config))

/-- The first number too large: for the type of the field, or for a duration. -/
def limit : NumericSetting → Int
  | maxPendingWrites => 2 ^ 64
  | _ => 2 ^ 63

end NumericSetting

/-- The document has the integer `v` for the setting. -/
def HasInteger (lib : JsonLibrary J) (integer : J → Option Int) (root : J) (s : NumericSetting)
    (v : Int) : Prop :=
  ∃ it, s.find lib root = some it ∧ integer it = some v

/-- The options `main` runs on when the command line names the file. -/
def InEffect (lib : JsonLibrary J) (files : Files J) (path : String) (config : RuntimeConfig) :
    Prop :=
  ∃ options : CliOptions, options.configPath = some path ∧
    loadEffectiveConfig lib files options = .ok config

/-- No integer the file gives for a setting is changed: one that is not positive
is refused, an accepted one is stored, and its duration is the same number. -/
structure NumbersKept (lib : JsonLibrary J) (integer : J → Option Int) (files : Files J)
    (path : String) : Prop where
  refused : ∀ root s v, Holds lib files path root → HasInteger lib integer root s v → v ≤ 0 →
    ∀ config, loadRuntimeConfigFromJson lib files path ≠ .ok config
  stored : ∀ root s v config, Holds lib files path root → HasInteger lib integer root s v →
    loadRuntimeConfigFromJson lib files path = .ok config → ((s.stored config).toNat : Int) = v
  durations : ∀ root s v config d, Holds lib files path root → HasInteger lib integer root s v →
    InEffect lib files path config → s.duration config = some d → d.toInt = v ∧ 0 < d

/-- A stored integer, of 64 bits with or without a sign, is converted modulo
2^64, without a check of its range. -/
def Casts (lib : JsonLibrary J) (integer : J → Option Int) : Prop :=
  ∀ it v, integer it = some v → -2 ^ 63 ≤ v → v < 2 ^ 64 →
    ∃ n, lib.getUInt64 it = .ok n ∧ (n.toNat : Int) = v % 2 ^ 64

/-- The document passes every check, and has for some setting an integer below
zero or too large. -/
structure Misread (lib : JsonLibrary J) (integer : J → Option Int) (root : J) : Prop where
  settled : Settled lib root
  routing : (settingsOf lib root).routing.infer.Valid
  outOfRange : ∃ s v, HasInteger lib integer root s v ∧ (v < 0 ∨ s.limit ≤ v)

/-! ## The conversions -/

/-- A count below 2^63 is the duration, and a larger one is a negative duration. -/
theorem toInt_milliseconds (count : UInt64) :
    (milliseconds count).toInt =
      if count.toNat < 2 ^ 63 then (count.toNat : Int) else count.toNat - 2 ^ 64 := by
  have hbits : (milliseconds count).toInt = count.toBitVec.toInt := rfl
  have hnat : count.toBitVec.toNat = count.toNat := rfl
  rw [hbits, BitVec.toInt_eq_toNat_cond, hnat]
  split <;> split <;> omega

/-- Whatever the count, the duration is below 2^63. -/
theorem toInt_milliseconds_lt (count : UInt64) : (milliseconds count).toInt < 2 ^ 63 := by
  have hcount := count.toNat_lt
  rw [toInt_milliseconds]
  split <;> omega

namespace NumericSetting

theorem limit_le (s : NumericSetting) : s.limit ≤ 2 ^ 64 := by
  cases s <;> decide

theorem limit_of_duration {s : NumericSetting} {d : Int64} (h : s.duration config = some d) :
    s.limit = 2 ^ 63 ∧ d = milliseconds (s.stored config) := by
  cases s <;> simp_all [duration, limit]

/-- The setting of an accepted document. -/
theorem stored_settingsOf (s : NumericSetting) (lib : JsonLibrary J) (root : J) {it : J}
    {n : UInt64} (hfind : s.find lib root = some it) (hget : lib.getUInt64 it = .ok n) :
    s.stored (settingsOf lib root) = n := by
  cases s <;>
    simp only [find] at hfind <;>
    simp [stored, settingsOf, redisOf, supervisorOf, hfind, valueOr, hget, Except.toOption]

theorem stored_routing (s : NumericSetting) (config : RuntimeConfig) (routing : RoutingOptions) :
    s.stored { config with routing := routing } = s.stored config := by
  cases s <;> rfl

theorem stored_pos (s : NumericSetting) (hredis : config.redis.Valid)
    (hsupervisor : config.supervisor.Valid) : 0 < s.stored config := by
  cases s with
  | maxPendingWrites => exact hredis.maxPendingWrites
  | connectTimeoutMs => exact hredis.connectTimeoutMs
  | drainTimeoutMs => exact hredis.drainTimeoutMs
  | restartDelayMs => exact hsupervisor.restartDelayMs
  | pollIntervalMs => exact hsupervisor.pollIntervalMs

end NumericSetting

/-! ## The options in effect -/

/-- The flags and the route leave the numbers alone. -/
theorem stored_of_inEffect (h : InEffect lib files path config) :
    ∃ file, loadRuntimeConfigFromJson lib files path = .ok file ∧
      ∀ s : NumericSetting, s.stored config = s.stored file := by
  obtain ⟨options, hpath, hload⟩ := h
  obtain ⟨file, hfile, hredis, hsupervisor, _⟩ := loadEffectiveConfig_frame hload
  rw [loadFile, hpath] at hfile
  refine ⟨file, hfile, ?_⟩
  intro s
  cases s <;> simp only [NumericSetting.stored, hredis, hsupervisor]

/-- With no other flag the file's options are in effect. -/
theorem inEffect_of_load (h : loadRuntimeConfigFromJson lib files path = .ok config) :
    InEffect lib files path config := by
  refine ⟨{ configPath := some path }, rfl, ?_⟩
  simp only [loadEffectiveConfig, loadFile, h, bind_eq_ok, pure_eq_ok]
  refine ⟨config, rfl, config, ?_, (), ?_, ?_⟩
  · simp [applyRoute, CliOptions.capture]
  · simp [rejectIf]
  · simp [applyBidirectional]

/-! ## The law -/

theorem HasInteger.stored (hcasts : Casts lib integer) {s : NumericSetting} {v : Int}
    (h : HasInteger lib integer root s v) (hlow : 0 ≤ v) (hhigh : v < 2 ^ 64) :
    ((s.stored (settingsOf lib root)).toNat : Int) = v := by
  obtain ⟨it, hfind, hinteger⟩ := h
  obtain ⟨n, hget, hn⟩ := hcasts it v hinteger (by omega) hhigh
  rw [s.stored_settingsOf lib root hfind hget, hn]
  exact Int.emod_eq_of_lt hlow hhigh

/-- An accepted document that is not misread has its integers in range, and they
are what is stored. -/
theorem stored_of_not_misread (hcasts : Casts lib integer) (hroot : Holds lib files path root)
    (hmisread : ¬Misread lib integer root) {s : NumericSetting} {v : Int}
    (hs : HasInteger lib integer root s v)
    (h : loadRuntimeConfigFromJson lib files path = .ok config) :
    0 < v ∧ v < s.limit ∧ ((s.stored config).toNat : Int) = v := by
  obtain ⟨hsettled, rfl⟩ := hroot.accepted h
  have hrouting := (loadRuntimeConfigFromJson_valid h).routing
  have hrange : 0 ≤ v ∧ v < s.limit := by
    constructor
    · by_contra hv
      exact hmisread ⟨hsettled, hrouting, s, v, hs, Or.inl (by omega)⟩
    · by_contra hv
      exact hmisread ⟨hsettled, hrouting, s, v, hs, Or.inr (by omega)⟩
  have hlimit := s.limit_le
  have hstored := hs.stored hcasts hrange.1 (by omega)
  have hpos := s.stored_pos hsettled.redis hsettled.supervisor
  rw [UInt64.lt_iff_toNat_lt] at hpos
  rw [s.stored_routing]
  refine ⟨?_, hrange.2, hstored⟩
  have hzero : (0 : UInt64).toNat = 0 := rfl
  omega

/-- A kept integer of an accepted document is below the limit of its setting. -/
theorem NumbersKept.lt_limit (h : NumbersKept lib integer files path)
    (hroot : Holds lib files path root) {s : NumericSetting} {v : Int}
    (hs : HasInteger lib integer root s v)
    (hload : loadRuntimeConfigFromJson lib files path = .ok config) : v < s.limit := by
  cases hd : s.duration config with
  | none =>
      have hstored := h.stored root s v config hroot hs hload
      have hbound := (s.stored config).toNat_lt
      cases s <;> simp [NumericSetting.duration, NumericSetting.limit] at hd ⊢
      omega
  | some d =>
      have hdur := h.durations root s v config d hroot hs (inEffect_of_load hload) hd
      obtain ⟨hlimit, rfl⟩ := NumericSetting.limit_of_duration hd
      have hlt := toInt_milliseconds_lt (s.stored config)
      omega

/-- **The numbers are kept exactly when** the file does not hold a document that
passes the checks with an integer below zero, or with a time of 2^63 or more. -/
theorem loadRuntimeConfigFromJson_keeps_numbers_iff (lib : JsonLibrary J)
    (integer : J → Option Int) (hcasts : Casts lib integer) (files : Files J) (path : String) :
    NumbersKept lib integer files path ↔
      ¬∃ root, Holds lib files path root ∧ Misread lib integer root := by
  constructor
  · intro h hall
    obtain ⟨root, hroot, hsettled, hrouting, s, v, hs, hv⟩ := hall
    have hload := loadRuntimeConfigFromJson_eq_ok.mpr ⟨root, hroot, hsettled, hrouting, rfl⟩
    rcases hv with hv | hv
    · exact h.refused root s v hroot hs (by omega) _ hload
    · exact absurd (h.lt_limit hroot hs hload) (by omega)
  · intro hnone
    have hread : ∀ root, Holds lib files path root → ¬Misread lib integer root := by
      intro root hroot hm
      exact hnone ⟨root, hroot, hm⟩
    constructor
    · intro root s v hroot hs hv config hload
      have hkept := stored_of_not_misread hcasts hroot (hread root hroot) hs hload
      omega
    · intro root s v config hroot hs hload
      exact (stored_of_not_misread hcasts hroot (hread root hroot) hs hload).2.2
    · intro root s v config d hroot hs heffect hd
      obtain ⟨file, hload, hsame⟩ := stored_of_inEffect heffect
      have hkept := stored_of_not_misread hcasts hroot (hread root hroot) hs hload
      obtain ⟨hlimit, rfl⟩ := NumericSetting.limit_of_duration hd
      rw [hsame s]
      have hvalue : (milliseconds (s.stored file)).toInt = v := by
        rw [toInt_milliseconds, if_pos (by omega)]
        exact hkept.2.2
      refine ⟨hvalue, ?_⟩
      rw [Int64.lt_iff_toInt_lt, hvalue]
      exact hkept.1

/-! ## Documents -/

theorem Json.casts : Casts Json.library Json.number := by
  intro it v hv _ _
  cases it with
  | integer n =>
      cases hv
      refine ⟨n.toUInt64, rfl, ?_⟩
      have hbits : n.toUInt64.toNat = n.toBitVec.toNat := rfl
      have hbound := n.toBitVec.isLt
      rw [hbits, ← Int64.toInt_toBitVec, BitVec.toInt_eq_toNat_cond]
      split <;> omega
  | unsigned n =>
      cases hv
      refine ⟨n, rfl, ?_⟩
      have hbound := n.toNat_lt
      omega
  | _ => cases hv

/-- The document that comes with the program has every number in range. -/
theorem loadRuntimeConfigFromJson_keeps_numbers_shipped :
    NumbersKept Json.library Json.number shippedFiles "elephantshrew.json" := by
  apply (loadRuntimeConfigFromJson_keeps_numbers_iff Json.library Json.number Json.casts
    shippedFiles "elephantshrew.json").mpr
  intro hall
  obtain ⟨root, hroot, -, -, s, v, ⟨it, hfind, hnumber⟩, hrange⟩ := hall
  cases hroot.opens
  cases s <;> cases hfind <;> cases hnumber <;> revert hrange <;> decide

/-- A file with a restart delay and nothing else. -/
def delayFile (delay : Json) : Files Json := fun _ =>
  some (.ok (.object [("supervisor", .object [("restart_delay_ms", delay)])]))

/-- A delay of minus one is stored as 2^64 - 1, and one of 2^63 waits for a
negative time. -/
theorem restart_delay_changed :
    ¬NumbersKept Json.library Json.number (delayFile (.integer (-1))) "elephantshrew.json" ∧
      ¬NumbersKept Json.library Json.number (delayFile (.unsigned 9223372036854775808))
        "elephantshrew.json" := by
  constructor
  · intro h
    exact h.refused _ .restartDelayMs (-1) ⟨rfl, rfl⟩ ⟨_, rfl, rfl⟩ (by decide) _ rfl
  · intro h
    have hdur := h.durations _ .restartDelayMs 9223372036854775808 _ _ ⟨rfl, rfl⟩ ⟨_, rfl, rfl⟩
      (inEffect_of_load rfl) rfl
    exact absurd hdur.2 (by decide)

end ElephantShrew.Config
