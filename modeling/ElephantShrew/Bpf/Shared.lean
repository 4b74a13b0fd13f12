import ElephantShrew.Verified.Bytes
import Mathlib.Logic.Function.Basic

/-!
# The records shared by the kernel programs and user space

`bpf/elephantshrew_shared.h` and `bpf/elephantshrew_policy_shared.h`, field by
field.  Integer members keep their C widths.  Address bytes and ports stay in
network order, so they are byte arrays here; every other integer is a number.
-/

namespace ElephantShrew.Bpf

open ElephantShrew.Verified

def esAbiVersion : UInt16 := 2
def esParseBytes : UInt32 := 128
def esSnapshotMax : UInt32 := 128
def esLinktypeEthernet : UInt16 := 1

/-- Values a classifier returns to traffic control. -/
def esTcNext : Int := -1
def esTcDrop : Int := 2
def esTcRedirect : Int := 7

/-- `enum es_direction`. -/
inductive EsDirection where
  | ingress
  | egress
  deriving DecidableEq, Repr

def EsDirection.toUInt8 : EsDirection → UInt8
  | .ingress => 0
  | .egress => 1

def esDirections : UInt8 := 2

/-- `enum es_hook`. -/
def esHookTc : UInt8 := 1
def esHookXdp : UInt8 := 2

/-- `enum es_parse_status`. -/
inductive EsParseStatus where
  | ok
  | truncated
  | unsupported
  | malformed
  | fragment
  | skipped
  deriving DecidableEq, Repr

def EsParseStatus.toUInt8 : EsParseStatus → UInt8
  | .ok => 0
  | .truncated => 1
  | .unsupported => 2
  | .malformed => 3
  | .fragment => 4
  | .skipped => 5

/-- `enum es_tuple_flags`. -/
def esTL2Valid : UInt8 := 1
def esTAddrValid : UInt8 := 2
def esTPortsValid : UInt8 := 4
def esTFragment : UInt8 := 8

/-- `enum es_event_flags`. -/
def esEPrefixTruncated : UInt8 := 1
def esECopyFailed : UInt8 := 2
def esEVlanStripped : UInt8 := 4

/-- `enum es_counter_id`, without its terminator. -/
inductive EsCounterId where
  | packets
  | bytes
  | selected
  | events
  | ringLost
  | parsePartial
  | parseMalformed
  | snapshotFailed
  | flowUpdateFailed
  | policyDrop
  | mirrorAttempt
  | mirrorError
  | redirectAttempt
  deriving DecidableEq, Repr

/-- `struct es_tuple`. -/
structure EsTuple where
  src : Vector UInt8 16
  dst : Vector UInt8 16
  sport : Vector UInt8 2
  dport : Vector UInt8 2
  ethertype : UInt16
  vlan : Vector UInt16 2
  ipVersion : UInt8
  l4Proto : UInt8
  flags : UInt8
  vlanCount : UInt8
  reserved : UInt16
  deriving DecidableEq, Repr

/-- The tuple after `memset(t, 0, sizeof(*t))`. -/
def EsTuple.zero : EsTuple where
  src := Vector.replicate 16 0
  dst := Vector.replicate 16 0
  sport := Vector.replicate 2 0
  dport := Vector.replicate 2 0
  ethertype := 0
  vlan := Vector.replicate 2 0
  ipVersion := 0
  l4Proto := 0
  flags := 0
  vlanCount := 0
  reserved := 0

/-- A flag of the tuple is set. -/
def EsTuple.has (t : EsTuple) (flag : UInt8) : Prop := t.flags &&& flag ≠ 0

instance (t : EsTuple) (flag : UInt8) : Decidable (t.has flag) :=
  inferInstanceAs (Decidable (_ ≠ _))

/-- `struct es_event`. -/
structure EsEvent where
  timestampMonoNs : UInt64
  sequence : UInt64
  ifindex : UInt32
  originalLen : UInt32
  cpu : UInt32
  abiVersion : UInt16
  recordSize : UInt16
  capturedLen : UInt16
  linkType : UInt16
  direction : UInt8
  hook : UInt8
  parseStatus : UInt8
  flags : UInt8
  tuple : EsTuple
  pref : Vector UInt8 128
  deriving DecidableEq, Repr

/-- `sizeof(struct es_event)`, as the header asserts it. -/
def esEventSize : Nat := 216

/-- The event after `memset(e, 0, sizeof(*e))`. -/
def EsEvent.zero : EsEvent where
  timestampMonoNs := 0
  sequence := 0
  ifindex := 0
  originalLen := 0
  cpu := 0
  abiVersion := 0
  recordSize := 0
  capturedLen := 0
  linkType := 0
  direction := 0
  hook := 0
  parseStatus := 0
  flags := 0
  tuple := EsTuple.zero
  pref := Vector.replicate 128 0

/-- A flag of the event is set. -/
def EsEvent.has (e : EsEvent) (flag : UInt8) : Prop := e.flags &&& flag ≠ 0

instance (e : EsEvent) (flag : UInt8) : Decidable (e.has flag) :=
  inferInstanceAs (Decidable (_ ≠ _))

/-- `struct es_counters`: one wrapping 64-bit cell for each identifier. -/
abbrev EsCounters := EsCounterId → UInt64

/-- `__sync_fetch_and_add(&s->v[id], n)`, its effect on the cells. -/
def EsCounters.add (s : EsCounters) (id : EsCounterId) (n : UInt64) : EsCounters :=
  fun c => if c = id then s c + n else s c

@[simp] theorem EsCounters.add_self (s : EsCounters) (id : EsCounterId) (n : UInt64) :
    s.add id n id = s id + n := by
  simp [add]

@[simp] theorem EsCounters.add_ne (s : EsCounters) {id c : EsCounterId} (n : UInt64)
    (h : c ≠ id) : s.add id n c = s c := by
  simp [add, h]

theorem ofNat_succ (n : Nat) : UInt64.ofNat (n + 1) = UInt64.ofNat n + 1 :=
  UInt64.ofNat_add n 1

/-- Adding one that may or may not count. -/
theorem ofNat_add_ite (n : Nat) (p : Prop) [Decidable p] :
    UInt64.ofNat (n + if p then 1 else 0) = UInt64.ofNat n + if p then 1 else 0 := by
  split
  · exact ofNat_succ n
  · simp

/-- `struct es_flow_key`; its padding bytes are part of the key. -/
structure EsFlowKey where
  tuple : EsTuple
  ifindex : UInt32
  direction : UInt8
  reserved : Vector UInt8 3
  deriving DecidableEq, Repr

def EsFlowKey.zero : EsFlowKey := ⟨EsTuple.zero, 0, 0, Vector.replicate 3 0⟩

/-- `struct es_flow_value`. -/
structure EsFlowValue where
  firstNs : UInt64
  lastNs : UInt64
  packets : UInt64
  bytes : UInt64
  deriving DecidableEq, Repr

def EsFlowValue.zero : EsFlowValue := ⟨0, 0, 0, 0⟩

/-- `enum es_policy_action`, the actions with a name; `es_rule` holds any word. -/
def esPolicyNext : UInt32 := 0
def esPolicyDrop : UInt32 := 1
def esPolicyMirror : UInt32 := 2
def esPolicyRedirect : UInt32 := 3

/-- `struct es_policy_key`. -/
structure EsPolicyKey where
  flow : EsFlowKey
  kind : UInt32
  reserved : UInt32
  deriving DecidableEq, Repr

def EsPolicyKey.zero : EsPolicyKey := ⟨EsFlowKey.zero, 0, 0⟩

/-- `struct es_rule`. -/
structure EsRule where
  action : UInt32
  outIfindex : UInt32
  generation : UInt64
  deriving DecidableEq, Repr

end ElephantShrew.Bpf
