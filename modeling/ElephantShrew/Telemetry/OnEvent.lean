import ElephantShrew.Telemetry.DecodeEvent

/-!
# The ring callback

`EbpfTelemetry::Impl::OnEvent` up to the queue.  What it does with a record is
decided before it touches the queue: discard it because of a shutdown, count
it as a decode error, or push it.
-/

namespace ElephantShrew.Telemetry

open ElephantShrew.Verified
open ElephantShrew.Bpf

/-- `EbpfTelemetry::Impl::Source`, without the pointer to its parent. -/
structure Source where
  ifindex : UInt32
  netnsInode : UInt64
  sessionId : UInt64
  deriving DecidableEq, Repr

/-- `TelemetryRecord`. -/
structure TelemetryRecord where
  event : EsEvent
  netnsInode : UInt64
  sessionId : UInt64
  deriving DecidableEq, Repr

/-- What the callback reads before it decides: `deadline_ns`, `abort` and the
clock. -/
structure ShutdownView where
  deadlineNs : UInt64
  abort : Bool
  nowNs : UInt64
  deriving DecidableEq, Repr

/-- The shutdown check: `abort || (deadline && NowNs() >= deadline)`. -/
def ShutdownView.cancels (v : ShutdownView) : Prop :=
  v.abort = true ∨ (v.deadlineNs ≠ 0 ∧ v.nowNs ≥ v.deadlineNs)

instance (v : ShutdownView) : Decidable v.cancels := inferInstanceAs (Decidable (_ ∨ _))

/-- What the callback does with a record. -/
inductive Verdict where
  | discard
  | decodeError
  | push (record : TelemetryRecord)
  deriving DecidableEq, Repr

/-- The decode step: an event of this source, attributed to it. -/
def decodeRecord (o : Codec.ByteOrder) (source : Source) (data : Option Bytes) (size : Nat) :
    Option TelemetryRecord :=
  match decodeEvent o data size with
  | none => none
  | some event =>
      if event.ifindex ≠ source.ifindex then none
      else some ⟨event, source.netnsInode, source.sessionId⟩

/-- `OnEvent(context, data, size)`, up to `TryPush`. -/
def onEvent (o : Codec.ByteOrder) (source : Source) (view : ShutdownView) (data : Option Bytes)
    (size : Nat) : Verdict :=
  if view.cancels then .discard
  else
    match decodeRecord o source data size with
    | none => .decodeError
    | some record => .push record

/-- A record is pushed only as its own source's event. -/
theorem decodeRecord_eq_some_iff (o : Codec.ByteOrder) (source : Source) (data : Option Bytes)
    (size : Nat) (r : TelemetryRecord) :
    decodeRecord o source data size = some r ↔
      decodeEvent o data size = some r.event ∧ r.event.ifindex = source.ifindex ∧
        r.netnsInode = source.netnsInode ∧ r.sessionId = source.sessionId := by
  unfold decodeRecord
  cases decodeEvent o data size with
  | none => simp
  | some event =>
      simp only [ne_eq, ite_not, Option.some.injEq]
      constructor
      · intro h
        split at h
        · next hif =>
            injection h with h
            subst h
            exact ⟨rfl, hif, rfl, rfl⟩
        · cases h
      · rintro ⟨rfl, hif, hnetns, hsession⟩
        rw [if_pos hif, ← hnetns, ← hsession]

end ElephantShrew.Telemetry
