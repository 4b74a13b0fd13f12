import ElephantShrew.Bpf.Shared
import ElephantShrew.Verified.Codec

/-!
# Decoding a ring record

`TelemetryTypes.hpp`: the image of an event in a ring record, in the order of
`struct es_event`, and the checks user space makes before it believes one.
-/

namespace ElephantShrew.Telemetry

open ElephantShrew.Verified
open ElephantShrew.Bpf

/-! ## The image of an event -/

/-- `struct es_tuple`, member by member. -/
def tupleCodec (o : Codec.ByteOrder) : Codec EsTuple :=
  Codec.record
    ((Codec.uint8.array 16).pair <| (Codec.uint8.array 16).pair <|
      (Codec.uint8.array 2).pair <| (Codec.uint8.array 2).pair <|
      (Codec.uint16 o).pair <| ((Codec.uint16 o).array 2).pair <|
      Codec.uint8.pair <| Codec.uint8.pair <| Codec.uint8.pair <| Codec.uint8.pair <|
      Codec.uint16 o)
    (fun (src, dst, sport, dport, ethertype, vlan, ipVersion, l4Proto, flags, vlanCount,
        reserved) =>
      ⟨src, dst, sport, dport, ethertype, vlan, ipVersion, l4Proto, flags, vlanCount, reserved⟩)
    (fun t => (t.src, t.dst, t.sport, t.dport, t.ethertype, t.vlan, t.ipVersion, t.l4Proto,
      t.flags, t.vlanCount, t.reserved))
    fun _ => rfl

/-- `struct es_event`, member by member. -/
def eventCodec (o : Codec.ByteOrder) : Codec EsEvent :=
  Codec.record
    ((Codec.uint64 o).pair <| (Codec.uint64 o).pair <|
      (Codec.uint32 o).pair <| (Codec.uint32 o).pair <| (Codec.uint32 o).pair <|
      (Codec.uint16 o).pair <| (Codec.uint16 o).pair <|
      (Codec.uint16 o).pair <| (Codec.uint16 o).pair <|
      Codec.uint8.pair <| Codec.uint8.pair <| Codec.uint8.pair <| Codec.uint8.pair <|
      (tupleCodec o).pair <| Codec.uint8.array 128)
    (fun (timestampMonoNs, sequence, ifindex, originalLen, cpu, abiVersion, recordSize,
        capturedLen, linkType, direction, hook, parseStatus, flags, tuple, pref) =>
      ⟨timestampMonoNs, sequence, ifindex, originalLen, cpu, abiVersion, recordSize,
        capturedLen, linkType, direction, hook, parseStatus, flags, tuple, pref⟩)
    (fun e => (e.timestampMonoNs, e.sequence, e.ifindex, e.originalLen, e.cpu, e.abiVersion,
      e.recordSize, e.capturedLen, e.linkType, e.direction, e.hook, e.parseStatus, e.flags,
      e.tuple, e.pref))
    fun _ => rfl

/-- The sizes the shared header asserts. -/
theorem tupleCodec_size (o : Codec.ByteOrder) : (tupleCodec o).size = 48 := by
  simp [tupleCodec]

theorem eventCodec_size (o : Codec.ByteOrder) : (eventCodec o).size = esEventSize := by
  simp [eventCodec, tupleCodec_size, esEventSize]

/-! ## The decoder -/

/-- The flags an event may carry, and those a tuple may carry. -/
def eventFlagMask : UInt8 := esEPrefixTruncated ||| esECopyFailed ||| esEVlanStripped
def tupleFlagMask : UInt8 := esTL2Valid ||| esTAddrValid ||| esTPortsValid ||| esTFragment

/-- The first check of `DecodeEvent`: some member is out of its range. -/
def badMember (e : EsEvent) : Prop :=
  e.abiVersion ≠ esAbiVersion ∨ e.recordSize.toNat ≠ esEventSize ∨
    e.ifindex = 0 ∨ e.direction ≥ esDirections ∨
    (e.hook ≠ esHookTc ∧ e.hook ≠ esHookXdp) ∨
    e.linkType ≠ esLinktypeEthernet ∨
    e.parseStatus > EsParseStatus.skipped.toUInt8 ∨
    e.capturedLen.toNat > esSnapshotMax.toNat ∨ e.capturedLen.toNat > e.originalLen.toNat ∨
    e.tuple.vlanCount > 2 ∨ e.tuple.reserved ≠ 0 ∨
    e.flags &&& ~~~eventFlagMask ≠ 0 ∨ e.tuple.flags &&& ~~~tupleFlagMask ≠ 0

/-- The second: a failed copy that captured something. -/
def badCopy (e : EsEvent) : Prop := e.has esECopyFailed ∧ e.capturedLen ≠ 0

/-- The third: ports without addresses, of a fragment, or of another protocol. -/
def badPorts (e : EsEvent) : Prop :=
  e.tuple.has esTPortsValid ∧
    (¬ e.tuple.has esTAddrValid ∨ e.tuple.has esTFragment ∨
      (e.tuple.l4Proto ≠ 6 ∧ e.tuple.l4Proto ≠ 17))

instance (e : EsEvent) : Decidable (badMember e) :=
  inferInstanceAs (Decidable (_ ∨ _ ∨ _ ∨ _ ∨ _ ∨ _ ∨ _ ∨ _ ∨ _ ∨ _ ∨ _ ∨ _ ∨ _))

instance (e : EsEvent) : Decidable (badCopy e) := inferInstanceAs (Decidable (_ ∧ _))

instance (e : EsEvent) : Decidable (badPorts e) := inferInstanceAs (Decidable (_ ∧ _))

/-- `DecodeEvent(data, size, out)`: the value stored in `out`, or nothing when it
returns false.  A null pointer is `none`. -/
def decodeEvent (o : Codec.ByteOrder) (data : Option Bytes) (size : Nat) : Option EsEvent :=
  match data with
  | none => none
  | some bytes =>
      if size ≠ esEventSize then none
      else
        let e := (eventCodec o).decode bytes 0
        if badMember e then none
        else if badCopy e then none
        else if badPorts e then none
        else some e

/-- What the decoder accepts. -/
structure WellFormed (e : EsEvent) : Prop where
  member : ¬ badMember e
  copy : ¬ badCopy e
  ports : ¬ badPorts e

/-- The decoder returns what the record holds, if that is well formed. -/
theorem decodeEvent_eq_some_iff (o : Codec.ByteOrder) (data : Option Bytes) (size : Nat)
    (e : EsEvent) :
    decodeEvent o data size = some e ↔
      size = esEventSize ∧ (∃ bytes, data = some bytes ∧ (eventCodec o).decode bytes 0 = e) ∧
        WellFormed e := by
  cases data with
  | none => simp [decodeEvent]
  | some bytes =>
      simp only [decodeEvent, ne_eq, ite_not, Option.some.injEq, exists_eq_left']
      constructor
      · intro h
        split at h
        · next hsize =>
            split at h
            · cases h
            · next hmember =>
                split at h
                · cases h
                · next hcopy =>
                    split at h
                    · cases h
                    · next hports =>
                        injection h with h
                        subst h
                        exact ⟨hsize, rfl, hmember, hcopy, hports⟩
        · cases h
      · rintro ⟨hsize, rfl, hwell⟩
        rw [if_pos hsize, if_neg hwell.member, if_neg hwell.copy, if_neg hwell.ports]

/-- The image of a well-formed event decodes to the event. -/
theorem decodeEvent_encode (o : Codec.ByteOrder) {e : EsEvent} (h : WellFormed e) :
    decodeEvent o (some ((eventCodec o).encode e)) esEventSize = some e :=
  (decodeEvent_eq_some_iff o _ _ e).mpr ⟨rfl, ⟨_, rfl, Codec.decode_encode _ e⟩, h⟩

end ElephantShrew.Telemetry
