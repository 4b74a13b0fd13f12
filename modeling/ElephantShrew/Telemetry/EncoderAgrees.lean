import ElephantShrew.Bpf.ParserCanonical
import ElephantShrew.Bpf.PublishedEvent
import ElephantShrew.Telemetry.OnEvent

/-!
# The encoder and the decoder agree

`DecodeEvent` makes about fifteen checks.  Those on the event's own members
hold because of how `es_observe` fills them; those on the tuple hold because
every exit of the parser leaves a canonical tuple.
-/

namespace ElephantShrew.Telemetry

open ElephantShrew.Verified
open ElephantShrew.Bpf

/-- The checks of the decoder that are about the tuple. -/
structure TupleAccepted (t : EsTuple) : Prop where
  vlanCount : ¬ t.vlanCount > 2
  reserved : t.reserved = 0
  flags : t.flags &&& ~~~tupleFlagMask = 0
  ports : t.has esTPortsValid →
    t.has esTAddrValid ∧ ¬ t.has esTFragment ∧ (t.l4Proto = 6 ∨ t.l4Proto = 17)

theorem TupleAccepted.zero : TupleAccepted EsTuple.zero where
  vlanCount := by decide
  reserved := rfl
  flags := by decide
  ports := fun h => absurd h (by decide)

/-- A canonical tuple is accepted, whatever the status it was left with. -/
theorem TupleAccepted.of_canonical {status : EsParseStatus} {t : EsTuple}
    (h : Canonical status t) : TupleAccepted t where
  vlanCount := by
    have hcount := h.vlan.count
    rw [GT.gt, UInt8.lt_iff_toNat_lt]
    exact Nat.not_lt.mpr hcount
  reserved := h.reserved
  flags := h.flagsLow
  ports := by
    intro hp
    obtain ⟨hok, hproto⟩ := h.portsValid.mp hp
    refine ⟨(h.okValid hok).2, fun hf => ?_, hproto⟩
    rw [h.fragment.mp hf] at hok
    cases hok

/-- The tuple of the classification block is accepted. -/
theorem esObserveParse_accepted (cfg : Settings) (c : ObserveCall) :
    TupleAccepted (esObserveParse cfg c).2 := by
  rw [esObserveParse_eq, ObserveCall.parsed]
  split
  · exact .of_canonical (c.skb.parsed_canonical c.parseLoad)
  · exact .zero

theorem parseStatus_accepted (s : EsParseStatus) :
    ¬ s.toUInt8 > EsParseStatus.skipped.toUInt8 := by
  cases s <;> decide

theorem direction_accepted (d : EsDirection) : ¬ d.toUInt8 ≥ esDirections := by
  cases d <;> decide

/-- An event carries no flag outside the three the decoder knows. -/
theorem publishedEvent_flags_accepted (cfg : Settings) (c : ObserveCall) (st : ObserverState) :
    (publishedEvent cfg c st).flags &&& ~~~eventFlagMask = 0 := by
  have hflags := filledEvent_flags cfg c st
  have h := publishedEvent_case cfg c st
  generalize publishedEvent cfg c st = e at h
  cases h with
  | none => rw [hflags]; split <;> decide
  | copied => simp only [hflags]; split <;> split <;> decide
  | failed => simp only [hflags]; split <;> decide

/-- **A published event is well formed.** -/
theorem publishedEvent_wellFormed (cfg : Settings) (c : ObserveCall) (st : ObserverState)
    (hif : c.skb.ifindex ≠ 0) : WellFormed (publishedEvent cfg c st) := by
  have hcaptured := publishedEvent_capturedLen cfg c st
  have hcopy := publishedEvent_copyFailed cfg c st
  have hflags := publishedEvent_flags_accepted cfg c st
  have htuple := esObserveParse_accepted cfg c
  have hlen : (publishedEvent cfg c st).capturedLen.toNat ≤ 128 ∧
      (publishedEvent cfg c st).capturedLen.toNat ≤ c.skb.len.toNat := by
    rw [hcaptured, SkBuff.toNat_len]
    split <;> omega
  rw [publishedEvent_frame] at hcopy hflags hlen hcaptured ⊢
  constructor
  · rintro (h | h | h | h | h | h | h | h | h | h | h | h | h)
    · exact h rfl
    · exact h rfl
    · exact hif h
    · exact direction_accepted _ h
    · exact h.1 rfl
    · exact h rfl
    · exact parseStatus_accepted _ h
    · exact Nat.not_lt.mpr hlen.1 h
    · exact Nat.not_lt.mpr hlen.2 h
    · exact htuple.vlanCount h
    · exact h htuple.reserved
    · exact h hflags
    · exact h htuple.flags
  · rintro ⟨hfailed, hne⟩
    rw [if_pos (hcopy.mp hfailed)] at hcaptured
    exact hne (UInt16.toNat_inj.mp hcaptured)
  · rintro ⟨hports, h⟩
    obtain ⟨haddr, hfragment, hproto⟩ := htuple.ports hports
    rcases h with h | h | h
    · exact h haddr
    · exact hfragment h
    · rcases hproto with hproto | hproto
      · exact h.1 hproto
      · exact h.2 hproto

/-- What an event says about its packet. -/
structure Truthful (cfg : Settings) (c : ObserveCall) (e : EsEvent) : Prop where
  capturedLen : e.capturedLen.toNat =
    if snapshotFails cfg c then 0 else min (min cfg.snapshotBytes.toNat 128) c.skb.data.length
  pref : ∀ (i : Nat) (h : i < 128),
    e.pref[i] = if i < e.capturedLen.toNat then c.skb.data.get i else 0
  copyFailed : e.has esECopyFailed ↔ snapshotFails cfg c
  prefixTruncated : e.has esEPrefixTruncated ↔
    0 < e.capturedLen.toNat ∧ e.capturedLen.toNat < e.originalLen.toNat

theorem publishedEvent_truthful (cfg : Settings) (c : ObserveCall) (st : ObserverState) :
    Truthful cfg c (publishedEvent cfg c st) where
  capturedLen := publishedEvent_capturedLen cfg c st
  pref _ h := publishedEvent_pref cfg c st h
  copyFailed := publishedEvent_copyFailed cfg c st
  prefixTruncated := by
    have hlen : (publishedEvent cfg c st).originalLen.toNat = c.skb.data.length := by
      rw [publishedEvent_frame]
      exact SkBuff.toNat_len _
    rw [hlen]
    exact publishedEvent_prefixTruncated cfg c st

/-- An accepted event of this source's interface is no decode error. -/
theorem onEvent_ne_decodeError (o : Codec.ByteOrder) {source : Source} {view : ShutdownView}
    {data : Option Bytes} {size : Nat} {e : EsEvent} (h : decodeEvent o data size = some e)
    (hif : e.ifindex = source.ifindex) : onEvent o source view data size ≠ .decodeError := by
  have hrecord : decodeRecord o source data size =
      some ⟨e, source.netnsInode, source.sessionId⟩ :=
    (decodeRecord_eq_some_iff o source data size _).mpr ⟨h, hif, rfl, rfl⟩
  simp only [onEvent, hrecord]
  split <;> exact fun h => Verdict.noConfusion h

/-- **Encoder and decoder agree.**  Every event a call submits is decoded to
itself, is never a decode error of a source with the packet's interface, and
tells the truth about the packet. -/
theorem esObserve_decodes (o : Codec.ByteOrder) (cfg : Settings) (c : ObserveCall)
    (st : ObserverState) (hif : c.skb.ifindex ≠ 0) :
    ∃ new : List EsEvent, (esObserve cfg c st).2.submitted = st.submitted ++ new ∧
      ∀ e ∈ new,
        decodeEvent o (some ((eventCodec o).encode e)) esEventSize = some e ∧
        (∀ (source : Source) (view : ShutdownView), source.ifindex = c.skb.ifindex →
          onEvent o source view (some ((eventCodec o).encode e)) esEventSize ≠ .decodeError) ∧
        Truthful cfg c e := by
  refine ⟨_, esObserve_submitted cfg c st, fun e he => ?_⟩
  split at he
  · rw [List.mem_singleton] at he
    subst he
    have hdecode := decodeEvent_encode o (publishedEvent_wellFormed cfg c st hif)
    refine ⟨hdecode, fun source view hsource => ?_, publishedEvent_truthful cfg c st⟩
    apply onEvent_ne_decodeError o hdecode
    rw [hsource, publishedEvent_frame]
    rfl
  · cases he

/-- A one-byte packet, sampled and snapshotted, on a little-endian host. -/
theorem esObserve_decodes_oneByte :
    ∃ new : List EsEvent,
      (esObserve ⟨1, 16, 1, 1, 0⟩
        ⟨⟨[7], 3, 0, 0, by decide⟩, .egress, 2, 5, .success, .success, true,
          ⟨true, fun _ => false⟩⟩ .init).2.submitted = ObserverState.init.submitted ++ new ∧
      ∀ e ∈ new,
        decodeEvent .little (some ((eventCodec .little).encode e)) esEventSize = some e ∧
        (∀ (source : Source) (view : ShutdownView), source.ifindex = 3 →
          onEvent .little source view (some ((eventCodec .little).encode e)) esEventSize ≠
            .decodeError) ∧
        Truthful ⟨1, 16, 1, 1, 0⟩
          ⟨⟨[7], 3, 0, 0, by decide⟩, .egress, 2, 5, .success, .success, true,
            ⟨true, fun _ => false⟩⟩ e :=
  esObserve_decodes .little ⟨1, 16, 1, 1, 0⟩
    ⟨⟨[7], 3, 0, 0, by decide⟩, .egress, 2, 5, .success, .success, true,
      ⟨true, fun _ => false⟩⟩ .init (by decide)

end ElephantShrew.Telemetry
