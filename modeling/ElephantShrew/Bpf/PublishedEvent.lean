import ElephantShrew.Bpf.ObserverStep

/-!
# The event a call publishes

An event is filled from the packet and the parse result, then completed by
the snapshot block in one of three ways: no snapshot wanted, a copy that
succeeded, a copy that failed.  Every member is one of `fillEvent`'s except
the snapshot bytes, their length and two flags, and those say the truth about
the packet.
-/

namespace ElephantShrew.Bpf

open ElephantShrew.Verified

/-- The event before its snapshot, as published from state `st`. -/
def filledEvent (cfg : Settings) (c : ObserveCall) (st : ObserverState) : EsEvent :=
  fillEvent c (st.counters c.direction c.cpu .packets + 1) (esObserveParse cfg c)

/-- Before the snapshot only the stripped-tag flag may be set. -/
theorem filledEvent_flags (cfg : Settings) (c : ObserveCall) (st : ObserverState) :
    (filledEvent cfg c st).flags = if c.skb.vlanPresent ≠ 0 then 4 else 0 := by
  simp only [filledEvent, fillEvent]
  split <;> rfl

/-- The three ways an event is completed. -/
inductive SnapshotCase (cfg : Settings) (c : ObserveCall) (st : ObserverState) : EsEvent → Prop
  | none (h : snapshotWant cfg c.skb = 0) : SnapshotCase cfg c st (filledEvent cfg c st)
  | copied (h : snapshotWant cfg c.skb ≠ 0) (ho : c.snapshotLoad = .success) :
      SnapshotCase cfg c st
        { filledEvent cfg c st with
          pref := Bytes.copyInto EsEvent.zero.pref c.skb.data 0 (snapshotWant cfg c.skb).toNat
          capturedLen := (snapshotWant cfg c.skb).toUInt16
          flags := if snapshotWant cfg c.skb < c.skb.len then
              (filledEvent cfg c st).flags ||| esEPrefixTruncated
            else (filledEvent cfg c st).flags }
  | failed (h : snapshotWant cfg c.skb ≠ 0) (ho : c.snapshotLoad ≠ .success) :
      SnapshotCase cfg c st
        { filledEvent cfg c st with
          pref := EsEvent.zero.pref
          flags := (filledEvent cfg c st).flags ||| esECopyFailed }

theorem publishedEvent_case (cfg : Settings) (c : ObserveCall) (st : ObserverState) :
    SnapshotCase cfg c st (publishedEvent cfg c st) := by
  simp only [publishedEvent, takeSnapshot, bpfSkbLoadBytes_eq_zero_iff]
  by_cases hw : snapshotWant cfg c.skb = 0
  · simp only [hw, ne_eq, not_true_eq_false, if_false]
    exact .none hw
  · by_cases ho : c.snapshotLoad = .success
    · simp only [hw, ho, ne_eq, not_false_eq_true, if_true, bpfSkbLoadBytes]
      exact .copied hw ho
    · simp only [hw, ho, ne_eq, not_false_eq_true, if_true, if_false]
      exact .failed hw ho

/-- The snapshot block writes three members and no other. -/
theorem publishedEvent_frame (cfg : Settings) (c : ObserveCall) (st : ObserverState) :
    publishedEvent cfg c st =
      { filledEvent cfg c st with
        pref := (publishedEvent cfg c st).pref
        capturedLen := (publishedEvent cfg c st).capturedLen
        flags := (publishedEvent cfg c st).flags } := by
  have h := publishedEvent_case cfg c st
  generalize publishedEvent cfg c st = e at h
  cases h <;> rfl

/-! ## The snapshot length -/

theorem toNat_snapshotWant (cfg : Settings) (skb : SkBuff) :
    (snapshotWant cfg skb).toNat =
      min (min cfg.snapshotBytes.toNat 128) skb.data.length := by
  rw [snapshotWant, toNat_clampTo, toNat_clampTo, SkBuff.toNat_len]
  rfl

theorem toNat_snapshotWant_toUInt16 (cfg : Settings) (skb : SkBuff) :
    (snapshotWant cfg skb).toUInt16.toNat = (snapshotWant cfg skb).toNat := by
  have h := toNat_snapshotWant cfg skb
  rw [UInt32.toNat_toUInt16]
  omega

theorem snapshotWant_eq_zero_iff (cfg : Settings) (skb : SkBuff) :
    snapshotWant cfg skb = 0 ↔ (snapshotWant cfg skb).toNat = 0 := by
  rw [← UInt32.toNat_inj]
  rfl

/-! ## What the members say -/

/-- `captured_len` is the wanted length, or zero when the copy failed. -/
theorem publishedEvent_capturedLen (cfg : Settings) (c : ObserveCall) (st : ObserverState) :
    (publishedEvent cfg c st).capturedLen.toNat =
      if snapshotFails cfg c then 0
      else min (min cfg.snapshotBytes.toNat 128) c.skb.data.length := by
  have hwant := toNat_snapshotWant cfg c.skb
  have h := publishedEvent_case cfg c st
  generalize publishedEvent cfg c st = e at h
  cases h with
  | none h =>
      rw [if_neg (fun hf : snapshotFails cfg c => hf.1 h), ← hwant,
        (snapshotWant_eq_zero_iff cfg c.skb).mp h]
      rfl
  | copied h ho =>
      rw [if_neg (fun hf : snapshotFails cfg c => hf.2 ho), ← hwant]
      exact toNat_snapshotWant_toUInt16 cfg c.skb
  | failed h ho =>
      rw [if_pos (show snapshotFails cfg c from ⟨h, ho⟩)]
      rfl

/-- The snapshot holds the packet's first `captured_len` bytes, then zeros. -/
theorem publishedEvent_pref (cfg : Settings) (c : ObserveCall) (st : ObserverState)
    {i : Nat} (hi : i < 128) :
    (publishedEvent cfg c st).pref[i] =
      if i < (publishedEvent cfg c st).capturedLen.toNat then c.skb.data.get i else 0 := by
  have hlen := publishedEvent_capturedLen cfg c st
  have hwant := toNat_snapshotWant cfg c.skb
  have h := publishedEvent_case cfg c st
  generalize publishedEvent cfg c st = e at h hlen ⊢
  have hzero : EsEvent.zero.pref[i] = 0 := by simp [EsEvent.zero]
  cases h with
  | none h =>
      rw [if_neg (fun hf : snapshotFails cfg c => hf.1 h), ← hwant,
        (snapshotWant_eq_zero_iff cfg c.skb).mp h] at hlen
      rw [hlen, if_neg (by omega)]
      exact hzero
  | copied h ho =>
      show (Bytes.copyInto EsEvent.zero.pref c.skb.data 0 (snapshotWant cfg c.skb).toNat)[i] = _
      rw [Bytes.getElem_copyInto, Nat.zero_add, hzero, toNat_snapshotWant_toUInt16]
  | failed h ho =>
      rw [if_pos (show snapshotFails cfg c from ⟨h, ho⟩)] at hlen
      rw [hlen, if_neg (by omega)]
      exact hzero

/-- `ES_E_COPY_FAILED` is set exactly when a nonempty copy failed. -/
theorem publishedEvent_copyFailed (cfg : Settings) (c : ObserveCall) (st : ObserverState) :
    (publishedEvent cfg c st).has esECopyFailed ↔ snapshotFails cfg c := by
  have hflags := filledEvent_flags cfg c st
  have h := publishedEvent_case cfg c st
  generalize publishedEvent cfg c st = e at h
  cases h with
  | none h =>
      refine iff_of_false ?_ fun hf => hf.1 h
      rw [EsEvent.has, hflags]
      split <;> decide
  | copied h ho =>
      refine iff_of_false ?_ fun hf => hf.2 ho
      simp only [EsEvent.has, hflags]
      split <;> split <;> decide
  | failed h ho =>
      refine iff_of_true ?_ ⟨h, ho⟩
      simp only [EsEvent.has, hflags]
      split <;> decide

/-- `ES_E_PREFIX_TRUNCATED` is set exactly when part of the packet was captured. -/
theorem publishedEvent_prefixTruncated (cfg : Settings) (c : ObserveCall) (st : ObserverState) :
    (publishedEvent cfg c st).has esEPrefixTruncated ↔
      0 < (publishedEvent cfg c st).capturedLen.toNat ∧
        (publishedEvent cfg c st).capturedLen.toNat < c.skb.data.length := by
  have hflags := filledEvent_flags cfg c st
  have hlen := publishedEvent_capturedLen cfg c st
  have hwant := toNat_snapshotWant cfg c.skb
  have h := publishedEvent_case cfg c st
  generalize publishedEvent cfg c st = e at h hlen ⊢
  cases h with
  | none h =>
      rw [if_neg (fun hf : snapshotFails cfg c => hf.1 h), ← hwant,
        (snapshotWant_eq_zero_iff cfg c.skb).mp h] at hlen
      refine iff_of_false ?_ fun hf => by omega
      rw [EsEvent.has, hflags]
      split <;> decide
  | copied h ho =>
      have hpos : (snapshotWant cfg c.skb).toNat ≠ 0 :=
        fun hz => h ((snapshotWant_eq_zero_iff cfg c.skb).mpr hz)
      simp only [EsEvent.has, hflags, toNat_snapshotWant_toUInt16]
      by_cases hlt : snapshotWant cfg c.skb < c.skb.len
      · rw [if_pos hlt]
        rw [UInt32.lt_iff_toNat_lt, SkBuff.toNat_len] at hlt
        refine iff_of_true ?_ ⟨by omega, hlt⟩
        split <;> decide
      · rw [if_neg hlt]
        rw [UInt32.lt_iff_toNat_lt, SkBuff.toNat_len] at hlt
        refine iff_of_false ?_ fun hf => hlt hf.2
        split <;> decide
  | failed h ho =>
      rw [if_pos (show snapshotFails cfg c from ⟨h, ho⟩)] at hlen
      refine iff_of_false ?_ fun hf => by omega
      simp only [EsEvent.has, hflags]
      split <;> decide

end ElephantShrew.Bpf
