import ElephantShrew.Bpf.LoadedParse
import ElephantShrew.Bpf.Observer

/-!
# What one call of the observer does

`es_observe` leaves through five exits after updating different counters.
This file says once, for each counter, for the ring and for the other slots,
what a call adds; every law about histories is an induction over these
equations and never unfolds the classifier again.  What the packet parses as is
said by `es_parse` on its first bytes (`ObserveCall.parsed`).
-/

namespace ElephantShrew.Bpf

open ElephantShrew.Verified

/-- What a call knows of its packet: its parse, if some setting needs it. -/
def ObserveCall.parsed (cfg : Settings) (c : ObserveCall) : EsParseStatus × EsTuple :=
  if cfg.parses then c.skb.parsed c.parseLoad else (.skipped, EsTuple.zero)

theorem esObserveParse_eq (cfg : Settings) (c : ObserveCall) :
    esObserveParse cfg c = c.parsed cfg := by
  rw [esObserveParse, parseLoaded_eq, ObserveCall.parsed]

/-- `select_l4_proto` admits the packet: it is zero, or the packet parsed and
carries that protocol. -/
def selectedBy (cfg : Settings) (c : ObserveCall) : Prop :=
  cfg.selectL4Proto = 0 ∨
    ((c.parsed cfg).1 = .ok ∧ (c.parsed cfg).2.l4Proto = cfg.selectL4Proto)

instance (cfg : Settings) (c : ObserveCall) : Decidable (selectedBy cfg c) :=
  inferInstanceAs (Decidable (_ ∨ _))

theorem not_deselected_iff (cfg : Settings) (c : ObserveCall) :
    ¬ deselected cfg (esObserveParse cfg c) ↔ selectedBy cfg c := by
  rw [esObserveParse_eq]
  unfold deselected selectedBy
  by_cases h0 : cfg.selectL4Proto = 0 <;> simp [h0]

/-- The call is selected and its turn to be sampled has come. -/
def due (cfg : Settings) (c : ObserveCall) (st : ObserverState) : Prop :=
  selectedBy cfg c ∧ sampled cfg (st.counters c.direction c.cpu .selected + 1)

instance (cfg : Settings) (c : ObserveCall) (st : ObserverState) : Decidable (due cfg c st) :=
  inferInstanceAs (Decidable (_ ∧ _))

/-- The call submits an event. -/
def publishes (cfg : Settings) (c : ObserveCall) (st : ObserverState) : Prop :=
  due cfg c st ∧ c.ringReserved = true

instance (cfg : Settings) (c : ObserveCall) (st : ObserverState) :
    Decidable (publishes cfg c st) :=
  inferInstanceAs (Decidable (_ ∧ _))

/-- A nonempty snapshot is wanted and its copy fails. -/
def snapshotFails (cfg : Settings) (c : ObserveCall) : Prop :=
  snapshotWant cfg c.skb ≠ 0 ∧ c.snapshotLoad ≠ .success

instance (cfg : Settings) (c : ObserveCall) : Decidable (snapshotFails cfg c) :=
  inferInstanceAs (Decidable (_ ∧ _))

/-- The event a publishing call submits. -/
def publishedEvent (cfg : Settings) (c : ObserveCall) (st : ObserverState) : EsEvent :=
  (takeSnapshot cfg c
    (fillEvent c (st.counters c.direction c.cpu .packets + 1) (esObserveParse cfg c))
    (fun _ => 0)).1

/-- What a call adds to each counter of its slot, the flow counter apart. -/
def increment (cfg : Settings) (c : ObserveCall) (st : ObserverState) : EsCounterId → UInt64
  | .packets => 1
  | .bytes => c.skb.len.toUInt64
  | .selected => if selectedBy cfg c then 1 else 0
  | .events => if publishes cfg c st then 1 else 0
  | .ringLost => if due cfg c st ∧ c.ringReserved = false then 1 else 0
  | .parsePartial =>
      if cfg.parses ∧ (c.parsed cfg).1 ≠ .ok ∧ (c.parsed cfg).1 ≠ .malformed then 1 else 0
  | .parseMalformed => if cfg.parses ∧ (c.parsed cfg).1 = .malformed then 1 else 0
  | .snapshotFailed => if publishes cfg c st ∧ snapshotFails cfg c then 1 else 0
  | _ => 0

/-! ## The snapshot block -/

theorem takeSnapshot_fst (cfg : Settings) (c : ObserveCall) (e : EsEvent) (s s' : EsCounters) :
    (takeSnapshot cfg c e s).1 = (takeSnapshot cfg c e s').1 := by
  simp only [takeSnapshot]
  split
  · split <;> rfl
  · rfl

theorem bpfSkbLoadBytes_eq_zero_iff (skb : SkBuff) (o : LoadOutcome) {k : Nat}
    (target : Vector UInt8 k) (n : UInt32) :
    (bpfSkbLoadBytes skb o target n).1 = 0 ↔ o = .success := by
  cases o <;> simp [bpfSkbLoadBytes]

theorem takeSnapshot_snd (cfg : Settings) (c : ObserveCall) (e : EsEvent) (s : EsCounters) :
    (takeSnapshot cfg c e s).2 =
      if snapshotFails cfg c then s.add .snapshotFailed 1 else s := by
  simp only [takeSnapshot, bpfSkbLoadBytes_eq_zero_iff, snapshotFails]
  by_cases hw : snapshotWant cfg c.skb = 0
  · simp [hw]
  · by_cases hs : c.snapshotLoad = .success <;> simp [hw, hs]

/-! ## The counting block -/

theorem countStatus_malformed (s : EsCounters) (status : EsParseStatus) :
    countStatus s status .parseMalformed =
      s .parseMalformed + if status = .malformed then 1 else 0 := by
  cases status <;> simp [countStatus]

theorem countStatus_truncated (s : EsCounters) (status : EsParseStatus) :
    countStatus s status .parsePartial =
      s .parsePartial + if status ≠ .ok ∧ status ≠ .malformed then 1 else 0 := by
  cases status <;> simp [countStatus]

theorem countStatus_ne (s : EsCounters) (status : EsParseStatus) {id : EsCounterId}
    (hm : id ≠ .parseMalformed) (hp : id ≠ .parsePartial) : countStatus s status id = s id := by
  cases status <;> simp [countStatus, hm, hp]

theorem esCountFlow_counters (c : ObserveCall) (tuple : EsTuple) (s : EsCounters)
    (flows : Flows) {id : EsCounterId} (h : id ≠ .flowUpdateFailed) :
    (esCountFlow c tuple s flows).1 id = s id := by
  simp only [esCountFlow]
  split
  · rfl
  · split
    · exact EsCounters.add_ne s 1 h
    · rfl

/-- The counting block on the counters it shares with nothing that follows. -/
theorem esObserveCount_counters (cfg : Settings) (c : ObserveCall) (st : ObserverState)
    {id : EsCounterId} (h : id ≠ .flowUpdateFailed) :
    (esObserveCount cfg c st).1 id =
      (if cfg.parses then
        countStatus (((st.counters c.direction c.cpu).add .packets 1).add .bytes
          c.skb.len.toUInt64) (esObserveParse cfg c).1
      else ((st.counters c.direction c.cpu).add .packets 1).add .bytes
        c.skb.len.toUInt64) id := by
  simp only [esObserveCount]
  split
  · rw [esCountFlow_counters _ _ _ _ h]
  · rfl

/-- The counters of the counting block. -/
def CountedEarly (id : EsCounterId) : Prop :=
  id = .packets ∨ id = .bytes ∨ id = .parsePartial ∨ id = .parseMalformed

instance (id : EsCounterId) : Decidable (CountedEarly id) :=
  inferInstanceAs (Decidable (_ ∨ _ ∨ _ ∨ _))

/-- Packets, bytes and parse results are counted in the block, the rest after
it. -/
theorem esObserveCount_apply (cfg : Settings) (c : ObserveCall) (st : ObserverState)
    {id : EsCounterId} (h : id ≠ .flowUpdateFailed) :
    (esObserveCount cfg c st).1 id = st.counters c.direction c.cpu id +
      if CountedEarly id then increment cfg c st id else 0 := by
  rw [esObserveCount_counters cfg c st h, esObserveParse_eq]
  by_cases hid : CountedEarly id
  · rw [if_pos hid]
    by_cases hp : cfg.parses
    · rw [if_pos hp]
      rcases hid with rfl | rfl | rfl | rfl
      · rw [countStatus_ne _ _ (by decide) (by decide)]
        simp [increment]
      · rw [countStatus_ne _ _ (by decide) (by decide)]
        simp [increment]
      · rw [countStatus_truncated]
        simp [increment, hp]
      · rw [countStatus_malformed]
        simp [increment, hp]
    · rw [if_neg hp]
      rcases hid with rfl | rfl | rfl | rfl <;> simp [increment, hp]
  · rw [if_neg hid, UInt64.add_zero]
    simp only [CountedEarly, not_or] at hid
    obtain ⟨hpk, hby, hpa, hma⟩ := hid
    split
    · rw [countStatus_ne _ _ hma hpa, EsCounters.add_ne _ _ hby, EsCounters.add_ne _ _ hpk]
    · rw [EsCounters.add_ne _ _ hby, EsCounters.add_ne _ _ hpk]

theorem esObserveCount_selected (cfg : Settings) (c : ObserveCall) (st : ObserverState) :
    (esObserveCount cfg c st).1 .selected = st.counters c.direction c.cpu .selected := by
  rw [esObserveCount_apply cfg c st (by decide), if_neg (by decide), UInt64.add_zero]

/-! ## The whole call -/

/-- A call touches one slot only. -/
theorem esObserve_other_slot (cfg : Settings) (c : ObserveCall) (st : ObserverState)
    {d : EsDirection} {cpu : UInt32} (h : ¬ (d = c.direction ∧ cpu = c.cpu)) :
    (esObserve cfg c st).2.counters d cpu = st.counters d cpu := by
  simp only [esObserve]
  split
  · simp [ObserverState.setSlot, h]
  · split
    · simp [ObserverState.setSlot, h]
    · split <;> simp [ObserverState.setSlot, h]

/-- **The counters of a call.**  Every counter but the flow one grows by its
`increment`. -/
theorem esObserve_counters (cfg : Settings) (c : ObserveCall) (st : ObserverState)
    {id : EsCounterId} (h : id ≠ .flowUpdateFailed) :
    (esObserve cfg c st).2.counters c.direction c.cpu id =
      st.counters c.direction c.cpu id + increment cfg c st id := by
  have hbase := esObserveCount_apply cfg c st h
  have hdue : selectedBy cfg c →
      (due cfg c st ↔ sampled cfg ((esObserveCount cfg c st).1 .selected + 1)) := by
    intro hs
    rw [esObserveCount_selected]
    exact ⟨fun hd => hd.2, fun hd => ⟨hs, hd⟩⟩
  simp only [esObserve]
  by_cases hs : selectedBy cfg c
  · rw [if_neg ((not_deselected_iff cfg c).mpr hs)]
    by_cases hd : due cfg c st
    · rw [if_neg (not_not.mpr ((hdue hs).mp hd))]
      by_cases hr : c.ringReserved = true
      · rw [if_pos hr]
        simp only [ObserverState.setSlot, and_self, if_true, takeSnapshot_snd]
        by_cases hf : snapshotFails cfg c
        · cases id <;> simp_all [CountedEarly, increment, publishes, EsCounters.add]
        · cases id <;> simp_all [CountedEarly, increment, publishes, EsCounters.add]
      · rw [if_neg hr]
        simp only [ObserverState.setSlot, and_self, if_true]
        cases id <;> simp_all [CountedEarly, increment, publishes, EsCounters.add]
    · rw [if_pos (fun hn => hd ((hdue hs).mpr hn))]
      simp only [ObserverState.setSlot, and_self, if_true]
      cases id <;> simp_all [CountedEarly, increment, publishes, EsCounters.add]
  · rw [if_pos (not_not.mp fun hn => hs ((not_deselected_iff cfg c).mp hn))]
    have hd : ¬ due cfg c st := fun hd => hs hd.1
    simp only [ObserverState.setSlot, and_self, if_true]
    cases id <;> simp_all [CountedEarly, increment, publishes]

/-- **The ring after a call.** -/
theorem esObserve_submitted (cfg : Settings) (c : ObserveCall) (st : ObserverState) :
    (esObserve cfg c st).2.submitted =
      st.submitted ++ if publishes cfg c st then [publishedEvent cfg c st] else [] := by
  simp only [esObserve]
  by_cases hs : selectedBy cfg c
  · rw [if_neg ((not_deselected_iff cfg c).mpr hs), esObserveCount_selected]
    by_cases hd : sampled cfg (st.counters c.direction c.cpu .selected + 1)
    · rw [if_neg (not_not.mpr hd)]
      by_cases hr : c.ringReserved = true
      · rw [if_pos hr, if_pos (show publishes cfg c st from ⟨⟨hs, hd⟩, hr⟩), publishedEvent,
          takeSnapshot_fst]
      · rw [if_neg hr, if_neg (fun hp : publishes cfg c st => hr hp.2), List.append_nil]
        rfl
    · rw [if_pos hd, if_neg (fun hp : publishes cfg c st => hd hp.1.2), List.append_nil]
      rfl
  · rw [if_pos (not_not.mp fun hn => hs ((not_deselected_iff cfg c).mp hn)),
      if_neg (fun hp : publishes cfg c st => hs hp.1.1), List.append_nil]
    rfl

/-- The classifier never takes a packet out of the stack. -/
theorem esObserve_returns_next (cfg : Settings) (c : ObserveCall) (st : ObserverState) :
    (esObserve cfg c st).1 = esTcNext := by
  simp only [esObserve]
  split
  · rfl
  · split
    · rfl
    · split <;> rfl

end ElephantShrew.Bpf
