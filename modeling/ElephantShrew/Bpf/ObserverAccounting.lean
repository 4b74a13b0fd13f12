import ElephantShrew.Bpf.PublishedEvent
import Mathlib.Data.List.Induction
import Mathlib.Algebra.BigOperators.Group.List.Basic
import Mathlib.Algebra.GroupWithZero.Nat

/-!
# Observer accounting over whole histories

The counters of one slot after any sequence of calls, on any direction and
CPU, against what happened in the calls that were made on that slot.

`SlotLaw` is the invariant: each 64-bit cell holds its count modulo `2 ^ 64`,
and submitted events plus lost ones are the selected count divided by
`sample_every`.  `SlotLaw.step` adds one call; the run lemma is the induction.
-/

namespace ElephantShrew.Bpf

open ElephantShrew.Verified

variable (cfg : Settings) (d : EsDirection) (cpu : UInt32)

/-- The call was made on this slot. -/
def onSlot (c : ObserveCall) : Prop := d = c.direction ∧ cpu = c.cpu

instance (c : ObserveCall) : Decidable (onSlot d cpu c) := inferInstanceAs (Decidable (_ ∧ _))

/-- The event was submitted from this slot. -/
def fromSlot (e : EsEvent) : Prop := e.direction = d.toUInt8 ∧ e.cpu = cpu

instance (e : EsEvent) : Decidable (fromSlot d cpu e) := inferInstanceAs (Decidable (_ ∧ _))

/-- The calls of a run made on this slot. -/
def slotCalls (calls : List ObserveCall) : List ObserveCall :=
  calls.filter fun c => onSlot d cpu c

/-- The events submitted from this slot. -/
def slotEvents (events : List EsEvent) : List EsEvent :=
  events.filter fun e => fromSlot d cpu e

/-- Bytes seen by a list of calls. -/
def totalBytes (calls : List ObserveCall) : Nat := (calls.map fun c => c.skb.len.toNat).sum

/-- The status of the classification block of a call. -/
def parsedStatus (c : ObserveCall) : EsParseStatus := (c.parsed cfg).1

/-- The slot's counters tell the history `calls` of the slot. -/
structure SlotLaw (calls : List ObserveCall) (st : ObserverState) : Prop where
  packets : st.counters d cpu .packets = UInt64.ofNat calls.length
  bytes : st.counters d cpu .bytes = UInt64.ofNat (totalBytes calls)
  selected : st.counters d cpu .selected =
    UInt64.ofNat (calls.countP fun c => selectedBy cfg c)
  events : st.counters d cpu .events = UInt64.ofNat (slotEvents d cpu st.submitted).length
  snapshots : st.counters d cpu .snapshotFailed =
    UInt64.ofNat ((slotEvents d cpu st.submitted).countP fun e => e.has esECopyFailed)
  malformed : st.counters d cpu .parseMalformed =
    UInt64.ofNat (calls.countP fun c => cfg.parses ∧ parsedStatus cfg c = .malformed)
  partials : st.counters d cpu .parsePartial =
    UInt64.ofNat (calls.countP fun c =>
      cfg.parses ∧ parsedStatus cfg c ≠ .ok ∧ parsedStatus cfg c ≠ .malformed)
  balance : ∃ lost : Nat, st.counters d cpu .ringLost = UInt64.ofNat lost ∧
    (slotEvents d cpu st.submitted).length + lost =
      (calls.countP fun c => selectedBy cfg c) / cfg.sampleEvery.toNat

theorem countP_concat {α : Type} (p : α → Prop) [DecidablePred p] (l : List α) (a : α) :
    (l ++ [a]).countP (fun x => p x) = l.countP (fun x => p x) + if p a then 1 else 0 := by
  rw [List.countP_append]
  by_cases h : p a <;> simp [h]

/-- One more packet's bytes. -/
theorem totalBytes_concat (calls : List ObserveCall) (c : ObserveCall) :
    UInt64.ofNat (totalBytes (calls ++ [c])) =
      UInt64.ofNat (totalBytes calls) + c.skb.len.toUInt64 := by
  have hbytes : c.skb.len.toUInt64 = UInt64.ofNat c.skb.len.toNat := by
    rw [← UInt64.toNat_inj, UInt32.toNat_toUInt64,
      UInt64.toNat_ofNat_of_lt' (Nat.lt_trans (UInt32.toNat_lt _) (by decide))]
  rw [totalBytes, totalBytes, List.map_append, List.sum_append, UInt64.ofNat_add, hbytes]
  simp

/-- The division law: one more selected packet is sampled exactly when it
completes a group of `sample_every`; a group of zero is never complete. -/
theorem sampled_iff {k : Nat} (h : k + 1 < 2 ^ 64) :
    sampled cfg (UInt64.ofNat k + 1) ↔ cfg.sampleEvery.toNat ∣ k + 1 := by
  have hmod : (UInt64.ofNat k + 1) % cfg.sampleEvery.toUInt64 = 0 ↔
      (k + 1) % cfg.sampleEvery.toNat = 0 := by
    rw [← ofNat_succ, ← UInt64.toNat_inj, UInt64.toNat_mod, UInt64.toNat_ofNat_of_lt' h,
      UInt32.toNat_toUInt64]
    rfl
  rw [sampled, hmod, Nat.dvd_iff_mod_eq_zero]
  refine ⟨fun hs => hs.2, fun hs => ⟨?_, hs⟩⟩
  rintro hz
  rw [hz, UInt32.toNat_zero, Nat.mod_zero] at hs
  exact Nat.succ_ne_zero k hs

variable {cfg d cpu}

theorem publishedEvent_fromSlot {c : ObserveCall} (hc : onSlot d cpu c) (st : ObserverState) :
    fromSlot d cpu (publishedEvent cfg c st) := by
  rw [publishedEvent_frame, hc.1, hc.2]
  exact ⟨rfl, rfl⟩

theorem EsDirection.toUInt8_inj {x y : EsDirection} (h : x.toUInt8 = y.toUInt8) : x = y := by
  cases x <;> cases y <;> simp_all [EsDirection.toUInt8]

theorem publishedEvent_not_fromSlot {c : ObserveCall} (hc : ¬ onSlot d cpu c)
    (st : ObserverState) : ¬ fromSlot d cpu (publishedEvent cfg c st) := by
  rw [publishedEvent_frame]
  intro h
  exact hc ⟨(EsDirection.toUInt8_inj h.1).symm, h.2.symm⟩

/-- The slot's events after a call made on it. -/
theorem slotEvents_step {c : ObserveCall} (hc : onSlot d cpu c) (st : ObserverState) :
    slotEvents d cpu (esObserve cfg c st).2.submitted =
      slotEvents d cpu st.submitted ++
        if publishes cfg c st then [publishedEvent cfg c st] else [] := by
  rw [esObserve_submitted, slotEvents, slotEvents, List.filter_append]
  split
  · simp [publishedEvent_fromSlot hc st]
  · rfl

/-- The slot's events after a call made elsewhere. -/
theorem slotEvents_step_other {c : ObserveCall} (hc : ¬ onSlot d cpu c) (st : ObserverState) :
    slotEvents d cpu (esObserve cfg c st).2.submitted = slotEvents d cpu st.submitted := by
  rw [esObserve_submitted, slotEvents, slotEvents, List.filter_append]
  split
  · simp [publishedEvent_not_fromSlot hc st]
  · simp

/-- A call on another slot changes nothing here. -/
theorem SlotLaw.step_other {c : ObserveCall} {st : ObserverState} {calls : List ObserveCall}
    (hc : ¬ onSlot d cpu c) (h : SlotLaw cfg d cpu calls st) :
    SlotLaw cfg d cpu calls (esObserve cfg c st).2 := by
  have hev : slotEvents d cpu (esObserve cfg c st).2.submitted = slotEvents d cpu st.submitted :=
    slotEvents_step_other hc st
  have hslot := esObserve_other_slot cfg c st hc
  constructor
  · rw [hslot, h.packets]
  · rw [hslot, h.bytes]
  · rw [hslot, h.selected]
  · rw [hslot, hev, h.events]
  · rw [hslot, hev, h.snapshots]
  · rw [hslot, h.malformed]
  · rw [hslot, h.partials]
  · rw [hslot, hev]
    exact h.balance

/-- **One call on the slot.** -/
theorem SlotLaw.step {c : ObserveCall} {st : ObserverState} {calls : List ObserveCall}
    (hc : onSlot d cpu c) (hwrap : calls.length + 1 < 2 ^ 64)
    (h : SlotLaw cfg d cpu calls st) :
    SlotLaw cfg d cpu (calls ++ [c]) (esObserve cfg c st).2 := by
  have hcount (id : EsCounterId) (hid : id ≠ .flowUpdateFailed) :
      (esObserve cfg c st).2.counters d cpu id =
        st.counters d cpu id + increment cfg c st id := by
    rw [hc.1, hc.2]
    exact esObserve_counters cfg c st hid
  have hev : slotEvents d cpu (esObserve cfg c st).2.submitted = _ := slotEvents_step hc st
  have hlen : (slotEvents d cpu (esObserve cfg c st).2.submitted).length =
      (slotEvents d cpu st.submitted).length + if publishes cfg c st then 1 else 0 := by
    rw [hev]
    split <;> simp
  constructor
  · rw [hcount _ (by decide), h.packets, List.length_append, List.length_singleton, ofNat_succ]
    rfl
  · rw [hcount _ (by decide), h.bytes, totalBytes_concat]
    rfl
  · rw [hcount _ (by decide), h.selected, countP_concat, ofNat_add_ite]
    rfl
  · rw [hcount _ (by decide), h.events, hlen, ofNat_add_ite]
    rfl
  · rw [hcount _ (by decide), h.snapshots, hev]
    by_cases hp : publishes cfg c st
    · rw [if_pos hp, countP_concat, ofNat_add_ite]
      simp [increment, hp, publishedEvent_copyFailed]
    · simp [increment, hp]
  · rw [hcount _ (by decide), h.malformed, countP_concat, ofNat_add_ite]
    rfl
  · rw [hcount _ (by decide), h.partials, countP_concat, ofNat_add_ite]
    rfl
  · obtain ⟨lost, hlost, hbal⟩ := h.balance
    have hle : (calls.countP fun c => selectedBy cfg c) ≤ calls.length := List.countP_le_length
    have hdue : due cfg c st ↔ selectedBy cfg c ∧
        cfg.sampleEvery.toNat ∣ (calls.countP fun c => selectedBy cfg c) + 1 := by
      rw [due, ← hc.1, ← hc.2, h.selected, sampled_iff cfg (by omega)]
    refine ⟨lost + if due cfg c st ∧ c.ringReserved = false then 1 else 0, ?_, ?_⟩
    · rw [hcount _ (by decide), hlost, ofNat_add_ite]
      rfl
    · have hdone : (if publishes cfg c st then 1 else 0) +
          (if due cfg c st ∧ c.ringReserved = false then 1 else 0) =
            if due cfg c st then 1 else 0 := by
        by_cases hd : due cfg c st <;> cases hr : c.ringReserved <;> simp [publishes, hd, hr]
      have hdiv : ((calls.countP fun c => selectedBy cfg c) + if selectedBy cfg c then 1 else 0) /
          cfg.sampleEvery.toNat =
            (calls.countP fun c => selectedBy cfg c) / cfg.sampleEvery.toNat +
              if due cfg c st then 1 else 0 := by
        by_cases hs : selectedBy cfg c
        · rw [if_pos hs, Nat.succ_div]
          simp only [hdue, hs, true_and]
        · rw [if_neg hs, if_neg fun hd => hs hd.1]
          rfl
      rw [hlen, countP_concat, hdiv, ← hbal, ← hdone]
      omega

theorem slotCalls_concat (calls : List ObserveCall) (c : ObserveCall) :
    slotCalls d cpu (calls ++ [c]) =
      slotCalls d cpu calls ++ if onSlot d cpu c then [c] else [] := by
  rw [slotCalls, slotCalls, List.filter_append]
  by_cases hc : onSlot d cpu c <;> simp [hc]

theorem observeAll_concat (calls : List ObserveCall) (c : ObserveCall) (st : ObserverState) :
    observeAll cfg (calls ++ [c]) st = (esObserve cfg c (observeAll cfg calls st)).2 := by
  rw [observeAll, List.foldl_append]
  rfl

/-- The call is on the slot or it is not: either way the law follows the run. -/
theorem SlotLaw.step_any {c : ObserveCall} {st : ObserverState} {calls : List ObserveCall}
    (hwrap : (slotCalls d cpu (calls ++ [c])).length < 2 ^ 64)
    (h : SlotLaw cfg d cpu (slotCalls d cpu calls) st) :
    SlotLaw cfg d cpu (slotCalls d cpu (calls ++ [c])) (esObserve cfg c st).2 := by
  rw [slotCalls_concat] at hwrap ⊢
  by_cases hc : onSlot d cpu c
  · rw [if_pos hc] at hwrap ⊢
    rw [List.length_append, List.length_singleton] at hwrap
    exact h.step hc hwrap
  · rw [if_neg hc, List.append_nil]
    exact h.step_other hc

theorem SlotLaw.init : SlotLaw cfg d cpu [] .init := by
  constructor
  case balance => exact ⟨0, rfl, (Nat.zero_div _).symm⟩
  all_goals rfl

/-- **Every slot tells its own history**, over any run. -/
theorem SlotLaw.run (calls : List ObserveCall)
    (hwrap : (slotCalls d cpu calls).length < 2 ^ 64) :
    SlotLaw cfg d cpu (slotCalls d cpu calls) (observeAll cfg calls .init) := by
  induction calls using List.reverseRecOn with
  | nil => exact .init
  | append_singleton calls c ih =>
      rw [observeAll_concat]
      refine .step_any hwrap (ih (Nat.lt_of_le_of_lt ?_ hwrap))
      rw [slotCalls_concat, List.length_append]
      exact Nat.le_add_right _ _

/-! ## The balance operators read -/

/-- The counters of one slot, read as numbers, after the calls made on it. -/
structure SlotBalance (cfg : Settings) (d : EsDirection) (cpu : UInt32)
    (calls : List ObserveCall) (st : ObserverState) : Prop where
  packets : (st.counters d cpu .packets).toNat = calls.length
  bytes : (st.counters d cpu .bytes).toNat = totalBytes calls
  selected : (st.counters d cpu .selected).toNat = calls.countP fun c => selectedBy cfg c
  sampling : (st.counters d cpu .events).toNat + (st.counters d cpu .ringLost).toNat =
    if cfg.sampleEvery = 0 then 0
    else (st.counters d cpu .selected).toNat / cfg.sampleEvery.toNat
  events : (st.counters d cpu .events).toNat = (slotEvents d cpu st.submitted).length
  snapshotFailed : (st.counters d cpu .snapshotFailed).toNat =
    (slotEvents d cpu st.submitted).countP fun e => e.has esECopyFailed
  parsed : cfg.parses →
    (st.counters d cpu .parseMalformed).toNat + (st.counters d cpu .parsePartial).toNat +
        (calls.countP fun c => parsedStatus cfg c = .ok) =
      (st.counters d cpu .packets).toNat
  unparsed : ¬ cfg.parses →
    st.counters d cpu .parseMalformed = 0 ∧ st.counters d cpu .parsePartial = 0

/-- Every call that parses lands in exactly one of the three classes. -/
theorem countP_parsed (hp : cfg.parses) (calls : List ObserveCall) :
    (calls.countP fun c => cfg.parses ∧ parsedStatus cfg c = .malformed) +
        (calls.countP fun c =>
          cfg.parses ∧ parsedStatus cfg c ≠ .ok ∧ parsedStatus cfg c ≠ .malformed) +
        (calls.countP fun c => parsedStatus cfg c = .ok) = calls.length := by
  induction calls with
  | nil => rfl
  | cons c calls ih =>
      simp only [List.countP_cons, List.length_cons, hp, true_and, ne_eq] at ih ⊢
      cases hs : parsedStatus cfg c <;>
        simp only [reduceCtorEq, not_true_eq_false, not_false_eq_true, and_true, and_false,
          decide_true, decide_false, if_true, Bool.false_eq_true, if_false] <;>
        omega

/-- The law read as numbers, while no counter has wrapped. -/
theorem SlotLaw.balanced {calls : List ObserveCall} {st : ObserverState}
    (hwrap : calls.length < 2 ^ 64) (hbytes : totalBytes calls < 2 ^ 64)
    (h : SlotLaw cfg d cpu calls st) : SlotBalance cfg d cpu calls st := by
  obtain ⟨lost, hlost, hbal⟩ := h.balance
  have small {n : Nat} (hn : n ≤ calls.length) : (UInt64.ofNat n).toNat = n :=
    UInt64.toNat_ofNat_of_lt' (Nat.lt_of_le_of_lt hn hwrap)
  have hsel : (calls.countP fun c => selectedBy cfg c) ≤ calls.length := List.countP_le_length
  have hdiv : (calls.countP fun c => selectedBy cfg c) / cfg.sampleEvery.toNat ≤
      calls.countP fun c => selectedBy cfg c := Nat.div_le_self _ _
  have hsnap : ((slotEvents d cpu st.submitted).countP fun e => e.has esECopyFailed) ≤
      (slotEvents d cpu st.submitted).length := List.countP_le_length
  constructor
  case packets => rw [h.packets, small (Nat.le_refl _)]
  case bytes => rw [h.bytes, UInt64.toNat_ofNat_of_lt' hbytes]
  case selected => rw [h.selected, small hsel]
  case sampling =>
    rw [h.events, hlost, h.selected, small (by omega), small (by omega), small hsel, hbal]
    split
    · next hz => rw [hz, UInt32.toNat_zero, Nat.div_zero]
    · rfl
  case events => rw [h.events, small (by omega)]
  case snapshotFailed => rw [h.snapshots, small (by omega)]
  case parsed =>
    intro hp
    rw [h.malformed, h.partials, h.packets, small List.countP_le_length,
      small List.countP_le_length, small (Nat.le_refl _), countP_parsed hp]
  case unparsed =>
    intro hp
    rw [h.malformed, h.partials]
    simp [hp]

/-- **Observer accounting.**  From freshly loaded maps, after any run of
`es_observe`, every slot balances, as long as its counters have not wrapped. -/
theorem esObserve_accounts (cfg : Settings) (calls : List ObserveCall) (d : EsDirection)
    (cpu : UInt32) (hwrap : (slotCalls d cpu calls).length < 2 ^ 64)
    (hbytes : totalBytes (slotCalls d cpu calls) < 2 ^ 64) :
    SlotBalance cfg d cpu (slotCalls d cpu calls) (observeAll cfg calls .init) :=
  (SlotLaw.run calls hwrap).balanced hwrap hbytes

/-- One tagged UDP packet, with the flow table ready to take it. -/
def udpCall : ObserveCall where
  skb := ⟨taggedUdp.encode, 3, 0, 0, taggedUdp_length⟩
  direction := .ingress
  cpu := 0
  now := 1
  parseLoad := .success
  snapshotLoad := .success
  ringReserved := true
  flowInsert := ⟨true, fun _ => false⟩

/-- A packet of one byte. -/
def oneByte : SkBuff := ⟨[1], 3, 0, 0, by decide⟩

/-- UDP packets on one slot with a one-byte packet between them: the ring is full
in the middle, the last copies fail, and one packet is seen on another CPU. -/
def mixedRun : List ObserveCall :=
  [udpCall, udpCall, { udpCall with skb := oneByte },
    { udpCall with ringReserved := false }, { udpCall with ringReserved := false },
    { udpCall with snapshotLoad := .failure [] }, { udpCall with snapshotLoad := .failure [] },
    { udpCall with cpu := 1 }]

/-- With every second UDP packet sampled, one event is lost to the ring and two are
submitted, the second one without its snapshot. -/
theorem esObserve_accounts_mixedRun :
    SlotBalance ⟨2, 16, 1, 1, 17⟩ .ingress 0 (slotCalls .ingress 0 mixedRun)
        (observeAll ⟨2, 16, 1, 1, 17⟩ mixedRun .init) ∧
      [EsCounterId.packets, .parseMalformed, .selected, .events, .ringLost, .snapshotFailed].map
        ((observeAll ⟨2, 16, 1, 1, 17⟩ mixedRun .init).counters .ingress 0) = [7, 1, 6, 2, 1, 1] :=
  ⟨esObserve_accounts ⟨2, 16, 1, 1, 17⟩ mixedRun .ingress 0 (by decide) (by decide),
    by decide +kernel⟩

end ElephantShrew.Bpf
