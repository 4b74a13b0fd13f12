import ElephantShrew.Bpf.ObserverAccounting

/-!
# Sequence numbers of events

An event carries the packet count of its slot.  The sampling decision is taken
on another counter and a sample lost to the ring never becomes an event, so
what a gap between two sequence numbers means is a law about the whole history
of the slot: `SlotLaw`, read at the two packets.
-/

namespace ElephantShrew.Bpf

open ElephantShrew.Verified

section Submits

variable (cfg : Settings) (d : EsDirection) (cpu : UInt32)

/-- The events of a slot after a run from freshly loaded maps. -/
def eventsAfter (calls : List ObserveCall) : List EsEvent :=
  slotEvents d cpu (observeAll cfg calls .init).submitted

/-- A counter of a slot after a run from freshly loaded maps. -/
def counterAfter (calls : List ObserveCall) (id : EsCounterId) : UInt64 :=
  (observeAll cfg calls .init).counters d cpu id

/-- The run `upto` ends with the packet whose event is `e`; `earlier` are the
events of the slot before it. -/
def Submits (upto : List ObserveCall) (earlier : List EsEvent) (e : EsEvent) : Prop :=
  ∃ before c, upto = before ++ [c] ∧ onSlot d cpu c ∧ eventsAfter cfg d cpu before = earlier ∧
    eventsAfter cfg d cpu upto = earlier ++ [e]

/-- What the sequence numbers of a slot say about a run. -/
structure SequenceLaw (calls : List ObserveCall) : Prop where
  /-- they increase strictly -/
  increasing : (eventsAfter cfg d cpu calls).Pairwise fun e e' => e.sequence < e'.sequence
  /-- every event has its packet in the run -/
  located : ∀ earlier e later, eventsAfter cfg d cpu calls = earlier ++ e :: later →
    ∃ upto, upto <+: calls ∧ Submits cfg d cpu upto earlier e
  /-- each is the packet count at its packet -/
  packets : ∀ upto earlier e, upto <+: calls → Submits cfg d cpu upto earlier e →
    e.sequence = counterAfter cfg d cpu upto .packets ∧
      e.sequence.toNat = (slotCalls d cpu upto).length
  /-- without a selection every one is a multiple of `sample_every` -/
  multiples : cfg.selectL4Proto = 0 → ∀ e ∈ eventsAfter cfg d cpu calls,
    cfg.sampleEvery.toNat ∣ e.sequence.toNat
  /-- and the samples lost between two consecutive events are the missing multiples -/
  losses : cfg.selectL4Proto = 0 → ∀ upto upto' earlier e e', upto <+: calls → upto' <+: calls →
    Submits cfg d cpu upto earlier e → Submits cfg d cpu upto' (earlier ++ [e]) e' →
      (counterAfter cfg d cpu upto' .ringLost).toNat =
        (counterAfter cfg d cpu upto .ringLost).toNat +
          ((e'.sequence.toNat - e.sequence.toNat) / cfg.sampleEvery.toNat - 1)

end Submits

variable {cfg : Settings} {d : EsDirection} {cpu : UInt32}

theorem publishedEvent_sequence (c : ObserveCall) (st : ObserverState) :
    (publishedEvent cfg c st).sequence = st.counters c.direction c.cpu .packets + 1 := by
  rw [publishedEvent_frame]
  rfl

/-- The events after one more call. -/
theorem eventsAfter_concat (calls : List ObserveCall) (c : ObserveCall) :
    eventsAfter cfg d cpu (calls ++ [c]) = eventsAfter cfg d cpu calls ++
      if onSlot d cpu c ∧ publishes cfg c (observeAll cfg calls .init) then
        [publishedEvent cfg c (observeAll cfg calls .init)]
      else [] := by
  rw [eventsAfter, observeAll_concat]
  by_cases hc : onSlot d cpu c
  · rw [slotEvents_step hc]
    simp only [hc, true_and]
    rfl
  · rw [slotEvents_step_other hc, if_neg (fun h => hc h.1), List.append_nil]
    rfl

/-- What submitting an event takes. -/
theorem Submits.cases {upto : List ObserveCall} {earlier : List EsEvent} {e : EsEvent}
    (h : Submits cfg d cpu upto earlier e) :
    ∃ before c, upto = before ++ [c] ∧ onSlot d cpu c ∧
      eventsAfter cfg d cpu before = earlier ∧
      publishes cfg c (observeAll cfg before .init) ∧
      e = publishedEvent cfg c (observeAll cfg before .init) := by
  obtain ⟨before, c, rfl, hc, hearlier, hevents⟩ := h
  rw [eventsAfter_concat, hearlier] at hevents
  have hnew := List.append_cancel_left hevents
  by_cases hp : publishes cfg c (observeAll cfg before .init)
  · rw [if_pos ⟨hc, hp⟩] at hnew
    exact ⟨before, c, rfl, hc, hearlier, hp, (List.singleton_inj.mp hnew).symm⟩
  · rw [if_neg (fun h => hp h.2)] at hnew
    cases hnew

/-- The slot's calls of an initial part of a run. -/
theorem length_slotCalls_le {upto calls : List ObserveCall} (h : upto <+: calls) :
    (slotCalls d cpu upto).length ≤ (slotCalls d cpu calls).length :=
  (h.sublist.filter _).length_le

theorem slotCalls_concat_self (before : List ObserveCall) {c : ObserveCall}
    (hc : onSlot d cpu c) : slotCalls d cpu (before ++ [c]) = slotCalls d cpu before ++ [c] := by
  rw [slotCalls_concat, if_pos hc]

/-- **The sequence number is the packet count.** -/
theorem Submits.sequence {upto : List ObserveCall} {earlier : List EsEvent} {e : EsEvent}
    (h : Submits cfg d cpu upto earlier e) (hwrap : (slotCalls d cpu upto).length < 2 ^ 64) :
    e.sequence = counterAfter cfg d cpu upto .packets ∧
      e.sequence.toNat = (slotCalls d cpu upto).length := by
  have hslot : SlotLaw cfg d cpu (slotCalls d cpu upto) (observeAll cfg upto .init) :=
    SlotLaw.run upto hwrap
  have hlaw := hslot.packets
  obtain ⟨before, c, rfl, hc, -, -, rfl⟩ := h.cases
  have hcount : (publishedEvent cfg c (observeAll cfg before .init)).sequence =
      counterAfter cfg d cpu (before ++ [c]) .packets := by
    rw [publishedEvent_sequence, counterAfter, observeAll_concat, hc.1, hc.2,
      esObserve_counters cfg c _ (by decide)]
    rfl
  refine ⟨hcount, ?_⟩
  rw [hcount, counterAfter, hlaw, UInt64.toNat_ofNat_of_lt' hwrap]

/-- Every event has its packet in the run. -/
theorem Submits.exists (calls : List ObserveCall) :
    ∀ earlier e later, eventsAfter cfg d cpu calls = earlier ++ e :: later →
      ∃ upto, upto <+: calls ∧ Submits cfg d cpu upto earlier e := by
  induction calls using List.reverseRecOn with
  | nil =>
      intro earlier e later h
      cases earlier <;> cases h
  | append_singleton calls c ih =>
      intro earlier e later h
      have hbefore : ∀ later', eventsAfter cfg d cpu calls = earlier ++ e :: later' →
          ∃ upto, upto <+: calls ++ [c] ∧ Submits cfg d cpu upto earlier e := by
        intro later' h'
        obtain ⟨upto, hupto, hsub⟩ := ih earlier e later' h'
        exact ⟨upto, hupto.trans (List.prefix_append _ _), hsub⟩
      have hconcat := h
      rw [eventsAfter_concat] at hconcat
      split at hconcat
      · next hnew =>
          -- the event is the new one, or it was there before
          rcases List.eq_nil_or_concat later with rfl | ⟨later', last, rfl⟩
          · obtain ⟨hearlier, -⟩ := List.append_inj' hconcat rfl
            exact ⟨calls ++ [c], List.prefix_rfl, calls, c, rfl, hnew.1, hearlier, h⟩
          · rw [List.concat_eq_append, ← List.cons_append, ← List.append_assoc] at hconcat
            obtain ⟨hsame, -⟩ := List.append_inj' hconcat rfl
            exact hbefore later' hsame
      · rw [List.append_nil] at hconcat
        exact hbefore later hconcat

/-- No event is ahead of the packet count. -/
theorem sequence_le {calls : List ObserveCall} (hwrap : (slotCalls d cpu calls).length < 2 ^ 64)
    {e : EsEvent} (he : e ∈ eventsAfter cfg d cpu calls) :
    e.sequence.toNat ≤ (slotCalls d cpu calls).length := by
  obtain ⟨earlier, later, hsplit⟩ := List.append_of_mem he
  obtain ⟨upto, hupto, hsub⟩ := Submits.exists calls earlier e later hsplit
  have hle : (slotCalls d cpu upto).length ≤ (slotCalls d cpu calls).length :=
    length_slotCalls_le hupto
  rw [(hsub.sequence (by omega)).2]
  exact hle

theorem increasing_run (calls : List ObserveCall)
    (hwrap : (slotCalls d cpu calls).length < 2 ^ 64) :
    (eventsAfter cfg d cpu calls).Pairwise fun e e' => e.sequence < e'.sequence := by
  induction calls using List.reverseRecOn with
  | nil => exact List.Pairwise.nil
  | append_singleton calls c ih =>
      have hle : (slotCalls d cpu calls).length ≤ (slotCalls d cpu (calls ++ [c])).length :=
        length_slotCalls_le (List.prefix_append calls [c])
      have hold := ih (by omega)
      rw [eventsAfter_concat]
      split
      · next hnew =>
          have hsub : Submits cfg d cpu (calls ++ [c]) (eventsAfter cfg d cpu calls)
              (publishedEvent cfg c (observeAll cfg calls .init)) :=
            ⟨calls, c, rfl, hnew.1, rfl, by rw [eventsAfter_concat, if_pos hnew]⟩
          have hseq := (hsub.sequence hwrap).2
          rw [slotCalls_concat_self calls hnew.1, List.length_append] at hseq
          refine List.pairwise_append.mpr ⟨hold, List.pairwise_singleton _ _, ?_⟩
          intro e he e' he'
          rw [List.mem_singleton.mp he', UInt64.lt_iff_toNat_lt, hseq]
          exact Nat.lt_succ_of_le (sequence_le (by omega) he)
      · rw [List.append_nil]
        exact hold

/-- Consecutive events of a slot. -/
theorem Submits.lt {upto' : List ObserveCall} {earlier : List EsEvent} {e e' : EsEvent}
    (h' : Submits cfg d cpu upto' (earlier ++ [e]) e')
    (hwrap : (slotCalls d cpu upto').length < 2 ^ 64) :
    e.sequence.toNat < e'.sequence.toNat := by
  obtain ⟨-, -, -, -, -, hevents⟩ := h'
  have hinc : (eventsAfter cfg d cpu upto').Pairwise fun e e' => e.sequence < e'.sequence :=
    increasing_run upto' hwrap
  rw [hevents] at hinc
  have hpair := (List.pairwise_append.mp hinc).2.2 e (by simp) e' (by simp)
  exact UInt64.lt_iff_toNat_lt.mp hpair

/-- Without a selection every packet of the slot is selected. -/
theorem countP_selectedBy (hsel : cfg.selectL4Proto = 0) (calls : List ObserveCall) :
    (calls.countP fun c => selectedBy cfg c) = calls.length := by
  rw [List.countP_eq_length]
  intro c _
  exact decide_eq_true (Or.inl hsel)

/-- Without a selection an event's packet count is sampled. -/
theorem Submits.dvd {upto : List ObserveCall} {earlier : List EsEvent} {e : EsEvent}
    (h : Submits cfg d cpu upto earlier e) (hsel : cfg.selectL4Proto = 0)
    (hwrap : (slotCalls d cpu upto).length < 2 ^ 64) :
    cfg.sampleEvery.toNat ∣ e.sequence.toNat := by
  rw [(h.sequence hwrap).2]
  obtain ⟨before, c, rfl, hc, -, hp, -⟩ := h.cases
  rw [slotCalls_concat_self before hc, List.length_append, List.length_singleton] at hwrap ⊢
  have hslot : SlotLaw cfg d cpu (slotCalls d cpu before) (observeAll cfg before .init) :=
    SlotLaw.run before (by omega)
  have hselected := hslot.selected
  rw [countP_selectedBy hsel] at hselected
  have hsampled := hp.1.2
  rw [← hc.1, ← hc.2, hselected] at hsampled
  exact (sampled_iff cfg hwrap).mp hsampled

/-- Events and losses up to an event are its multiple of `sample_every`. -/
theorem Submits.balance {upto : List ObserveCall} {earlier : List EsEvent} {e : EsEvent}
    (h : Submits cfg d cpu upto earlier e) (hsel : cfg.selectL4Proto = 0)
    (hwrap : (slotCalls d cpu upto).length < 2 ^ 64) :
    earlier.length + 1 + (counterAfter cfg d cpu upto .ringLost).toNat =
      e.sequence.toNat / cfg.sampleEvery.toNat := by
  have hslot : SlotLaw cfg d cpu (slotCalls d cpu upto) (observeAll cfg upto .init) :=
    SlotLaw.run upto hwrap
  obtain ⟨lost, hlost, hbal⟩ := hslot.balance
  rw [countP_selectedBy hsel] at hbal
  have hle := Nat.div_le_self (slotCalls d cpu upto).length cfg.sampleEvery.toNat
  have hlt : lost < 2 ^ 64 := by omega
  rw [(h.sequence hwrap).2, counterAfter, hlost, UInt64.toNat_ofNat_of_lt' hlt, ← hbal]
  obtain ⟨-, -, -, -, -, hevents⟩ := h
  have hcount : (slotEvents d cpu (observeAll cfg upto .init).submitted).length =
      earlier.length + 1 := by
    rw [← eventsAfter, hevents, List.length_append, List.length_singleton]
  rw [hcount]

/-- **Sequence numbers locate every loss.**  Over every run on a slot whose
packet counter has not wrapped the sequence numbers increase, each is the
packet count at its packet, and without a selection they are multiples of
`sample_every` with one multiple missing between consecutive events for each
sample lost to the ring. -/
theorem esObserve_sequences (cfg : Settings) (calls : List ObserveCall) (d : EsDirection)
    (cpu : UInt32) (hwrap : (slotCalls d cpu calls).length < 2 ^ 64) :
    SequenceLaw cfg d cpu calls := by
  have hlt : ∀ upto, upto <+: calls → (slotCalls d cpu upto).length < 2 ^ 64 :=
    fun upto hupto => Nat.lt_of_le_of_lt (length_slotCalls_le hupto) hwrap
  constructor
  case increasing => exact increasing_run calls hwrap
  case located => exact Submits.exists calls
  case packets => exact fun upto earlier e hupto hsub => hsub.sequence (hlt upto hupto)
  case multiples =>
    intro hsel e he
    obtain ⟨earlier, later, hsplit⟩ := List.append_of_mem he
    obtain ⟨upto, hupto, hsub⟩ := Submits.exists calls earlier e later hsplit
    exact hsub.dvd hsel (hlt upto hupto)
  case losses =>
    intro hsel upto upto' earlier e e' hupto hupto' hsub hsub'
    have hbal := hsub.balance hsel (hlt upto hupto)
    have hbal' := hsub'.balance hsel (hlt upto' hupto')
    rw [List.length_append, List.length_singleton] at hbal'
    have hseq : e.sequence.toNat < e'.sequence.toNat := hsub'.lt (hlt upto' hupto')
    have hnext := Nat.div_lt_div_of_lt_of_dvd (hsub'.dvd hsel (hlt upto' hupto')) hseq
    have hdiv : (e'.sequence.toNat - e.sequence.toNat) / cfg.sampleEvery.toNat =
        e'.sequence.toNat / cfg.sampleEvery.toNat - e.sequence.toNat / cfg.sampleEvery.toNat := by
      obtain ⟨k, hk⟩ := hsub.dvd hsel (hlt upto hupto)
      have hmul : cfg.sampleEvery.toNat * (e.sequence.toNat / cfg.sampleEvery.toNat) =
          e.sequence.toNat := Nat.mul_div_cancel' ⟨k, hk⟩
      rw [← Nat.sub_mul_div, hmul]
    rw [hdiv]
    omega

/-- With every second packet sampled the second event comes four packets after the
first, and the one between them was lost. -/
theorem esObserve_sequences_mixedRun :
    SequenceLaw ⟨2, 16, 1, 1, 0⟩ .ingress 0 mixedRun ∧
      (slotEvents .ingress 0 (observeAll ⟨2, 16, 1, 1, 0⟩ mixedRun .init).submitted).map
        EsEvent.sequence = [2, 6] ∧
      (observeAll ⟨2, 16, 1, 1, 0⟩ mixedRun .init).counters .ingress 0 .ringLost = 1 :=
  ⟨esObserve_sequences ⟨2, 16, 1, 1, 0⟩ mixedRun .ingress 0 (by decide), by decide +kernel,
    by decide +kernel⟩

end ElephantShrew.Bpf
