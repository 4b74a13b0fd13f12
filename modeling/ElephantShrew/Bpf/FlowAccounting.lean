import ElephantShrew.Bpf.ObserverAccounting

/-!
# Flow accounting

The `flows` map is a per-CPU map that may refuse an insert, and may drop any
other entries to make room for one.  What a call does to it is one of three
things (`FlowStep`), and a slot that is live at the end of a run tells the
packets counted in it since its entry was created (`FlowTells`).

A slot counts packets and bytes in 64 bits and takes a packet count of zero for
a fresh slot, so `first_ns` belongs to the packet that last found the count at
zero.
-/

namespace ElephantShrew.Bpf

open ElephantShrew.Verified

/-! ## One call -/

/-- The packet is one to count: parsed to the end, with ports. -/
def qualifies (cfg : Settings) (c : ObserveCall) : Prop :=
  (c.parsed cfg).1 = .ok ∧ (c.parsed cfg).2.has esTPortsValid

instance (cfg : Settings) (c : ObserveCall) : Decidable (qualifies cfg c) :=
  inferInstanceAs (Decidable (_ ∧ _))

/-- The key a packet is counted under. -/
def keyOf (cfg : Settings) (c : ObserveCall) : EsFlowKey :=
  flowKey c.skb c.direction (c.parsed cfg).2

/-- `FLOW_UPDATE_FAILED` of a slot. -/
def ObserverState.failed (st : ObserverState) (d : EsDirection) (cpu : UInt32) : UInt64 :=
  st.counters d cpu .flowUpdateFailed

/-- Entries under other keys are kept as they are, or dropped. -/
def KeepsOthers (flows flows' : Flows) (key : EsFlowKey) : Prop :=
  ∀ k, k ≠ key → flows' k = flows k ∨ flows' k = none

/-- What a call does to the flow table and to `FLOW_UPDATE_FAILED`. -/
inductive FlowStep (cfg : Settings) (c : ObserveCall) (st st' : ObserverState) : Prop
  /-- the packet is added to the slot of its key and CPU, in an entry that was there
  or in a new one -/
  | added (h : qualifies cfg c) (old : UInt32 → EsFlowValue)
      (hold : st.flows (keyOf cfg c) = some old ∨
        st.flows (keyOf cfg c) = none ∧ old = fun _ => EsFlowValue.zero)
      (hnew : st'.flows (keyOf cfg c) =
        some (Function.update old c.cpu ((old c.cpu).count c.skb.len c.now)))
      (hothers : KeepsOthers st.flows st'.flows (keyOf cfg c))
      (hfailed : ∀ d cpu, st'.failed d cpu = st.failed d cpu)
  /-- there is no entry and none can be created -/
  | failed (h : qualifies cfg c) (hold : st.flows (keyOf cfg c) = none)
      (hrefused : c.flowInsert.created = false)
      (hnew : st'.flows (keyOf cfg c) = none)
      (hothers : KeepsOthers st.flows st'.flows (keyOf cfg c))
      (hfailed : ∀ d cpu, st'.failed d cpu =
        st.failed d cpu + if onSlot d cpu c then 1 else 0)
  /-- the packet is not one to count -/
  | other (h : ¬ qualifies cfg c) (hflows : st'.flows = st.flows)
      (hfailed : ∀ d cpu, st'.failed d cpu = st.failed d cpu)

/-- The flow table after a call is the one of the counting block. -/
theorem esObserve_flows (cfg : Settings) (c : ObserveCall) (st : ObserverState) :
    (esObserve cfg c st).2.flows = (esObserveCount cfg c st).2 := by
  simp only [esObserve]
  split
  · rfl
  · split
    · rfl
    · split <;> rfl

/-- So is `FLOW_UPDATE_FAILED`. -/
theorem esObserve_failed (cfg : Settings) (c : ObserveCall) (st : ObserverState) :
    (esObserve cfg c st).2.failed c.direction c.cpu =
      (esObserveCount cfg c st).1 .flowUpdateFailed := by
  simp only [esObserve, ObserverState.failed, ObserverState.setSlot]
  split
  · simp
  · split
    · simp
    · split
      · simp only [and_self, if_true, takeSnapshot_snd]
        split <;> simp
      · simp

/-- The counters before the flow is counted. -/
theorem countStatus_failed (s : EsCounters) (status : EsParseStatus) :
    countStatus s status .flowUpdateFailed = s .flowUpdateFailed :=
  countStatus_ne s status (by decide) (by decide)

/-- The map after the insert of an absent key. -/
theorem Flows.insert_self (flows : Flows) (key : EsFlowKey) (o : FlowInsert)
    (h : flows key = none) :
    flows.insert key o key = if o.created then some fun _ => EsFlowValue.zero else none := by
  rw [Flows.insert, if_pos rfl, h]

theorem Flows.insert_others (flows : Flows) (key : EsFlowKey) (o : FlowInsert) :
    KeepsOthers flows (flows.insert key o) key := by
  intro k hk
  rw [Flows.insert, if_neg hk]
  split
  · exact Or.inr rfl
  · exact Or.inl rfl

/-- The three outcomes of counting a flow. -/
theorem esCountFlow_cases {cfg : Settings} {c : ObserveCall} (h : qualifies cfg c)
    (s : EsCounters) (flows : Flows) :
    (∃ old, (flows (keyOf cfg c) = some old ∨
        flows (keyOf cfg c) = none ∧ old = fun _ => EsFlowValue.zero) ∧
      (esCountFlow c (c.parsed cfg).2 s flows).2 (keyOf cfg c) =
        some (Function.update old c.cpu ((old c.cpu).count c.skb.len c.now)) ∧
      KeepsOthers flows (esCountFlow c (c.parsed cfg).2 s flows).2 (keyOf cfg c) ∧
      (esCountFlow c (c.parsed cfg).2 s flows).1 = s) ∨
    (flows (keyOf cfg c) = none ∧ c.flowInsert.created = false ∧
      (esCountFlow c (c.parsed cfg).2 s flows).2 (keyOf cfg c) = none ∧
      KeepsOthers flows (esCountFlow c (c.parsed cfg).2 s flows).2 (keyOf cfg c) ∧
      (esCountFlow c (c.parsed cfg).2 s flows).1 = s.add .flowUpdateFailed 1) := by
  have hkey : flowKey c.skb c.direction (c.parsed cfg).2 = keyOf cfg c := rfl
  simp only [esCountFlow]
  rw [if_neg (not_not.mpr h.2)]
  simp only [hkey]
  generalize keyOf cfg c = key
  have store : ∀ (flows' : Flows) (v : UInt32 → EsFlowValue), KeepsOthers flows flows' key →
      KeepsOthers flows (Function.update flows' key (some v)) key := by
    intro flows' v hkeeps k hk
    rw [Function.update_of_ne hk]
    exact hkeeps k hk
  cases hold : flows key with
  | some old =>
      left
      simp only [Option.isNone_some, Bool.false_eq_true, if_false, hold]
      exact ⟨old, Or.inl rfl, Function.update_self .., store flows _ fun _ _ => Or.inl rfl, trivial⟩
  | none =>
      simp only [Option.isNone_none, if_true, Flows.insert_self flows key c.flowInsert hold]
      by_cases hcreated : c.flowInsert.created = true
      · left
        simp only [hcreated, if_true]
        exact ⟨_, Or.inr ⟨trivial, rfl⟩, Function.update_self ..,
          store _ _ (flows.insert_others key c.flowInsert), trivial⟩
      · right
        have hnot : c.flowInsert.created = false := Bool.not_eq_true _ ▸ hcreated
        simp only [hnot, Bool.false_eq_true, if_false]
        refine ⟨trivial, trivial, ?_, flows.insert_others key c.flowInsert, trivial⟩
        rw [Flows.insert_self flows key c.flowInsert hold, if_neg hcreated]

/-- **One call.**  A packet to count is added to exactly one slot or counted as
failed exactly once; any other packet leaves both alone. -/
theorem esObserve_flowStep {cfg : Settings} (hflow : cfg.flowEnabled ≠ 0) (c : ObserveCall)
    (st : ObserverState) : FlowStep cfg c st (esObserve cfg c st).2 := by
  have hother : ∀ d cpu, ¬ onSlot d cpu c →
      (esObserve cfg c st).2.failed d cpu = st.failed d cpu := by
    intro d cpu hc
    simp only [ObserverState.failed, esObserve_other_slot cfg c st hc]
  -- the slot's counters when the flow is counted
  have hbefore : ∃ s : EsCounters,
      s .flowUpdateFailed = st.failed c.direction c.cpu ∧
      esObserveCount cfg c st =
        if (c.parsed cfg).1 = .ok then
          esCountFlow c (c.parsed cfg).2 s st.flows
        else (s, st.flows) := by
    refine ⟨if cfg.parses then countStatus (((st.counters c.direction c.cpu).add .packets 1).add
      .bytes c.skb.len.toUInt64) (c.parsed cfg).1 else
        ((st.counters c.direction c.cpu).add .packets 1).add .bytes c.skb.len.toUInt64, ?_, ?_⟩
    · split
      · rw [countStatus_failed]
        simp [ObserverState.failed]
      · simp [ObserverState.failed]
    · simp only [esObserveCount, esObserveParse_eq, hflow, ne_eq, not_false_eq_true, true_and]
  obtain ⟨s, hs, hcount⟩ := hbefore
  have hslot : (esObserve cfg c st).2.failed c.direction c.cpu = _ := esObserve_failed cfg c st
  have hflows := esObserve_flows cfg c st
  by_cases hq : qualifies cfg c
  · rw [if_pos hq.1] at hcount
    rcases esCountFlow_cases hq s st.flows with
      ⟨old, hold, hnew, hothers, hsame⟩ | ⟨hold, hrefused, hnew, hothers, hsame⟩
    · refine .added hq old hold ?_ ?_ ?_
      · rw [hflows, hcount, hnew]
      · rw [hflows, hcount]
        exact hothers
      · intro d cpu
        by_cases hc : onSlot d cpu c
        · rw [hc.1, hc.2, hslot, hcount, hsame, hs]
        · exact hother d cpu hc
    · refine .failed hq hold hrefused ?_ ?_ ?_
      · rw [hflows, hcount, hnew]
      · rw [hflows, hcount]
        exact hothers
      · intro d cpu
        by_cases hc : onSlot d cpu c
        · rw [if_pos hc, hc.1, hc.2, hslot, hcount, hsame, EsCounters.add_self, hs]
        · rw [if_neg hc, hother d cpu hc, UInt64.add_zero]
  · have hcount' : esObserveCount cfg c st = (s, st.flows) := by
      rw [hcount]
      split
      · next hok =>
          have hports : ¬ (c.parsed cfg).2.has esTPortsValid := fun h => hq ⟨hok, h⟩
          rw [esCountFlow, if_pos hports]
      · rfl
    refine .other hq ?_ ?_
    · rw [hflows, hcount']
    · intro d cpu
      by_cases hc : onSlot d cpu c
      · rw [hc.1, hc.2, hslot, hcount']
        exact hs
      · exact hother d cpu hc

/-! ## What a slot tells -/

/-- The packets of a list counted under a key on a CPU. -/
def flowCalls (cfg : Settings) (key : EsFlowKey) (cpu : UInt32) (calls : List ObserveCall) :
    List ObserveCall :=
  calls.filter fun c => qualifies cfg c ∧ keyOf cfg c = key ∧ c.cpu = cpu

/-- The place of the packet that found the count of `n` packets at zero last. -/
def restart (n : Nat) : Nat := (n - 1) / 2 ^ 64 * 2 ^ 64

theorem restart_eq_zero {n : Nat} (h : n ≤ 2 ^ 64) : restart n = 0 := by
  unfold restart
  omega

/-- A slot tells the packets counted in it: their number and total length in
64 bits, the times of the first and of the last.  Without packets it is zero. -/
structure SlotTells (l : List ObserveCall) (v : EsFlowValue) : Prop where
  packets : v.packets = UInt64.ofNat l.length
  bytes : v.bytes = UInt64.ofNat (totalBytes l)
  first : ∀ c, l[restart l.length]? = some c → v.firstNs = c.now
  last : ∀ c, l.getLast? = some c → v.lastNs = c.now
  fresh : l = [] → v = EsFlowValue.zero

theorem SlotTells.nil : SlotTells [] EsFlowValue.zero where
  packets := rfl
  bytes := rfl
  first := by simp
  last := by simp
  fresh _ := rfl

/-- Up to `2 ^ 64` packets `first_ns` is the time of the first one. -/
theorem SlotTells.head {l : List ObserveCall} {v : EsFlowValue} (h : SlotTells l v)
    (hlen : l.length ≤ 2 ^ 64) {c : ObserveCall} (hc : l.head? = some c) : v.firstNs = c.now := by
  apply h.first
  rw [restart_eq_zero hlen, ← List.head?_eq_getElem?, hc]

/-- **One more packet.** -/
theorem SlotTells.count {l : List ObserveCall} {v : EsFlowValue} (h : SlotTells l v)
    (c : ObserveCall) : SlotTells (l ++ [c]) (v.count c.skb.len c.now) := by
  have hlen : (l ++ [c]).length = l.length + 1 := List.length_append
  constructor
  · rw [hlen, ofNat_succ, ← h.packets]
    rfl
  · show v.bytes + c.skb.len.toUInt64 = _
    rw [h.bytes, totalBytes_concat]
  · intro first hfirst
    rw [hlen] at hfirst
    by_cases hzero : v.packets = 0
    · -- the count is at zero, so this packet starts it again
      have hmod : l.length % 2 ^ 64 = 0 := by
        rw [h.packets, ← UInt64.toNat_inj, UInt64.toNat_ofNat'] at hzero
        exact hzero
      have hrestart : restart (l.length + 1) = l.length := by
        unfold restart
        omega
      rw [hrestart, List.getElem?_concat_length] at hfirst
      injection hfirst with hfirst
      rw [← hfirst]
      exact if_pos hzero
    · have hmod : l.length % 2 ^ 64 ≠ 0 := by
        rw [h.packets, ← UInt64.toNat_inj, UInt64.toNat_ofNat'] at hzero
        exact hzero
      have hrestart : restart (l.length + 1) = restart l.length := by
        unfold restart
        omega
      have hinside : restart l.length < l.length := by
        unfold restart
        omega
      rw [hrestart, List.getElem?_append_left hinside] at hfirst
      rw [← h.first first hfirst]
      exact if_neg hzero
  · intro last hlast
    rw [List.getLast?_concat] at hlast
    injection hlast with hlast
    rw [← hlast]
    rfl
  · intro hnil
    exact absurd hnil (by simp)

/-- The slot's times are in order when the clock is. -/
theorem SlotTells.ordered {l : List ObserveCall} {v : EsFlowValue} (h : SlotTells l v)
    (hclock : l.Pairwise fun c c' => c.now ≤ c'.now) : v.firstNs ≤ v.lastNs := by
  rcases List.eq_nil_or_concat l with rfl | ⟨l', last, rfl⟩
  · rw [h.fresh rfl]
    exact UInt64.le_refl _
  · rw [List.concat_eq_append] at h hclock
    rw [h.last last List.getLast?_concat]
    have hinside : restart (l' ++ [last]).length < (l' ++ [last]).length := by
      rw [List.length_append, List.length_singleton]
      unfold restart
      omega
    have hget := List.getElem?_eq_getElem hinside
    rw [h.first _ hget]
    rcases List.mem_append.mp (List.getElem_mem hinside) with hmem | hmem
    · exact (List.pairwise_append.mp hclock).2.2 _ hmem last (List.mem_singleton_self last)
    · rw [List.mem_singleton.mp hmem]
      exact UInt64.le_refl _

/-! ## Live entries -/

section Live

variable (cfg : Settings)

/-- The entry of a key after a run from freshly loaded maps. -/
def entryAfter (calls : List ObserveCall) (key : EsFlowKey) : Option (UInt32 → EsFlowValue) :=
  (observeAll cfg calls .init).flows key

/-- `since` are the calls of a run from the one that created the entry on: the
entry was not there before it, and was there after it and ever since. -/
def LiveSince (calls : List ObserveCall) (key : EsFlowKey) (since : List ObserveCall) : Prop :=
  ∃ before c rest, since = c :: rest ∧ calls = before ++ since ∧
    entryAfter cfg before key = none ∧
    ∀ more, more <+: rest → (entryAfter cfg (before ++ c :: more) key).isSome

/-- A live entry tells, for every CPU, the packets since it was created. -/
def FlowTells (calls : List ObserveCall) : Prop :=
  ∀ key f, entryAfter cfg calls key = some f →
    ∃ since, LiveSince cfg calls key since ∧
      ∀ cpu, SlotTells (flowCalls cfg key cpu since) (f cpu)

/-- What a run with the flow table on does. -/
structure FlowLaw (calls : List ObserveCall) : Prop where
  /-- every packet to count is added to one slot or counted as failed, once -/
  steps : ∀ before c, before ++ [c] <+: calls →
    FlowStep cfg c (observeAll cfg before .init) (observeAll cfg (before ++ [c]) .init)
  /-- every live slot tells its packets -/
  tells : FlowTells cfg calls
  ordered : ∀ key f cpu, entryAfter cfg calls key = some f → (f cpu).firstNs ≤ (f cpu).lastNs

end Live

variable {cfg : Settings} {key : EsFlowKey}

theorem flowCalls_concat (key : EsFlowKey) (cpu : UInt32) (l : List ObserveCall)
    (c : ObserveCall) :
    flowCalls cfg key cpu (l ++ [c]) = flowCalls cfg key cpu l ++
      if qualifies cfg c ∧ keyOf cfg c = key ∧ c.cpu = cpu then [c] else [] := by
  rw [flowCalls, flowCalls, List.filter_append]
  split
  · next h => simp [h]
  · next h => simp [h]

/-- A packet that is not counted under the key. -/
theorem flowCalls_concat_other {c : ObserveCall} (h : ¬ (qualifies cfg c ∧ keyOf cfg c = key))
    (cpu : UInt32) (l : List ObserveCall) :
    flowCalls cfg key cpu (l ++ [c]) = flowCalls cfg key cpu l := by
  rw [flowCalls_concat, if_neg (fun hall => h ⟨hall.1, hall.2.1⟩), List.append_nil]

/-- A packet counted under the key. -/
theorem tells_update {l : List ObserveCall} {old : UInt32 → EsFlowValue} {c : ObserveCall}
    (h : ∀ cpu, SlotTells (flowCalls cfg (keyOf cfg c) cpu l) (old cpu))
    (hq : qualifies cfg c) (cpu : UInt32) :
    SlotTells (flowCalls cfg (keyOf cfg c) cpu (l ++ [c]))
      (Function.update old c.cpu ((old c.cpu).count c.skb.len c.now) cpu) := by
  rw [flowCalls_concat]
  by_cases hcpu : c.cpu = cpu
  · subst hcpu
    rw [if_pos ⟨hq, rfl, rfl⟩, Function.update_self]
    exact (h c.cpu).count c
  · rw [if_neg (fun hall => hcpu hall.2.2), List.append_nil,
      Function.update_of_ne (Ne.symm hcpu)]
    exact h cpu

theorem LiveSince.concat {calls since : List ObserveCall} (h : LiveSince cfg calls key since)
    (c : ObserveCall) (hlive : (entryAfter cfg (calls ++ [c]) key).isSome) :
    LiveSince cfg (calls ++ [c]) key (since ++ [c]) := by
  obtain ⟨before, c₀, rest, rfl, rfl, hnone, hsome⟩ := h
  refine ⟨before, c₀, rest ++ [c], rfl, List.append_assoc .., hnone, ?_⟩
  intro more hmore
  rcases List.prefix_concat_iff.mp hmore with rfl | hmore
  · rw [List.append_assoc] at hlive
    exact hlive
  · exact hsome more hmore

theorem LiveSince.created {calls : List ObserveCall} (hnone : entryAfter cfg calls key = none)
    (c : ObserveCall) (hlive : (entryAfter cfg (calls ++ [c]) key).isSome) :
    LiveSince cfg (calls ++ [c]) key [c] := by
  refine ⟨calls, c, [], rfl, rfl, hnone, ?_⟩
  intro more hmore
  rw [List.prefix_nil.mp hmore]
  exact hlive

/-- The call that created a live entry is the last one before which the entry
was not there. -/
theorem LiveSince.unique {calls since since' : List ObserveCall}
    (h : LiveSince cfg calls key since) (h' : LiveSince cfg calls key since') :
    since = since' := by
  -- of two such calls the later one would find the entry there
  have later : ∀ {since since' : List ObserveCall}, LiveSince cfg calls key since →
      LiveSince cfg calls key since' → ¬ since'.length < since.length := by
    intro since since' h h' hlt
    obtain ⟨before, c, rest, rfl, hcalls, -, hsome⟩ := h
    obtain ⟨before', c', rest', rfl, hcalls', hnone', -⟩ := h'
    rw [hcalls] at hcalls'
    rcases List.append_eq_append_iff.mp hcalls' with ⟨mid, hbefore, hmid⟩ | ⟨mid, hbefore, hmid⟩
    · cases mid with
      | nil =>
          rw [hmid] at hlt
          exact absurd hlt (by simp)
      | cons c₁ more =>
          injection hmid with hc hrest
          have hlive := hsome more ⟨_, hrest.symm⟩
          rw [hc, ← hbefore, hnone'] at hlive
          cases hlive
    · rw [hmid, List.length_append] at hlt
      omega
  have hlen : since.length = since'.length := by
    have hle := later h h'
    have hge := later h' h
    omega
  obtain ⟨before, c, rest, rfl, hcalls, -, -⟩ := h
  obtain ⟨before', c', rest', rfl, hcalls', -, -⟩ := h'
  rw [hcalls] at hcalls'
  exact (List.append_inj' hcalls' hlen).2

/-- **One call on the live entries.** -/
theorem FlowTells.step {calls : List ObserveCall} {c : ObserveCall} (h : FlowTells cfg calls)
    (hstep : FlowStep cfg c (observeAll cfg calls .init) (observeAll cfg (calls ++ [c]) .init)) :
    FlowTells cfg (calls ++ [c]) := by
  intro key f hf
  have hlive : (entryAfter cfg (calls ++ [c]) key).isSome := by rw [hf]; rfl
  -- the entry was there, and the packet is not counted in it
  have keeps : ¬ (qualifies cfg c ∧ keyOf cfg c = key) → entryAfter cfg calls key = some f →
      ∃ since, LiveSince cfg (calls ++ [c]) key since ∧
        ∀ cpu, SlotTells (flowCalls cfg key cpu since) (f cpu) := by
    intro hnot hbefore
    obtain ⟨since, hsince, htells⟩ := h key f hbefore
    refine ⟨since ++ [c], hsince.concat c hlive, ?_⟩
    intro cpu
    rw [flowCalls_concat_other hnot]
    exact htells cpu
  have others : KeepsOthers (observeAll cfg calls .init).flows
      (observeAll cfg (calls ++ [c]) .init).flows (keyOf cfg c) → key ≠ keyOf cfg c →
      ∃ since, LiveSince cfg (calls ++ [c]) key since ∧
        ∀ cpu, SlotTells (flowCalls cfg key cpu since) (f cpu) := by
    intro hkeeps hne
    apply keeps (fun hall => hne hall.2.symm)
    rcases hkeeps key hne with hsame | hgone
    · rw [← hf, entryAfter, entryAfter, hsame]
    · rw [entryAfter, hgone] at hf
      cases hf
  cases hstep with
  | added hq old hold hnew hothers hfailed =>
      by_cases hkey : key = keyOf cfg c
      · subst hkey
        rw [entryAfter, hnew] at hf
        injection hf with hf
        subst hf
        rcases hold with hold | ⟨hnone, rfl⟩
        · obtain ⟨since, hsince, htells⟩ := h _ old hold
          exact ⟨since ++ [c], hsince.concat c hlive, tells_update htells hq⟩
        · refine ⟨[c], .created hnone c hlive, ?_⟩
          exact tells_update (l := []) (fun _ => .nil) hq
      · exact others hothers hkey
  | failed hq hold hrefused hnew hothers hfailed =>
      apply others hothers
      intro hkey
      rw [hkey, entryAfter, hnew] at hf
      cases hf
  | other hq hflows hfailed =>
      apply keeps (fun hall => hq hall.1)
      rw [← hf, entryAfter, entryAfter, hflows]

theorem FlowTells.run (hflow : cfg.flowEnabled ≠ 0) (calls : List ObserveCall) :
    FlowTells cfg calls := by
  induction calls using List.reverseRecOn with
  | nil =>
      intro key f hf
      cases hf
  | append_singleton calls c ih =>
      apply ih.step
      rw [observeAll_concat]
      exact esObserve_flowStep hflow c _

/-- **Flow accounting conserves packets.**  Over every run with the flow table
on and a clock that does not go back, every packet to count is added to one
slot or counted as failed, and every live slot tells the packets counted in it
since its entry was created. -/
theorem esObserve_flows_conserved (cfg : Settings) (calls : List ObserveCall)
    (hflow : cfg.flowEnabled ≠ 0) (hclock : calls.Pairwise fun c c' => c.now ≤ c'.now) :
    FlowLaw cfg calls := by
  constructor
  case steps =>
    intro before c _
    rw [observeAll_concat]
    exact esObserve_flowStep hflow c _
  case tells => exact FlowTells.run hflow calls
  case ordered =>
    intro key f cpu hf
    obtain ⟨since, hsince, htells⟩ := FlowTells.run hflow calls key f hf
    apply (htells cpu).ordered
    obtain ⟨before, c, rest, rfl, rfl, -, -⟩ := hsince
    exact (List.pairwise_append.mp hclock).2.1.filter _

/-- A flow counted twice, a flow the table does not take, and one whose entry
evicts the first; then the first again. -/
def evictingRun : List ObserveCall :=
  [udpCall, { udpCall with now := 2 }, { udpCall with now := 3, skb := oneByte },
    { udpCall with
      now := 4
      skb := ⟨taggedUdp.encode, 4, 0, 0, taggedUdp_length⟩
      flowInsert := ⟨false, fun _ => false⟩ },
    { udpCall with
      now := 5
      skb := ⟨taggedUdp.encode, 5, 0, 0, taggedUdp_length⟩
      flowInsert := ⟨true, fun key => key.ifindex = 3⟩ },
    { udpCall with now := 6 }]

/-- The first flow is counted from its second entry on, and one packet is counted
as failed. -/
theorem esObserve_flows_conserved_evictingRun :
    FlowLaw ⟨1, 16, 1, 1, 0⟩ evictingRun ∧
      (entryAfter ⟨1, 16, 1, 1, 0⟩ evictingRun (keyOf ⟨1, 16, 1, 1, 0⟩ udpCall)).map
        (fun f => f 0) = some ⟨6, 6, 1, 50⟩ ∧
      (observeAll ⟨1, 16, 1, 1, 0⟩ evictingRun .init).counters .ingress 0 .flowUpdateFailed = 1 :=
  ⟨esObserve_flows_conserved ⟨1, 16, 1, 1, 0⟩ evictingRun (by decide) (by decide +kernel),
    by decide +kernel, by decide +kernel⟩

/-! ## A count that wraps -/

theorem udpCall_isFrame : udpCall.skb.IsFrame taggedUdp :=
  ⟨rfl, by simp [Header.TagsOk, taggedUdp, udpCall]⟩

theorem qualifies_udpCall : qualifies ⟨1, 16, 1, 1, 0⟩ udpCall :=
  ⟨(SkBuff.parsed_of_frame udpCall_isFrame (by decide)).1,
    (SkBuff.parsed_of_frame udpCall_isFrame (by decide)).2.1⟩

/-- An entry that can be created is there after any number of its packets. -/
theorem entryAfter_replicate {c : ObserveCall} (hflow : cfg.flowEnabled ≠ 0)
    (hq : qualifies cfg c) (hcreated : c.flowInsert.created = true) (n : Nat) :
    (entryAfter cfg (List.replicate (n + 1) c) (keyOf cfg c)).isSome := by
  rw [List.replicate_succ', entryAfter, observeAll_concat]
  cases esObserve_flowStep hflow c (observeAll cfg (List.replicate n c) .init) with
  | added h old hold hnew => rw [hnew]; rfl
  | failed h hold hrefused => rw [hcreated] at hrefused; cases hrefused
  | other h => exact absurd hq h

/-- Packets of one flow on one CPU, and nothing else. -/
theorem tells_replicate {c : ObserveCall} (hflow : cfg.flowEnabled ≠ 0) (hq : qualifies cfg c)
    (hcreated : c.flowInsert.created = true) (n : Nat) :
    ∃ f, entryAfter cfg (List.replicate (n + 1) c) (keyOf cfg c) = some f ∧
      SlotTells (List.replicate (n + 1) c) (f c.cpu) ∧
      ∀ since, LiveSince cfg (List.replicate (n + 1) c) (keyOf cfg c) since →
        flowCalls cfg (keyOf cfg c) c.cpu since = List.replicate (n + 1) c := by
  have whole : ∀ since, LiveSince cfg (List.replicate (n + 1) c) (keyOf cfg c) since →
      flowCalls cfg (keyOf cfg c) c.cpu since = List.replicate (n + 1) c := by
    intro since hsince
    obtain ⟨before, c₀, rest, hsince, hcalls, hnone, -⟩ := hsince
    -- nothing comes before the call that created the entry
    have hbefore : before = [] := by
      obtain ⟨-, hrep, -⟩ := List.append_eq_replicate_iff.mp hcalls.symm
      cases hlen : before.length with
      | zero => exact List.length_eq_zero_iff.mp hlen
      | succ k =>
          have hlive := entryAfter_replicate hflow hq hcreated k
          rw [hlen] at hrep
          rw [← hrep, hnone] at hlive
          cases hlive
    rw [hbefore, List.nil_append] at hcalls
    rw [← hcalls, flowCalls, List.filter_replicate, if_pos (by simp [hq])]
  obtain ⟨f, hf⟩ := Option.isSome_iff_exists.mp (entryAfter_replicate hflow hq hcreated n)
  obtain ⟨since, hsince, htells⟩ := FlowTells.run hflow _ _ f hf
  refine ⟨f, hf, ?_, whole⟩
  rw [← whole since hsince]
  exact htells c.cpu

/-- `2 ^ 64` packets of one flow leave a packet count of zero. -/
theorem flow_count_wraps : ¬ ∀ (cfg : Settings) (calls : List ObserveCall),
    cfg.flowEnabled ≠ 0 → (calls.Pairwise fun c c' => c.now ≤ c'.now) →
      ∀ key f, entryAfter cfg calls key = some f →
        ∃ since, LiveSince cfg calls key since ∧ ∀ cpu, f cpu = EsFlowValue.zero ∨
          (f cpu).packets.toNat = (flowCalls cfg key cpu since).length ∧
          (f cpu).bytes.toNat = totalBytes (flowCalls cfg key cpu since) := by
  intro h
  have hflow : (⟨1, 16, 1, 1, 0⟩ : Settings).flowEnabled ≠ 0 := by decide
  obtain ⟨n, hn⟩ : ∃ n, n + 1 = 2 ^ 64 := ⟨2 ^ 64 - 1, by omega⟩
  obtain ⟨f, hf, htells, hwhole⟩ := tells_replicate hflow qualifies_udpCall rfl n
  obtain ⟨since, hsince, hslots⟩ := h _ (List.replicate (n + 1) udpCall) hflow
    (List.pairwise_replicate.mpr (Or.inr (UInt64.le_refl _))) _ f hf
  have hlast := htells.last udpCall
    (by rw [List.getLast?_replicate, if_neg (Nat.succ_ne_zero n)])
  rcases hslots udpCall.cpu with hzero | ⟨hpackets, -⟩
  · rw [hzero] at hlast
    exact absurd hlast (by decide)
  · rw [htells.packets, hwhole since hsince, List.length_replicate, UInt64.toNat_ofNat'] at hpackets
    omega

end ElephantShrew.Bpf
