import ElephantShrew.Bpf.EventSequence
import ElephantShrew.Telemetry.PipelineLaw

/-!
# What a gap at the sink means

The records of one slot reach the sink in the order of their packets.  A sample
that is missing between two of them was lost to the ring, which the kernel
counts, or dropped or discarded by the callback, which user space counts; the
gap between the two sequence numbers says how many there are.
-/

namespace ElephantShrew.Telemetry.Pipeline

open ElephantShrew.Verified
open ElephantShrew.Bpf

variable {k : Nat} {cap : Capacity} {o : Codec.ByteOrder} {ifaces : Fin k → Interface}

/-- The record carries the identity of the source. -/
def FromSource (source : Source) (r : TelemetryRecord) : Prop :=
  r.event.ifindex = source.ifindex ∧ r.netnsInode = source.netnsInode ∧
    r.sessionId = source.sessionId

instance (source : Source) (r : TelemetryRecord) : Decidable (FromSource source r) :=
  inferInstanceAs (Decidable (_ ∧ _ ∧ _))

/-- What the sink has popped of one slot of an interface. -/
def sinkRecords (ifaces : Fin k → Interface) (s : State k) (i : Fin k) (d : EsDirection)
    (cpu : UInt32) : List TelemetryRecord :=
  s.telemetry.popped.filter fun r => FromSource (ifaces i).source r ∧ fromSlot d cpu r.event

/-- The events of one slot of an interface among those that have met their fate. -/
def slotFates (i : Fin k) (d : EsDirection) (cpu : UInt32)
    (fs : List ((Fin k × EsEvent) × Outcome)) : List ((Fin k × EsEvent) × Outcome) :=
  fs.filter fun f => f.1.1 = i ∧ fromSlot d cpu f.1.2

/-- The events of these. -/
def eventsOf (fs : List ((Fin k × EsEvent) × Outcome)) : List EsEvent := fs.map fun f => f.1.2

/-- Two records of a slot that the sink popped one after the other, `earlier`
being popped before them: what met its fate before the two, between them and
after them, and the packets the two are about. -/
structure Gap (cfg : Settings) (i : Fin k) (d : EsDirection) (cpu : UInt32) (s : State k)
    (earlier : List TelemetryRecord) (r r' : TelemetryRecord)
    (before lost after : List ((Fin k × EsEvent) × Outcome))
    (upto upto' : List ObserveCall) : Prop where
  events : slotFates i d cpu (fates s) =
    before ++ ((i, r.event), .queued r) :: (lost ++ ((i, r'.event), .queued r') :: after)
  popped : queuedOf before = earlier
  /-- what is between them was lost in user space -/
  missing : ∀ f ∈ lost, f.2 = .dropped ∨ f.2 = .discarded
  packet : upto <+: s.calls i ∧ Submits cfg d cpu upto (eventsOf before) r.event
  packet' : upto' <+: s.calls i ∧
    Submits cfg d cpu upto' (eventsOf before ++ r.event :: eventsOf lost) r'.event
  /-- the missing multiples of `sample_every` are these and the ones lost to the ring -/
  size : (r'.event.sequence.toNat - r.event.sequence.toNat) / cfg.sampleEvery.toNat +
      (counterAfter cfg d cpu upto .ringLost).toNat =
    1 + lost.length + (counterAfter cfg d cpu upto' .ringLost).toNat

/-- What the sink can tell from the sequence numbers of a slot. -/
structure SinkLaw (ifaces : Fin k → Interface) (s : State k) (i : Fin k) (d : EsDirection)
    (cpu : UInt32) : Prop where
  increasing : (sinkRecords ifaces s i d cpu).Pairwise fun r r' =>
    r.event.sequence < r'.event.sequence
  gaps : (ifaces i).settings.selectL4Proto = 0 → ∀ earlier r r' later,
    sinkRecords ifaces s i d cpu = earlier ++ r :: r' :: later →
      ∃ before lost after upto upto',
        Gap (ifaces i).settings i d cpu s earlier r r' before lost after upto upto'

/-! ## The slot's records and the slot's events -/

theorem Source.eq_of_fields {a b : Source} (hifindex : a.ifindex = b.ifindex)
    (hnetns : a.netnsInode = b.netnsInode) (hsession : a.sessionId = b.sessionId) : a = b := by
  cases a
  cases b
  simp only at hifindex hnetns hsession
  rw [hifindex, hnetns, hsession]

theorem recordOf_fromSource {s : State k} (h : Inv o ifaces s)
    (hdistinct : Function.Injective fun i => (ifaces i).source) {p : Fin k × EsEvent}
    (hp : p ∈ s.handed) (i : Fin k) :
    FromSource (ifaces i).source (recordOf ifaces p) ↔ p.1 = i := by
  have hif : p.2.ifindex = (ifaces p.1).source.ifindex :=
    ((decodeRecord_eq_some_iff o _ _ _ _).mp (h.decodes hp)).2.1
  constructor
  · rintro ⟨hifindex, hnetns, hsession⟩
    apply hdistinct
    exact Source.eq_of_fields (hif.symm.trans hifindex) hnetns hsession
  · rintro rfl
    exact ⟨hif, rfl, rfl⟩

/-- The sink pops the queued records of a slot in order. -/
theorem sinkRecords_prefix {tr : List (Action k)} {s : State k} (h : Inv o ifaces s)
    (hacc : Accounted cap o ifaces tr s)
    (hdistinct : Function.Injective fun i => (ifaces i).source) (i : Fin k) (d : EsDirection)
    (cpu : UInt32) :
    sinkRecords ifaces s i d cpu <+: queuedOf (slotFates i d cpu (fates s)) := by
  have hfilter : ∀ fs : List ((Fin k × EsEvent) × Outcome), (∀ f ∈ fs, f.1 ∈ s.handed) →
      (∀ f ∈ fs, Fate ifaces f) →
      (queuedOf fs).filter (fun r => FromSource (ifaces i).source r ∧ fromSlot d cpu r.event) =
        queuedOf (slotFates i d cpu fs) := by
    intro fs
    induction fs with
    | nil =>
        intro _ _
        rfl
    | cons f fs ih =>
        intro hmem hfate
        have htail := ih (fun f hf => hmem f (List.mem_cons_of_mem _ hf))
          fun f hf => hfate f (List.mem_cons_of_mem _ hf)
        have hif := recordOf_fromSource h hdistinct (hmem f List.mem_cons_self) i
        have hslot : (f.1.1 = i ∧ fromSlot d cpu f.1.2) ↔
            (FromSource (ifaces i).source (recordOf ifaces f.1) ∧
              fromSlot d cpu (recordOf ifaces f.1).event) := by
          rw [hif]
          rfl
        have hhead := hfate f List.mem_cons_self
        obtain ⟨p, out⟩ := f
        unfold slotFates at htail ⊢
        rw [queuedOf_cons, List.filter_append, htail]
        by_cases hmine : p.1 = i ∧ fromSlot d cpu p.2
        · rw [List.filter_cons_of_pos (by simpa using hmine), queuedOf_cons]
          have hrecord := hslot.mp hmine
          rcases hhead with hout | hout | hout <;> simp only at hout <;> subst hout
          · simp [queuedRecord, hrecord]
          · rfl
          · rfl
        · rw [List.filter_cons_of_neg (by simpa using hmine)]
          have hrecord := (not_congr hslot).mp hmine
          rcases hhead with hout | hout | hout <;> simp only at hout <;> subst hout
          · simp [queuedRecord, hrecord]
          · rfl
          · rfl
  rw [← hfilter (fates s) (fun f hf => (List.of_mem_zip hf).1) hacc.fate, sinkRecords]
  apply List.IsPrefix.filter
  exact ⟨_, hacc.sink⟩

theorem zip_fst_prefix {α β : Type} (xs : List α) (ys : List β) :
    (xs.zip ys).map Prod.fst <+: xs := by
  induction xs generalizing ys with
  | nil => exact List.prefix_rfl
  | cons x xs ih =>
      cases ys with
      | nil => exact List.nil_prefix
      | cons y ys => exact List.cons_prefix_cons.mpr ⟨rfl, ih ys⟩

/-- The events of a slot that met their fate are the first the slot submitted. -/
theorem slotFates_prefix {tr : List (Action k)} {s : State k}
    (hacc : Accounted cap o ifaces tr s) (i : Fin k)
    (d : EsDirection) (cpu : UInt32) :
    eventsOf (slotFates i d cpu (fates s)) <+:
      eventsAfter (ifaces i).settings d cpu (s.calls i) := by
  have hmap : eventsOf (slotFates i d cpu (fates s)) =
      slotEvents d cpu (handedBy i ((fates s).map Prod.fst)) := by
    induction fates s with
    | nil => rfl
    | cons f fs ih =>
        unfold eventsOf slotFates slotEvents handedBy at ih ⊢
        by_cases hi : f.1.1 = i
        · by_cases hslot : fromSlot d cpu f.1.2 <;> simpa [hi, hslot] using ih
        · simpa [hi] using ih
  have hhanded : (fates s).map Prod.fst <+: s.handed := by
    exact zip_fst_prefix _ _
  rw [hmap, eventsAfter, ← hacc.rings i]
  apply List.IsPrefix.filter
  apply List.IsPrefix.trans _ (List.prefix_append _ _)
  exact (hhanded.filter _).map _

/-! ## The law -/

/-- Queued records that follow each other in a slot. -/
theorem queuedOf_split {fs : List ((Fin k × EsEvent) × Outcome)}
    {earlier later : List TelemetryRecord} {r r' : TelemetryRecord}
    (hfate : ∀ f ∈ fs, Fate ifaces f) (h : queuedOf fs = earlier ++ r :: r' :: later) :
    ∃ before p lost p' after, fs = before ++ (p, .queued r) :: (lost ++ (p', .queued r') :: after) ∧
      queuedOf before = earlier ∧ r = recordOf ifaces p ∧ r' = recordOf ifaces p' ∧
        ∀ f ∈ lost, f.2 = .dropped ∨ f.2 = .discarded := by
  have queued : ∀ f ∈ fs, ∀ r, queuedRecord f = some r →
      f = (f.1, .queued r) ∧ r = recordOf ifaces f.1 := by
    intro f hf r hr
    obtain ⟨p, out⟩ := f
    rcases hfate _ hf with hout | hout | hout <;> simp only at hout <;> subst hout
    · injection hr with hr
      rw [← hr]
      exact ⟨rfl, rfl⟩
    · cases hr
    · cases hr
  have lostOf : ∀ f ∈ fs, queuedRecord f = none → f.2 = .dropped ∨ f.2 = .discarded := by
    intro f hf hnone
    rcases hfate f hf with hout | hout | hout
    · rw [queuedRecord, hout] at hnone
      cases hnone
    · exact Or.inl hout
    · exact Or.inr hout
  obtain ⟨l₁, l₂, rfl, h₁, h₂⟩ := List.filterMap_eq_append_iff.mp h
  obtain ⟨l₃, f, l₄, rfl, h₃, hf, h₄⟩ := List.filterMap_eq_cons_iff.mp h₂
  obtain ⟨lost, f', after, rfl, hlost, hf', -⟩ := List.filterMap_eq_cons_iff.mp h₄
  obtain ⟨hfeq, hr⟩ := queued f (by simp) r hf
  obtain ⟨hfeq', hr'⟩ := queued f' (by simp) r' hf'
  refine ⟨l₁ ++ l₃, f.1, lost, f'.1, after, ?_, ?_, hr, hr', ?_⟩
  · rw [← hfeq, ← hfeq', List.append_assoc]
  · rw [queuedOf, List.filterMap_append, h₁, List.filterMap_eq_nil_iff.mpr h₃, List.append_nil]
  · exact fun g hg => lostOf g (by simp [hg]) (hlost g hg)

/-- What the sink gets of a slot is part of what met its fate. -/
theorem queuedOf_sublist {fs : List ((Fin k × EsEvent) × Outcome)}
    (hfate : ∀ f ∈ fs, Fate ifaces f) :
    List.Sublist ((queuedOf fs).map fun r => r.event) (eventsOf fs) := by
  induction fs with
  | nil => exact .slnil
  | cons f fs ih =>
      have htail := ih fun f hf => hfate f (List.mem_cons_of_mem _ hf)
      have hhead := hfate f List.mem_cons_self
      obtain ⟨p, out⟩ := f
      unfold queuedOf eventsOf at htail ⊢
      rcases hhead with hout | hout | hout <;> simp only at hout <;> subst hout
      · exact htail.cons_cons _
      · exact htail.cons _
      · exact htail.cons _

/-- Two events of a slot, and the samples between them: those that were submitted
and those that were lost to the ring. -/
theorem samples_between {cfg : Settings} {d : EsDirection} {cpu : UInt32}
    {calls : List ObserveCall} (hsel : cfg.selectL4Proto = 0)
    (hwrap : (slotCalls d cpu calls).length < 2 ^ 64) {before between after : List EsEvent}
    {e e' : EsEvent}
    (hevents : eventsAfter cfg d cpu calls = before ++ e :: (between ++ e' :: after)) :
    ∃ upto upto', (upto <+: calls ∧ Submits cfg d cpu upto before e) ∧
      (upto' <+: calls ∧ Submits cfg d cpu upto' (before ++ e :: between) e') ∧
      (e'.sequence.toNat - e.sequence.toNat) / cfg.sampleEvery.toNat +
          (counterAfter cfg d cpu upto .ringLost).toNat =
        1 + between.length + (counterAfter cfg d cpu upto' .ringLost).toNat := by
  have hlt : ∀ upto, upto <+: calls → (slotCalls d cpu upto).length < 2 ^ 64 :=
    fun upto hupto => Nat.lt_of_le_of_lt (length_slotCalls_le hupto) hwrap
  have hinc : (eventsAfter cfg d cpu calls).Pairwise fun e e' => e.sequence < e'.sequence :=
    increasing_run calls hwrap
  obtain ⟨upto, hupto, hsub⟩ := Submits.exists _ _ _ _ hevents
  have hlater : eventsAfter cfg d cpu calls = (before ++ e :: between) ++ e' :: after := by
    rw [hevents]
    simp
  obtain ⟨upto', hupto', hsub'⟩ := Submits.exists _ _ _ _ hlater
  have hbal := hsub.balance hsel (hlt upto hupto)
  have hbal' := hsub'.balance hsel (hlt upto' hupto')
  obtain ⟨q, hq⟩ := hsub.dvd hsel (hlt upto hupto)
  obtain ⟨q', hq'⟩ := hsub'.dvd hsel (hlt upto' hupto')
  refine ⟨upto, upto', ⟨hupto, hsub⟩, ⟨hupto', hsub'⟩, ?_⟩
  simp only [List.length_append, List.length_cons] at hbal hbal'
  have hpos : 0 < cfg.sampleEvery.toNat := by
    apply Nat.pos_of_ne_zero
    intro hzero
    rw [hzero, Nat.div_zero] at hbal
    omega
  have hle : q ≤ q' := by
    rw [hlater] at hinc
    have hpair := (List.pairwise_append.mp hinc).2.2 e (by simp) e' (by simp)
    have hless := UInt64.lt_iff_toNat_lt.mp hpair
    rw [hq, hq'] at hless
    exact Nat.le_of_mul_le_mul_left hless.le hpos
  rw [hq, Nat.mul_div_cancel_left _ hpos] at hbal
  rw [hq', Nat.mul_div_cancel_left _ hpos] at hbal'
  rw [hq, hq', ← Nat.mul_sub, Nat.mul_div_cancel_left _ hpos]
  omega

/-- **Sequence gaps at the sink locate every loss**, in the kernel and in user
space, under every schedule. -/
theorem pipeline_sequences (cap : Capacity) (o : Codec.ByteOrder) (ifaces : Fin k → Interface)
    (hdistinct : Function.Injective fun i => (ifaces i).source) (tr : List (Action k))
    (s : State k) (h : (system cap o ifaces).Run tr s) (i : Fin k) (d : EsDirection)
    (cpu : UInt32) (hwrap : (slotCalls d cpu (s.calls i)).length < 2 ^ 64) :
    SinkLaw ifaces s i d cpu := by
  have hacc := pipeline_accounted cap o ifaces tr s h
  have hsink := sinkRecords_prefix (run_inv h).1 hacc hdistinct i d cpu
  obtain ⟨rest, hevents⟩ := slotFates_prefix hacc i d cpu
  have hfate : ∀ f ∈ slotFates i d cpu (fates s), Fate ifaces f :=
    fun f hf => hacc.fate f (List.mem_of_mem_filter hf)
  constructor
  case increasing =>
    have hinc : (eventsAfter (ifaces i).settings d cpu (s.calls i)).Pairwise
        fun e e' => e.sequence < e'.sequence := increasing_run (s.calls i) hwrap
    have hsub := (queuedOf_sublist hfate).trans (List.IsPrefix.sublist ⟨rest, hevents⟩)
    exact (List.pairwise_map.mp (hinc.sublist hsub)).sublist hsink.sublist
  case gaps =>
    intro hsel earlier r r' later hsplit
    obtain ⟨more, hmore⟩ := hsink
    rw [hsplit, List.append_assoc] at hmore
    obtain ⟨before, p, lost, p', after, hfs, hearlier, rfl, rfl, hlost⟩ :=
      queuedOf_split hfate hmore.symm
    rw [hfs] at hevents
    simp only [eventsOf, List.map_append, List.map_cons, List.append_assoc,
      List.cons_append] at hevents
    obtain ⟨upto, upto', hpacket, hpacket', hsize⟩ := samples_between hsel hwrap hevents.symm
    rw [List.length_map] at hsize
    have mine : ∀ q out, (q, out) ∈ slotFates i d cpu (fates s) → q = (i, q.2) := by
      intro q out hq
      have hmine := (List.mem_filter.mp hq).2
      rw [decide_eq_true_eq] at hmine
      exact Prod.ext hmine.1 rfl
    have hp := mine p (.queued (recordOf ifaces p)) (by rw [hfs]; simp)
    have hp' := mine p' (.queued (recordOf ifaces p')) (by rw [hfs]; simp)
    refine ⟨before, lost, after, upto, upto', ?_, hearlier, hlost, hpacket, hpacket', hsize⟩
    rw [hfs]
    exact congrArg₂ (fun q q' => before ++ (q, .queued (recordOf ifaces p)) ::
      (lost ++ (q', .queued (recordOf ifaces p')) :: after)) hp hp'

/-- The second of the four packets is missing at the sink. -/
theorem pipeline_sequences_fourPackets : ∃ s, SinkLaw oneInterface s 0 .ingress 0 ∧
    (sinkRecords oneInterface s 0 .ingress 0).map (fun r => r.event.sequence) = [1, 3] ∧
      s.telemetry.loss = ⟨0, 1, 1⟩ := by
  obtain ⟨tr, s, run, hcalls, hloss, hpopped⟩ := run_fourPackets
  have hdistinct : Function.Injective fun i => (oneInterface i).source :=
    Function.injective_of_subsingleton _
  have hwrap : (slotCalls .ingress 0 (s.calls 0)).length < 2 ^ 64 := by
    rw [hcalls]
    decide
  refine ⟨s, pipeline_sequences _ _ oneInterface hdistinct tr s run 0 .ingress 0 hwrap, ?_, hloss⟩
  rw [sinkRecords, hpopped]
  rfl

end ElephantShrew.Telemetry.Pipeline
