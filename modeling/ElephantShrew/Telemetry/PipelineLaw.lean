import Mathlib.Algebra.BigOperators.Fin
import ElephantShrew.Bpf.ObserverAccounting
import ElephantShrew.Telemetry.Causes
import ElephantShrew.Telemetry.EncoderAgrees
import ElephantShrew.Telemetry.Pipeline

/-!
# Where every event is

An event that an observer has submitted is in its ring, in the hands of the
callback, counted as lost, in the queue, or with the sink: `Accounted` says so
of every state of the pipeline, with the order of the events and what each
record at the sink tells about its packet.  A gap between two sequence numbers
of one slot at the sink is then the number of samples lost on the way, to the
ring in the kernel or to the queue and the shutdown in user space.
-/

namespace ElephantShrew.Telemetry

open ElephantShrew.Verified
open ElephantShrew.Bpf

namespace Pipeline

variable {k : Nat} {cap : Capacity} {o : Codec.ByteOrder} {ifaces : Fin k → Interface}

/-! ## The invariant -/

/-- The records of one ring among those given to the callback. -/
def handedBy (i : Fin k) (handed : List (Fin k × EsEvent)) : List EsEvent :=
  (handed.filter fun p => p.1 = i).map Prod.snd

theorem handedBy_append (i : Fin k) (handed handed' : List (Fin k × EsEvent)) :
    handedBy i (handed ++ handed') = handedBy i handed ++ handedBy i handed' := by
  simp [handedBy]

theorem handedBy_self (i : Fin k) (e : EsEvent) : handedBy i [(i, e)] = [e] := by
  simp [handedBy]

theorem handedBy_ne {i j : Fin k} (h : j ≠ i) (e : EsEvent) : handedBy i [(j, e)] = [] := by
  simp [handedBy, h]

/-- What the rings, the callbacks made and the packets seen have to do with one
another. -/
structure Inv (o : Codec.ByteOrder) (ifaces : Fin k → Interface) (s : State k) : Prop where
  observers : ∀ i, s.observers i = observeAll (ifaces i).settings (s.calls i) .init
  ifindex : ∀ i, ∀ c ∈ s.calls i, c.skb.ifindex = (ifaces i).source.ifindex
  rings : ∀ i, handedBy i s.handed ++ s.rings i = (s.observers i).submitted
  made : s.telemetry.made = s.handed.map (callbackOf o ifaces)

theorem Inv.init {s : State k} (h : Initial s) : Inv o ifaces s := by
  obtain ⟨hobservers, hrings, htelemetry, hcalls, hhanded⟩ := h
  constructor
  · intro i
    rw [hobservers i, hcalls i]
    rfl
  · intro i
    rw [hcalls i]
    exact fun c hc => absurd hc List.not_mem_nil
  · intro i
    rw [hhanded, hrings i, hobservers i]
    rfl
  · rw [htelemetry.2.2.2.1, hhanded]
    rfl

/-- A packet is seen. -/
theorem Inv.observe {s : State k} (h : Inv o ifaces s) {i : Fin k} {c : ObserveCall}
    (hif : c.skb.ifindex = (ifaces i).source.ifindex) : Inv o ifaces (observe ifaces s i c) := by
  have hnew := esObserve_submitted (ifaces i).settings c (s.observers i)
  constructor
  · intro j
    show Function.update s.observers i _ j = observeAll _ (Function.update s.calls i _ j) _
    by_cases hj : j = i
    · rw [hj, Function.update_self, Function.update_self, observeAll_concat, ← h.observers i]
    · rw [Function.update_of_ne hj, Function.update_of_ne hj]
      exact h.observers j
  · intro j c' hc'
    have hmem : c' ∈ Function.update s.calls i (s.calls i ++ [c]) j := hc'
    by_cases hj : j = i
    · rw [hj, Function.update_self] at hmem
      rw [hj]
      rcases List.mem_append.mp hmem with hmem | hmem
      · exact h.ifindex i c' hmem
      · rw [List.mem_singleton.mp hmem]
        exact hif
    · rw [Function.update_of_ne hj] at hmem
      exact h.ifindex j c' hmem
  · intro j
    show handedBy j s.handed ++ Function.update s.rings i _ j =
      (Function.update s.observers i _ j).submitted
    by_cases hj : j = i
    · rw [hj, Function.update_self, Function.update_self, ← List.append_assoc, h.rings i, hnew,
        List.drop_left]
    · rw [Function.update_of_ne hj, Function.update_of_ne hj]
      exact h.rings j
  · exact h.made

theorem Inv.step {s s' : State k} {a : Action k} (h : Inv o ifaces s)
    (ht : Delivery.Inv cap o (sources ifaces) s.telemetry) (hs : Steps cap o ifaces s a s') :
    Inv o ifaces s' := by
  cases hs with
  | observe i c hif => exact h.observe hif
  | callback i e rest telemetry hring htelemetry =>
      constructor
      · exact h.observers
      · exact h.ifindex
      · intro j
        show handedBy j (s.handed ++ [(i, e)]) ++ Function.update s.rings i rest j = _
        rw [handedBy_append, ← h.rings j]
        by_cases hj : i = j
        · subst hj
          rw [handedBy_self, Function.update_self, hring, List.append_assoc]
          rfl
        · rw [handedBy_ne hj, Function.update_of_ne (Ne.symm hj), List.append_nil]
      · show telemetry.made = (s.handed ++ [(i, e)]).map _
        rw [(Delivery.next_callback htelemetry).1, h.made, List.map_append]
        rfl
  | telemetry a telemetry hcb htelemetry =>
      refine ⟨h.observers, h.ifindex, h.rings, ?_⟩
      show telemetry.made = _
      rw [(Delivery.next_ends ht hcb htelemetry).1, h.made]

/-! ## The telemetry object in the pipeline -/

/-- A step of the pipeline as the telemetry object sees it. -/
def seen (o : Codec.ByteOrder) (ifaces : Fin k → Interface) :
    Action k → Option Delivery.Action
  | .observe _ _ => none
  | .callback i e => some (.callback (callbackOf o ifaces (i, e)))
  | .telemetry a => some a

/-- The telemetry object runs as it does on its own. -/
theorem simulation : System.Simulation (system cap o ifaces)
    (Delivery.system cap o (sources ifaces)) (seen o ifaces) (fun s t => s.telemetry = t) := by
  constructor
  · intro s hs
    exact ⟨s.telemetry, hs.2.2.1, rfl⟩
  · rintro s _ a s' rfl hstep hseen
    cases Steps.of_next hstep with
    | observe i c hif => rfl
    | callback i e rest telemetry hring h => cases hseen
    | telemetry a telemetry hcb h => cases hseen
  · rintro s _ a s' m rfl hstep hseen
    cases Steps.of_next hstep with
    | observe i c hif => cases hseen
    | callback i e rest telemetry hring h =>
        cases hseen
        exact ⟨telemetry, h, rfl⟩
    | telemetry a telemetry hcb h =>
        cases hseen
        exact ⟨telemetry, h, rfl⟩

theorem run_telemetry {tr : List (Action k)} {s : State k} (h : (system cap o ifaces).Run tr s) :
    Delivery.Inv cap o (sources ifaces) s.telemetry := by
  obtain ⟨t, hrun, rfl⟩ := simulation.run h
  apply hrun.invariant (P := fun _ t => Delivery.Inv cap o (sources ifaces) t)
  · exact fun _ ht => .init ht
  · exact fun _ _ _ _ ht hstep => ht.next hstep

/-- The run had the telemetry object in this state, and it took this step there. -/
def TelemetryPassed (cap : Capacity) (o : Codec.ByteOrder) (ifaces : Fin k → Interface)
    (tr : List (Action k)) (s : State k) (t : Delivery.State) (a : Delivery.Action) : Prop :=
  ∃ u : State k, u.telemetry = t ∧ (system cap o ifaces).Passed tr s u (.telemetry a)

theorem TelemetryPassed.step {tr : List (Action k)} {s s' : State k} {a : Action k}
    (hs : (system cap o ifaces).step s a s') (t : Delivery.State) (b : Delivery.Action)
    (h : TelemetryPassed cap o ifaces tr s t b) :
    TelemetryPassed cap o ifaces (tr ++ [a]) s' t b := by
  obtain ⟨u, hu, hpassed⟩ := h
  exact ⟨u, hu, hpassed.step hs⟩

/-- **The invariant of a run**, with the cause of every end. -/
theorem run_inv {tr : List (Action k)} {s : State k} (h : (system cap o ifaces).Run tr s) :
    Inv o ifaces s ∧
      Delivery.Explained cap o (TelemetryPassed cap o ifaces tr s) s.telemetry := by
  induction h with
  | init hs => exact ⟨.init hs, .init hs.2.2.1⟩
  | step hrun hstep ih =>
      obtain ⟨hinv, hexplained⟩ := ih
      have ht := run_telemetry hrun
      have hsteps := Steps.of_next hstep
      refine ⟨hinv.step ht hsteps, ?_⟩
      have hkept := hexplained.mono (TelemetryPassed.step hstep)
      cases hsteps with
      | observe i c hif => exact hkept
      | callback i e rest telemetry hring htelemetry => exact hkept.callback htelemetry
      | telemetry a telemetry hcb htelemetry =>
          exact hkept.ends ⟨_, rfl, hrun.passed hstep⟩ (Delivery.next_ends ht hcb htelemetry).2

/-! ## Events and their packets -/

/-- Every submitted event is the event of a packet of the run. -/
theorem submitted_published (cfg : Settings) (calls : List ObserveCall) {e : EsEvent}
    (he : e ∈ (observeAll cfg calls .init).submitted) :
    ∃ before c, before ++ [c] <+: calls ∧
      e = publishedEvent cfg c (observeAll cfg before .init) := by
  induction calls using List.reverseRecOn with
  | nil => cases he
  | append_singleton calls c ih =>
      rw [observeAll_concat, esObserve_submitted] at he
      rcases List.mem_append.mp he with hold | hnew
      · obtain ⟨before, c', hbefore, heq⟩ := ih hold
        exact ⟨before, c', hbefore.trans (List.prefix_append _ _), heq⟩
      · split at hnew
        · exact ⟨calls, c, List.prefix_rfl, List.mem_singleton.mp hnew⟩
        · cases hnew

/-- The event of a packet, and what it tells about it. -/
structure Published (cfg : Settings) (calls : List ObserveCall) (e : EsEvent) : Prop where
  packet : ∃ before c, before ++ [c] <+: calls ∧
    e = publishedEvent cfg c (observeAll cfg before .init) ∧ Truthful cfg c e

/-- What the sink gets for an event. -/
def recordOf (ifaces : Fin k → Interface) (p : Fin k × EsEvent) : TelemetryRecord :=
  ⟨p.2, (ifaces p.1).source.netnsInode, (ifaces p.1).source.sessionId⟩

theorem Inv.submitted {s : State k} (h : Inv o ifaces s) {p : Fin k × EsEvent}
    (hp : p ∈ s.handed) : p.2 ∈ (s.observers p.1).submitted := by
  rw [← h.rings p.1]
  apply List.mem_append_left
  exact List.mem_map.mpr ⟨p, List.mem_filter.mpr ⟨hp, by simp⟩, rfl⟩

theorem Inv.published {s : State k} (h : Inv o ifaces s) {p : Fin k × EsEvent}
    (hp : p ∈ s.handed) : Published (ifaces p.1).settings (s.calls p.1) p.2 := by
  have hmem := h.submitted hp
  rw [h.observers p.1] at hmem
  obtain ⟨before, c, hbefore, heq⟩ := submitted_published _ _ hmem
  refine ⟨before, c, hbefore, heq, ?_⟩
  rw [heq]
  exact publishedEvent_truthful _ _ _

/-- The image of a published event decodes to it. -/
theorem publishedEvent_decodes {i : Fin k} {c : ObserveCall} (st : ObserverState)
    (hif : c.skb.ifindex = (ifaces i).source.ifindex) {e : EsEvent}
    (he : e = publishedEvent (ifaces i).settings c st) :
    decodeRecord o (callbackOf o ifaces (i, e)).source (callbackOf o ifaces (i, e)).data
      (callbackOf o ifaces (i, e)).size = some (recordOf ifaces (i, e)) := by
  have hwell : WellFormed e := by
    rw [he]
    exact publishedEvent_wellFormed _ _ _ (by rw [hif]; exact (ifaces i).ifindex_ne)
  rw [decodeRecord_eq_some_iff]
  refine ⟨decodeEvent_encode o hwell, ?_, rfl, rfl⟩
  show e.ifindex = _
  rw [he, publishedEvent_frame]
  exact hif

/-- **No record of a ring is a decode error.** -/
theorem Inv.decodes {s : State k} (h : Inv o ifaces s) {p : Fin k × EsEvent}
    (hp : p ∈ s.handed) :
    decodeRecord o (ifaces p.1).source (some ((eventCodec o).encode p.2)) esEventSize =
      some (recordOf ifaces p) := by
  obtain ⟨before, c, hbefore, heq, -⟩ := (h.published hp).packet
  have hif : c.skb.ifindex = (ifaces p.1).source.ifindex :=
    h.ifindex p.1 c (hbefore.subset (by simp))
  exact publishedEvent_decodes _ hif heq

/-! ## Fates -/

/-- The records given to the callback that have left it, each with the way it did. -/
def fates (s : State k) : List ((Fin k × EsEvent) × Outcome) :=
  s.handed.zip (s.telemetry.ended.map Prod.snd)

/-- Pairs whose first halves are the images of an initial part of a list. -/
theorem eq_map_zip {α β γ : Type} {f : α → β} {ended : List (β × γ)} {rest : List β}
    {xs : List α} (h : ended.map Prod.fst ++ rest = xs.map f) :
    ended = (xs.zip (ended.map Prod.snd)).map (fun p => (f p.1, p.2)) ∧
      xs.length = (xs.zip (ended.map Prod.snd)).length + rest.length := by
  induction ended generalizing xs with
  | nil =>
      have hlen := congrArg List.length h
      simp only [List.map_nil, List.nil_append, List.length_map] at hlen
      simp [hlen]
  | cons p ended ih =>
      cases xs with
      | nil => simp at h
      | cons x xs =>
          simp only [List.map_cons, List.cons_append, List.cons.injEq] at h
          obtain ⟨htail, hlen⟩ := ih h.2
          constructor
          · simp only [List.map_cons, List.zip_cons_cons]
            rw [← htail, ← h.1]
          · simp only [List.map_cons, List.zip_cons_cons, List.length_cons]
            omega

theorem ended_eq {s : State k} (h : Inv o ifaces s)
    (ht : Delivery.Inv cap o (sources ifaces) s.telemetry) :
    s.telemetry.ended = (fates s).map (fun f => (callbackOf o ifaces f.1, f.2)) ∧
      s.handed.length = (fates s).length + s.telemetry.pc.inFlight.length :=
  eq_map_zip (ht.made.symm.trans h.made)

/-- The record of an event that went to the queue. -/
def queuedRecord (f : (Fin k × EsEvent) × Outcome) : Option TelemetryRecord :=
  match f.2 with
  | .queued record => some record
  | _ => none

/-- The records that went to the queue. -/
def queuedOf (fs : List ((Fin k × EsEvent) × Outcome)) : List TelemetryRecord :=
  fs.filterMap queuedRecord

theorem queuedOf_cons (f : (Fin k × EsEvent) × Outcome) (fs : List ((Fin k × EsEvent) × Outcome)) :
    queuedOf (f :: fs) = (queuedRecord f).toList ++ queuedOf fs := by
  rw [queuedOf, List.filterMap_cons]
  cases queuedRecord f <;> rfl

/-- How many records met a fate. -/
def met (out : Outcome) (fs : List ((Fin k × EsEvent) × Outcome)) : Nat :=
  fs.countP fun f => f.2 = out

theorem queuedPairs_map (fs : List ((Fin k × EsEvent) × Outcome)) :
    (queuedPairs (fs.map fun f => (callbackOf o ifaces f.1, f.2))).map Prod.snd =
      queuedOf fs := by
  induction fs with
  | nil => rfl
  | cons f fs ih =>
      obtain ⟨p, out⟩ := f
      unfold queuedPairs at ih ⊢
      rw [queuedOf_cons]
      cases out <;> simpa [queuedRecord] using ih

theorem times_map (out : Outcome) (fs : List ((Fin k × EsEvent) × Outcome)) :
    times out (fs.map fun f => (callbackOf o ifaces f.1, f.2)) = met out fs := by
  rw [times, List.countP_map]
  rfl

/-- A record goes to the queue as what its event is, or is lost in a way that
is counted. -/
def Fate (ifaces : Fin k → Interface) (f : (Fin k × EsEvent) × Outcome) : Prop :=
  f.2 = .queued (recordOf ifaces f.1) ∨ f.2 = .dropped ∨ f.2 = .discarded

theorem getElem?_ended {s : State k} (h : Inv o ifaces s)
    (ht : Delivery.Inv cap o (sources ifaces) s.telemetry) {n : Nat} {p : Fin k × EsEvent}
    {out : Outcome} (hn : (fates s)[n]? = some (p, out)) :
    s.telemetry.ended[n]? = some (callbackOf o ifaces p, out) := by
  rw [(ended_eq h ht).1, List.getElem?_map, hn]
  rfl

theorem fate_of_mem {s : State k} (h : Inv o ifaces s)
    (ht : Delivery.Inv cap o (sources ifaces) s.telemetry)
    {passed : Delivery.State → Delivery.Action → Prop}
    (hexplained : Delivery.Explained cap o passed s.telemetry)
    {f : (Fin k × EsEvent) × Outcome} (hf : f ∈ fates s) : Fate ifaces f := by
  obtain ⟨n, hn⟩ := List.getElem?_of_mem hf
  have hdecodes := h.decodes (o := o) (List.of_mem_zip hf).1
  obtain ⟨p, out⟩ := f
  have hended := getElem?_ended h ht hn
  cases hexplained.ended n _ hended with
  | discarded _ _ _ _ => exact Or.inr (Or.inr rfl)
  | dropped _ _ _ _ => exact Or.inr (Or.inl rfl)
  | decodeError _ _ _ _ hnone => exact absurd (hdecodes.symm.trans hnone) nofun
  | @queued t record _ _ _ =>
      have hqueued : (callbackOf o ifaces p, record) ∈ queuedPairs s.telemetry.ended :=
        List.mem_filterMap.mpr ⟨_, List.mem_of_getElem? hended, rfl⟩
      have hdecoded : some record = some (recordOf ifaces p) :=
        (ht.queued _ hqueued).symm.trans hdecodes
      injection hdecoded with hdecoded
      exact Or.inl (by rw [hdecoded])

/-! ## The law -/

theorem sum_handedBy (handed : List (Fin k × EsEvent)) :
    (∑ i, (handedBy i handed).length) = handed.length := by
  induction handed with
  | nil => simp [handedBy]
  | cons p handed ih =>
      have hcons : ∀ i, (handedBy i (p :: handed)).length =
          (handedBy i handed).length + if p.1 = i then 1 else 0 := by
        intro i
        by_cases h : p.1 = i <;> simp [handedBy, h]
      simp only [hcons, Finset.sum_add_distrib, ih, List.length_cons]
      simp

/-- Where every event is. -/
structure Accounted (cap : Capacity) (o : Codec.ByteOrder) (ifaces : Fin k → Interface)
    (tr : List (Action k)) (s : State k) : Prop where
  /-- the events of an observer were given to the callback or are in its ring, in order -/
  rings : ∀ i, handedBy i s.handed ++ s.rings i =
    (observeAll (ifaces i).settings (s.calls i) .init).submitted
  /-- each tells the truth about a packet of its interface -/
  published : ∀ p ∈ s.handed, Published (ifaces p.1).settings (s.calls p.1) p.2
  /-- each decodes to what it is, with its interface's own source -/
  decodes : ∀ p ∈ s.handed,
    decodeRecord o (ifaces p.1).source (some ((eventCodec o).encode p.2)) esEventSize =
      some (recordOf ifaces p)
  /-- those that left the callback were queued as what they are, or counted as lost -/
  fate : ∀ f ∈ fates s, Fate ifaces f
  /-- dropped only by a full queue, discarded only by the shutdown -/
  cause : ∀ n p out, (fates s)[n]? = some (p, out) →
    Delivery.Cause cap o (TelemetryPassed cap o ifaces tr s) n (callbackOf o ifaces p) out
  /-- the sink pops the queued ones in order -/
  sink : s.telemetry.popped ++ (s.telemetry.queue.stored cap).map (ofCells o) =
    queuedOf (fates s)
  /-- the counters are the counts, and there is no decode error -/
  loss : s.telemetry.loss =
    ⟨0, UInt64.ofNat (met .dropped (fates s)), UInt64.ofNat (met .discarded (fates s))⟩
  /-- all together -/
  balance : (∑ i, (observeAll (ifaces i).settings (s.calls i) .init).submitted.length) =
    s.telemetry.popped.length + (s.telemetry.queue.stored cap).length +
      met .dropped (fates s) + met .discarded (fates s) + s.telemetry.pc.inFlight.length +
        ∑ i, (s.rings i).length

theorem length_fates {fs : List ((Fin k × EsEvent) × Outcome)} (h : ∀ f ∈ fs, Fate ifaces f) :
    fs.length = (queuedOf fs).length + met .dropped fs + met .discarded fs := by
  induction fs with
  | nil => rfl
  | cons f fs ih =>
      have htail := ih fun f hf => h f (List.mem_cons_of_mem _ hf)
      have hfate := h f List.mem_cons_self
      obtain ⟨p, out⟩ := f
      rw [queuedOf_cons]
      unfold met at htail ⊢
      rcases hfate with hout | hout | hout <;> simp only at hout <;> subst hout <;>
        simp [queuedRecord] <;> omega

/-- **The pipeline accounts for every event**, under every schedule of packets,
callbacks and pops. -/
theorem pipeline_accounted (cap : Capacity) (o : Codec.ByteOrder) (ifaces : Fin k → Interface)
    (tr : List (Action k)) (s : State k) (h : (system cap o ifaces).Run tr s) :
    Accounted cap o ifaces tr s := by
  obtain ⟨hinv, hexplained⟩ := run_inv h
  have ht := run_telemetry h
  obtain ⟨hended, hlength⟩ := ended_eq hinv ht
  have hfate : ∀ f ∈ fates s, Fate ifaces f := fun f hf => fate_of_mem hinv ht hexplained hf
  have hsink := ht.records
  rw [hended, queuedPairs_map] at hsink
  have hnone : met .decodeError (fates s) = 0 := by
    rw [met, List.countP_eq_zero]
    intro f hf
    rcases hfate f hf with hout | hout | hout <;> simp [hout]
  have hrings : ∀ i, handedBy i s.handed ++ s.rings i =
      (observeAll (ifaces i).settings (s.calls i) .init).submitted := by
    intro i
    rw [hinv.rings i, hinv.observers i]
  constructor
  case rings => exact hrings
  case published => exact fun p hp => hinv.published hp
  case decodes => exact fun p hp => hinv.decodes hp
  case fate => exact hfate
  case cause => exact fun n p out hn => hexplained.ended n _ (getElem?_ended hinv ht hn)
  case sink => exact hsink.symm
  case loss =>
    rw [ht.loss, hended, lossOf, times_map, times_map, times_map, hnone]
    rfl
  case balance =>
    have hsum : ∀ i, (observeAll (ifaces i).settings (s.calls i) .init).submitted.length =
        (handedBy i s.handed).length + (s.rings i).length := by
      intro i
      rw [← hrings i, List.length_append]
    have hqueue := congrArg List.length hsink
    rw [List.length_append, List.length_map] at hqueue
    have hcount := length_fates hfate
    simp only [hsum, Finset.sum_add_distrib, sum_handedBy]
    omega

/-! ## A run with every fate but a decode error -/

/-- One interface, every packet sampled. -/
def oneInterface : Fin 1 → Interface := fun _ => ⟨⟨1, 16, 0, 0, 0⟩, ⟨3, 40, 50⟩, by decide⟩

/-- A one-byte packet on it. -/
def samplePacket (byte : UInt8) : ObserveCall where
  skb := ⟨[byte], 3, 0, 0, by simp⟩
  direction := .ingress
  cpu := 0
  now := 0
  parseLoad := .success
  snapshotLoad := .success
  ringReserved := true
  flowInsert := ⟨true, fun _ => false⟩

/-- The event of the packet after these. -/
def sampleEvent (before : List ObserveCall) (byte : UInt8) : EsEvent :=
  publishedEvent (oneInterface 0).settings (samplePacket byte)
    (observeAll (oneInterface 0).settings before .init)

/-- Before the first packet. -/
def State.empty : State 1 := ⟨fun _ => .init, fun _ => [], .empty, fun _ => [], []⟩

/-- Four packets are seen. -/
def fourSeen : State 1 :=
  observe oneInterface (observe oneInterface (observe oneInterface (observe oneInterface .empty
    0 (samplePacket 1)) 0 (samplePacket 2)) 0 (samplePacket 3)) 0 (samplePacket 4)

theorem fourSeen_ring : fourSeen.rings 0 =
    [sampleEvent [] 1, sampleEvent [samplePacket 1] 2,
      sampleEvent [samplePacket 1, samplePacket 2] 3,
      sampleEvent [samplePacket 1, samplePacket 2, samplePacket 3] 4] := rfl

theorem sampleEvent_decodes (before : List ObserveCall) (byte : UInt8) :
    decodeRecord .little (callbackOf .little oneInterface (0, sampleEvent before byte)).source
      (callbackOf .little oneInterface (0, sampleEvent before byte)).data
      (callbackOf .little oneInterface (0, sampleEvent before byte)).size =
        some (recordOf oneInterface (0, sampleEvent before byte)) :=
  publishedEvent_decodes (c := samplePacket byte) _ rfl rfl

/-- The first record is queued, the second finds the queue full, the third is queued
after a pop, and the fourth comes after the abort. -/
theorem run_fourPackets : ∃ tr s,
    (system ⟨1, 255, by decide, by decide⟩ .little oneInterface).Run tr s ∧
      s.calls 0 = [samplePacket 1, samplePacket 2, samplePacket 3, samplePacket 4] ∧
      s.telemetry.loss = ⟨0, 1, 1⟩ ∧
      s.telemetry.popped =
        [recordOf oneInterface (0, sampleEvent [] 1),
          recordOf oneInterface (0, sampleEvent [samplePacket 1, samplePacket 2] 3)] := by
  have hview : ¬(⟨0, false, 0⟩ : ShutdownView).cancels := by decide
  have start : ∃ tr, (system ⟨1, 255, by decide, by decide⟩ .little oneInterface).Run tr .empty :=
    ⟨[], .init ⟨fun _ => rfl, fun _ => rfl, Delivery.State.initial_empty, fun _ => rfl, rfl⟩⟩
  have seen : ∃ tr, (system ⟨1, 255, by decide, by decide⟩ .little oneInterface).Run tr fourSeen :=
    run_observe (run_observe (run_observe (run_observe start rfl) rfl) rfl) rfl
  obtain ⟨queue₁, alone₁, hfull⟩ := Delivery.callback_queued (c := ⟨1, 255, by decide, by decide⟩)
    (s := fourSeen.telemetry) (Spsc.Resting.init Delivery.State.initial_empty.1) Nat.one_pos
    hview (sampleEvent_decodes [] 1)
  have first := run_callback seen fourSeen_ring rfl alone₁
  have second := run_callback first rfl rfl (Delivery.callback_dropped hfull rfl hview
    (sampleEvent_decodes [samplePacket 1] 2))
  obtain ⟨queue₂, alone₂, hempty⟩ := Delivery.pop_oldest (o := .little)
    (s := Delivery.left _ _ .dropped queue₁) hfull
  have popped := run_alone second alone₂
  obtain ⟨queue₃, alone₃, hfull'⟩ := Delivery.callback_queued
    (s := { Delivery.left _ _ .dropped queue₁ with queue := queue₂, popped := _ }) hempty
    Nat.one_pos hview (sampleEvent_decodes [samplePacket 1, samplePacket 2] 3)
  have third := run_callback popped rfl rfl alone₃
  obtain ⟨queue₄, alone₄, -⟩ := Delivery.pop_oldest (o := .little)
    (s := Delivery.left _ _ (.queued _) queue₃) hfull'
  have popped' := run_alone third alone₄
  obtain ⟨tr, run⟩ := run_callback popped' (i := 0) rfl rfl
    (Delivery.callback_discarded ⟨0, true, 0⟩ (Or.inl rfl))
  refine ⟨tr, _, run, rfl, rfl, ?_⟩
  exact congrArg₂ (fun r r' => [r, r']) (ofCells_toCells _ _) (ofCells_toCells _ _)

theorem pipeline_accounted_fourPackets : ∃ tr s,
    Accounted ⟨1, 255, by decide, by decide⟩ .little oneInterface tr s ∧
      s.telemetry.loss = ⟨0, 1, 1⟩ ∧
      s.telemetry.popped =
        [recordOf oneInterface (0, sampleEvent [] 1),
          recordOf oneInterface (0, sampleEvent [samplePacket 1, samplePacket 2] 3)] := by
  obtain ⟨tr, s, run, -, hloss, hpopped⟩ := run_fourPackets
  exact ⟨tr, s, pipeline_accounted _ _ _ tr s run, hloss, hpopped⟩

end Pipeline

end ElephantShrew.Telemetry
