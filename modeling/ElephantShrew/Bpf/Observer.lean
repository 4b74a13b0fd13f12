import ElephantShrew.Bpf.SkBuff

/-!
# The observing classifier

`bpf/elephantshrew_tc.bpf.c`.  One call of `es_observe` counts the packet,
classifies it, adds it to its flow, and may publish an event for it.  What the
kernel decides (whether a copy, a ring reservation or a map insert succeeds,
the clock and the CPU) is an input of the call; the maps and the ring are the
state it leaves behind.
-/

namespace ElephantShrew.Bpf

open ElephantShrew.Verified

/-- The load-time constants.  Changing them requires a reload. -/
structure Settings where
  sampleEvery : UInt32
  snapshotBytes : UInt32
  classify : UInt8
  flowEnabled : UInt8
  selectL4Proto : UInt8
  deriving DecidableEq, Repr

/-- What becomes of one insert into the LRU flow table. -/
structure FlowInsert where
  created : Bool
  evicted : EsFlowKey → Bool

/-- The `flows` map: an entry holds one value for each CPU. -/
abbrev Flows := EsFlowKey → Option (UInt32 → EsFlowValue)

/-- `bpf_map_update_elem(&flows, &key, &zero, BPF_NOEXIST)` on an absent key. -/
def Flows.insert (flows : Flows) (key : EsFlowKey) (o : FlowInsert) : Flows := fun k =>
  if k = key then (if o.created then some fun _ => EsFlowValue.zero else flows k)
  else if o.evicted k then none
  else flows k

/-- One call of the classifier, with everything the kernel decides about it. -/
structure ObserveCall where
  skb : SkBuff
  direction : EsDirection
  cpu : UInt32
  now : UInt64
  parseLoad : LoadOutcome
  snapshotLoad : LoadOutcome
  ringReserved : Bool
  flowInsert : FlowInsert

/-- The maps and the ring. -/
structure ObserverState where
  /-- `counters`: an array by direction, one slot for each CPU -/
  counters : EsDirection → UInt32 → EsCounters
  flows : Flows
  /-- events submitted to the ring, oldest first -/
  submitted : List EsEvent

/-- Freshly loaded maps. -/
def ObserverState.init : ObserverState := ⟨fun _ _ _ => 0, fun _ => none, []⟩

/-- The slot of one direction and CPU replaced. -/
def ObserverState.setSlot (st : ObserverState) (d : EsDirection) (cpu : UInt32)
    (s : EsCounters) : ObserverState :=
  { st with counters := fun d' cpu' => if d' = d ∧ cpu' = cpu then s else st.counters d' cpu' }

/-- The key of a flow. -/
def flowKey (skb : SkBuff) (direction : EsDirection) (tuple : EsTuple) : EsFlowKey :=
  ⟨tuple, skb.ifindex, direction.toUInt8, Vector.replicate 3 0⟩

/-- One packet added to a flow slot. -/
def EsFlowValue.count (f : EsFlowValue) (len : UInt32) (now : UInt64) : EsFlowValue :=
  { firstNs := if f.packets = 0 then now else f.firstNs
    lastNs := now
    packets := f.packets + 1
    bytes := f.bytes + len.toUInt64 }

/-- `es_count_flow`: nonfragmented TCP/UDP tuples only. -/
def esCountFlow (c : ObserveCall) (tuple : EsTuple) (s : EsCounters) (flows : Flows) :
    EsCounters × Flows :=
  if ¬ tuple.has esTPortsValid then (s, flows)
  else
    let key := flowKey c.skb c.direction tuple
    let flows := if (flows key).isNone then flows.insert key c.flowInsert else flows
    match flows key with
    | none => (s.add .flowUpdateFailed 1, flows)
    | some f =>
        let slot := (f c.cpu).count c.skb.len c.now
        (s, Function.update flows key (some (Function.update f c.cpu slot)))

/-- Some setting needs the packet parsed. -/
def Settings.parses (cfg : Settings) : Prop :=
  cfg.classify ≠ 0 ∨ cfg.flowEnabled ≠ 0 ∨ cfg.selectL4Proto ≠ 0

instance (cfg : Settings) : Decidable cfg.parses := inferInstanceAs (Decidable (_ ∨ _ ∨ _))

/-- The classification block: the status and the tuple after it. -/
def esObserveParse (cfg : Settings) (c : ObserveCall) : EsParseStatus × EsTuple :=
  if cfg.parses then parseLoaded c.skb c.parseLoad else (.skipped, EsTuple.zero)

/-- The parse counters of the classification block. -/
def countStatus (s : EsCounters) (status : EsParseStatus) : EsCounters :=
  if status = .malformed then s.add .parseMalformed 1
  else if status ≠ .ok then s.add .parsePartial 1
  else s

/-- The selection controls telemetry only: a packet of another protocol leaves
the classifier here. -/
def deselected (cfg : Settings) (r : EsParseStatus × EsTuple) : Prop :=
  cfg.selectL4Proto ≠ 0 ∧ (r.1 ≠ .ok ∨ r.2.l4Proto ≠ cfg.selectL4Proto)

instance (cfg : Settings) (r : EsParseStatus × EsTuple) : Decidable (deselected cfg r) :=
  inferInstanceAs (Decidable (_ ∧ _))

/-- The event before its snapshot. -/
def fillEvent (c : ObserveCall) (seq : UInt64) (r : EsParseStatus × EsTuple) : EsEvent :=
  { EsEvent.zero with
    timestampMonoNs := c.now
    sequence := seq
    ifindex := c.skb.ifindex
    originalLen := c.skb.len
    cpu := c.cpu
    abiVersion := esAbiVersion
    recordSize := UInt16.ofNat esEventSize
    linkType := esLinktypeEthernet
    direction := c.direction.toUInt8
    hook := esHookTc
    parseStatus := r.1.toUInt8
    tuple := r.2
    flags := if c.skb.vlanPresent ≠ 0 then EsEvent.zero.flags ||| esEVlanStripped
      else EsEvent.zero.flags }

/-- `min(snapshot_bytes, ES_SNAPSHOT_MAX, skb->len)`. -/
def snapshotWant (cfg : Settings) (skb : SkBuff) : UInt32 :=
  clampTo skb.len (clampTo esSnapshotMax cfg.snapshotBytes)

/-- The snapshot block. -/
def takeSnapshot (cfg : Settings) (c : ObserveCall) (e : EsEvent) (s : EsCounters) :
    EsEvent × EsCounters :=
  let want := snapshotWant cfg c.skb
  if want ≠ 0 then
    let (rc, bytes) := bpfSkbLoadBytes c.skb c.snapshotLoad e.pref want
    if rc = 0 then
      ({ e with
          pref := bytes
          capturedLen := want.toUInt16
          flags := if want < c.skb.len then e.flags ||| esEPrefixTruncated else e.flags }, s)
    else
      -- a failed copy must not publish partially initialized data
      ({ e with pref := EsEvent.zero.pref, flags := e.flags ||| esECopyFailed },
        s.add .snapshotFailed 1)
  else (e, s)

/-- The counters and flows when the selection is decided. -/
def esObserveCount (cfg : Settings) (c : ObserveCall) (st : ObserverState) : EsCounters × Flows :=
  let r := esObserveParse cfg c
  let s := st.counters c.direction c.cpu
  let s := s.add .packets 1
  let s := s.add .bytes c.skb.len.toUInt64
  let s := if cfg.parses then countStatus s r.1 else s
  if cfg.flowEnabled ≠ 0 ∧ r.1 = .ok then esCountFlow c r.2 s st.flows else (s, st.flows)

/-- The `selected`-th selected packet is one to sample. -/
def sampled (cfg : Settings) (selected : UInt64) : Prop :=
  cfg.sampleEvery ≠ 0 ∧ selected % cfg.sampleEvery.toUInt64 = 0

instance (cfg : Settings) (selected : UInt64) : Decidable (sampled cfg selected) :=
  inferInstanceAs (Decidable (_ ∧ _))

/-- `es_observe`: the value returned and the state left behind. -/
def esObserve (cfg : Settings) (c : ObserveCall) (st : ObserverState) : Int × ObserverState :=
  -- the index of an array map is in range, so the lookup never returns null
  let seq := st.counters c.direction c.cpu .packets + 1
  let r := esObserveParse cfg c
  let (s, flows) := esObserveCount cfg c st
  let st := { st with flows := flows }
  if deselected cfg r then (esTcNext, st.setSlot c.direction c.cpu s)
  else
    let selected := s .selected + 1
    let s := s.add .selected 1
    if ¬ sampled cfg selected then (esTcNext, st.setSlot c.direction c.cpu s)
    else if c.ringReserved then
      let (e, s) := takeSnapshot cfg c (fillEvent c seq r) s
      let s := s.add .events 1
      (esTcNext, { st.setSlot c.direction c.cpu s with submitted := st.submitted ++ [e] })
    else (esTcNext, st.setSlot c.direction c.cpu (s.add .ringLost 1))

/-- The two entry points. -/
def esIngress (cfg : Settings) (c : ObserveCall) (st : ObserverState) : Int × ObserverState :=
  esObserve cfg { c with direction := .ingress } st

def esEgress (cfg : Settings) (c : ObserveCall) (st : ObserverState) : Int × ObserverState :=
  esObserve cfg { c with direction := .egress } st

/-- A run of the classifier: calls one after the other. -/
def observeAll (cfg : Settings) (calls : List ObserveCall) (st : ObserverState) : ObserverState :=
  calls.foldl (fun st c => (esObserve cfg c st).2) st

end ElephantShrew.Bpf
