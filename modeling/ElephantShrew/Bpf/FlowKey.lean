import ElephantShrew.Bpf.ParserAccepts
import ElephantShrew.Bpf.PolicyVerdict
import ElephantShrew.Bpf.Observer
import ElephantShrew.Telemetry.DecodeEvent

/-!
# Byte-equal keys are equal flows

The `flows` map and the rules map compare their keys as raw bytes.  A key is a
tuple with an interface and a direction, so two packets share an entry exactly
when the parser leaves the same tuple for both.

`FlowId` is what an operator calls a flow: ordered VLAN ids, EtherType, IP
version, addresses, protocol and ports of a frame of the grammar, and nothing
else of it.
-/

namespace ElephantShrew.Bpf

open ElephantShrew.Verified
open ElephantShrew.Verified.ExitM

/-! ## Flows of frames -/

/-- What tells one flow from another. -/
structure FlowId where
  vids : List UInt16
  ethertype : UInt16
  ipVersion : UInt8
  src : Vector UInt8 16
  dst : Vector UInt8 16
  l4Proto : UInt8
  sport : Vector UInt8 2
  dport : Vector UInt8 2
  deriving DecidableEq, Repr

/-- The flow of a front part, the tag removed by the hardware included. -/
def Header.flowId (h : Header) (strippedVlan : Bool) (strippedVid : UInt16) : FlowId where
  vids := h.vids strippedVlan strippedVid
  ethertype := h.net.ethertype
  ipVersion := h.net.ipVersion
  src := h.net.src
  dst := h.net.dst
  l4Proto := h.l4.proto
  sport := h.l4.sport
  dport := h.l4.dport

/-- Two slots and a count determine at most two ids. -/
theorem eq_of_slots {vids vids' : List UInt16} (h : vids.length ≤ 2) (h' : vids'.length ≤ 2)
    (hcount : UInt8.ofNat vids.length = UInt8.ofNat vids'.length)
    (hfirst : vids.getD 0 0 = vids'.getD 0 0) (hsecond : vids.getD 1 0 = vids'.getD 1 0) :
    vids = vids' := by
  have hlen : vids.length = vids'.length := by
    have htoNat := congrArg UInt8.toNat hcount
    rw [UInt8.toNat_ofNat_of_lt' (Nat.lt_of_le_of_lt h (by decide)),
      UInt8.toNat_ofNat_of_lt' (Nat.lt_of_le_of_lt h' (by decide))] at htoNat
    exact htoNat
  match vids, vids', h, h', hlen with
  | [], [], _, _, _ => rfl
  | [a], [b], _, _, _ => rw [show a = b from hfirst]
  | [a, b], [a', b'], _, _, _ => rw [show a = a' from hfirst, show b = b' from hsecond]

/-- **The tuple names the flow.** -/
theorem Header.tuple_eq_iff {h h' : Header} {strippedVlan strippedVlan' : Bool}
    {strippedVid strippedVid' : UInt16} (htags : h.TagsOk strippedVlan)
    (htags' : h'.TagsOk strippedVlan') :
    h.tuple strippedVlan strippedVid = h'.tuple strippedVlan' strippedVid' ↔
      h.flowId strippedVlan strippedVid = h'.flowId strippedVlan' strippedVid' := by
  constructor
  · intro heq
    have hvids : h.vids strippedVlan strippedVid = h'.vids strippedVlan' strippedVid' := by
      have hvlan := congrArg EsTuple.vlan heq
      apply eq_of_slots
      · rw [length_vids]
        exact htags
      · rw [length_vids]
        exact htags'
      · exact congrArg EsTuple.vlanCount heq
      · exact congrArg (fun v : Vector UInt16 2 => v[0]) hvlan
      · exact congrArg (fun v : Vector UInt16 2 => v[1]) hvlan
    simp only [Header.flowId, FlowId.mk.injEq]
    exact ⟨hvids, congrArg EsTuple.ethertype heq, congrArg EsTuple.ipVersion heq,
      congrArg EsTuple.src heq, congrArg EsTuple.dst heq, congrArg EsTuple.l4Proto heq,
      congrArg EsTuple.sport heq, congrArg EsTuple.dport heq⟩
  · intro heq
    simp only [Header.flowId, FlowId.mk.injEq] at heq
    obtain ⟨hvids, htype, hversion, hsrc, hdst, hproto, hsport, hdport⟩ := heq
    simp only [Header.tuple, hvids, htype, hversion, hsrc, hdst, hproto, hsport, hdport]

/-- A byte string is one frame as far as the tuple goes: the parser, without
its bound on the captured prefix, reads it in one way only. -/
theorem Frame.tuple_unique {fr : Bytes} (hlt : fr.length < 2 ^ 32) {f f' : Frame}
    (hf : f.encode = fr) (hf' : f'.encode = fr) {strippedVlan : Bool}
    (htags : f.header.TagsOk strippedVlan) (htags' : f'.header.TagsOk strippedVlan)
    (strippedVid : UInt16) :
    f.header.tuple strippedVlan strippedVid = f'.header.tuple strippedVlan strippedVid := by
  have reads : ∀ g : Frame, g.encode = fr → g.header.TagsOk strippedVlan →
      ((esParseBody fr (UInt32.ofNat fr.length) (UInt32.ofNat fr.length) strippedVlan
        strippedVid).exec EsTuple.zero).1 = g.header.tuple strippedVlan strippedVid := by
    intro g hg hgtags
    obtain ⟨hat, hdata⟩ := (Frame.exists_encode_iff fr g.header).mp ⟨g, rfl, hg⟩
    have hroom := g.header.room
    have hlen : (UInt32.ofNat fr.length).toNat = fr.length := UInt32.toNat_ofNat_of_lt hlt
    have hwp : Wp (esParseBody fr (UInt32.ofNat fr.length) (UInt32.ofNat fr.length) strippedVlan
        strippedVid) (fun _ t => t = g.header.tuple strippedVlan strippedVid) (fun _ _ => False)
        EsTuple.zero := by
      apply esParseBody_accepts g.header hgtags hat
      · rw [hlen]
        simp only [Header.size]
        omega
      · rw [hlen]
        exact hdata
    unfold Wp at hwp
    split at hwp
    · next hexec => rw [hexec, ← hwp]
    · exact hwp.elim
  rw [← reads f hf htags, reads f' hf' htags']

/-! ## Packets of one flow -/

/-- The flow of a packet that is the frame `f`. -/
def SkBuff.flowId (skb : SkBuff) (f : Frame) : FlowId :=
  f.header.flowId (decide (skb.vlanPresent ≠ 0)) skb.vlanTci.toUInt16

/-- **Tuples of packets.**  Two packets parsed to the end with ports leave the
same tuple exactly when they are of one flow. -/
theorem SkBuff.parsed_tuple_eq_iff {skb skb' : SkBuff} {o o' : LoadOutcome}
    (hok : (skb.parsed o).1 = .ok) (hports : (skb.parsed o).2.has esTPortsValid)
    (hok' : (skb'.parsed o').1 = .ok) (hports' : (skb'.parsed o').2.has esTPortsValid)
    {f f' : Frame} (hf : skb.IsFrame f) (hf' : skb'.IsFrame f') :
    (skb.parsed o).2 = (skb'.parsed o').2 ↔ skb.flowId f = skb'.flowId f' := by
  obtain ⟨g, hg, htuple⟩ := SkBuff.frame_of_parsed hok hports
  obtain ⟨g', hg', htuple'⟩ := SkBuff.frame_of_parsed hok' hports'
  have hsame := Frame.tuple_unique skb.length_lt hg.1 hf.1 hg.2 hf.2 skb.vlanTci.toUInt16
  have hsame' := Frame.tuple_unique skb'.length_lt hg'.1 hf'.1 hg'.2 hf'.2 skb'.vlanTci.toUInt16
  rw [htuple, htuple', hsame, hsame']
  exact Header.tuple_eq_iff hf.2 hf'.2

/-! ## The keys -/

/-- `struct es_flow_key`, member by member. -/
def flowKeyCodec (o : Codec.ByteOrder) : Codec EsFlowKey :=
  Codec.record
    ((Telemetry.tupleCodec o).pair <| (Codec.uint32 o).pair <| Codec.uint8.pair <|
      Codec.uint8.array 3)
    (fun (tuple, ifindex, direction, reserved) => ⟨tuple, ifindex, direction, reserved⟩)
    (fun k => (k.tuple, k.ifindex, k.direction, k.reserved))
    fun _ => rfl

/-- `struct es_policy_key`, member by member. -/
def policyKeyCodec (o : Codec.ByteOrder) : Codec EsPolicyKey :=
  Codec.record
    ((flowKeyCodec o).pair <| (Codec.uint32 o).pair <| Codec.uint32 o)
    (fun (flow, kind, reserved) => ⟨flow, kind, reserved⟩)
    (fun k => (k.flow, k.kind, k.reserved))
    fun _ => rfl

/-- The size the shared header asserts; neither struct has padding. -/
theorem flowKeyCodec_size (o : Codec.ByteOrder) : (flowKeyCodec o).size = 56 := by
  simp [flowKeyCodec, Telemetry.tupleCodec_size]

theorem policyKeyCodec_size (o : Codec.ByteOrder) : (policyKeyCodec o).size = 64 := by
  simp [policyKeyCodec, flowKeyCodec_size]

/-- The key `es_count_flow` looks up, where a call gets that far. -/
def flowLookup (cfg : Settings) (c : ObserveCall) : Option EsFlowKey :=
  let r := esObserveParse cfg c
  if cfg.flowEnabled ≠ 0 ∧ r.1 = .ok ∧ r.2.has esTPortsValid then
    some (flowKey c.skb c.direction r.2)
  else none

/-- The key of the exact-rule lookup, where a call gets that far. -/
def exactLookup (c : PolicyCall) : Option EsPolicyKey :=
  (classified c).map (exactKey c.skb.ifindex)

theorem flowLookup_eq_some {cfg : Settings} {c : ObserveCall} {key : EsFlowKey}
    (h : flowLookup cfg c = some key) :
    (c.skb.parsed c.parseLoad).1 = .ok ∧ (c.skb.parsed c.parseLoad).2.has esTPortsValid ∧
      key = flowKey c.skb c.direction (c.skb.parsed c.parseLoad).2 := by
  simp only [flowLookup] at h
  split_ifs at h with hreach
  obtain ⟨-, hok, hports⟩ := hreach
  injection h with h
  simp only [esObserveParse, parseLoaded_eq] at hok hports h
  split_ifs at hok hports h with hparses
  exact ⟨hok, hports, h.symm⟩

theorem exactLookup_eq_some {c : PolicyCall} {key : EsPolicyKey} (h : exactLookup c = some key) :
    (c.skb.parsed c.load).1 = .ok ∧ (c.skb.parsed c.load).2.has esTPortsValid ∧
      key = exactKey c.skb.ifindex (c.skb.parsed c.load).2 := by
  obtain ⟨t, ht, hkey⟩ := Option.map_eq_some_iff.mp h
  unfold classified at ht
  split at ht
  · next hok =>
      injection ht with ht
      rw [ht]
      exact ⟨hok.1, ht ▸ hok.2, hkey.symm⟩
  · cases ht

/-- Without a key the flow table is left alone. -/
theorem esObserveCount_no_key {cfg : Settings} {c : ObserveCall} (h : flowLookup cfg c = none)
    (st : ObserverState) : (esObserveCount cfg c st).2 = st.flows := by
  simp only [flowLookup] at h
  split_ifs at h with hreach
  simp only [esObserveCount]
  split
  · next hflow =>
      have hports : ¬ (esObserveParse cfg c).2.has esTPortsValid :=
        fun hports => hreach ⟨hflow.1, hflow.2, hports⟩
      rw [esCountFlow, if_pos hports]
  · rfl

/-- The rule selected is the one under the exact key, or the default. -/
theorem esActiveLookup_eq_exactLookup (rules : Rules) (c : PolicyCall) :
    esActiveLookup rules c = ((exactLookup c).bind rules).or (rules EsPolicyKey.zero) := by
  rw [esActiveLookup_eq, governingRule, Policy.governing, exactLookup]
  cases classified c with
  | none => rfl
  | some t =>
      simp only [Option.map_some, Option.bind_some, Rules.policy]
      cases rules (exactKey c.skb.ifindex t) <;> rfl

/-! ## The law -/

/-- **Canonical tuples, and keys that are flows.**  Every exit of the parser
leaves a canonical tuple.  Two packets of one interface and direction that
reach the flow lookup, or the lookup of an exact rule, are frames of the
grammar, and their keys are the same bytes exactly when they are of one flow. -/
theorem tuple_identifies_flow (o : Codec.ByteOrder) :
    (∀ (p : Bytes) (cap originalLen : UInt32) (strippedVlan : Bool) (strippedVid : UInt16),
      Canonical (esParse p cap originalLen strippedVlan strippedVid).1
        (esParse p cap originalLen strippedVlan strippedVid).2) ∧
    (∀ (cfg : Settings) (c c' : ObserveCall) (key key' : EsFlowKey),
      flowLookup cfg c = some key → flowLookup cfg c' = some key' →
      c.skb.ifindex = c'.skb.ifindex → c.direction = c'.direction →
      (∃ f, c.skb.IsFrame f) ∧ (∃ f', c'.skb.IsFrame f') ∧
      ∀ f f', c.skb.IsFrame f → c'.skb.IsFrame f' →
        ((flowKeyCodec o).encode key = (flowKeyCodec o).encode key' ↔
          c.skb.flowId f = c'.skb.flowId f')) ∧
    ∀ (c c' : PolicyCall) (key key' : EsPolicyKey),
      exactLookup c = some key → exactLookup c' = some key' →
      c.skb.ifindex = c'.skb.ifindex →
      (∃ f, c.skb.IsFrame f) ∧ (∃ f', c'.skb.IsFrame f') ∧
      ∀ f f', c.skb.IsFrame f → c'.skb.IsFrame f' →
        ((policyKeyCodec o).encode key = (policyKeyCodec o).encode key' ↔
          c.skb.flowId f = c'.skb.flowId f') := by
  refine ⟨fun p cap originalLen strippedVlan strippedVid => esParse_canonical p _ _ _ _, ?_, ?_⟩
  · intro cfg c c' key key' hkey hkey' hif hdir
    obtain ⟨hok, hports, rfl⟩ := flowLookup_eq_some hkey
    obtain ⟨hok', hports', rfl⟩ := flowLookup_eq_some hkey'
    obtain ⟨g, hg, -⟩ := SkBuff.frame_of_parsed hok hports
    obtain ⟨g', hg', -⟩ := SkBuff.frame_of_parsed hok' hports'
    refine ⟨⟨g, hg⟩, ⟨g', hg'⟩, ?_⟩
    intro f f' hf hf'
    rw [Codec.encode_inj, ← SkBuff.parsed_tuple_eq_iff hok hports hok' hports' hf hf']
    simp only [flowKey, hif, hdir, EsFlowKey.mk.injEq, and_true]
  · intro c c' key key' hkey hkey' hif
    obtain ⟨hok, hports, rfl⟩ := exactLookup_eq_some hkey
    obtain ⟨hok', hports', rfl⟩ := exactLookup_eq_some hkey'
    obtain ⟨g, hg, -⟩ := SkBuff.frame_of_parsed hok hports
    obtain ⟨g', hg', -⟩ := SkBuff.frame_of_parsed hok' hports'
    refine ⟨⟨g, hg⟩, ⟨g', hg'⟩, ?_⟩
    intro f f' hf hf'
    rw [Codec.encode_inj, ← SkBuff.parsed_tuple_eq_iff hok hports hok' hports' hf hf']
    simp only [exactKey, hif, EsPolicyKey.mk.injEq, EsFlowKey.mk.injEq, and_true]

end ElephantShrew.Bpf
