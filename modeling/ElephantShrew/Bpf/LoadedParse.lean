import ElephantShrew.Bpf.ParserAccepts
import ElephantShrew.Bpf.ParserCanonical
import ElephantShrew.Bpf.ParserMoreBytes
import ElephantShrew.Bpf.SkBuff

/-!
# What a packet parses as

Both classifiers copy the front of the packet into a zeroed buffer and parse the
buffer.  `SkBuff.parsed` says what comes of it in terms of the packet alone: the
parse of its first 128 bytes, or nothing where there was nothing to parse.
-/

namespace ElephantShrew.Bpf

open ElephantShrew.Verified

/-- The parse of a packet: that of its first `min(len, 128)` bytes, if there are any
and they can be loaded. -/
def SkBuff.parsed (skb : SkBuff) : LoadOutcome → EsParseStatus × EsTuple
  | .failure _ => (.truncated, EsTuple.zero)
  | .success =>
      if skb.data = [] then (.truncated, EsTuple.zero)
      else
        let front := skb.data.take 128
        esParse front (UInt32.ofNat front.length) skb.len (decide (skb.vlanPresent ≠ 0))
          skb.vlanTci.toUInt16

/-- Whatever comes of it, the tuple is canonical. -/
theorem SkBuff.parsed_canonical (skb : SkBuff) (o : LoadOutcome) :
    Canonical (skb.parsed o).1 (skb.parsed o).2 := by
  have hnothing : Canonical .truncated EsTuple.zero := esParse_canonical [] 0 14 false 0
  cases o with
  | failure junk => exact hnothing
  | success =>
      rw [SkBuff.parsed]
      split
      · exact hnothing
      · exact esParse_canonical _ _ _ _ _

/-! ## The block -/

theorem get_take {data : Bytes} {n i : Nat} (hi : i < n) :
    Bytes.get (data.take n) i = data.get i := by
  rw [Bytes.get, Bytes.get, List.getD_eq_getElem?_getD, List.getD_eq_getElem?_getD,
    List.getElem?_take_of_lt hi]

/-- A loaded prefix agrees with the packet. -/
theorem get_copyInto_toList (data : Bytes) {n i : Nat} (hi : i < n) (h128 : i < 128) :
    Bytes.get (Bytes.copyInto (Vector.replicate 128 0) data 0 n).toList i = data.get i := by
  have hlt : i < (Bytes.copyInto (Vector.replicate 128 0) data 0 n).toList.length := by simpa
  rw [Bytes.get, List.getD_eq_getElem?_getD, List.getElem?_eq_getElem hlt, Option.getD_some,
    Vector.getElem_toList, Bytes.getElem_copyInto, if_pos hi, Nat.zero_add]

/-- The front has as many bytes as the packet, or 128. -/
theorem SkBuff.toNat_front (skb : SkBuff) :
    (UInt32.ofNat (skb.data.take 128).length).toNat = min skb.data.length 128 := by
  rw [List.length_take, UInt32.toNat_ofNat_of_lt' (by simp only [UInt32.size]; omega), Nat.min_comm]

/-- `cap` is the length of the front. -/
theorem SkBuff.clampTo_len (skb : SkBuff) :
    clampTo esParseBytes skb.len = UInt32.ofNat (skb.data.take 128).length := by
  apply UInt32.toNat_inj.mp
  rw [skb.toNat_front, toNat_clampTo, skb.toNat_len]
  rfl

/-- **The block**, for every packet and outcome of the load. -/
theorem parseLoaded_eq (skb : SkBuff) (o : LoadOutcome) : parseLoaded skb o = skb.parsed o := by
  have hzero : clampTo esParseBytes skb.len ≠ 0 ↔ skb.data ≠ [] := by
    rw [skb.clampTo_len, ← List.length_pos_iff, ← UInt32.toNat_inj.ne, skb.toNat_front,
      UInt32.toNat_zero]
    omega
  unfold parseLoaded
  by_cases hcap : clampTo esParseBytes skb.len ≠ 0
  · rw [if_pos hcap]
    cases o with
    | failure junk => rfl
    | success =>
        rw [SkBuff.parsed, if_neg (hzero.mp hcap)]
        simp only [bpfSkbLoadBytes, if_true]
        rw [skb.clampTo_len]
        apply esParse_congr
        intro i hi
        rw [get_take (by omega), get_copyInto_toList _ (by omega) (by omega)]
  · rw [if_neg hcap]
    cases o with
    | failure junk => rfl
    | success => rw [SkBuff.parsed, if_pos (not_not.mp (hzero.not.mp hcap))]

/-! ## Packets that are frames -/

/-- The packet is this frame, with at most two tags. -/
def SkBuff.IsFrame (skb : SkBuff) (f : Frame) : Prop :=
  f.encode = skb.data ∧ f.header.TagsOk (decide (skb.vlanPresent ≠ 0))

/-- A packet parsed to the end with ports is a frame, and its tuple is the
frame's. -/
theorem SkBuff.frame_of_parsed {skb : SkBuff} {o : LoadOutcome} (hok : (skb.parsed o).1 = .ok)
    (hports : (skb.parsed o).2.has esTPortsValid) :
    ∃ f, skb.IsFrame f ∧
      (skb.parsed o).2 = f.header.tuple (decide (skb.vlanPresent ≠ 0)) skb.vlanTci.toUInt16 := by
  cases o with
  | failure junk => cases hok
  | success =>
      rw [SkBuff.parsed] at hok hports ⊢
      by_cases hdata : skb.data = []
      · rw [if_pos hdata] at hok
        cases hok
      · rw [if_neg hdata] at hok hports ⊢
        obtain ⟨f, hf, htags, -, htuple⟩ := frame_of_esParse skb.toNat_len
          (fun i hi => get_take (by omega)) hok hports
        exact ⟨f, ⟨hf, htags⟩, htuple⟩

/-- A frame whose front part is captured and loaded is parsed to the end with its
tuple. -/
theorem SkBuff.parsed_of_frame {skb : SkBuff} {f : Frame} (hf : skb.IsFrame f)
    (hsize : f.header.size ≤ 128) :
    (skb.parsed .success).1 = .ok ∧ (skb.parsed .success).2.has esTPortsValid ∧
      (skb.parsed .success).2 =
        f.header.tuple (decide (skb.vlanPresent ≠ 0)) skb.vlanTci.toUInt16 := by
  have hlen : f.header.size ≤ skb.data.length := by
    rw [← hf.1, Frame.encode, List.length_append, List.length_append, Header.length_encode]
    omega
  have hdata : skb.data ≠ [] := by
    have hpos := f.header.l4.size_ge
    simp only [Header.size] at hlen
    exact List.ne_nil_of_length_pos (by omega)
  rw [SkBuff.parsed, if_neg hdata]
  apply esParse_of_frame skb.toNat_len (fun i hi => get_take (by omega)) hf.1 hf.2
  rw [skb.toNat_front]
  omega

end ElephantShrew.Bpf
