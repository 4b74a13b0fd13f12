import ElephantShrew.Bpf.PacketParser

/-!
# The packet as a kernel program sees it

`struct __sk_buff`, with the members the programs read, the helper that copies
packet bytes out of it, and the block in which both classifiers load a packet
and parse it.  Whether a copy succeeds is up to the kernel; a copy that fails
may have written any part of its target.
-/

namespace ElephantShrew.Bpf

open ElephantShrew.Verified

/-- A packet: its bytes and metadata.  The length is a 32-bit member. -/
structure SkBuff where
  data : Bytes
  ifindex : UInt32
  vlanPresent : UInt32
  vlanTci : UInt32
  length_lt : data.length < 2 ^ 32

/-- `skb->len`. -/
def SkBuff.len (skb : SkBuff) : UInt32 := UInt32.ofNat skb.data.length

@[simp] theorem SkBuff.toNat_len (skb : SkBuff) : skb.len.toNat = skb.data.length :=
  UInt32.toNat_ofNat_of_lt skb.length_lt

/-- What becomes of one `bpf_skb_load_bytes` call. -/
inductive LoadOutcome where
  | success
  /-- the call fails and leaves `junk` in the target -/
  | failure (junk : Bytes)
  deriving DecidableEq, Repr

/-- `bpf_skb_load_bytes(skb, 0, target, n)`: the return code and the target after
the call. -/
def bpfSkbLoadBytes (skb : SkBuff) (o : LoadOutcome) {k : Nat} (target : Vector UInt8 k)
    (n : UInt32) : Int × Vector UInt8 k :=
  match o with
  | .success => (0, Bytes.copyInto target skb.data 0 n.toNat)
  | .failure junk => (-14, Bytes.copyInto target junk 0 n.toNat)

/-- `min(len, bound)` as the programs write it. -/
def clampTo (bound n : UInt32) : UInt32 := if n > bound then bound else n

theorem toNat_clampTo (bound n : UInt32) : (clampTo bound n).toNat = min n.toNat bound.toNat := by
  unfold clampTo
  simp only [GT.gt, UInt32.lt_iff_toNat_lt]
  split <;> omega

/-- The block both classifiers share: `status` and the tuple after it. -/
def parseLoaded (skb : SkBuff) (o : LoadOutcome) : EsParseStatus × EsTuple :=
  let cap := clampTo esParseBytes skb.len
  if cap ≠ 0 then
    let (rc, bytes) := bpfSkbLoadBytes skb o (Vector.replicate 128 0) cap
    if rc = 0 then
      esParse bytes.toList cap skb.len (decide (skb.vlanPresent ≠ 0)) skb.vlanTci.toUInt16
    else (.truncated, EsTuple.zero)
  else (.truncated, EsTuple.zero)

end ElephantShrew.Bpf
