import ElephantShrew.Bpf.Shared
import ElephantShrew.Verified.ExitM

/-!
# The packet parser

`bpf/packet_parser.bpf.h`.  The parser walks an Ethernet prefix, fills an
`EsTuple` on the way and may return from about twenty places, each time with
whatever the tuple holds by then.  It is transcribed in `ExitM`: the tuple is
the state, a `return` with a status is an exit, and the trace records every
byte read, every `vlan` slot written, every 32-bit addition and subtraction
and every bounds check.

Offsets and bounds are `UInt32`, so arithmetic wraps exactly as in C.
-/

namespace ElephantShrew.Bpf

open ElephantShrew.Verified
open ElephantShrew.Verified.ExitM

/-- What a run of the parser touched. -/
inductive Access where
  /-- `n` packet bytes read from index `i` -/
  | load (i n : Nat)
  /-- `t->vlan[i]` written -/
  | vlanSlot (i : Nat)
  /-- `a + b` computed in 32 bits -/
  | add (a b : UInt32)
  /-- `a - b` computed in 32 bits -/
  | sub (a b : UInt32)
  /-- `es_need` called -/
  | need (off n cap end_ : UInt32)
  deriving DecidableEq, Repr

/-- Parser computations: the tuple is the state, a status the exit value. -/
abbrev Parse := ExitM Access EsTuple EsParseStatus

/-- `es_need`: bounds distinguish a missing prefix from a structurally
impossible length. -/
def esNeed (off n cap end_ : UInt32) : EsParseStatus :=
  if off > end_ ∨ n > end_ - off then .malformed
  else if off > cap ∨ n > cap - off then .truncated
  else .ok

/-- `es_vlan`. -/
def esVlan (type : UInt16) : Prop := type = 0x8100 ∨ type = 0x88a8

instance (type : UInt16) : Decidable (esVlan type) :=
  inferInstanceAs (Decidable (_ ∨ _))

/-- `es_ext`. -/
def esExt (next : UInt8) : Prop :=
  next = 0 ∨ next = 43 ∨ next = 60 ∨ next = 51 ∨ next = 44

instance (next : UInt8) : Decidable (esExt next) :=
  inferInstanceAs (Decidable (_ ∨ _ ∨ _ ∨ _ ∨ _))

/-- The tuple with `vid` stored in its next `vlan` slot. -/
def EsTuple.pushVlan (t : EsTuple) (vid : UInt16) : EsTuple :=
  { t with
    vlan := t.vlan.setIfInBounds t.vlanCount.toNat vid
    vlanCount := t.vlanCount + 1 }

/-- `t->flags |= flag`. -/
def EsTuple.setFlag (t : EsTuple) (flag : UInt8) : EsTuple :=
  { t with flags := t.flags ||| flag }

namespace Parse

/-- `rc = es_need(off, n, cap, end); if (rc) return rc;` -/
def need (off n cap end_ : UInt32) : Parse Unit := do
  note (.need off n cap end_)
  exitIf (esNeed off n cap end_ ≠ .ok) (esNeed off n cap end_)

/-- `p[i]`. -/
def load (p : Bytes) (i : Nat) : Parse UInt8 := do
  note (.load i 1)
  pure (p.get i)

/-- `es_be16(p + i)`. -/
def esBe16 (p : Bytes) (i : Nat) : Parse UInt16 := do
  note (.load i 2)
  pure (Bytes.word16 (p.get i) (p.get (i + 1)))

/-- `a + b`, wrapping. -/
def add32 (a b : UInt32) : Parse UInt32 := do
  note (.add a b)
  pure (a + b)

/-- `a - b`, wrapping. -/
def sub32 (a b : UInt32) : Parse UInt32 := do
  note (.sub a b)
  pure (a - b)

/-- `__builtin_memcpy` of `n` packet bytes from `i` into a tuple member; the
member to replace is named by `f`. -/
def memcpy (i n : Nat) (f : EsTuple → EsTuple) : Parse Unit := do
  note (.load i n)
  update f

/-- `t->vlan[t->vlan_count++] = vid`. -/
def pushVlan (vid : UInt16) : Parse Unit := do
  let t ← state
  note (.vlanSlot t.vlanCount.toNat)
  update (·.pushVlan vid)

end Parse

open Parse

/-- The VLAN loop; the first argument counts the iterations left. -/
def esParseVlans (p : Bytes) (cap end_ : UInt32) :
    Nat → UInt32 → UInt16 → Parse (UInt32 × UInt16)
  | 0, off, type => pure (off, type)
  | n + 1, off, type =>
      if ¬ esVlan type then pure (off, type)
      else do
        let t ← state
        exitIf (t.vlanCount ≥ 2) .unsupported
        need off 4 cap end_
        let tci ← esBe16 p off.toNat
        pushVlan (tci &&& 0x0fff)
        let type ← esBe16 p (off.toNat + 2)
        let off ← add32 off 4
        esParseVlans p cap end_ n off type

/-- Ethernet/IPv4 ARP only.  Every path returns. -/
def esParseArp (p : Bytes) (cap end_ off : UInt32) : Parse (UInt32 × UInt32) := do
  need off 28 cap end_
  let hrd ← esBe16 p off.toNat
  exitIf (hrd ≠ 1) .unsupported
  let pro ← esBe16 p (off.toNat + 2)
  exitIf (pro ≠ 0x0800) .unsupported
  let hln ← load p (← add32 off 4).toNat
  exitIf (hln ≠ 6) .unsupported
  let pln ← load p (← add32 off 5).toNat
  exitIf (pln ≠ 4) .unsupported
  memcpy (off.toNat + 14) 4 fun t => { t with src := Bytes.copyInto t.src p (off.toNat + 14) 4 }
  memcpy (off.toNat + 24) 4 fun t => { t with dst := Bytes.copyInto t.dst p (off.toNat + 24) 4 }
  update fun t => { t with ipVersion := 4 }
  update (·.setFlag esTAddrValid)
  exit .ok

/-- The IPv4 branch: the transport offset and the bound of the datagram. -/
def esParseIpv4 (p : Bytes) (cap end_ off : UInt32) : Parse (UInt32 × UInt32) := do
  need off 20 cap end_
  let version ← load p off.toNat
  exitIf (version >>> 4 ≠ 4) .malformed
  let word ← load p off.toNat
  let ihl := (word &&& 0x0f).toUInt32 * 4
  let total := (← esBe16 p (off.toNat + 2)).toUInt32
  exitIf (ihl < 20 ∨ total < ihl ∨ total > (← sub32 end_ off)) .malformed
  let end_ ← add32 off total
  need off ihl cap end_
  update fun t => { t with ipVersion := 4 }
  let proto ← load p (← add32 off 9).toNat
  update fun t => { t with l4Proto := proto }
  memcpy (off.toNat + 12) 4 fun t => { t with src := Bytes.copyInto t.src p (off.toNat + 12) 4 }
  memcpy (off.toNat + 16) 4 fun t => { t with dst := Bytes.copyInto t.dst p (off.toNat + 16) 4 }
  update (·.setFlag esTAddrValid)
  let frag ← esBe16 p (off.toNat + 6)
  -- MF or any fragment offset; DF is not fragmentation
  if frag &&& 0x3fff ≠ 0 then do
    update (·.setFlag esTFragment)
    exit .fragment
  else do
    let l4 ← add32 off ihl
    pure (l4, end_)

/-- The extension-header loop; the first argument counts the iterations left. -/
def esParseExts (p : Bytes) (cap end_ : UInt32) :
    Nat → UInt32 → UInt8 → Parse (UInt32 × UInt8)
  | 0, off, next => pure (off, next)
  | n + 1, off, next =>
      if ¬ esExt next then pure (off, next)
      else do
        need off 2 cap end_
        if next = 44 then do
          need off 8 cap end_
          let proto ← load p off.toNat
          update fun t => { t with l4Proto := proto }
          update (·.setFlag esTFragment)
          exit .fragment
        else do
          let len ← load p (← add32 off 1).toNat
          let extLen := if next = 51 then (len.toUInt32 + 2) * 4 else (len.toUInt32 + 1) * 8
          exitIf (extLen < 8) .malformed
          need off extLen cap end_
          let next ← load p off.toNat
          let off ← add32 off extLen
          esParseExts p cap end_ n off next

/-- The IPv6 branch: the transport offset and the bound of the datagram. -/
def esParseIpv6 (p : Bytes) (cap end_ off : UInt32) : Parse (UInt32 × UInt32) := do
  need off 40 cap end_
  let version ← load p off.toNat
  exitIf (version >>> 4 ≠ 6) .malformed
  let payload := (← esBe16 p (off.toNat + 4)).toUInt32
  exitIf (payload = 0) .unsupported
  exitIf (payload > (← sub32 (← sub32 end_ off) 40)) .malformed
  let end_ ← add32 (← add32 off 40) payload
  let next ← load p (← add32 off 6).toNat
  update fun t => { t with ipVersion := 6 }
  memcpy (off.toNat + 8) 16 fun t => { t with src := Bytes.copyInto t.src p (off.toNat + 8) 16 }
  memcpy (off.toNat + 24) 16 fun t => { t with dst := Bytes.copyInto t.dst p (off.toNat + 24) 16 }
  update (·.setFlag esTAddrValid)
  let off ← add32 off 40
  let (off, next) ← esParseExts p cap end_ 4 off next
  update fun t => { t with l4Proto := next }
  exitIf (esExt next ∨ next = 50) .unsupported
  pure (off, end_)

/-- TCP base header plus declared header length. -/
def esParseTcp (p : Bytes) (cap end_ l4 : UInt32) : Parse Unit := do
  need l4 20 cap end_
  let word ← load p (← add32 l4 12).toNat
  let hlen := (word >>> 4).toUInt32 * 4
  exitIf (hlen < 20 ∨ hlen > (← sub32 end_ l4)) .malformed

/-- UDP header and declared datagram length. -/
def esParseUdp (p : Bytes) (cap end_ l4 : UInt32) : Parse Unit := do
  need l4 8 cap end_
  let ulen := (← esBe16 p (l4.toNat + 4)).toUInt32
  exitIf (ulen < 8 ∨ ulen > (← sub32 end_ l4)) .malformed

/-- The transport part: ports are promised for TCP and UDP only. -/
def esParseL4 (p : Bytes) (cap end_ l4 : UInt32) : Parse Unit := do
  let t ← state
  if t.l4Proto = 6 then esParseTcp p cap end_ l4
  else if t.l4Proto = 17 then esParseUdp p cap end_ l4
  else exit .ok
  memcpy l4.toNat 2 fun t => { t with sport := Bytes.copyInto t.sport p l4.toNat 2 }
  memcpy (l4.toNat + 2) 2 fun t => { t with dport := Bytes.copyInto t.dport p (l4.toNat + 2) 2 }
  update (·.setFlag esTPortsValid)

/-- The network part, by the innermost EtherType. -/
def esParseNet (p : Bytes) (cap end_ off : UInt32) (type : UInt16) : Parse (UInt32 × UInt32) :=
  if type = 0x0806 then esParseArp p cap end_ off
  else if type = 0x0800 then esParseIpv4 p cap end_ off
  else if type = 0x86dd then esParseIpv6 p cap end_ off
  else exit .unsupported

/-- `if (cap > ES_PARSE_BYTES) cap = ES_PARSE_BYTES;
if (cap > original_len) cap = original_len;` -/
def esParseCap (cap originalLen : UInt32) : UInt32 :=
  let cap := if cap > esParseBytes then esParseBytes else cap
  if cap > originalLen then originalLen else cap

/-- The body of `es_parse`, with `cap` already clamped. -/
def esParseBody (p : Bytes) (cap end_ : UInt32) (strippedVlan : Bool) (strippedVid : UInt16) :
    Parse Unit := do
  need 0 14 cap end_
  let type ← esBe16 p 12
  update fun t => { t with flags := esTL2Valid }
  if strippedVlan then pushVlan (strippedVid &&& 0x0fff) else pure ()
  let (off, type) ← esParseVlans p cap end_ 2 14 type
  update fun t => { t with ethertype := type }
  exitIf (esVlan type) .unsupported
  let (l4, end_) ← esParseNet p cap end_ off type
  esParseL4 p cap end_ l4

/-- `es_parse`: the status returned and the tuple left behind. -/
def esParse (p : Bytes) (cap originalLen : UInt32) (strippedVlan : Bool) (strippedVid : UInt16) :
    EsParseStatus × EsTuple :=
  let body := esParseBody p (esParseCap cap originalLen) originalLen strippedVlan strippedVid
  match body.exec EsTuple.zero with
  | (t, .error status) => (status, t)
  | (t, .ok ()) => (.ok, t)

end ElephantShrew.Bpf
