import ElephantShrew.Bpf.Shared

/-!
# The TCP/UDP frame grammar

What the parser is for, stated without the parser: a frame is an Ethernet
header, at most two VLAN tags, an IPv4 or IPv6 header, a TCP or UDP base
header, and then anything.  A `Header` holds the fields of the front part and
writes them out with `encode`; a `Frame` adds the rest of the datagram and the
trailing padding, with the length fields that tie the parts together.

Every structure carries its own side conditions, so a value of type `Frame` is
a well-formed frame.
-/

namespace ElephantShrew.Bpf

open ElephantShrew.Verified

/-! ## Tags -/

/-- One 802.1Q or 802.1ad tag. -/
structure VlanTag where
  tpid : UInt16
  tci : UInt16
  isTag : tpid = 0x8100 ∨ tpid = 0x88a8

/-- The 12-bit identifier of a tag control word. -/
def vidOf (tci : UInt16) : UInt16 := tci &&& 0x0fff

/-- The tags and the EtherType they enclose. -/
def encodeTags : List VlanTag → UInt16 → Bytes
  | [], inner => Bytes.be16 inner
  | tag :: tags, inner => Bytes.be16 tag.tpid ++ Bytes.be16 tag.tci ++ encodeTags tags inner

@[simp] theorem length_encodeTags (tags : List VlanTag) (inner : UInt16) :
    (encodeTags tags inner).length = 4 * tags.length + 2 := by
  induction tags with
  | nil => rfl
  | cons tag tags ih =>
      simp only [encodeTags, List.length_append, Bytes.length_be16, List.length_cons, ih]
      omega

/-! ## Network headers -/

/-- An unfragmented IPv4 header without its length and protocol fields. -/
structure Ipv4Header where
  versionIhl : UInt8
  tos : UInt8
  ident : UInt16
  fragment : UInt16
  ttl : UInt8
  checksum : UInt16
  src : Vector UInt8 4
  dst : Vector UInt8 4
  options : Bytes
  version : versionIhl.toNat / 16 = 4
  ihl_ge : 5 ≤ versionIhl.toNat % 16
  optionsLength : options.length = 4 * (versionIhl.toNat % 16) - 20
  noMoreFragments : fragment &&& 0x2000 = 0
  noOffset : fragment &&& 0x1fff = 0

/-- Header length in bytes. -/
def Ipv4Header.size (h : Ipv4Header) : Nat := 4 * (h.versionIhl.toNat % 16)

def Ipv4Header.encode (h : Ipv4Header) (total : UInt16) (proto : UInt8) : Bytes :=
  [h.versionIhl, h.tos] ++ Bytes.be16 total ++ Bytes.be16 h.ident ++ Bytes.be16 h.fragment ++
    [h.ttl, proto] ++ Bytes.be16 h.checksum ++ h.src.toList ++ h.dst.toList ++ h.options

theorem Ipv4Header.length_encode (h : Ipv4Header) (total : UInt16) (proto : UInt8) :
    (h.encode total proto).length = h.size := by
  have := h.ihl_ge
  simp only [encode, size, List.length_append, List.length_cons, List.length_nil,
    Bytes.length_be16, Vector.length_toList, h.optionsLength]
  omega

/-- Length in bytes of an extension header of kind `kind` with length field `n`. -/
def extSize (kind n : UInt8) : Nat :=
  if kind = 51 then (n.toNat + 2) * 4 else (n.toNat + 1) * 8

/-- One IPv6 extension header: hop-by-hop, routing, destination options or
authentication. -/
structure Ext where
  kind : UInt8
  len : UInt8
  body : Bytes
  isExt : kind = 0 ∨ kind = 43 ∨ kind = 60 ∨ kind = 51
  bodyLength : body.length + 2 = extSize kind len

/-- The protocol number that announces a chain. -/
def chainKind : List Ext → UInt8 → UInt8
  | [], proto => proto
  | ext :: _, _ => ext.kind

/-- Each header of a chain announces the next. -/
def encodeExts : List Ext → UInt8 → Bytes
  | [], _ => []
  | ext :: exts, proto => [chainKind exts proto, ext.len] ++ ext.body ++ encodeExts exts proto

/-- Length in bytes of a chain. -/
def extsSize : List Ext → Nat
  | [] => 0
  | ext :: exts => extSize ext.kind ext.len + extsSize exts

@[simp] theorem length_encodeExts (exts : List Ext) (proto : UInt8) :
    (encodeExts exts proto).length = extsSize exts := by
  induction exts with
  | nil => rfl
  | cons ext exts ih =>
      have := ext.bodyLength
      simp only [encodeExts, extsSize, List.length_append, List.length_cons, List.length_nil, ih]
      omega

/-- An IPv6 header with its chain, without its payload length. -/
structure Ipv6Header where
  word : Vector UInt8 4
  hopLimit : UInt8
  src : Vector UInt8 16
  dst : Vector UInt8 16
  exts : List Ext
  version : word[0].toNat / 16 = 6
  atMostFour : exts.length ≤ 4

/-- Length in bytes of the header and its chain. -/
def Ipv6Header.size (h : Ipv6Header) : Nat := 40 + extsSize h.exts

def Ipv6Header.encode (h : Ipv6Header) (payload : UInt16) (proto : UInt8) : Bytes :=
  h.word.toList ++ Bytes.be16 payload ++ [chainKind h.exts proto, h.hopLimit] ++
    h.src.toList ++ h.dst.toList ++ encodeExts h.exts proto

theorem Ipv6Header.length_encode (h : Ipv6Header) (payload : UInt16) (proto : UInt8) :
    (h.encode payload proto).length = h.size := by
  simp only [encode, size, List.length_append, List.length_cons, List.length_nil,
    Bytes.length_be16, Vector.length_toList, length_encodeExts]

/-- A network header with the length field it carries. -/
inductive Net where
  | ipv4 (h : Ipv4Header) (total : UInt16)
  | ipv6 (h : Ipv6Header) (payload : UInt16)

namespace Net

def ethertype : Net → UInt16
  | ipv4 _ _ => 0x0800
  | ipv6 _ _ => 0x86dd

def ipVersion : Net → UInt8
  | ipv4 _ _ => 4
  | ipv6 _ _ => 6

/-- Length in bytes of the header, options or extensions included. -/
def size : Net → Nat
  | ipv4 h _ => h.size
  | ipv6 h _ => h.size

/-- Length in bytes of the whole datagram, by the length field. -/
def datagram : Net → Nat
  | ipv4 _ total => total.toNat
  | ipv6 _ payload => 40 + payload.toNat

def encode (proto : UInt8) : Net → Bytes
  | ipv4 h total => h.encode total proto
  | ipv6 h payload => h.encode payload proto

theorem length_encode (proto : UInt8) (net : Net) : (net.encode proto).length = net.size := by
  cases net with
  | ipv4 h total => exact h.length_encode total proto
  | ipv6 h payload => exact h.length_encode payload proto

/-- An IPv4 address in its 16-byte member. -/
def widen (a : Vector UInt8 4) : Vector UInt8 16 :=
  Vector.ofFn fun i => if h : i.val < 4 then a[i.val] else 0

def src : Net → Vector UInt8 16
  | ipv4 h _ => widen h.src
  | ipv6 h _ => h.src

def dst : Net → Vector UInt8 16
  | ipv4 h _ => widen h.dst
  | ipv6 h _ => h.dst

end Net

/-! ## Transport headers -/

/-- The TCP base header. -/
structure TcpHeader where
  sport : Vector UInt8 2
  dport : Vector UInt8 2
  seqAck : Vector UInt8 8
  dataOffset : UInt8
  rest : Vector UInt8 7

/-- The UDP header. -/
structure UdpHeader where
  sport : Vector UInt8 2
  dport : Vector UInt8 2
  length : UInt16
  checksum : Vector UInt8 2

inductive Transport where
  | tcp (h : TcpHeader)
  | udp (h : UdpHeader)

namespace Transport

def proto : Transport → UInt8
  | tcp _ => 6
  | udp _ => 17

def sport : Transport → Vector UInt8 2
  | tcp h => h.sport
  | udp h => h.sport

def dport : Transport → Vector UInt8 2
  | tcp h => h.dport
  | udp h => h.dport

/-- Length in bytes of the base header. -/
def size : Transport → Nat
  | tcp _ => 20
  | udp _ => 8

def encode : Transport → Bytes
  | tcp h => h.sport.toList ++ h.dport.toList ++ h.seqAck.toList ++ [h.dataOffset] ++ h.rest.toList
  | udp h => h.sport.toList ++ h.dport.toList ++ Bytes.be16 h.length ++ h.checksum.toList

theorem length_encode (l4 : Transport) : l4.encode.length = l4.size := by
  cases l4 <;> simp [encode, size]

/-- The header's own length field fits the `n` bytes the datagram leaves it. -/
def Fits (n : Nat) : Transport → Prop
  | tcp h => 5 ≤ h.dataOffset.toNat / 16 ∧ 4 * (h.dataOffset.toNat / 16) ≤ n
  | udp h => 8 ≤ h.length.toNat ∧ h.length.toNat ≤ n

end Transport

/-! ## Frames -/

/-- The front part of a frame, up to the end of the transport base header. -/
structure Header where
  macs : Vector UInt8 12
  tags : List VlanTag
  net : Net
  l4 : Transport
  room : net.size + l4.size ≤ net.datagram
  fits : l4.Fits (net.datagram - net.size)

namespace Header

def encode (h : Header) : Bytes :=
  h.macs.toList ++ encodeTags h.tags h.net.ethertype ++ h.net.encode h.l4.proto ++ h.l4.encode

/-- Offset of the network header. -/
def netOffset (h : Header) : Nat := 14 + 4 * h.tags.length

/-- Length in bytes of the front part. -/
def size (h : Header) : Nat := h.netOffset + h.net.size + h.l4.size

theorem length_encode (h : Header) : h.encode.length = h.size := by
  simp only [encode, size, netOffset, List.length_append, Vector.length_toList,
    length_encodeTags, Net.length_encode, Transport.length_encode]
  omega

/-- The VLAN ids in order, the tag removed by the hardware first. -/
def vids (h : Header) (strippedVlan : Bool) (strippedVid : UInt16) : List UInt16 :=
  (if strippedVlan then [vidOf strippedVid] else []) ++ h.tags.map fun tag => vidOf tag.tci

/-- The tuple of a frame: its addresses, ports, protocol, IP version, inner
EtherType and ordered VLAN ids, and nothing else. -/
def tuple (h : Header) (strippedVlan : Bool) (strippedVid : UInt16) : EsTuple where
  src := h.net.src
  dst := h.net.dst
  sport := h.l4.sport
  dport := h.l4.dport
  ethertype := h.net.ethertype
  vlan := #v[(h.vids strippedVlan strippedVid).getD 0 0, (h.vids strippedVlan strippedVid).getD 1 0]
  ipVersion := h.net.ipVersion
  l4Proto := h.l4.proto
  flags := esTL2Valid ||| esTAddrValid ||| esTPortsValid
  vlanCount := UInt8.ofNat (h.vids strippedVlan strippedVid).length
  reserved := 0

/-- At most two tags, the one removed by the hardware included. -/
def TagsOk (h : Header) (strippedVlan : Bool) : Prop :=
  h.tags.length + (if strippedVlan then 1 else 0) ≤ 2

end Header

/-- A whole frame: the front part, the rest of the datagram, and padding. -/
structure Frame where
  header : Header
  payload : Bytes
  padding : Bytes
  payloadLength :
    header.net.size + header.l4.size + payload.length = header.net.datagram

def Frame.encode (f : Frame) : Bytes := f.header.encode ++ f.payload ++ f.padding

/-- A byte string is a frame exactly when a front part stands at its start and
the datagram it announces ends inside. -/
theorem Frame.exists_encode_iff (fr : Bytes) (h : Header) :
    (∃ f : Frame, f.header = h ∧ f.encode = fr) ↔
      fr.At 0 h.encode ∧ h.netOffset + h.net.datagram ≤ fr.length := by
  have hroom := h.room
  constructor
  · rintro ⟨f, rfl, rfl⟩
    have hself : f.encode.At 0 (f.header.encode ++ (f.payload ++ f.padding)) := by
      rw [← List.append_assoc]
      exact Bytes.at_self f.encode
    have hpay := f.payloadLength
    refine ⟨((Bytes.at_append _ _ _ _).mp hself).1, ?_⟩
    simp only [encode, List.length_append, Header.length_encode, Header.size]
    omega
  · rintro ⟨hat, hlen⟩
    let n := h.net.datagram - h.net.size - h.l4.size
    have hn : h.size + n ≤ fr.length := by
      simp only [Header.size, n]
      omega
    refine ⟨⟨h, fr.slice h.size n, fr.slice (h.size + n) (fr.length - (h.size + n)), ?_⟩,
      rfl, ?_⟩
    · simp only [Bytes.length_slice, n]
      omega
    · have hfront : fr.slice 0 h.size = h.encode := by
        rw [← h.length_encode]
        exact hat
      simp only [encode]
      calc h.encode ++ fr.slice h.size n ++ fr.slice (h.size + n) (fr.length - (h.size + n))
          = fr.slice 0 h.size ++ fr.slice (0 + h.size) n ++
              fr.slice (0 + (h.size + n)) (fr.length - (h.size + n)) := by
            rw [hfront, Nat.zero_add, Nat.zero_add]
        _ = fr.slice 0 (h.size + n + (fr.length - (h.size + n))) := by
            rw [← Bytes.slice_add, ← Bytes.slice_add]
        _ = fr := by
            rw [show h.size + n + (fr.length - (h.size + n)) = fr.length by omega,
              Bytes.slice_zero_length]

end ElephantShrew.Bpf
