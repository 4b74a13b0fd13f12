import ElephantShrew.Bpf.ParserStages

/-!
# The parser accepts exactly the frame grammar

The stages of `ParserStages` are put together: on a frame of the grammar whose
base headers lie within the captured prefix the parser succeeds with that
frame's tuple, and whenever it succeeds with valid ports the frame is one of
the grammar.
-/

namespace ElephantShrew.Bpf

open ElephantShrew.Verified
open ElephantShrew.Verified.ExitM

/-- The tuple when the VLAN loop starts. -/
def startTuple (strippedVlan : Bool) (strippedVid : UInt16) : EsTuple :=
  if strippedVlan then { EsTuple.zero with flags := esTL2Valid }.pushVlan (vidOf strippedVid)
  else { EsTuple.zero with flags := esTL2Valid }

theorem startTuple_vlanCount (strippedVlan : Bool) (strippedVid : UInt16) :
    (startTuple strippedVlan strippedVid).vlanCount.toNat = if strippedVlan then 1 else 0 := by
  cases strippedVlan <;> rfl

theorem foldl_pushVlan_frame (vids : List UInt16) (t : EsTuple) :
    (vids.foldl EsTuple.pushVlan t).src = t.src ∧ (vids.foldl EsTuple.pushVlan t).dst = t.dst ∧
      (vids.foldl EsTuple.pushVlan t).flags = t.flags := by
  induction vids generalizing t with
  | nil => exact ⟨rfl, rfl, rfl⟩
  | cons vid vids ih => exact ih (t.pushVlan vid)

/-- Before the network layer the tuple holds the L2 flag and no address. -/
theorem pushTags_start_frame (strippedVlan : Bool) (strippedVid : UInt16) (tags : List VlanTag) :
    ((startTuple strippedVlan strippedVid).pushTags tags).src = EsTuple.zero.src ∧
      ((startTuple strippedVlan strippedVid).pushTags tags).dst = EsTuple.zero.dst ∧
      ((startTuple strippedVlan strippedVid).pushTags tags).flags = 1 := by
  have h := foldl_pushVlan_frame (tags.map fun tag => vidOf tag.tci)
    (startTuple strippedVlan strippedVid)
  rw [EsTuple.pushTags, h.1, h.2.1, h.2.2]
  cases strippedVlan <;> exact ⟨rfl, rfl, rfl⟩

/-- Storing at most two ids fills the slots in order. -/
theorem foldl_pushVlan_zero (vids : List UInt16) (h : vids.length ≤ 2) :
    vids.foldl EsTuple.pushVlan { EsTuple.zero with flags := esTL2Valid } =
      { EsTuple.zero with
        flags := esTL2Valid
        vlan := #v[vids.getD 0 0, vids.getD 1 0]
        vlanCount := UInt8.ofNat vids.length } := by
  match vids, h with
  | [], _ => rfl
  | [a], _ => rfl
  | [a, b], _ => rfl

namespace Header

variable {strippedVlan : Bool} {strippedVid : UInt16}

theorem length_vids (h : Header) (strippedVlan : Bool) (strippedVid : UInt16) :
    (h.vids strippedVlan strippedVid).length =
      h.tags.length + if strippedVlan then 1 else 0 := by
  cases strippedVlan <;> simp [vids]

theorem pushTags_start (h : Header) (strippedVlan : Bool) (strippedVid : UInt16) :
    (startTuple strippedVlan strippedVid).pushTags h.tags =
      (h.vids strippedVlan strippedVid).foldl EsTuple.pushVlan
        { EsTuple.zero with flags := esTL2Valid } := by
  cases strippedVlan <;> rfl

/-- What the stages leave behind is the tuple of the header. -/
theorem tuple_eq (h : Header) (htags : h.TagsOk strippedVlan) :
    ({ (startTuple strippedVlan strippedVid).pushTags h.tags with
        ethertype := h.net.ethertype }.withNet h.net h.l4.proto).withPorts h.l4 =
      h.tuple strippedVlan strippedVid := by
  rw [pushTags_start, foldl_pushVlan_zero _ (by rw [length_vids]; exact htags)]
  rfl

/-- Where the parts of a front part stand. -/
theorem at_encode_iff (h : Header) (p : Bytes) :
    p.At 0 h.encode ↔
      p.vec 0 12 = h.macs ∧ p.At 12 (encodeTags h.tags h.net.ethertype) ∧
      p.At h.netOffset (h.net.encode h.l4.proto) ∧
      p.At (h.netOffset + h.net.size) h.l4.encode := by
  have h1 : 12 + (4 * h.tags.length + 2) = h.netOffset := by
    rw [netOffset]
    omega
  simp only [encode, Bytes.at_append, Bytes.at_toList_iff, List.length_append,
    Vector.length_toList, length_encodeTags, Net.length_encode, Nat.zero_add, h1, and_assoc]

end Header

theorem Net.ethertype_not_vlan (net : Net) : ¬ esVlan net.ethertype := by
  cases net <;> simp only [ethertype] <;> decide

theorem Transport.proto_not_ext (l4 : Transport) : ¬ esExt l4.proto ∧ l4.proto ≠ 50 := by
  cases l4 <;> simp only [proto] <;> decide

theorem Transport.size_ge (l4 : Transport) : 8 ≤ l4.size := by
  cases l4 <;> simp [size]

section Body

variable {p : Bytes} {cap end_ : UInt32} {strippedVlan : Bool} {strippedVid : UInt16}

/-- The optional stripped tag, then the rest of the parser from there. -/
theorem wp_start_iff {α : Type} {x : Parse α} {Q : α → EsTuple → Prop}
    {E : EsParseStatus → EsTuple → Prop} :
    Wp (do
        if strippedVlan then Parse.pushVlan (strippedVid &&& 0x0fff) else pure ()
        x) Q E { EsTuple.zero with flags := esTL2Valid } ↔
      Wp x Q E (startTuple strippedVlan strippedVid) := by
  cases strippedVlan <;> simp [startTuple, vidOf]

theorem esParseBody_accepts (h : Header) (htags : h.TagsOk strippedVlan)
    (hat : p.At 0 h.encode) (hcap : h.size ≤ cap.toNat)
    (hend : h.netOffset + h.net.datagram ≤ end_.toNat) :
    Wp (esParseBody p cap end_ strippedVlan strippedVid)
      (fun _ t => t = h.tuple strippedVlan strippedVid) (fun _ _ => False) EsTuple.zero := by
  obtain ⟨-, htag, hnet, hl4⟩ := (h.at_encode_iff p).mp hat
  have hroom := h.room
  have hfits := h.fits
  have hsize8 := h.l4.size_ge
  have htype := firstType_of_at htag
  obtain ⟨hsrc, hdst, -⟩ := pushTags_start_frame strippedVlan strippedVid h.tags
  simp only [Header.size, Header.netOffset] at hcap hend hnet hl4
  rw [esParseBody, wp_bind, Parse.wp_need]
  have h14 : (0 : UInt32).toNat + (14 : UInt32).toNat = 14 := rfl
  apply Parse.need_pass (by omega) (by omega)
  rw [wp_bind, Parse.wp_esBe16, wp_bind, wp_update, wp_start_iff, htype, wp_bind]
  refine (esParseVlans_accepts p cap end_ h.net.ethertype_not_vlan h.tags 2 12 14 _ ?_ rfl ?_ htag
    ?_ ?_).mono ?_ fun _ _ hf => hf
  · exact Nat.le_trans (Nat.le_add_right _ _) htags
  · rw [startTuple_vlanCount, Nat.add_comm]
    exact htags
  · simp only [UInt32.reduceToNat]
    omega
  · simp only [UInt32.reduceToNat]
    omega
  rintro ⟨off, type⟩ _ ⟨hoff, rfl, rfl⟩
  simp only [UInt32.reduceToNat] at hoff
  simp only [wp_bind, wp_update, wp_exitIf]
  refine ⟨fun hv => h.net.ethertype_not_vlan hv, ?_⟩
  intro _
  refine Wp.mono (esParseNet_accepts h.l4.proto_not_ext hsrc hdst ?_ ?_ ?_ ?_) ?_
    fun _ _ hf => hf
  · rw [hoff]
    exact hnet
  · omega
  · omega
  · omega
  rintro ⟨l4, bound⟩ _ ⟨hl4off, hbound, rfl⟩
  refine (esParseL4_accepts h.l4 rfl ?_ ?_ ?_ ?_).mono ?_ fun _ _ hf => hf
  · rw [hl4off, hoff]
    exact hl4
  · rw [hl4off, hbound, Nat.add_sub_add_left]
    exact hfits
  · omega
  · omega
  · rintro _ _ rfl
    exact h.tuple_eq htags

theorem esParseBody_decodes :
    Wp (esParseBody p cap end_ strippedVlan strippedVid)
      (fun _ t => ∃ h : Header, h.TagsOk strippedVlan ∧ p.At 0 h.encode ∧ h.size ≤ cap.toNat ∧
        h.netOffset + h.net.datagram ≤ end_.toNat ∧ t = h.tuple strippedVlan strippedVid)
      NotAccepted EsTuple.zero := by
  rw [esParseBody, wp_bind, Parse.wp_need]
  apply Parse.need_bounds .of_ne
  intro hfits hread
  simp only [UInt32.reduceToNat] at hfits hread
  rw [wp_bind, Parse.wp_esBe16, wp_bind, wp_update, wp_start_iff, wp_bind]
  refine (esParseVlans_decodes p cap end_ 2 12 14 _ _ rfl rfl ?_ ?_ ?_).mono ?_
    fun _ _ he => .of_ne he
  · rw [startTuple_vlanCount]
    cases strippedVlan <;> decide
  · simp only [UInt32.reduceToNat]
    omega
  · simp only [UInt32.reduceToNat]
    omega
  rintro ⟨off, type⟩ _ ⟨tags, htag, hoff, hcount, -, -, rfl⟩
  obtain ⟨hsrc, hdst, hflags⟩ := pushTags_start_frame strippedVlan strippedVid tags
  simp only [UInt32.reduceToNat] at hoff
  simp only [wp_bind, wp_update, wp_exitIf]
  refine ⟨fun _ => .of_ne (by decide), ?_⟩
  intro _
  refine Wp.mono (esParseNet_decodes type hflags hsrc hdst) ?_ fun _ _ he => he
  rintro ⟨l4, bound⟩ _ ⟨net, proto, rfl, hnet, hl4off, hbound, hle, -, hend, rfl⟩
  refine (esParseL4_decodes ?_).mono ?_ fun _ _ he => he
  · simp only [EsTuple.withNet, EsTuple.setFlag, hflags]
    rfl
  rintro _ _ ⟨seg, hproto, hseg, hfits, hcap', hend', rfl⟩
  have hproto' : proto = seg.proto := hproto
  subst hproto'
  dsimp only at hoff hl4off hbound hend hfits hcap' hend' hnet hseg
  rw [startTuple_vlanCount] at hcount
  let h : Header :=
    { macs := p.vec 0 12
      tags := tags
      net := net
      l4 := seg
      room := by omega
      fits := by
        rw [hl4off, hbound, Nat.add_sub_add_left] at hfits
        exact hfits }
  have htags : h.TagsOk strippedVlan := by
    rw [Header.TagsOk, Nat.add_comm]
    exact hcount
  have hnetOffset : h.netOffset = off.toNat := hoff.symm
  refine ⟨h, htags, ?_, ?_, ?_, ?_⟩
  · rw [Header.at_encode_iff, hnetOffset]
    refine ⟨rfl, htag, hnet, ?_⟩
    rw [← hl4off]
    exact hseg
  · rw [Header.size, hnetOffset]
    show off.toNat + net.size + seg.size ≤ cap.toNat
    omega
  · rw [hnetOffset]
    show off.toNat + net.datagram ≤ end_.toNat
    omega
  · exact h.tuple_eq htags

end Body

/-! ## The grammar theorem -/

theorem Header.tuple_has_ports (h : Header) (strippedVlan : Bool) (strippedVid : UInt16) :
    (h.tuple strippedVlan strippedVid).has esTPortsValid := by
  show ((esTL2Valid ||| esTAddrValid ||| esTPortsValid) &&& esTPortsValid) ≠ 0
  decide

/-- Two buffers that agree on a prefix agree on what stands inside it. -/
theorem at_of_agree {p q bs : Bytes} {n : Nat} (hpq : ∀ i, i < n → p.get i = q.get i)
    (hn : bs.length ≤ n) (h : p.At 0 bs) : q.At 0 bs := by
  have key : ∀ (m off : Nat), off + m ≤ n → q.slice off m = p.slice off m := by
    intro m
    induction m with
    | zero => intro off _; rfl
    | succ m ih =>
        intro off hoff
        rw [Bytes.slice, Bytes.slice, hpq off (by omega), ih (off + 1) (by omega)]
  rw [Bytes.At, key _ _ (by omega)]
  exact h

section Grammar

variable {fr p : Bytes} {cap originalLen : UInt32} {strippedVlan : Bool} {strippedVid : UInt16}

/-- A frame whose front part is captured is accepted with its own tuple. -/
theorem esParse_of_frame (hlen : originalLen.toNat = fr.length)
    (hp : ∀ i, i < min (min cap.toNat 128) originalLen.toNat → p.get i = fr.get i) {f : Frame}
    (hf : f.encode = fr) (htags : f.header.TagsOk strippedVlan)
    (hsize : f.header.size ≤ min cap.toNat 128) :
    (esParse p cap originalLen strippedVlan strippedVid).1 = .ok ∧
      (esParse p cap originalLen strippedVlan strippedVid).2.has esTPortsValid ∧
      (esParse p cap originalLen strippedVlan strippedVid).2 =
        f.header.tuple strippedVlan strippedVid := by
  have hclamp := toNat_esParseCap cap originalLen
  obtain ⟨hat, hdata⟩ := (Frame.exists_encode_iff fr f.header).mp ⟨f, rfl, hf⟩
  have hroom := f.header.room
  have hfit : f.header.size ≤ min (min cap.toNat 128) originalLen.toNat := by
    simp only [Header.size] at hsize ⊢
    omega
  have hatp : p.At 0 f.header.encode :=
    at_of_agree (fun i hi => (hp i hi).symm) (by rw [Header.length_encode]; exact hfit) hat
  have hbody := esParse_of_wp (R := fun status t =>
      status = .ok ∧ t = f.header.tuple strippedVlan strippedVid)
    ((esParseBody_accepts f.header htags hatp (by rw [hclamp]; exact hfit)
      (by rw [hlen]; exact hdata)).mono (fun _ _ h => ⟨rfl, h⟩) fun _ _ h => h.elim)
  refine ⟨hbody.1, ?_, hbody.2⟩
  rw [hbody.2]
  exact f.header.tuple_has_ports strippedVlan strippedVid

/-- What is accepted with ports is a frame whose front part was captured. -/
theorem frame_of_esParse (hlen : originalLen.toNat = fr.length)
    (hp : ∀ i, i < min (min cap.toNat 128) originalLen.toNat → p.get i = fr.get i)
    (hok : (esParse p cap originalLen strippedVlan strippedVid).1 = .ok)
    (hports : (esParse p cap originalLen strippedVlan strippedVid).2.has esTPortsValid) :
    ∃ f : Frame, f.encode = fr ∧ f.header.TagsOk strippedVlan ∧
      f.header.size ≤ min cap.toNat 128 ∧
      (esParse p cap originalLen strippedVlan strippedVid).2 =
        f.header.tuple strippedVlan strippedVid := by
  have hclamp := toNat_esParseCap cap originalLen
  have hbody := esParse_of_wp (R := fun status t => NotAccepted status t ∨
      ∃ h : Header, h.TagsOk strippedVlan ∧ p.At 0 h.encode ∧
        h.size ≤ (esParseCap cap originalLen).toNat ∧
        h.netOffset + h.net.datagram ≤ originalLen.toNat ∧
        t = h.tuple strippedVlan strippedVid)
    (esParseBody_decodes.mono (fun _ _ h => Or.inr h) fun _ _ h => Or.inl h)
  rcases hbody with hno | ⟨h, htags, hat, hsize, hdata, ht⟩
  · exact absurd ⟨hok, hports⟩ hno
  · rw [hclamp] at hsize
    have hatfr : fr.At 0 h.encode :=
      at_of_agree hp (by rw [Header.length_encode]; exact hsize) hat
    obtain ⟨f, rfl, hf⟩ := (Frame.exists_encode_iff fr h).mpr ⟨hatfr, by rw [← hlen]; exact hdata⟩
    exact ⟨f, hf, htags, by omega, ht⟩

end Grammar

/--
**The parser accepts exactly the frame grammar.**  `fr` is the whole frame and
`p` any buffer that holds its captured prefix.  A frame of the grammar whose
front part is captured is accepted with its own tuple; an accepted frame is a
frame of the grammar whose front part was captured.
-/
theorem esParse_accepts_exactly_frames (fr p : Bytes) (cap originalLen : UInt32)
    (strippedVlan : Bool) (strippedVid : UInt16)
    (hlen : originalLen.toNat = fr.length)
    (hp : ∀ i, i < min (min cap.toNat 128) originalLen.toNat → p.get i = fr.get i) :
    (∀ f : Frame, f.encode = fr → f.header.TagsOk strippedVlan →
      f.header.size ≤ min cap.toNat 128 →
        (esParse p cap originalLen strippedVlan strippedVid).1 = .ok ∧
        (esParse p cap originalLen strippedVlan strippedVid).2.has esTPortsValid ∧
        (esParse p cap originalLen strippedVlan strippedVid).2 =
          f.header.tuple strippedVlan strippedVid) ∧
    ((esParse p cap originalLen strippedVlan strippedVid).1 = .ok →
      (esParse p cap originalLen strippedVlan strippedVid).2.has esTPortsValid →
        ∃ f : Frame, f.encode = fr ∧ f.header.TagsOk strippedVlan ∧
          f.header.size ≤ min cap.toNat 128 ∧
          (esParse p cap originalLen strippedVlan strippedVid).2 =
            f.header.tuple strippedVlan strippedVid) := by
  constructor
  · intro f hf htags hsize
    exact esParse_of_frame hlen hp hf htags hsize
  · intro hok hports
    exact frame_of_esParse hlen hp hok hports

/-- A 46-byte UDP datagram over IPv4 behind one VLAN tag, with two bytes of payload
and two of padding. -/
def taggedUdp : Frame where
  header :=
    { macs := Vector.replicate 12 0
      tags := [⟨0x8100, 0x6005, Or.inl rfl⟩]
      net := .ipv4
        { versionIhl := 0x45, tos := 0, ident := 0, fragment := 0x4000, ttl := 64, checksum := 0
          src := #v[192, 0, 0, 1], dst := #v[192, 0, 0, 2], options := []
          version := by decide, ihl_ge := by decide, optionsLength := by decide
          noMoreFragments := by decide, noOffset := by decide } 30
      l4 := .udp ⟨#v[0x30, 0x39], #v[1, 0xbb], 10, #v[0, 0]⟩
      room := by decide
      fits := by simp only [Transport.Fits]; decide }
  payload := [1, 2]
  padding := [0, 0]
  payloadLength := by decide

theorem taggedUdp_length : taggedUdp.encode.length < 2 ^ 32 := by decide

theorem esParse_accepts_taggedUdp :
    (esParse taggedUdp.encode 46 50 false 0).1 = .ok ∧
      (esParse taggedUdp.encode 46 50 false 0).2.has esTPortsValid ∧
      (esParse taggedUdp.encode 46 50 false 0).2 = taggedUdp.header.tuple false 0 :=
  (esParse_accepts_exactly_frames taggedUdp.encode taggedUdp.encode 46 50 false 0 (by decide)
    fun _ _ => rfl).1 taggedUdp rfl (by simp [Header.TagsOk, taggedUdp]) (by decide)

end ElephantShrew.Bpf
