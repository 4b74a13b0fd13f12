import ElephantShrew.Bpf.ParserAccepts
import ElephantShrew.Bpf.ParserMoreBytes

/-!
# Padding is not transport data

Once the length field of the IP header has been accepted, the end of the
datagram is the only bound the parser knows, so the frame cut there is parsed
like the frame itself: same status, same tuple, however little was captured.
Before that point the parser reads tags and the IP header only, which lie
within the datagram's end.
-/

namespace ElephantShrew.Bpf

open ElephantShrew.Verified
open ElephantShrew.Verified.ExitM

/-- The IP datagram that starts at `off` is `total` bytes long by its header. -/
def DatagramLength (p : Bytes) (off : Nat) (type : UInt16) (total : Nat) : Prop :=
  (type = 0x0800 ∧ 5 ≤ (p.get off).toNat % 16 ∧ 4 * ((p.get off).toNat % 16) ≤ total ∧
    total = (Bytes.word16 (p.get (off + 2)) (p.get (off + 3))).toNat) ∨
  (type = 0x86dd ∧ Bytes.word16 (p.get (off + 4)) (p.get (off + 5)) ≠ 0 ∧
    total = 40 + (Bytes.word16 (p.get (off + 4)) (p.get (off + 5))).toNat)

/-- No status lets one run leave before the other. -/
def Never : EsParseStatus → Prop := fun _ => False

/-- `a` sees what `b` sees, cut at the end of `a`. -/
structure Cut (a b : View) : Prop where
  end_ : a.end_.toNat ≤ b.end_.toNat
  cap : a.cap.toNat = min b.cap.toNat a.end_.toNat
  same : ∀ i, i < a.end_.toNat → a.p.get i = b.p.get i

namespace Cut

variable {a b : View}

/-- A check that stays in front of the cut. -/
theorem meets (h : Cut a b) {off n : UInt32} (hreach : off.toNat + n.toNat ≤ a.end_.toNat) :
    Meets Never a b off n := by
  have hend := h.end_
  have hcap := h.cap
  constructor
  · left
    unfold View.need
    rw [esNeed_eq, esNeed_eq off n b.cap b.end_,
      if_neg (show ¬ a.end_.toNat < off.toNat + n.toNat by omega),
      if_neg (show ¬ b.end_.toNat < off.toNat + n.toNat by omega)]
    by_cases hread : b.cap.toNat < off.toNat + n.toNat
    · rw [if_pos hread, if_pos (show a.cap.toNat < off.toNat + n.toNat by omega)]
    · rw [if_neg hread, if_neg (show ¬ a.cap.toNat < off.toNat + n.toNat by omega)]
  · intro _ i _ hi
    exact h.same i (by omega)

/-- Any check, once both runs know the same end. -/
theorem datagram (h : Cut a b) (off n : UInt32) :
    Meets Never (a.within a.end_) (b.within a.end_) off n := by
  by_cases hreach : off.toNat + n.toNat ≤ a.end_.toNat
  · have hcut : Cut (a.within a.end_) (b.within a.end_) := ⟨Nat.le_refl _, h.cap, h.same⟩
    exact hcut.meets hreach
  · have hfail (v : View) : (v.within a.end_).need off n = .malformed := by
      unfold View.need
      rw [esNeed_eq]
      exact if_pos (Nat.lt_of_not_le hreach)
    constructor
    · rw [hfail a, hfail b]
      exact Or.inl rfl
    · intro hok
      rw [hfail a] at hok
      cases hok

/-! ## The tags -/

/-- At `off` the parser has `rest` of the tags in front of it. -/
def TagsLeft (p : Bytes) (inner : UInt16) (start : Nat) (off : UInt32) (type : UInt16) : Prop :=
  ∃ (o : Nat) (rest : List VlanTag), off.toNat = o + 2 ∧
    off.toNat + 4 * rest.length = start ∧ p.At o (encodeTags rest inner) ∧
    type = firstType rest inner

theorem tagLoop (h : Cut a b) {inner : UInt16} (hinner : ¬ esVlan inner) {start : Nat}
    (hstart : start ≤ a.end_.toNat) : TagLoop Never a b (TagsLeft b.p inner start) := by
  constructor
  · intro off type hleft htag
    obtain ⟨o, rest, -, hlen, -, htype⟩ := hleft
    cases rest with
    | nil =>
        rw [htype] at htag
        exact absurd htag hinner
    | cons tag rest =>
        rw [List.length_cons] at hlen
        apply h.meets
        simp only [UInt32.reduceToNat]
        omega
  · intro off type hleft htag
    obtain ⟨o, rest, ho, hlen, hat, htype⟩ := hleft
    cases rest with
    | nil =>
        rw [htype] at htag
        exact absurd htag hinner
    | cons tag rest =>
        rw [List.length_cons] at hlen
        simp only [encodeTags, Bytes.at_append, Bytes.at_be16_iff, List.length_append,
          Bytes.length_be16] at hat
        obtain ⟨-, hrest⟩ := hat
        have hnext : (off + 4).toNat = off.toNat + 4 :=
          toNat_add_const a.end_ rfl (by omega)
        refine ⟨o + 4, rest, by omega, by omega, hrest, ?_⟩
        have hword : off.toNat + 2 = o + 4 := by omega
        rw [hword]
        exact firstType_of_at hrest

/-- The end of the loop on an IP header. -/
theorem TagsLeft.done {p : Bytes} {inner : UInt16} {start : Nat} {off : UInt32} {type : UInt16}
    (h : TagsLeft p inner start off type) (hno : ¬ esVlan type) :
    off.toNat = start ∧ type = inner := by
  obtain ⟨o, rest, -, hlen, -, htype⟩ := h
  cases rest with
  | nil => exact ⟨hlen, htype⟩
  | cons tag rest =>
      rw [htype] at hno
      exact absurd tag.isTag hno

/-! ## The IP header -/

theorem netMeets_ipv4 (h : Cut a b) {off : UInt32} {total : Nat}
    (hlen : 5 ≤ (b.p.get off.toNat).toNat % 16 ∧
      4 * ((b.p.get off.toNat).toNat % 16) ≤ total ∧
      total = (Bytes.word16 (b.p.get (off.toNat + 2)) (b.p.get (off.toNat + 3))).toNat)
    (hend : a.end_.toNat = off.toNat + total) : NetMeets Never a b off 0x0800 := by
  obtain ⟨hihl, hihlTotal, htotal⟩ := hlen
  have hle := h.end_
  have hclaim : claimedEnd b.p off 0x0800 = a.end_ := by
    apply UInt32.toNat_inj.mp
    rw [hend, htotal, claimedEnd, if_pos rfl, toNat_add_of_le a.end_, UInt16.toNat_toUInt32]
    rw [UInt16.toNat_toUInt32]
    exact Nat.le_of_eq (hend.trans (congrArg _ htotal)).symm
  constructor
  · intro t hf
    show Follows Never EsTuple.Extends ((esParseIpv4 a.p a.cap a.end_ off).exec t)
      ((esParseIpv4 b.p b.cap b.end_ off).exec t)
    apply follows_esParseIpv4 (h.meets (by simp only [UInt32.reduceToNat]; omega)) hf
    · intro v _ hv
      have hvtotal : v.toNat = total := by
        have hsum := hv
        rw [claimedEnd, if_pos rfl] at hsum
        rw [(UInt32.add_right_inj off).mp hsum, UInt16.toNat_toUInt32, htotal]
      left
      simp only [GT.gt, UInt32.lt_iff_toNat_lt,
        toNat_sub_of_le' (show off.toNat ≤ a.end_.toNat by omega),
        toNat_sub_of_le' (show off.toNat ≤ b.end_.toNat by omega)]
      constructor
      · intro hlt
        omega
      · intro hlt
        omega
    · intro n
      rw [hclaim]
      exact h.datagram off n
  · intro o n
    rw [hclaim]
    exact h.datagram o n

theorem netMeets_ipv6 (h : Cut a b) {off : UInt32} {total : Nat}
    (htotal : total =
      40 + (Bytes.word16 (b.p.get (off.toNat + 4)) (b.p.get (off.toNat + 5))).toNat)
    (hend : a.end_.toNat = off.toNat + total) : NetMeets Never a b off 0x86dd := by
  have hle := h.end_
  have h40 : (off + 40).toNat = off.toNat + 40 :=
    toNat_add_const a.end_ rfl (by omega)
  have hclaim : claimedEnd b.p off 0x86dd = a.end_ := by
    apply UInt32.toNat_inj.mp
    have hsum : (off + 40).toNat +
        (Bytes.word16 (b.p.get (off.toNat + 4)) (b.p.get (off.toNat + 4 + 1))).toUInt32.toNat =
          a.end_.toNat := by
      rw [UInt16.toNat_toUInt32, h40, hend, htotal, Nat.add_assoc]
    rw [claimedEnd, if_neg (by decide), toNat_add_of_le a.end_ (Nat.le_of_eq hsum), hsum]
  constructor
  · intro t hf
    show Follows Never EsTuple.Extends ((esParseIpv6 a.p a.cap a.end_ off).exec t)
      ((esParseIpv6 b.p b.cap b.end_ off).exec t)
    apply follows_esParseIpv6 (h.meets (by simp only [UInt32.reduceToNat]; omega)) hf
    · intro v _ hv
      have hvtotal : 40 + v.toNat = total := by
        have hsum := hv
        rw [claimedEnd, if_neg (by decide)] at hsum
        rw [(UInt32.add_right_inj (off + 40)).mp hsum, UInt16.toNat_toUInt32, htotal]
      have hc : (40 : UInt32).toNat = 40 := rfl
      have ha : (a.end_ - off).toNat = a.end_.toNat - off.toNat := toNat_sub_of_le' (by omega)
      have hb : (b.end_ - off).toNat = b.end_.toNat - off.toNat := toNat_sub_of_le' (by omega)
      left
      simp only [GT.gt, UInt32.lt_iff_toNat_lt,
        toNat_sub_of_le' (show (40 : UInt32).toNat ≤ (a.end_ - off).toNat by omega),
        toNat_sub_of_le' (show (40 : UInt32).toNat ≤ (b.end_ - off).toNat by omega)]
      constructor
      · intro hlt
        omega
      · intro hlt
        omega
    · intro o n
      rw [hclaim]
      exact h.datagram o n
  · intro o n
    rw [hclaim]
    exact h.datagram o n

/-- The parser on a frame cut at the end of its datagram. -/
theorem follows (h : Cut a b) {tags : List VlanTag} {type : UInt16} {total : Nat}
    (htags : b.p.At 12 (encodeTags tags type))
    (hlen : DatagramLength b.p (14 + 4 * tags.length) type total)
    (hend : a.end_.toNat = 14 + 4 * tags.length + total) (strippedVlan : Bool)
    (strippedVid : UInt16) :
    Follows Never EsTuple.Extends
      ((esParseBody a.p a.cap a.end_ strippedVlan strippedVid).exec EsTuple.zero)
      ((esParseBody b.p b.cap b.end_ strippedVlan strippedVid).exec EsTuple.zero) := by
  have hip : ¬ esVlan type := by
    rcases hlen with ⟨h4, -⟩ | ⟨h6, -⟩
    · rw [h4]
      decide
    · rw [h6]
      decide
  have h14 : (0 : UInt32).toNat + (14 : UInt32).toNat ≤ a.end_.toNat := by
    simp only [UInt32.reduceToNat]
    omega
  apply follows_esParseBody (h.meets h14)
    (h.tagLoop hip (show 14 + 4 * tags.length ≤ a.end_.toNat by omega))
  · exact ⟨12, tags, rfl, rfl, htags, firstType_of_at htags⟩
  · intro off ty hleft hno
    obtain ⟨hoff, hty⟩ := hleft.done hno
    rw [← hoff] at hlen hend
    rw [hty]
    rcases hlen with ⟨h4, hlen⟩ | ⟨h6, -, hlen⟩
    · rw [h4]
      exact h.netMeets_ipv4 hlen hend
    · rw [h6]
      exact h.netMeets_ipv6 hlen hend

end Cut

/-! ## The whole parser -/

theorem toNat_min (x y : UInt32) : (min x y).toNat = min x.toNat y.toNat := by
  show (if x ≤ y then x else y).toNat = _
  split
  · next h =>
      rw [UInt32.le_iff_toNat_le] at h
      omega
  · next h =>
      rw [UInt32.le_iff_toNat_le] at h
      omega

/-- A frame and its datagram alone. -/
theorem esParse_cut {p q : Bytes} {tags : List VlanTag} {type : UInt16} {total : Nat}
    {cap originalLen datagramEnd : UInt32} (strippedVlan : Bool) (strippedVid : UInt16)
    (htags : p.At 12 (encodeTags tags type))
    (hlen : DatagramLength p (14 + 4 * tags.length) type total)
    (hend : datagramEnd.toNat = 14 + 4 * tags.length + total)
    (hfits : datagramEnd ≤ originalLen)
    (hsame : ∀ i, i < datagramEnd.toNat → p.get i = q.get i) :
    esParse q (min cap datagramEnd) datagramEnd strippedVlan strippedVid =
      esParse p cap originalLen strippedVlan strippedVid := by
  have hle := UInt32.le_iff_toNat_le.mp hfits
  have hcut : Cut ⟨q, esParseCap (min cap datagramEnd) datagramEnd, datagramEnd⟩
      ⟨p, esParseCap cap originalLen, originalLen⟩ := by
    constructor
    · exact hle
    · simp only [toNat_esParseCap, toNat_min]
      omega
    · intro i hi
      exact (hsame i hi).symm
  rcases esParse_follows (hcut.follows htags hlen hend strippedVlan strippedVid) with heq | ⟨hno, -⟩
  · exact heq.symm
  · exact hno.elim

/-- **Padding.**  A frame whose IP length field is accepted is parsed like its
datagram alone, whatever the status; and an answer other than `MALFORMED` and
`TRUNCATED` stays when bytes are appended to any frame. -/
theorem esParse_ignores_padding :
    (∀ (p q : Bytes) (tags : List VlanTag) (type : UInt16) (total : Nat)
        (cap originalLen datagramEnd : UInt32) (strippedVlan : Bool) (strippedVid : UInt16),
      p.At 12 (encodeTags tags type) →
      DatagramLength p (14 + 4 * tags.length) type total →
      datagramEnd.toNat = 14 + 4 * tags.length + total →
      datagramEnd ≤ originalLen →
      (∀ i, i < datagramEnd.toNat → p.get i = q.get i) →
      esParse q (min cap datagramEnd) datagramEnd strippedVlan strippedVid =
        esParse p cap originalLen strippedVlan strippedVid) ∧
    (∀ (p q : Bytes) (cap cap' originalLen originalLen' : UInt32) (strippedVlan : Bool)
        (strippedVid : UInt16),
      cap ≤ cap' → originalLen ≤ originalLen' →
      (∀ i, i < min (min cap.toNat 128) originalLen.toNat → p.get i = q.get i) →
      ((esParse p cap originalLen strippedVlan strippedVid).1 = .ok ∨
        (esParse p cap originalLen strippedVlan strippedVid).1 = .unsupported ∨
        (esParse p cap originalLen strippedVlan strippedVid).1 = .fragment) →
      esParse q cap' originalLen' strippedVlan strippedVid =
        esParse p cap originalLen strippedVlan strippedVid) := by
  constructor
  · intro p q tags type total cap originalLen datagramEnd strippedVlan strippedVid htags hlen
      hend hfits hsame
    exact esParse_cut strippedVlan strippedVid htags hlen hend hfits hsame
  · intro p q cap cap' originalLen originalLen' strippedVlan strippedVid hcap hlen hsame hstatus
    apply esParse_appended strippedVlan strippedVid hcap hlen hsame
    rcases hstatus with h | h | h <;> rw [h] <;> decide

/-- A tagged UDP frame without its two bytes of padding. -/
theorem esParse_ignores_padding_taggedUdp :
    esParse (taggedUdp.encode.take 48) (min 46 48) 48 false 0 =
      esParse taggedUdp.encode 46 50 false 0 := by
  apply esParse_ignores_padding.1 taggedUdp.encode (taggedUdp.encode.take 48)
    [⟨0x8100, 0x6005, Or.inl rfl⟩] 0x0800 30 46 50 48 false 0
  · rfl
  · exact Or.inl (by decide)
  · rfl
  · decide
  · decide

end ElephantShrew.Bpf
