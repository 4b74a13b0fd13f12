import ElephantShrew.Bpf.ParserRules
import ElephantShrew.Verified.ExitFollows

/-!
# The tuple only grows

The parser never takes back what it has said about a packet: from any point
on, flags are only added, tags only appended, and addresses and EtherType stay
as they were once they are valid.  `t.Extends t'` is that order on tuples, and
each stage moves up in it whichever exit it takes.
-/

namespace ElephantShrew.Bpf

open ElephantShrew.Verified
open ElephantShrew.Verified.ExitM

/-- `t'` says at least what `t` says. -/
structure EsTuple.Extends (t t' : EsTuple) : Prop where
  flags : ∀ flag, t.has flag → t'.has flag
  addrs : t.has esTAddrValid → t.src = t'.src ∧ t.dst = t'.dst ∧ t.ipVersion = t'.ipVersion
  ethertype : t.ethertype ≠ 0 → t.ethertype = t'.ethertype
  vlanCount : t.vlanCount.toNat ≤ t'.vlanCount.toNat
  vlan : ∀ (i : Nat) (h : i < 2), i < t.vlanCount.toNat → t.vlan[i] = t'.vlan[i]

namespace EsTuple.Extends

theorem refl (t : EsTuple) : t.Extends t where
  flags _ h := h
  addrs _ := ⟨rfl, rfl, rfl⟩
  ethertype _ := rfl
  vlanCount := Nat.le_refl _
  vlan _ _ _ := rfl

theorem trans {t t' t'' : EsTuple} (h : t.Extends t') (h' : t'.Extends t'') : t.Extends t'' where
  flags flag ht := h'.flags flag (h.flags flag ht)
  addrs ht := by
    obtain ⟨hs, hd, hv⟩ := h.addrs ht
    obtain ⟨hs', hd', hv'⟩ := h'.addrs (h.flags _ ht)
    exact ⟨hs.trans hs', hd.trans hd', hv.trans hv'⟩
  ethertype ht := by
    have he := h.ethertype ht
    exact he.trans (h'.ethertype (he ▸ ht))
  vlanCount := Nat.le_trans h.vlanCount h'.vlanCount
  vlan i hi hlt :=
    (h.vlan i hi hlt).trans (h'.vlan i hi (Nat.lt_of_lt_of_le hlt h.vlanCount))

instance : IsTrans EsTuple EsTuple.Extends := ⟨fun _ _ _ => trans⟩

/-- Nothing has been said yet. -/
theorem zero (t : EsTuple) : EsTuple.zero.Extends t where
  flags flag h := absurd (by simp [EsTuple.zero]) h
  addrs h := absurd (by simp [EsTuple.zero]) h
  ethertype h := absurd rfl h
  vlanCount := Nat.zero_le _
  vlan i _ h := absurd h (Nat.not_lt_zero i)

end EsTuple.Extends

/-- Setting a flag keeps the others. -/
theorem has_setFlag {t : EsTuple} (f : UInt8) {flag : UInt8} (h : t.has flag) :
    (t.setFlag f).has flag := by
  have hsplit : (t.flags ||| f) &&& flag = (t.flags &&& flag) ||| (f &&& flag) := by
    rw [← UInt8.toBitVec_inj]
    simp only [UInt8.toBitVec_and, UInt8.toBitVec_or]
    exact BitVec.and_or_distrib_right
  unfold EsTuple.has EsTuple.setFlag
  rw [hsplit]
  intro hz
  exact h (UInt8.or_eq_zero_iff.mp hz).1

namespace EsTuple.Extends

theorem setFlag (t : EsTuple) (flag : UInt8) : t.Extends (t.setFlag flag) where
  flags _ h := has_setFlag flag h
  addrs _ := ⟨rfl, rfl, rfl⟩
  ethertype _ := rfl
  vlanCount := Nat.le_refl _
  vlan _ _ _ := rfl

/-- Members that are not compared while no address is valid. -/
theorem unaddressed {t : EsTuple} (hf : t.flags = 1) (src dst : Vector UInt8 16)
    (ipVersion l4Proto : UInt8) :
    t.Extends { t with src := src, dst := dst, ipVersion := ipVersion, l4Proto := l4Proto } where
  flags _ h := h
  addrs h := by
    rw [EsTuple.has, hf] at h
    exact absurd h (by decide)
  ethertype _ := rfl
  vlanCount := Nat.le_refl _
  vlan _ _ _ := rfl

theorem setProto (t : EsTuple) (l4Proto : UInt8) : t.Extends { t with l4Proto := l4Proto } where
  flags _ h := h
  addrs _ := ⟨rfl, rfl, rfl⟩
  ethertype _ := rfl
  vlanCount := Nat.le_refl _
  vlan _ _ _ := rfl

theorem setPorts (t : EsTuple) (sport dport : Vector UInt8 2) :
    t.Extends { t with sport := sport, dport := dport } where
  flags _ h := h
  addrs _ := ⟨rfl, rfl, rfl⟩
  ethertype _ := rfl
  vlanCount := Nat.le_refl _
  vlan _ _ _ := rfl

theorem setEthertype {t : EsTuple} (h : t.ethertype = 0) (type : UInt16) :
    t.Extends { t with ethertype := type } where
  flags _ h := h
  addrs _ := ⟨rfl, rfl, rfl⟩
  ethertype hn := absurd h hn
  vlanCount := Nat.le_refl _
  vlan _ _ _ := rfl

theorem pushVlan {t : EsTuple} (h : ¬ t.vlanCount ≥ 2) (vid : UInt16) :
    t.Extends (t.pushVlan vid) := by
  have hlt : t.vlanCount.toNat < 2 := by simpa [UInt8.le_iff_toNat_le] using h
  have hcount : (t.vlanCount + 1).toNat = t.vlanCount.toNat + 1 := by
    rw [UInt8.toNat_add]
    simp only [UInt8.reduceToNat]
    omega
  constructor
  · exact fun _ h => h
  · exact fun _ => ⟨rfl, rfl, rfl⟩
  · exact fun _ => rfl
  · show t.vlanCount.toNat ≤ (t.vlanCount + 1).toNat
    omega
  · intro i hi hlt'
    simp only [EsTuple.pushVlan, Vector.getElem_setIfInBounds]
    rw [if_neg (by omega)]

end EsTuple.Extends

/-! ## Each stage grows the tuple -/

/-- What is left before the network header: an Ethernet header and some tags. -/
structure Untyped (t : EsTuple) : Prop where
  flags : t.flags = 1
  ethertype : t.ethertype = 0

theorem grows_esParseVlans (p : Bytes) (cap end_ : UInt32) (n : Nat) :
    ∀ (off : UInt32) (type : UInt16) (t : EsTuple), Untyped t →
      Wp (esParseVlans p cap end_ n off type) (fun _ t' => t.Extends t' ∧ Untyped t')
        (fun _ t' => t.Extends t') t := by
  induction n with
  | zero => intro off type t h; exact ⟨.refl t, h⟩
  | succ n ih =>
      intro off type t h
      simp only [esParseVlans, wp_ite, wp_bind, wp_state, wp_exitIf, wp_pure, Parse.wp_need,
        Parse.wp_esBe16, Parse.wp_pushVlan, Parse.wp_add32]
      refine ⟨fun _ => ⟨.refl t, h⟩, fun _ => ?_⟩
      refine ⟨fun _ => .refl t, fun hc => ?_⟩
      refine ⟨fun _ => .refl t, fun _ => ?_⟩
      have hpush (vid : UInt16) : t.Extends (t.pushVlan vid) := .pushVlan hc vid
      apply (ih _ _ (t.pushVlan _) ⟨h.flags, h.ethertype⟩).mono
      · exact fun _ _ hr => ⟨(hpush _).trans hr.1, hr.2⟩
      · exact fun _ _ hr => (hpush _).trans hr

section Stages

variable {p : Bytes} {cap end_ off : UInt32} {t : EsTuple}

theorem grows_esParseArp (hf : t.flags = 1) :
    Wp (esParseArp p cap end_ off) (fun _ _ => False) (fun _ t' => t.Extends t') t := by
  simp only [esParseArp, wp_bind, wp_exitIf, wp_update, wp_exit, Parse.wp_need,
    Parse.wp_esBe16, Parse.wp_load, Parse.wp_add32, Parse.wp_memcpy]
  refine ⟨fun _ => .refl t, fun _ => ?_⟩
  refine ⟨fun _ => .refl t, fun _ => ?_⟩
  refine ⟨fun _ => .refl t, fun _ => ?_⟩
  refine ⟨fun _ => .refl t, fun _ => ?_⟩
  refine ⟨fun _ => .refl t, fun _ => ?_⟩
  exact (EsTuple.Extends.unaddressed hf _ _ 4 _).trans (.setFlag _ _)

/-- The end of the datagram, as its length field claims it. -/
def claimedEnd (p : Bytes) (off : UInt32) (type : UInt16) : UInt32 :=
  if type = 0x0800 then
    off + (Bytes.word16 (p.get (off.toNat + 2)) (p.get (off.toNat + 2 + 1))).toUInt32
  else off + 40 + (Bytes.word16 (p.get (off.toNat + 4)) (p.get (off.toNat + 4 + 1))).toUInt32

theorem flags_addrs {t t' : EsTuple} (hf : t.flags = 1) (h : t'.flags = t.flags) :
    (t'.setFlag esTAddrValid).flags = 3 := by
  simp only [EsTuple.setFlag, h, hf]
  decide

theorem grows_esParseIpv4 (hf : t.flags = 1) :
    Wp (esParseIpv4 p cap end_ off)
      (fun r t' => t.Extends t' ∧ t'.flags = 3 ∧ r.2 = claimedEnd p off 0x0800)
      (fun _ t' => t.Extends t') t := by
  simp only [esParseIpv4, wp_bind, wp_exitIf, wp_update, wp_exit, wp_pure, wp_ite,
    Parse.wp_need, Parse.wp_esBe16, Parse.wp_load, Parse.wp_add32, Parse.wp_sub32,
    Parse.wp_memcpy]
  refine ⟨fun _ => .refl t, fun _ => ?_⟩
  refine ⟨fun _ => .refl t, fun _ => ?_⟩
  refine ⟨fun _ => .refl t, fun _ => ?_⟩
  refine ⟨fun _ => .refl t, fun _ => ?_⟩
  have haddrs (src dst : Vector UInt8 16) (proto : UInt8) :
      t.Extends ({ t with
        src := src, dst := dst, ipVersion := 4, l4Proto := proto }.setFlag esTAddrValid) :=
    (EsTuple.Extends.unaddressed hf src dst 4 proto).trans (.setFlag _ _)
  constructor
  · intro _
    exact (haddrs _ _ _).trans (.setFlag _ _)
  · intro _
    exact ⟨haddrs _ _ _, flags_addrs hf rfl, rfl⟩

theorem grows_esParseExts (p : Bytes) (cap end_ : UInt32) (n : Nat) :
    ∀ (off : UInt32) (next : UInt8) (t : EsTuple),
      Wp (esParseExts p cap end_ n off next) (fun _ t' => t' = t) (fun _ t' => t.Extends t') t := by
  induction n with
  | zero => intro off next t; rfl
  | succ n ih =>
      intro off next t
      simp only [esParseExts, wp_ite, wp_bind, wp_exitIf, wp_pure, wp_update, wp_exit,
        Parse.wp_need, Parse.wp_load, Parse.wp_add32]
      refine ⟨fun _ => trivial, fun _ => ?_⟩
      refine ⟨fun _ => .refl t, fun _ => ?_⟩
      constructor
      · intro _
        refine ⟨fun _ => .refl t, fun _ => ?_⟩
        exact (EsTuple.Extends.setProto t _).trans (.setFlag _ _)
      · intro _
        refine ⟨fun _ => .refl t, fun _ => ?_⟩
        exact ⟨fun _ => .refl t, fun _ => ih _ _ t⟩

theorem grows_esParseIpv6 (hf : t.flags = 1) :
    Wp (esParseIpv6 p cap end_ off)
      (fun r t' => t.Extends t' ∧ t'.flags = 3 ∧ r.2 = claimedEnd p off 0x86dd)
      (fun _ t' => t.Extends t') t := by
  simp only [esParseIpv6, wp_bind, wp_exitIf, wp_update, wp_pure,
    Parse.wp_need, Parse.wp_esBe16, Parse.wp_load, Parse.wp_add32, Parse.wp_sub32,
    Parse.wp_memcpy]
  refine ⟨fun _ => .refl t, fun _ => ?_⟩
  refine ⟨fun _ => .refl t, fun _ => ?_⟩
  refine ⟨fun _ => .refl t, fun _ => ?_⟩
  refine ⟨fun _ => .refl t, fun _ => ?_⟩
  have haddrs (src dst : Vector UInt8 16) :
      t.Extends ({ t with src := src, dst := dst, ipVersion := 6 }.setFlag esTAddrValid) :=
    (EsTuple.Extends.unaddressed hf src dst 6 t.l4Proto).trans (.setFlag _ _)
  apply (grows_esParseExts p cap _ 4 _ _ _).mono
  · intro r t' ht'
    have hext : t.Extends { t' with l4Proto := r.2 } := by
      rw [ht']
      exact (haddrs _ _).trans (.setProto _ _)
    refine ⟨fun _ => hext, fun _ => ⟨hext, ?_, rfl⟩⟩
    rw [ht']
    exact flags_addrs hf rfl
  · exact fun _ _ h => (haddrs _ _).trans h

theorem grows_esParseNet (type : UInt16) (hf : t.flags = 1) :
    Wp (esParseNet p cap end_ off type)
      (fun r t' => t.Extends t' ∧ t'.flags = 3 ∧ r.2 = claimedEnd p off type)
      (fun _ t' => t.Extends t') t := by
  simp only [esParseNet, wp_ite, wp_exit]
  constructor
  · intro _
    exact (grows_esParseArp hf).mono (fun _ _ h => h.elim) fun _ _ h => h
  intro _
  constructor
  · intro h4
    rw [h4]
    exact grows_esParseIpv4 hf
  intro _
  constructor
  · intro h6
    rw [h6]
    exact grows_esParseIpv6 hf
  · exact fun _ => .refl t

theorem grows_esParseL4 {l4 : UInt32} : Grows EsTuple.Extends (esParseL4 p cap end_ l4) t := by
  unfold Grows
  simp only [esParseL4, esParseTcp, esParseUdp, wp_bind, wp_state, wp_ite, wp_exitIf, wp_exit,
    wp_update, Parse.wp_need, Parse.wp_esBe16, Parse.wp_load, Parse.wp_add32, Parse.wp_sub32,
    Parse.wp_memcpy]
  have hports (sport dport : Vector UInt8 2) :
      t.Extends ({ t with sport := sport, dport := dport }.setFlag esTPortsValid) :=
    (EsTuple.Extends.setPorts t sport dport).trans (.setFlag _ _)
  constructor
  · intro _
    refine ⟨fun _ => .refl t, fun _ => ?_⟩
    exact ⟨fun _ => .refl t, fun _ => hports _ _⟩
  intro _
  constructor
  · intro _
    refine ⟨fun _ => .refl t, fun _ => ?_⟩
    exact ⟨fun _ => .refl t, fun _ => hports _ _⟩
  · exact fun _ => .refl t

end Stages

end ElephantShrew.Bpf
