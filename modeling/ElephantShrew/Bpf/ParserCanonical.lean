import ElephantShrew.Bpf.ParserRules

/-!
# Every exit leaves a canonical tuple

The hash maps compare tuples as raw bytes and user space checks their flags,
so what matters about a parser that may stop anywhere is the shape of what it
leaves behind.  `Canonical status t` states that shape.

The parser passes through four phases, told apart by the value of `flags`:
nothing valid yet (`0`), an Ethernet header (`1`), an IP header (`3`), and
either a fragment (`11`) or a complete transport header (`7`).  Each phase is
one predicate, each stage moves from one phase to the next, and each exit is
canonical because of the phase it happens in.
-/

namespace ElephantShrew.Bpf

open ElephantShrew.Verified
open ElephantShrew.Verified.ExitM

/-- The VLAN members: at most two 12-bit ids, unused slots zero. -/
structure VlanOk (vlan : Vector UInt16 2) (vlanCount : UInt8) : Prop where
  count : vlanCount.toNat ≤ 2
  low : ∀ (i : Nat) (h : i < 2), vlan[i].toNat < 4096
  unused : ∀ (i : Nat) (h : i < 2), vlanCount.toNat ≤ i → vlan[i] = 0

/-- An IPv4 address occupies the first four bytes of its member. -/
def V4Tail (ipVersion : UInt8) (src dst : Vector UInt8 16) : Prop :=
  ipVersion = 4 → ∀ (i : Nat) (_ : i < 16), 4 ≤ i → src[i] = 0 ∧ dst[i] = 0

/-- The canonical shape of a tuple left behind with a given status. -/
structure Canonical (status : EsParseStatus) (t : EsTuple) : Prop where
  reserved : t.reserved = 0
  vlan : VlanOk t.vlan t.vlanCount
  addrs : ¬ t.has esTAddrValid → t.src = EsTuple.zero.src ∧ t.dst = EsTuple.zero.dst
  tail : V4Tail t.ipVersion t.src t.dst
  ports : ¬ t.has esTPortsValid → t.sport = EsTuple.zero.sport ∧ t.dport = EsTuple.zero.dport
  fragment : t.has esTFragment ↔ status = .fragment
  okValid : status = .ok → t.has esTL2Valid ∧ t.has esTAddrValid
  portsValid : t.has esTPortsValid ↔ status = .ok ∧ (t.l4Proto = 6 ∨ t.l4Proto = 17)
  flagsLow : t.flags &&& ~~~(15 : UInt8) = 0
  notSkipped : status ≠ .skipped

/-! ## The phases -/

/-- Members written by no stage before the network layer. -/
structure Unwritten (t : EsTuple) : Prop where
  src : t.src = EsTuple.zero.src
  dst : t.dst = EsTuple.zero.dst
  ipVersion : t.ipVersion = 0
  l4Proto : t.l4Proto = 0

/-- What holds at every point, beside the value of `flags`. -/
structure Framed (t : EsTuple) : Prop where
  reserved : t.reserved = 0
  vlan : VlanOk t.vlan t.vlanCount

/-- What holds before the ports are written. -/
structure NoPorts (t : EsTuple) : Prop extends Framed t where
  sport : t.sport = EsTuple.zero.sport
  dport : t.dport = EsTuple.zero.dport

/-- Phase after the Ethernet header. -/
structure AtL2 (t : EsTuple) : Prop extends NoPorts t, Unwritten t where
  flags : t.flags = 1

/-- Phase after the IP addresses. -/
structure AtL3 (t : EsTuple) : Prop extends NoPorts t where
  tail : V4Tail t.ipVersion t.src t.dst
  flags : t.flags = 3

/-- Phase of a fragment. -/
structure AtFragment (t : EsTuple) : Prop extends NoPorts t where
  tail : V4Tail t.ipVersion t.src t.dst
  flags : t.flags = 11

/-- Phase of a complete TCP or UDP header. -/
structure AtPorts (t : EsTuple) : Prop extends Framed t where
  tail : V4Tail t.ipVersion t.src t.dst
  flags : t.flags = 7
  l4Proto : t.l4Proto = 6 ∨ t.l4Proto = 17

theorem VlanOk.zero : VlanOk EsTuple.zero.vlan EsTuple.zero.vlanCount where
  count := by decide
  low := by decide
  unused := by decide

theorem NoPorts.zero : NoPorts EsTuple.zero := ⟨⟨rfl, VlanOk.zero⟩, rfl, rfl⟩

theorem Unwritten.tail {t : EsTuple} (h : Unwritten t) :
    V4Tail t.ipVersion t.src t.dst := by
  intro hv
  rw [h.ipVersion] at hv
  exact absurd hv (by decide)

theorem has_iff {t : EsTuple} {f : UInt8} (h : t.flags = f) (flag : UInt8) :
    t.has flag ↔ f &&& flag ≠ 0 := by
  rw [EsTuple.has, h]

/-! ## Exits are canonical by phase -/

/-- The statuses of an exit that gives up: everything but success, a fragment
and the status of a parser that never ran. -/
def GivesUp (status : EsParseStatus) : Prop :=
  status = .malformed ∨ status = .truncated ∨ status = .unsupported

theorem givesUp_esNeed {off n cap end_ : UInt32} (h : esNeed off n cap end_ ≠ .ok) :
    GivesUp (esNeed off n cap end_) := by
  rcases esNeed_ne_ok h with h | h <;> simp [GivesUp, h]

theorem GivesUp.ne {status : EsParseStatus} (h : GivesUp status) :
    status ≠ .ok ∧ status ≠ .fragment ∧ status ≠ .skipped := by
  rcases h with rfl | rfl | rfl <;> decide

theorem canonical_zero {status : EsParseStatus} (hs : GivesUp status) :
    Canonical status EsTuple.zero where
  reserved := rfl
  vlan := VlanOk.zero
  addrs _ := ⟨rfl, rfl⟩
  tail h := absurd h (by decide)
  ports _ := ⟨rfl, rfl⟩
  fragment := iff_of_false (by decide) hs.ne.2.1
  okValid h := absurd h hs.ne.1
  portsValid := iff_of_false (by decide) fun h => hs.ne.1 h.1
  flagsLow := by decide
  notSkipped := hs.ne.2.2

theorem AtL2.canonical {t : EsTuple} (h : AtL2 t) {status : EsParseStatus}
    (hs : GivesUp status) : Canonical status t where
  reserved := h.reserved
  vlan := h.vlan
  addrs _ := ⟨h.src, h.dst⟩
  tail := h.toUnwritten.tail
  ports _ := ⟨h.sport, h.dport⟩
  fragment := iff_of_false (by rw [has_iff h.flags]; decide) hs.ne.2.1
  okValid he := absurd he hs.ne.1
  portsValid := iff_of_false (by rw [has_iff h.flags]; decide) fun he => hs.ne.1 he.1
  flagsLow := by rw [h.flags]; decide
  notSkipped := hs.ne.2.2

/-- With addresses but no ports: a parse that gives up, or one that succeeds
on a protocol without ports. -/
theorem AtL3.canonical {t : EsTuple} (h : AtL3 t) {status : EsParseStatus}
    (hs : GivesUp status ∨ status = .ok ∧ t.l4Proto ≠ 6 ∧ t.l4Proto ≠ 17) :
    Canonical status t where
  reserved := h.reserved
  vlan := h.vlan
  addrs hn := absurd (by rw [has_iff h.flags]; decide) hn
  tail := h.tail
  ports _ := ⟨h.sport, h.dport⟩
  fragment := by
    apply iff_of_false (by rw [has_iff h.flags]; decide)
    rcases hs with hs | ⟨rfl, _⟩
    · exact hs.ne.2.1
    · decide
  okValid _ := by rw [has_iff h.flags, has_iff h.flags]; decide
  portsValid := by
    refine iff_of_false (by rw [has_iff h.flags]; decide) fun he => ?_
    rcases hs with hs | ⟨_, h6, h17⟩
    · exact hs.ne.1 he.1
    · exact he.2.elim h6 h17
  flagsLow := by rw [h.flags]; decide
  notSkipped := by
    rcases hs with hs | ⟨rfl, _⟩
    · exact hs.ne.2.2
    · decide

theorem AtFragment.canonical {t : EsTuple} (h : AtFragment t) : Canonical .fragment t where
  reserved := h.reserved
  vlan := h.vlan
  addrs hn := absurd (by rw [has_iff h.flags]; decide) hn
  tail := h.tail
  ports _ := ⟨h.sport, h.dport⟩
  fragment := iff_of_true (by rw [has_iff h.flags]; decide) rfl
  okValid he := by cases he
  portsValid := iff_of_false (by rw [has_iff h.flags]; decide) fun he => by cases he.1
  flagsLow := by rw [h.flags]; decide
  notSkipped := by decide

theorem AtPorts.canonical {t : EsTuple} (h : AtPorts t) : Canonical .ok t where
  reserved := h.reserved
  vlan := h.vlan
  addrs hn := absurd (by rw [has_iff h.flags]; decide) hn
  tail := h.tail
  ports hn := absurd (by rw [has_iff h.flags]; decide) hn
  fragment := iff_of_false (by rw [has_iff h.flags]; decide) (by decide)
  okValid _ := by rw [has_iff h.flags, has_iff h.flags]; decide
  portsValid := iff_of_true (by rw [has_iff h.flags]; decide) ⟨rfl, h.l4Proto⟩
  flagsLow := by rw [h.flags]; decide
  notSkipped := by decide

/-! ## Stages move between phases -/

theorem VlanOk.pushVlan {t : EsTuple} (h : VlanOk t.vlan t.vlanCount)
    (hc : ¬ t.vlanCount ≥ 2) (vid : UInt16) :
    VlanOk (t.pushVlan (vid &&& 0x0fff)).vlan (t.pushVlan (vid &&& 0x0fff)).vlanCount := by
  have hlt : t.vlanCount.toNat < 2 := by
    simpa [UInt8.le_iff_toNat_le] using hc
  have hcount : (t.vlanCount + 1).toNat = t.vlanCount.toNat + 1 := by
    rw [UInt8.toNat_add]
    simp only [UInt8.reduceToNat]
    omega
  have hvid : (vid &&& 0x0fff).toNat < 4096 := by
    rw [UInt16.toNat_and]
    exact Nat.lt_of_le_of_lt Nat.and_le_right (by decide)
  refine ⟨?_, ?_, ?_⟩
  · show (t.vlanCount + 1).toNat ≤ 2
    omega
  · intro i hi
    simp only [EsTuple.pushVlan, Vector.getElem_setIfInBounds]
    split
    · exact hvid
    · exact h.low i hi
  · intro i hi hle
    have hle' : t.vlanCount.toNat + 1 ≤ i := by
      rw [← hcount]
      exact hle
    simp only [EsTuple.pushVlan, Vector.getElem_setIfInBounds]
    rw [if_neg (by omega)]
    exact h.unused i hi (by omega)

theorem AtL2.pushVlan {t : EsTuple} (h : AtL2 t) (hc : ¬ t.vlanCount ≥ 2) (vid : UInt16) :
    AtL2 (t.pushVlan (vid &&& 0x0fff)) :=
  { h with vlan := h.vlan.pushVlan hc vid }

theorem wp_esParseVlans_phase (p : Bytes) (cap end_ : UInt32) (n : Nat) :
    ∀ (off : UInt32) (type : UInt16) (t : EsTuple), AtL2 t →
      Wp (esParseVlans p cap end_ n off type) (fun _ t' => AtL2 t') Canonical t := by
  induction n with
  | zero => intro off type t h; exact h
  | succ n ih =>
      intro off type t h
      simp only [esParseVlans, wp_ite, wp_bind, wp_state, wp_exitIf, wp_pure, Parse.wp_need,
        Parse.wp_esBe16, Parse.wp_pushVlan, Parse.wp_add32]
      refine ⟨fun _ => h, fun _ => ?_⟩
      constructor
      · intro _
        exact h.canonical (Or.inr (Or.inr rfl))
      intro hc
      refine ⟨fun hn => h.canonical (givesUp_esNeed hn), ?_⟩
      intro _
      exact ih _ _ _ (h.pushVlan hc _)

/-- Writing four bytes over a zero address leaves its other bytes zero. -/
theorem copyInto_tail (p : Bytes) (off i : Nat) (h : i < 16) (hi : 4 ≤ i) :
    (Bytes.copyInto (Vector.replicate 16 0) p off 4)[i] = 0 := by
  rw [Bytes.getElem_copyInto, if_neg (by omega), Vector.getElem_replicate]

/-- Writing both IPv4 addresses moves to the next phase. -/
theorem AtL2.addrs4 {t : EsTuple} (h : AtL2 t) (p : Bytes) (i j : Nat) (proto : UInt8) :
    AtL3 ({ t with
      src := Bytes.copyInto t.src p i 4, dst := Bytes.copyInto t.dst p j 4
      ipVersion := 4, l4Proto := proto }.setFlag esTAddrValid) := by
  refine { toNoPorts := ⟨⟨h.reserved, h.vlan⟩, h.sport, h.dport⟩, tail := ?_, flags := ?_ }
  · intro _ k hk h4
    simp only [EsTuple.setFlag, h.src, h.dst]
    exact ⟨copyInto_tail p i k hk h4, copyInto_tail p j k hk h4⟩
  · simp only [EsTuple.setFlag, h.flags]
    decide

/-- Writing both IPv6 addresses moves to the next phase. -/
theorem AtL2.addrs6 {t : EsTuple} (h : AtL2 t) (p : Bytes) (i j : Nat) :
    AtL3 ({ t with
      src := Bytes.copyInto t.src p i 16, dst := Bytes.copyInto t.dst p j 16
      ipVersion := 6 }.setFlag esTAddrValid) := by
  refine { toNoPorts := ⟨⟨h.reserved, h.vlan⟩, h.sport, h.dport⟩, tail := ?_, flags := ?_ }
  · exact fun h4 => absurd h4 (by simp only [EsTuple.setFlag]; decide)
  · simp only [EsTuple.setFlag, h.flags]
    decide

theorem AtL3.setFragment {t : EsTuple} (h : AtL3 t) : AtFragment (t.setFlag esTFragment) :=
  { toNoPorts := ⟨⟨h.reserved, h.vlan⟩, h.sport, h.dport⟩
    tail := h.tail
    flags := by simp only [EsTuple.setFlag, h.flags]; decide }

theorem AtL3.setProto {t : EsTuple} (h : AtL3 t) (proto : UInt8) :
    AtL3 { t with l4Proto := proto } :=
  { toNoPorts := ⟨⟨h.reserved, h.vlan⟩, h.sport, h.dport⟩
    tail := h.tail
    flags := h.flags }

theorem wp_esParseArp_phase (p : Bytes) (cap end_ off : UInt32) {t : EsTuple} (h : AtL2 t) :
    Wp (esParseArp p cap end_ off) (fun _ t' => AtL3 t') Canonical t := by
  have hu : GivesUp .unsupported := Or.inr (Or.inr rfl)
  simp only [esParseArp, wp_bind, wp_exitIf, wp_update, wp_exit, Parse.wp_need,
    Parse.wp_esBe16, Parse.wp_load, Parse.wp_add32, Parse.wp_memcpy]
  refine ⟨fun hn => h.canonical (givesUp_esNeed hn), fun _ => ?_⟩
  refine ⟨fun _ => h.canonical hu, fun _ => ?_⟩
  refine ⟨fun _ => h.canonical hu, fun _ => ?_⟩
  refine ⟨fun _ => h.canonical hu, fun _ => ?_⟩
  refine ⟨fun _ => h.canonical hu, fun _ => ?_⟩
  -- ARP carries no transport protocol, so success without ports is canonical
  exact (h.addrs4 p _ _ _).canonical (Or.inr ⟨rfl, by simp [EsTuple.setFlag, h.l4Proto]⟩)

theorem wp_esParseIpv4_phase (p : Bytes) (cap end_ off : UInt32) {t : EsTuple} (h : AtL2 t) :
    Wp (esParseIpv4 p cap end_ off) (fun _ t' => AtL3 t') Canonical t := by
  have hm : GivesUp .malformed := Or.inl rfl
  simp only [esParseIpv4, wp_bind, wp_exitIf, wp_update, wp_exit, wp_pure, wp_ite,
    Parse.wp_need, Parse.wp_esBe16, Parse.wp_load, Parse.wp_add32, Parse.wp_sub32,
    Parse.wp_memcpy]
  refine ⟨fun hn => h.canonical (givesUp_esNeed hn), fun _ => ?_⟩
  refine ⟨fun _ => h.canonical hm, fun _ => ?_⟩
  refine ⟨fun _ => h.canonical hm, fun _ => ?_⟩
  refine ⟨fun hn => h.canonical (givesUp_esNeed hn), fun _ => ?_⟩
  constructor
  · intro _
    exact (h.addrs4 p _ _ _).setFragment.canonical
  · intro _
    exact h.addrs4 p _ _ _

theorem wp_esParseExts_phase (p : Bytes) (cap end_ : UInt32) (n : Nat) :
    ∀ (off : UInt32) (next : UInt8) (t : EsTuple), AtL3 t →
      Wp (esParseExts p cap end_ n off next) (fun _ t' => AtL3 t') Canonical t := by
  induction n with
  | zero => intro off next t h; exact h
  | succ n ih =>
      intro off next t h
      simp only [esParseExts, wp_ite, wp_bind, wp_exitIf, wp_pure, wp_update, wp_exit,
        Parse.wp_need, Parse.wp_load, Parse.wp_add32]
      refine ⟨fun _ => h, fun _ => ?_⟩
      refine ⟨fun hn => h.canonical (Or.inl (givesUp_esNeed hn)), fun _ => ?_⟩
      constructor
      · intro _
        refine ⟨fun hn => h.canonical (Or.inl (givesUp_esNeed hn)), ?_⟩
        intro _
        exact (h.setProto _).setFragment.canonical
      · intro _
        refine ⟨fun _ => h.canonical (Or.inl (Or.inl rfl)), fun _ => ?_⟩
        refine ⟨fun hn => h.canonical (Or.inl (givesUp_esNeed hn)), ?_⟩
        intro _
        exact ih _ _ _ h

theorem wp_esParseIpv6_phase (p : Bytes) (cap end_ off : UInt32) {t : EsTuple} (h : AtL2 t) :
    Wp (esParseIpv6 p cap end_ off) (fun _ t' => AtL3 t') Canonical t := by
  have hm : GivesUp .malformed := Or.inl rfl
  have hu : GivesUp .unsupported := Or.inr (Or.inr rfl)
  simp only [esParseIpv6, wp_bind, wp_exitIf, wp_update, wp_pure,
    Parse.wp_need, Parse.wp_esBe16, Parse.wp_load, Parse.wp_add32, Parse.wp_sub32,
    Parse.wp_memcpy]
  refine ⟨fun hn => h.canonical (givesUp_esNeed hn), fun _ => ?_⟩
  refine ⟨fun _ => h.canonical hm, fun _ => ?_⟩
  refine ⟨fun _ => h.canonical hu, fun _ => ?_⟩
  refine ⟨fun _ => h.canonical hm, fun _ => ?_⟩
  refine (wp_esParseExts_phase p cap _ 4 _ _ _ (h.addrs6 p _ _)).mono ?_ fun _ _ he => he
  intro r t' ht'
  exact ⟨fun _ => (ht'.setProto _).canonical (Or.inl hu), fun _ => ht'.setProto _⟩

theorem wp_esParseNet_phase (p : Bytes) (cap end_ off : UInt32) (type : UInt16) {t : EsTuple}
    (h : AtL2 t) :
    Wp (esParseNet p cap end_ off type) (fun _ t' => AtL3 t') Canonical t := by
  simp only [esParseNet, wp_ite, wp_exit]
  refine ⟨fun _ => wp_esParseArp_phase p cap end_ off h, fun _ => ?_⟩
  refine ⟨fun _ => wp_esParseIpv4_phase p cap end_ off h, fun _ => ?_⟩
  refine ⟨fun _ => wp_esParseIpv6_phase p cap end_ off h, ?_⟩
  intro _
  exact h.canonical (Or.inr (Or.inr rfl))

theorem wp_esParseL4_phase (p : Bytes) (cap end_ l4 : UInt32) {t : EsTuple} (h : AtL3 t) :
    Wp (esParseL4 p cap end_ l4) (fun _ t' => Canonical .ok t') Canonical t := by
  have gives {status : EsParseStatus} (hs : GivesUp status) : Canonical status t :=
    h.canonical (Or.inl hs)
  have done (hp : t.l4Proto = 6 ∨ t.l4Proto = 17) (sport dport : Vector UInt8 2) :
      Canonical .ok ({ t with sport := sport, dport := dport }.setFlag esTPortsValid) :=
    AtPorts.canonical
      { toFramed := ⟨h.reserved, h.vlan⟩
        tail := h.tail
        flags := by simp only [EsTuple.setFlag, h.flags]; decide
        l4Proto := hp }
  simp only [esParseL4, esParseTcp, esParseUdp, wp_bind, wp_state, wp_ite, wp_exitIf, wp_exit,
    wp_update, Parse.wp_need, Parse.wp_esBe16, Parse.wp_load, Parse.wp_add32, Parse.wp_sub32,
    Parse.wp_memcpy]
  constructor
  · intro h6
    refine ⟨fun hn => gives (givesUp_esNeed hn), fun _ => ?_⟩
    exact ⟨fun _ => gives (Or.inl rfl), fun _ => done (Or.inl h6) _ _⟩
  intro h6
  constructor
  · intro h17
    refine ⟨fun hn => gives (givesUp_esNeed hn), fun _ => ?_⟩
    exact ⟨fun _ => gives (Or.inl rfl), fun _ => done (Or.inr h17) _ _⟩
  · intro h17
    exact h.canonical (Or.inr ⟨rfl, h6, h17⟩)

/-! ## The whole parser -/

theorem atL2_flags : AtL2 { EsTuple.zero with flags := esTL2Valid } :=
  { toNoPorts := ⟨⟨rfl, VlanOk.zero⟩, rfl, rfl⟩
    toUnwritten := ⟨rfl, rfl, rfl, rfl⟩
    flags := rfl }

/-- **Every exit is canonical.**  For any buffer, bounds and stripped tag. -/
theorem esParse_canonical (p : Bytes) (cap originalLen : UInt32) (strippedVlan : Bool)
    (strippedVid : UInt16) :
    Canonical (esParse p cap originalLen strippedVlan strippedVid).1
      (esParse p cap originalLen strippedVlan strippedVid).2 := by
  apply esParse_of_wp
  simp only [esParseBody, wp_bind, wp_update, wp_ite, wp_exitIf, Parse.wp_need,
    Parse.wp_esBe16, Parse.wp_pushVlan]
  have rest (t : EsTuple) (ht : AtL2 t) (type : UInt16) :
      Wp (esParseVlans p (esParseCap cap originalLen) originalLen 2 14 type)
        (fun r t' =>
          (esVlan r.2 → Canonical .unsupported { t' with ethertype := r.2 }) ∧
            (¬ esVlan r.2 →
              Wp (esParseNet p (esParseCap cap originalLen) originalLen r.1 r.2)
                (fun s t'' => Wp (esParseL4 p (esParseCap cap originalLen) s.2 s.1)
                  (fun _ t => Canonical .ok t) Canonical t'')
                Canonical { t' with ethertype := r.2 }))
        Canonical t := by
    refine (wp_esParseVlans_phase p _ _ 2 14 type t ht).mono ?_ fun _ _ he => he
    intro r t' ht'
    have hL2 : AtL2 { t' with ethertype := r.2 } :=
      { toNoPorts := ⟨⟨ht'.reserved, ht'.vlan⟩, ht'.sport, ht'.dport⟩
        toUnwritten := ⟨ht'.src, ht'.dst, ht'.ipVersion, ht'.l4Proto⟩
        flags := ht'.flags }
    refine ⟨fun _ => hL2.canonical (Or.inr (Or.inr rfl)), ?_⟩
    intro _
    exact (wp_esParseNet_phase p _ _ _ _ hL2).mono
      (fun _ _ h => wp_esParseL4_phase p _ _ _ h) fun _ _ he => he
  refine ⟨fun hn => canonical_zero (givesUp_esNeed hn), fun _ => ?_⟩
  constructor
  · intro _
    exact rest _ (atL2_flags.pushVlan (by decide) _) _
  · intro _
    exact rest _ atL2_flags _

end ElephantShrew.Bpf
