import ElephantShrew.Bpf.ParserAccepts
import ElephantShrew.Bpf.ParserRules
import ElephantShrew.Bpf.ParserStages
import ElephantShrew.Verified.ExitTrace

/-!
# What the parser touches

Every byte read lies in the clamped prefix, every `vlan` slot written exists,
no 32-bit sum or difference wraps, and every bounds check compares integers.
Each read is covered by a check made earlier, often several statements or loop
iterations earlier, so what a stage hands on is a fact about its offset: it
lies within the datagram's bound, which itself only shrinks.
-/

namespace ElephantShrew.Bpf

open ElephantShrew.Verified
open ElephantShrew.Verified.ExitM

/-- What an access may be, with `limit` bytes readable. -/
def Access.Within (limit : Nat) : Access → Prop
  | .load i n => i + n ≤ limit
  | .vlanSlot i => i < 2
  | .add a b => (a + b).toNat = a.toNat + b.toNat
  | .sub a b => (a - b).toNat + b.toNat = a.toNat
  | .need off n cap end_ =>
      -- the subtractions are made only where the comparison before them failed
      (¬ off > end_ → (end_ - off).toNat + off.toNat = end_.toNat) ∧
        (¬ off > cap → (cap - off).toNat + off.toNat = cap.toNat) ∧
        esNeed off n cap end_ =
          if end_.toNat < off.toNat + n.toNat then .malformed
          else if cap.toNat < off.toNat + n.toNat then .truncated
          else .ok

theorem toNat_sub_add {a b : UInt32} (h : b.toNat ≤ a.toNat) :
    (a - b).toNat + b.toNat = a.toNat := by
  rw [toNat_sub_of_le' h]
  omega

theorem Access.within_need (limit : Nat) (off n cap end_ : UInt32) :
    (Access.need off n cap end_).Within limit := by
  refine ⟨?_, ?_, esNeed_eq off n cap end_⟩
  · intro h
    simp only [GT.gt, UInt32.lt_iff_toNat_lt] at h
    exact toNat_sub_add (by omega)
  · intro h
    simp only [GT.gt, UInt32.lt_iff_toNat_lt] at h
    exact toNat_sub_add (by omega)

/-! ## Rules of the primitives -/

namespace Parse

section Rules

variable {E : EsParseStatus → EsTuple → Prop} {t : EsTuple} {limit : Nat}

theorem safe_need (off n cap end_ : UInt32) {Q : Unit → EsTuple → Prop} :
    Safe (Access.Within limit) (need off n cap end_) Q E t ↔
      (esNeed off n cap end_ ≠ .ok → E (esNeed off n cap end_) t) ∧
        (esNeed off n cap end_ = .ok → Q () t) := by
  simp [need, Access.within_need]

theorem safe_load (p : Bytes) (i : Nat) {Q : UInt8 → EsTuple → Prop} :
    Safe (Access.Within limit) (load p i) Q E t ↔ i + 1 ≤ limit ∧ Q (p.get i) t := by
  simp [load, Access.Within]

theorem safe_esBe16 (p : Bytes) (i : Nat) {Q : UInt16 → EsTuple → Prop} :
    Safe (Access.Within limit) (esBe16 p i) Q E t ↔
      i + 2 ≤ limit ∧ Q (Bytes.word16 (p.get i) (p.get (i + 1))) t := by
  simp [esBe16, Access.Within]

theorem safe_add32 (a b : UInt32) {Q : UInt32 → EsTuple → Prop} :
    Safe (Access.Within limit) (add32 a b) Q E t ↔
      (a + b).toNat = a.toNat + b.toNat ∧ Q (a + b) t := by
  simp [add32, Access.Within]

theorem safe_sub32 (a b : UInt32) {Q : UInt32 → EsTuple → Prop} :
    Safe (Access.Within limit) (sub32 a b) Q E t ↔
      (a - b).toNat + b.toNat = a.toNat ∧ Q (a - b) t := by
  simp [sub32, Access.Within]

theorem safe_memcpy (i n : Nat) (f : EsTuple → EsTuple) {Q : Unit → EsTuple → Prop} :
    Safe (Access.Within limit) (memcpy i n f) Q E t ↔ i + n ≤ limit ∧ Q () (f t) := by
  simp [memcpy, Access.Within]

theorem safe_pushVlan (vid : UInt16) {Q : Unit → EsTuple → Prop} :
    Safe (Access.Within limit) (pushVlan vid) Q E t ↔
      t.vlanCount.toNat < 2 ∧ Q () (t.pushVlan vid) := by
  simp [pushVlan, Access.Within]

end Rules

end Parse

/-! ## Checks and what they cover -/

/-- A frame found truncated is longer than what was captured of it. -/
def Short (cap originalLen : Nat) (status : EsParseStatus) : Prop :=
  status = .truncated → cap < originalLen

theorem Short.of_ne {cap originalLen : Nat} {status : EsParseStatus} (h : status ≠ .truncated) :
    Short cap originalLen status :=
  fun he => absurd he h

/-- Walking past a bounds check. -/
theorem Short.check {off n cap end_ : UInt32} {originalLen : Nat} {P : Prop}
    (hend : end_.toNat ≤ originalLen)
    (h : off.toNat + n.toNat ≤ end_.toNat → off.toNat + n.toNat ≤ cap.toNat → P) :
    (esNeed off n cap end_ ≠ .ok → Short cap.toNat originalLen (esNeed off n cap end_)) ∧
      (esNeed off n cap end_ = .ok → P) := by
  apply Parse.need_bounds _ h
  intro _ htrunc
  rw [esNeed_eq] at htrunc
  split_ifs at htrunc with hfits hcap
  omega

section Stages

variable {p : Bytes} {cap end_ off : UInt32} {t : EsTuple} {originalLen : Nat}

theorem safe_esParseVlans (p : Bytes) (cap end_ : UInt32) (n : Nat) :
    ∀ (off : UInt32) (type : UInt16) (t : EsTuple), off.toNat ≤ end_.toNat →
      Safe (Access.Within cap.toNat) (esParseVlans p cap end_ n off type)
        (fun r _ => r.1.toNat ≤ end_.toNat) (fun status _ => Short cap.toNat end_.toNat status)
        t := by
  induction n with
  | zero => intro off type t hoff; exact (safe_pure _).mpr hoff
  | succ n ih =>
      intro off type t hoff
      simp only [esParseVlans, safe_ite, safe_bind, safe_state, safe_exitIf, safe_pure,
        Parse.safe_need, Parse.safe_esBe16, Parse.safe_pushVlan, Parse.safe_add32]
      refine ⟨fun _ => hoff, fun _ => ?_⟩
      refine ⟨fun _ => .of_ne (by decide), ?_⟩
      intro hcount
      rw [vlanCount_ge_two_iff] at hcount
      apply Short.check (Nat.le_refl _)
      intro hfits hread
      simp only [UInt32.reduceToNat] at hfits hread
      have hnext : (off + 4).toNat = off.toNat + 4 :=
        toNat_add_const end_ rfl (by omega)
      refine ⟨by omega, by omega, by omega, hnext, ?_⟩
      apply ih
      omega

theorem safe_esParseArp (hend : end_.toNat ≤ originalLen) :
    Safe (Access.Within cap.toNat) (esParseArp p cap end_ off) (fun _ _ => False)
      (fun status _ => Short cap.toNat originalLen status) t := by
  simp only [esParseArp, safe_bind, safe_exitIf, safe_update, safe_exit, Parse.safe_need,
    Parse.safe_esBe16, Parse.safe_load, Parse.safe_add32, Parse.safe_memcpy]
  apply Short.check hend
  intro hfits hread
  simp only [UInt32.reduceToNat] at hfits hread
  have h4 : (off + 4).toNat = off.toNat + 4 :=
    toNat_add_const end_ rfl (by omega)
  have h5 : (off + 5).toNat = off.toNat + 5 :=
    toNat_add_const end_ rfl (by omega)
  have unsupported : Short cap.toNat originalLen .unsupported := .of_ne (by decide)
  refine ⟨by omega, fun _ => unsupported, fun _ => ?_⟩
  refine ⟨by omega, fun _ => unsupported, fun _ => ?_⟩
  refine ⟨h4, by omega, fun _ => unsupported, fun _ => ?_⟩
  refine ⟨h5, by omega, fun _ => unsupported, fun _ => ?_⟩
  exact ⟨by omega, by omega, .of_ne (by decide)⟩

/-- What the network stage hands on: the transport offset lies within the
datagram, and the datagram within the frame. -/
def Inside (end_ : UInt32) (r : UInt32 × UInt32) : Prop :=
  r.1.toNat ≤ r.2.toNat ∧ r.2.toNat ≤ end_.toNat

theorem safe_esParseIpv4 (hend : end_.toNat ≤ originalLen) :
    Safe (Access.Within cap.toNat) (esParseIpv4 p cap end_ off) (fun r _ => Inside end_ r)
      (fun status _ => Short cap.toNat originalLen status) t := by
  simp only [esParseIpv4, safe_bind, safe_exitIf, safe_update, safe_exit, safe_pure, safe_ite,
    Parse.safe_need, Parse.safe_esBe16, Parse.safe_load, Parse.safe_add32, Parse.safe_sub32,
    Parse.safe_memcpy]
  apply Short.check hend
  intro hfits hread
  simp only [UInt32.reduceToNat] at hfits hread
  have hsub : (end_ - off).toNat + off.toNat = end_.toNat := toNat_sub_add (by omega)
  refine ⟨by omega, fun _ => .of_ne (by decide), fun _ => ?_⟩
  refine ⟨by omega, by omega, hsub, fun _ => .of_ne (by decide), ?_⟩
  intro hlen
  generalize Bytes.word16 (p.get (off.toNat + 2)) (p.get (off.toNat + 2 + 1)) = total at *
  simp only [not_or, GT.gt, UInt32.lt_iff_toNat_lt, UInt32.reduceToNat] at hlen
  have hsum : (off + total.toUInt32).toNat = off.toNat + total.toUInt32.toNat :=
    toNat_add_of_le end_ (by omega)
  refine ⟨hsum, ?_⟩
  apply Short.check (by omega)
  intro hfits' hread'
  have h9 : (off + 9).toNat = off.toNat + 9 :=
    toNat_add_const end_ rfl (by omega)
  have hl4 : (off + (p.get off.toNat &&& 0x0f).toUInt32 * 4).toNat =
      off.toNat + ((p.get off.toNat &&& 0x0f).toUInt32 * 4).toNat :=
    toNat_add_of_le _ hfits'
  refine ⟨h9, by omega, by omega, by omega, by omega, fun _ => .of_ne (by decide), ?_⟩
  intro _
  refine ⟨hl4, ?_, ?_⟩
  · show (off + _).toNat ≤ (off + _).toNat
    omega
  · show (off + _).toNat ≤ end_.toNat
    omega

theorem safe_esParseExts (p : Bytes) (cap end_ : UInt32) (hend : end_.toNat ≤ originalLen)
    (n : Nat) :
    ∀ (off : UInt32) (next : UInt8) (t : EsTuple), off.toNat ≤ end_.toNat →
      Safe (Access.Within cap.toNat) (esParseExts p cap end_ n off next)
        (fun r _ => r.1.toNat ≤ end_.toNat)
        (fun status _ => Short cap.toNat originalLen status) t := by
  induction n with
  | zero => intro off next t hoff; exact (safe_pure _).mpr hoff
  | succ n ih =>
      intro off next t hoff
      simp only [esParseExts, safe_ite, safe_bind, safe_exitIf, safe_pure, safe_update, safe_exit,
        Parse.safe_need, Parse.safe_load, Parse.safe_add32]
      refine ⟨fun _ => hoff, fun _ => ?_⟩
      apply Short.check hend
      intro hfits hread
      simp only [UInt32.reduceToNat] at hfits hread
      constructor
      · intro _
        apply Short.check hend
        intro _ _
        exact ⟨by omega, .of_ne (by decide)⟩
      · intro _
        have h1 : (off + 1).toNat = off.toNat + 1 :=
          toNat_add_const end_ rfl (by omega)
        refine ⟨h1, by omega, fun _ => .of_ne (by decide), fun _ => ?_⟩
        apply Short.check hend
        intro hfits' _
        have hnext := toNat_add_of_le end_ hfits'
        refine ⟨by omega, hnext, ?_⟩
        apply ih
        rw [hnext]
        exact hfits'

theorem safe_esParseIpv6 (hend : end_.toNat ≤ originalLen) :
    Safe (Access.Within cap.toNat) (esParseIpv6 p cap end_ off) (fun r _ => Inside end_ r)
      (fun status _ => Short cap.toNat originalLen status) t := by
  simp only [esParseIpv6, safe_bind, safe_exitIf, safe_update, safe_pure,
    Parse.safe_need, Parse.safe_esBe16, Parse.safe_load, Parse.safe_add32, Parse.safe_sub32,
    Parse.safe_memcpy]
  apply Short.check hend
  intro hfits hread
  simp only [UInt32.reduceToNat] at hfits hread
  have hsub : (end_ - off).toNat + off.toNat = end_.toNat := toNat_sub_add (by omega)
  have hsub' : (end_ - off - 40).toNat + (40 : UInt32).toNat = (end_ - off).toNat :=
    toNat_sub_add (by simp only [UInt32.reduceToNat]; omega)
  simp only [UInt32.reduceToNat] at hsub'
  refine ⟨by omega, fun _ => .of_ne (by decide), fun _ => ?_⟩
  refine ⟨by omega, fun _ => .of_ne (by decide), fun _ => ?_⟩
  refine ⟨hsub, hsub', fun _ => .of_ne (by decide), ?_⟩
  intro hlen
  generalize Bytes.word16 (p.get (off.toNat + 4)) (p.get (off.toNat + 4 + 1)) = payload at *
  simp only [GT.gt, UInt32.lt_iff_toNat_lt] at hlen
  have h40 : (off + 40).toNat = off.toNat + 40 :=
    toNat_add_const end_ rfl (by omega)
  have hsum : (off + 40 + payload.toUInt32).toNat = (off + 40).toNat + payload.toUInt32.toNat :=
    toNat_add_of_le end_ (by omega)
  have h6 : (off + 6).toNat = off.toNat + 6 :=
    toNat_add_const end_ rfl (by omega)
  refine ⟨h40, hsum, h6, by omega, by omega, by omega, h40, ?_⟩
  have hinner : (off + 40 + payload.toUInt32).toNat ≤ end_.toNat := by omega
  refine (safe_esParseExts p cap _ (Nat.le_trans hinner hend) 4 _ _ _ (by omega)).mono ?_
    fun _ _ he => he
  intro r t' hr
  exact ⟨fun _ => .of_ne (by decide), fun _ => ⟨hr, hinner⟩⟩

theorem safe_esParseNet (type : UInt16) (hend : end_.toNat ≤ originalLen) :
    Safe (Access.Within cap.toNat) (esParseNet p cap end_ off type) (fun r _ => Inside end_ r)
      (fun status _ => Short cap.toNat originalLen status) t := by
  simp only [esParseNet, safe_ite, safe_exit]
  constructor
  · intro _
    exact (safe_esParseArp hend).mono (fun _ _ h => h.elim) fun _ _ he => he
  intro _
  refine ⟨fun _ => safe_esParseIpv4 hend, fun _ => ?_⟩
  exact ⟨fun _ => safe_esParseIpv6 hend, fun _ => .of_ne (by decide)⟩

theorem safe_esParseL4 {l4 : UInt32} (hend : end_.toNat ≤ originalLen) :
    Safe (Access.Within cap.toNat) (esParseL4 p cap end_ l4) (fun _ _ => True)
      (fun status _ => Short cap.toNat originalLen status) t := by
  simp only [esParseL4, esParseTcp, esParseUdp, safe_bind, safe_state, safe_ite, safe_exitIf,
    safe_exit, safe_update, Parse.safe_need, Parse.safe_esBe16, Parse.safe_load,
    Parse.safe_add32, Parse.safe_sub32, Parse.safe_memcpy]
  constructor
  · intro _
    apply Short.check hend
    intro hfits hread
    simp only [UInt32.reduceToNat] at hfits hread
    have h12 : (l4 + 12).toNat = l4.toNat + 12 :=
      toNat_add_const end_ rfl (by omega)
    have hsub : (end_ - l4).toNat + l4.toNat = end_.toNat := toNat_sub_add (by omega)
    refine ⟨h12, by omega, hsub, fun _ => .of_ne (by decide), ?_⟩
    exact fun _ => ⟨by omega, by omega, trivial⟩
  intro _
  constructor
  · intro _
    apply Short.check hend
    intro hfits hread
    simp only [UInt32.reduceToNat] at hfits hread
    have hsub : (end_ - l4).toNat + l4.toNat = end_.toNat := toNat_sub_add (by omega)
    refine ⟨by omega, hsub, fun _ => .of_ne (by decide), ?_⟩
    exact fun _ => ⟨by omega, by omega, trivial⟩
  · exact fun _ => .of_ne (by decide)

end Stages

/-! ## The whole parser -/

theorem safe_esParseBody (p : Bytes) (cap originalLen : UInt32) (strippedVlan : Bool)
    (strippedVid : UInt16) :
    Safe (Access.Within cap.toNat)
      (esParseBody p cap originalLen strippedVlan strippedVid)
      (fun _ _ => True) (fun status _ => Short cap.toNat originalLen.toNat status)
      EsTuple.zero := by
  simp only [esParseBody, safe_bind, safe_update, safe_ite, safe_exitIf,
    Parse.safe_need, Parse.safe_esBe16, Parse.safe_pushVlan]
  have rest (t : EsTuple) (type : UInt16) (hfits : 14 ≤ originalLen.toNat) :
      Safe (Access.Within cap.toNat) (esParseVlans p cap originalLen 2 14 type)
        (fun r t' =>
          (esVlan r.2 → Short cap.toNat originalLen.toNat .unsupported) ∧
            (¬ esVlan r.2 →
              Safe (Access.Within cap.toNat) (esParseNet p cap originalLen r.1 r.2)
                (fun s t'' => Safe (Access.Within cap.toNat) (esParseL4 p cap s.2 s.1)
                  (fun _ _ => True) (fun status _ => Short cap.toNat originalLen.toNat status) t'')
                (fun status _ => Short cap.toNat originalLen.toNat status)
                { t' with ethertype := r.2 }))
        (fun status _ => Short cap.toNat originalLen.toNat status) t := by
    refine (safe_esParseVlans p cap originalLen 2 14 type t hfits).mono ?_ fun _ _ he => he
    intro r t' _
    refine ⟨fun _ => .of_ne (by decide), ?_⟩
    intro _
    exact (safe_esParseNet r.2 (Nat.le_refl _)).mono (fun _ _ h => safe_esParseL4 h.2)
      fun _ _ he => he
  apply Short.check (Nat.le_refl _)
  intro hfits hread
  simp only [UInt32.reduceToNat] at hfits hread
  refine ⟨by omega, ?_, ?_⟩
  · intro _
    exact ⟨by decide, rest _ _ (by omega)⟩
  · intro _
    exact rest _ _ (by omega)

/-- **The parser stays within its limits.**  For any two lengths, any buffer
and any stripped tag. -/
theorem esParse_within (p : Bytes) (cap originalLen : UInt32) (strippedVlan : Bool)
    (strippedVid : UInt16) :
    ∀ access ∈
        (esParseBody p (esParseCap cap originalLen) originalLen strippedVlan strippedVid).trace
          EsTuple.zero,
      access.Within (min (min cap.toNat 128) originalLen.toNat) := by
  rw [← toNat_esParseCap]
  exact (safe_esParseBody p (esParseCap cap originalLen) originalLen strippedVlan strippedVid).1

/-- The tag slot, the check before the UDP header and the last port of a tagged UDP
packet of which 46 of 50 bytes are there. -/
theorem esParse_within_taggedUdp :
    ([.vlanSlot 0, .need 38 8 46 48, .load 40 2] : List Access).Sublist
        ((esParseBody taggedUdp.encode (esParseCap 46 50) 50 false 0).trace EsTuple.zero) ∧
      (Access.vlanSlot 0).Within (min (min 46 128) 50) ∧
      (Access.need 38 8 46 48).Within (min (min 46 128) 50) ∧
      (Access.load 40 2).Within (min (min 46 128) 50) := by
  have hseen : ([.vlanSlot 0, .need 38 8 46 48, .load 40 2] : List Access).Sublist
      ((esParseBody taggedUdp.encode (esParseCap 46 50) 50 false 0).trace EsTuple.zero) := by
    decide +kernel
  have hwithin := esParse_within taggedUdp.encode 46 50 false 0
  exact ⟨hseen, hwithin _ (hseen.subset (by decide)), hwithin _ (hseen.subset (by decide)),
    hwithin _ (hseen.subset (by decide))⟩

end ElephantShrew.Bpf
