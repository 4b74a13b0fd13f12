import ElephantShrew.Bpf.ParserTwoRuns
import ElephantShrew.Verified.ExitAgree

/-!
# The parser four bytes further on

One more tag in a frame moves everything behind it by four bytes, the two
bounds included.  Every check of a stage compares differences of positions, and
every read is relative to one, so the stage does the same at both places and
returns positions that are four apart.
-/

namespace ElephantShrew.Bpf

open ElephantShrew.Verified
open ElephantShrew.Verified.ExitM

/-- The second run sees the first one's bytes, from the EtherType on, and its
bounds four further on. -/
structure Shifted (a b : View) : Prop where
  bytes : ∀ i, 12 ≤ i → b.p.get (i + 4) = a.p.get i
  cap : b.cap.toNat = a.cap.toNat + 4
  end_ : b.end_.toNat = a.end_.toNat + 4

/-- The position `o'` is four further on than `o`. -/
def Behind (o o' : UInt32) : Prop := o'.toNat = o.toNat + 4

/-- The two positions a network stage returns. -/
def BothBehind (r r' : UInt32 × UInt32) : Prop := Behind r.1 r'.1 ∧ Behind r.2 r'.2

theorem Behind.eq_add {o o' : UInt32} (h : Behind o o') : o' = o + 4 := by
  have hlt := o'.toNat_lt
  unfold Behind at h
  rw [← UInt32.toNat_inj, UInt32.toNat_add, h]
  simp only [UInt32.reduceToNat]
  omega

/-- Differences of positions are the same. -/
theorem Behind.sub {e e' o o' : UInt32} (he : Behind e e') (ho : Behind o o') :
    e' - o' = e - o := by
  rw [he.eq_add, ho.eq_add, ← UInt32.toNat_inj]
  have he := e.toNat_lt
  have ho := o.toNat_lt
  simp only [UInt32.toNat_sub, UInt32.toNat_add, UInt32.reduceToNat]
  omega

/-- A position a little further on, as long as it does not wrap. -/
theorem Behind.add {o o' k : UInt32} (h : Behind o o') (hlt : o.toNat + k.toNat + 4 < 2 ^ 32) :
    Behind (o + k) (o' + k) := by
  unfold Behind at h ⊢
  rw [UInt32.toNat_add, UInt32.toNat_add, h]
  omega

namespace Shifted

variable {a b : View}

theorem need (h : Shifted a b) {o o' : UInt32} (ho : Behind o o') (n : UInt32) :
    b.need o' n = a.need o n := by
  unfold View.need
  rw [esNeed_eq, esNeed_eq, h.cap, h.end_, ho]
  have hadd : o.toNat + 4 + n.toNat = o.toNat + n.toNat + 4 := by omega
  simp only [hadd, Nat.add_lt_add_iff_right]

/-- A sum inside the datagram does not wrap. -/
theorem add_lt (h : Shifted a b) {o n k : UInt32} (hok : a.need o n = .ok) (hk : k ≤ n) :
    o.toNat + k.toNat + 4 < 2 ^ 32 := by
  have hfits := ((esNeed_eq_ok_iff o n a.cap a.end_).mp hok).1
  have hk := UInt32.le_iff_toNat_le.mp hk
  have hlt := b.end_.toNat_lt
  rw [h.end_] at hlt
  omega

theorem behind_add (h : Shifted a b) {o o' n k : UInt32} (ho : Behind o o')
    (hok : a.need o n = .ok) (hk : k ≤ n) : Behind (o + k) (o' + k) :=
  ho.add (h.add_lt hok hk)

theorem endBehind (h : Shifted a b) : Behind a.end_ b.end_ := h.end_

/-- The same views, once the end of the datagram has been read. -/
theorem within (h : Shifted a b) {e e' : UInt32} (he : Behind e e') :
    Shifted (a.within e) (b.within e') :=
  ⟨h.bytes, h.cap, he⟩

theorem byte (h : Shifted a b) {o o' : UInt32} (ho : Behind o o') (h12 : 12 ≤ o.toNat) (i : Nat) :
    b.p.get (o'.toNat + i) = a.p.get (o.toNat + i) := by
  rw [ho, ← h.bytes (o.toNat + i) (by omega)]
  congr 1
  omega

theorem first (h : Shifted a b) {o o' : UInt32} (ho : Behind o o') (h12 : 12 ≤ o.toNat) :
    b.p.get o'.toNat = a.p.get o.toNat :=
  h.byte ho h12 0

theorem word (h : Shifted a b) {o o' : UInt32} (ho : Behind o o') (h12 : 12 ≤ o.toNat) (i : Nat) :
    Bytes.word16 (b.p.get (o'.toNat + i)) (b.p.get (o'.toNat + i + 1)) =
      Bytes.word16 (a.p.get (o.toNat + i)) (a.p.get (o.toNat + i + 1)) := by
  rw [h.byte ho h12 i, Nat.add_assoc, h.byte ho h12 (i + 1), Nat.add_assoc]

theorem firstWord (h : Shifted a b) {o o' : UInt32} (ho : Behind o o') (h12 : 12 ≤ o.toNat) :
    Bytes.word16 (b.p.get o'.toNat) (b.p.get (o'.toNat + 1)) =
      Bytes.word16 (a.p.get o.toNat) (a.p.get (o.toNat + 1)) :=
  h.word ho h12 0

theorem copyInto (h : Shifted a b) {o o' : UInt32} (ho : Behind o o') (h12 : 12 ≤ o.toNat)
    {k : Nat} (v : Vector UInt8 k) (i m : Nat) :
    Bytes.copyInto v b.p (o'.toNat + i) m = Bytes.copyInto v a.p (o.toNat + i) m := by
  apply Vector.ext
  intro j hj
  simp only [Bytes.getElem_copyInto, Nat.add_assoc]
  rw [h.byte ho h12]

theorem firstCopy (h : Shifted a b) {o o' : UInt32} (ho : Behind o o') (h12 : 12 ≤ o.toNat)
    {k : Nat} (v : Vector UInt8 k) (m : Nat) :
    Bytes.copyInto v b.p o'.toNat m = Bytes.copyInto v a.p o.toNat m :=
  h.copyInto ho h12 v 0 m

end Shifted

/-- Both runs make a bounds check. -/
theorem Shifted.agrees {a b : View} (h : Shifted a b) {o o' n : UInt32} (ho : Behind o o')
    {α α' : Type} {R : α → α' → Prop} {t : EsTuple} {x : EsTuple × Except EsParseStatus α}
    {y : EsTuple × Except EsParseStatus α'} (k : a.need o n = .ok → Agrees R x y) :
    Agrees R (if a.need o n ≠ .ok then (t, .error (a.need o n)) else x)
      (if b.need o' n ≠ .ok then (t, .error (b.need o' n)) else y) := by
  rw [h.need ho n]
  apply Agrees.exitIf Iff.rfl
  intro hok
  exact k (not_not.mp hok)

/-! ## The stages -/

section Stages

variable {a b : View} {o o' : UInt32} {t : EsTuple}

theorem agrees_esParseTcp (h : Shifted a b) (ho : Behind o o') (h12 : 12 ≤ o.toNat) :
    Agrees (fun _ _ => True) ((esParseTcp a.p a.cap a.end_ o).exec t)
      ((esParseTcp b.p b.cap b.end_ o').exec t) := by
  simp only [esParseTcp, Parse.exec_need_bind, Parse.exec_load_bind, Parse.exec_add32_bind,
    Parse.exec_sub32_bind, exec_exitIf]
  apply h.agrees ho
  intro hok
  have hfield : Behind (o + 12) (o' + 12) := h.behind_add ho hok (by decide)
  have hat : (o + 12).toNat = o.toNat + 12 := View.toNat_add hok 12 (by decide)
  apply Agrees.exitIf
  · rw [h.first hfield (by omega), h.endBehind.sub ho]
  · intro _
    exact .ok t trivial

theorem agrees_esParseUdp (h : Shifted a b) (ho : Behind o o') (h12 : 12 ≤ o.toNat) :
    Agrees (fun _ _ => True) ((esParseUdp a.p a.cap a.end_ o).exec t)
      ((esParseUdp b.p b.cap b.end_ o').exec t) := by
  simp only [esParseUdp, Parse.exec_need_bind, Parse.exec_esBe16_bind, Parse.exec_sub32_bind,
    exec_exitIf]
  apply h.agrees ho
  intro _
  apply Agrees.exitIf
  · rw [h.word ho h12 4, h.endBehind.sub ho]
  · intro _
    exact .ok t trivial

/-- The transport stage. -/
theorem agrees_esParseL4 (h : Shifted a b) (ho : Behind o o') (h12 : 12 ≤ o.toNat) :
    Agrees (fun _ _ => True) ((esParseL4 a.p a.cap a.end_ o).exec t)
      ((esParseL4 b.p b.cap b.end_ o').exec t) := by
  have ports : ∀ t : EsTuple,
      Agrees (fun _ _ => True)
        ((do
          Parse.memcpy o.toNat 2 fun t => { t with sport := Bytes.copyInto t.sport a.p o.toNat 2 }
          Parse.memcpy (o.toNat + 2) 2 fun t =>
            { t with dport := Bytes.copyInto t.dport a.p (o.toNat + 2) 2 }
          update (·.setFlag esTPortsValid) : Parse Unit).exec t)
        ((do
          Parse.memcpy o'.toNat 2 fun t =>
            { t with sport := Bytes.copyInto t.sport b.p o'.toNat 2 }
          Parse.memcpy (o'.toNat + 2) 2 fun t =>
            { t with dport := Bytes.copyInto t.dport b.p (o'.toNat + 2) 2 }
          update (·.setFlag esTPortsValid) : Parse Unit).exec t) := by
    intro t
    simp only [Parse.exec_memcpy_bind, exec_update, h.firstCopy ho h12, h.copyInto ho h12]
    exact .ok _ trivial
  simp only [esParseL4, exec_state_bind, exec_exit_bind, exec_ite]
  apply Agrees.ite Iff.rfl
  · intro _
    exact (agrees_esParseTcp h ho h12).bind fun _ _ t _ => ports t
  · intro _
    apply Agrees.ite Iff.rfl
    · intro _
      exact (agrees_esParseUdp h ho h12).bind fun _ _ t _ => ports t
    · intro _
      exact .error t EsParseStatus.ok

/-- No path of the ARP stage returns. -/
theorem agrees_esParseArp {R : UInt32 × UInt32 → UInt32 × UInt32 → Prop} (h : Shifted a b)
    (ho : Behind o o') (h12 : 12 ≤ o.toNat) :
    Agrees R ((esParseArp a.p a.cap a.end_ o).exec t)
      ((esParseArp b.p b.cap b.end_ o').exec t) := by
  simp only [esParseArp, Parse.exec_need_bind, Parse.exec_esBe16_bind, Parse.exec_load_bind,
    Parse.exec_add32_bind, Parse.exec_memcpy_bind, exec_exitIf_bind, exec_update_bind, exec_exit]
  apply h.agrees ho
  intro hok
  have h4 : (o + 4).toNat = o.toNat + 4 := View.toNat_add hok 4 (by decide)
  have h5 : (o + 5).toNat = o.toNat + 5 := View.toNat_add hok 5 (by decide)
  rw [h.firstWord ho h12, h.word ho h12 2,
    h.first (h.behind_add ho hok (k := 4) (by decide)) (by omega),
    h.first (h.behind_add ho hok (k := 5) (by decide)) (by omega),
    h.copyInto ho h12 t.src 14 4, h.copyInto ho h12 t.dst 24 4]
  apply Agrees.exitIf Iff.rfl
  intro _
  apply Agrees.exitIf Iff.rfl
  intro _
  apply Agrees.exitIf Iff.rfl
  intro _
  apply Agrees.exitIf Iff.rfl
  intro _
  exact .error _ EsParseStatus.ok

theorem agrees_esParseIpv4 (h : Shifted a b) (ho : Behind o o') (h12 : 12 ≤ o.toNat) :
    Agrees (fun r r' => BothBehind r r' ∧ 12 ≤ r.1.toNat)
      ((esParseIpv4 a.p a.cap a.end_ o).exec t) ((esParseIpv4 b.p b.cap b.end_ o').exec t) := by
  simp only [esParseIpv4, Parse.exec_need_bind, Parse.exec_esBe16_bind, Parse.exec_load_bind,
    Parse.exec_add32_bind, Parse.exec_sub32_bind, Parse.exec_memcpy_bind, exec_exitIf_bind,
    exec_update_bind, exec_ite, exec_exit]
  apply h.agrees ho
  intro hok
  have hfits := ((esNeed_eq_ok_iff o 20 a.cap a.end_).mp hok).1
  simp only [UInt32.reduceToNat] at hfits
  have h9 : (o + 9).toNat = o.toNat + 9 := View.toNat_add hok 9 (by decide)
  rw [h.first ho h12, h.word ho h12 2, h.word ho h12 6,
    h.first (h.behind_add ho hok (k := 9) (by decide)) (by omega),
    h.copyInto ho h12 t.src 12 4, h.copyInto ho h12 t.dst 16 4, h.endBehind.sub ho]
  apply Agrees.exitIf Iff.rfl
  intro _
  apply Agrees.exitIf Iff.rfl
  intro hlen
  generalize Bytes.word16 (a.p.get (o.toNat + 2)) (a.p.get (o.toNat + 2 + 1)) = total at hlen ⊢
  have htotal : o.toNat + total.toUInt32.toNat ≤ a.end_.toNat := by
    simp only [not_or, GT.gt, UInt32.lt_iff_toNat_lt,
      toNat_sub_of_le' (show o.toNat ≤ a.end_.toNat by omega)] at hlen
    omega
  have hbound := h.end_
  have hlt := b.end_.toNat_lt
  have hdatagram : Behind (o + total.toUInt32) (o' + total.toUInt32) := ho.add (by omega)
  apply (h.within hdatagram).agrees ho
  intro hihl
  apply Agrees.ite Iff.rfl
  · intro _
    exact .error _ EsParseStatus.fragment
  · intro _
    refine .ok _ ⟨⟨(h.within hdatagram).behind_add ho hihl (UInt32.le_refl _), hdatagram⟩, ?_⟩
    rw [View.toNat_add hihl _ (UInt32.le_refl _)]
    omega

/-- The extension headers. -/
theorem agrees_esParseExts (h : Shifted a b) (k : Nat) :
    ∀ (o o' : UInt32) (next : UInt8) (t : EsTuple), Behind o o' → 12 ≤ o.toNat →
      Agrees (fun r r' => Behind r.1 r'.1 ∧ r.2 = r'.2 ∧ 12 ≤ r.1.toNat)
        ((esParseExts a.p a.cap a.end_ k o next).exec t)
        ((esParseExts b.p b.cap b.end_ k o' next).exec t) := by
  induction k with
  | zero => intro o o' next t ho h12; exact .ok t ⟨ho, rfl, h12⟩
  | succ k ih =>
      intro o o' next t ho h12
      simp only [esParseExts, exec_ite, Parse.exec_need_bind, Parse.exec_load_bind,
        Parse.exec_add32_bind, exec_exitIf_bind, exec_update_bind, exec_exit]
      apply Agrees.ite Iff.rfl
      · intro _
        exact .ok t ⟨ho, rfl, h12⟩
      intro _
      apply h.agrees ho
      intro hok
      apply Agrees.ite Iff.rfl
      · intro _
        apply h.agrees ho
        intro _
        rw [h.first ho h12]
        exact .error _ EsParseStatus.fragment
      · intro _
        have h1 : (o + 1).toNat = o.toNat + 1 := View.toNat_add hok 1 (by decide)
        rw [h.first ho h12, h.first (h.behind_add ho hok (k := 1) (by decide)) (by omega)]
        apply Agrees.exitIf Iff.rfl
        intro _
        apply h.agrees ho
        intro hext
        apply ih _ _ _ t (h.behind_add ho hext (UInt32.le_refl _))
        rw [View.toNat_add hext _ (UInt32.le_refl _)]
        omega

theorem agrees_esParseIpv6 (h : Shifted a b) (ho : Behind o o') (h12 : 12 ≤ o.toNat) :
    Agrees (fun r r' => BothBehind r r' ∧ 12 ≤ r.1.toNat)
      ((esParseIpv6 a.p a.cap a.end_ o).exec t) ((esParseIpv6 b.p b.cap b.end_ o').exec t) := by
  simp only [esParseIpv6, Parse.exec_need_bind, Parse.exec_esBe16_bind, Parse.exec_load_bind,
    Parse.exec_add32_bind, Parse.exec_sub32_bind, Parse.exec_memcpy_bind, exec_exitIf_bind,
    exec_update_bind]
  apply h.agrees ho
  intro hok
  have hfits := ((esNeed_eq_ok_iff o 40 a.cap a.end_).mp hok).1
  simp only [UInt32.reduceToNat] at hfits
  have h6 : (o + 6).toNat = o.toNat + 6 := View.toNat_add hok 6 (by decide)
  have h40 : Behind (o + 40) (o' + 40) := h.behind_add ho hok (UInt32.le_refl _)
  have hat40 : (o + 40).toNat = o.toNat + 40 := View.toNat_add hok 40 (UInt32.le_refl _)
  rw [h.first ho h12, h.word ho h12 4,
    h.first (h.behind_add ho hok (k := 6) (by decide)) (by omega),
    h.copyInto ho h12 t.src 8 16, h.copyInto ho h12 t.dst 24 16, h.endBehind.sub ho]
  apply Agrees.exitIf Iff.rfl
  intro _
  apply Agrees.exitIf Iff.rfl
  intro _
  apply Agrees.exitIf Iff.rfl
  intro hlen
  generalize Bytes.word16 (a.p.get (o.toNat + 4)) (a.p.get (o.toNat + 4 + 1)) = payload at hlen ⊢
  have hpayload : (o + 40).toNat + payload.toUInt32.toNat ≤ a.end_.toNat := by
    have hsub : (a.end_ - o).toNat = a.end_.toNat - o.toNat := toNat_sub_of_le' (by omega)
    have hsub40 : (a.end_ - o - 40).toNat = a.end_.toNat - o.toNat - 40 := by
      rw [toNat_sub_of_le' (by rw [hsub]; simp only [UInt32.reduceToNat]; omega), hsub]
      rfl
    simp only [GT.gt, UInt32.lt_iff_toNat_lt, hsub40] at hlen
    omega
  have hbound := h.end_
  have hlt := b.end_.toNat_lt
  have hdatagram : Behind (o + 40 + payload.toUInt32) (o' + 40 + payload.toUInt32) :=
    h40.add (by omega)
  apply (agrees_esParseExts (h.within hdatagram) 4 _ _ _ _ h40 (by omega)).bind
  intro r r' t' hr
  obtain ⟨hoff, hnext, hge⟩ := hr
  simp only [exec_update_bind, exec_exitIf_bind, exec_pure, hnext]
  apply Agrees.exitIf Iff.rfl
  intro _
  exact .ok _ ⟨⟨hoff, hdatagram⟩, hge⟩

/-- The network and the transport stage. -/
theorem agrees_netL4 (h : Shifted a b) (ho : Behind o o') (h12 : 12 ≤ o.toNat) (type : UInt16) :
    Agrees (fun _ _ => True)
      ((esParseNet a.p a.cap a.end_ o type >>= fun r => esParseL4 a.p a.cap r.2 r.1).exec t)
      ((esParseNet b.p b.cap b.end_ o' type >>= fun r => esParseL4 b.p b.cap r.2 r.1).exec t) := by
  have transport : ∀ (r r' : UInt32 × UInt32) (t : EsTuple), BothBehind r r' ∧ 12 ≤ r.1.toNat →
      Agrees (fun _ _ => True) ((esParseL4 a.p a.cap r.2 r.1).exec t)
        ((esParseL4 b.p b.cap r'.2 r'.1).exec t) := by
    intro r r' t hr
    exact agrees_esParseL4 (h.within hr.1.2) hr.1.1 hr.2
  unfold esParseNet
  by_cases hArp : type = 0x0806
  · rw [if_pos hArp, if_pos hArp]
    exact (agrees_esParseArp h ho h12).bind transport
  · rw [if_neg hArp, if_neg hArp]
    by_cases hIpv4 : type = 0x0800
    · rw [if_pos hIpv4, if_pos hIpv4]
      exact (agrees_esParseIpv4 h ho h12).bind transport
    · rw [if_neg hIpv4, if_neg hIpv4]
      by_cases hIpv6 : type = 0x86dd
      · rw [if_pos hIpv6, if_pos hIpv6]
        exact (agrees_esParseIpv6 h ho h12).bind transport
      · rw [if_neg hIpv6, if_neg hIpv6, exec_exit_bind, exec_exit_bind]
        exact .error t EsParseStatus.unsupported

end Stages

end ElephantShrew.Bpf
