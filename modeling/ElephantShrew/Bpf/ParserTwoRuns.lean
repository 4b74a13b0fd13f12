import ElephantShrew.Bpf.ParserGrowth
import ElephantShrew.Bpf.ParserStages

/-!
# The parser on two prefixes

What a run of the parser sees is a buffer and two bounds.  Two runs are
compared check by check: at each one they go on alike, over bytes on which the
buffers agree, or the first run leaves with a status that says it saw too
little.  `Meets` is that statement about one check; each stage is compared
under the checks it makes.
-/

namespace ElephantShrew.Bpf

open ElephantShrew.Verified
open ElephantShrew.Verified.ExitM

/-! ## Outcomes of the primitives -/

namespace Parse

section Exec

variable {β : Type} (p : Bytes) (t : EsTuple)

theorem exec_need_bind (off n cap end_ : UInt32) (f : Unit → Parse β) :
    (need off n cap end_ >>= f).exec t =
      if esNeed off n cap end_ ≠ .ok then (t, .error (esNeed off n cap end_))
      else (f ()).exec t := by
  simp only [need, exec_bind_bind]
  rw [exec_bind, exec_note]
  exact exec_exitIf_bind ..

theorem exec_load_bind (i : Nat) (f : UInt8 → Parse β) :
    (load p i >>= f).exec t = (f (p.get i)).exec t := by
  simp only [load, exec_bind, exec_note, exec_pure]

theorem exec_esBe16_bind (i : Nat) (f : UInt16 → Parse β) :
    (esBe16 p i >>= f).exec t = (f (Bytes.word16 (p.get i) (p.get (i + 1)))).exec t := by
  simp only [esBe16, exec_bind, exec_note, exec_pure]

theorem exec_add32_bind (a b : UInt32) (f : UInt32 → Parse β) :
    (add32 a b >>= f).exec t = (f (a + b)).exec t := by
  simp only [add32, exec_bind, exec_note, exec_pure]

theorem exec_sub32_bind (a b : UInt32) (f : UInt32 → Parse β) :
    (sub32 a b >>= f).exec t = (f (a - b)).exec t := by
  simp only [sub32, exec_bind, exec_note, exec_pure]

theorem exec_memcpy_bind (i n : Nat) (h : EsTuple → EsTuple) (f : Unit → Parse β) :
    (memcpy i n h >>= f).exec t = (f ()).exec (h t) := by
  simp only [memcpy, exec_bind, exec_note, exec_update]

theorem exec_pushVlan_bind (vid : UInt16) (f : Unit → Parse β) :
    (pushVlan vid >>= f).exec t = (f ()).exec (t.pushVlan vid) := by
  simp only [pushVlan, exec_bind, exec_state, exec_note, exec_update]

end Exec

end Parse

/-! ## One check of two runs -/

/-- Buffers that agree from `off` on, `n` bytes far. -/
def Same (p q : Bytes) (off n : Nat) : Prop := ∀ i, off ≤ i → i < off + n → p.get i = q.get i

namespace Same

variable {p q : Bytes} {off n : Nat}

theorem byte (h : Same p q off n) (i : Nat) (hi : i < n) : p.get (off + i) = q.get (off + i) :=
  h _ (by omega) (by omega)

theorem first (h : Same p q off n) (hn : 0 < n) : p.get off = q.get off :=
  h off (by omega) (by omega)

theorem word (h : Same p q off n) (i : Nat) (hi : i + 1 < n) :
    Bytes.word16 (p.get (off + i)) (p.get (off + i + 1)) =
      Bytes.word16 (q.get (off + i)) (q.get (off + i + 1)) := by
  rw [h _ (by omega) (by omega), h (off + i + 1) (by omega) (by omega)]

theorem firstWord (h : Same p q off n) (hn : 1 < n) :
    Bytes.word16 (p.get off) (p.get (off + 1)) = Bytes.word16 (q.get off) (q.get (off + 1)) :=
  h.word 0 hn

theorem copyInto (h : Same p q off n) {k : Nat} (v : Vector UInt8 k) (i m : Nat)
    (hi : i + m ≤ n) : Bytes.copyInto v p (off + i) m = Bytes.copyInto v q (off + i) m := by
  apply Vector.ext
  intro j hj
  simp only [Bytes.getElem_copyInto]
  split
  · next hlt => exact h (off + i + j) (by omega) (by omega)
  · rfl

theorem firstCopy (h : Same p q off n) {k : Nat} (v : Vector UInt8 k) (m : Nat) (hm : m ≤ n) :
    Bytes.copyInto v p off m = Bytes.copyInto v q off m :=
  h.copyInto v 0 m (by omega)

end Same

/-- What a run sees. -/
structure View where
  p : Bytes
  cap : UInt32
  end_ : UInt32

/-- The bounds check of a run. -/
def View.need (v : View) (off n : UInt32) : EsParseStatus := esNeed off n v.cap v.end_

/-- An index into checked bytes does not wrap. -/
theorem View.toNat_add {v : View} {off n : UInt32} (hok : v.need off n = .ok) (i : UInt32)
    (hi : i ≤ n) : (off + i).toNat = off.toNat + i.toNat := by
  have hfits := ((esNeed_eq_ok_iff off n v.cap v.end_).mp hok).1
  have hle := UInt32.le_iff_toNat_le.mp hi
  exact toNat_add_of_le v.end_ (by omega)

/-- The run after the end of the datagram has been read. -/
def View.within (v : View) (end_ : UInt32) : View := { v with end_ := end_ }

/-- Both runs go on alike over the checked bytes, or the first one leaves. -/
structure Meets (esc : EsParseStatus → Prop) (a b : View) (off n : UInt32) : Prop where
  status : a.need off n = b.need off n ∨ (a.need off n ≠ .ok ∧ esc (a.need off n))
  bytes : a.need off n = .ok → Same a.p b.p off.toNat n.toNat

/-- Both runs make a bounds check. -/
theorem Meets.follows {esc : EsParseStatus → Prop} {a b : View} {off n : UInt32} {t : EsTuple}
    {α : Type} {x y : EsTuple × Except EsParseStatus α} (m : Meets esc a b off n)
    (hg : t.Extends (if b.need off n ≠ .ok then (t, .error (b.need off n)) else y).1)
    (k : Same a.p b.p off.toNat n.toNat → a.need off n = .ok → t.Extends y.1 →
      Follows esc EsTuple.Extends x y) :
    Follows esc EsTuple.Extends
      (if a.need off n ≠ .ok then (t, .error (a.need off n)) else x)
      (if b.need off n ≠ .ok then (t, .error (b.need off n)) else y) := by
  rcases m.status with heq | ⟨hfail, hesc⟩
  · rw [heq]
    apply Follows.ite Iff.rfl hg
    · intro _ _ _
      exact .refl _
    · intro hok _ hgrow
      have hpass : a.need off n = .ok := heq ▸ not_not.mp hok
      exact k (m.bytes hpass) hpass hgrow
  · rw [if_pos hfail]
    exact .left hesc hg

/-! ## Stages of two runs -/

section Stages

variable {esc : EsParseStatus → Prop} {a b : View} {off : UInt32} {t : EsTuple}

section Transport

variable {l4 : UInt32} {α : Type} {f g : Unit → Parse α}

theorem follows_esParseTcp (m : Meets esc a b l4 20) (hend : a.end_ = b.end_)
    (hg : t.Extends (((esParseTcp b.p b.cap b.end_ l4) >>= g).exec t).1)
    (k : Same a.p b.p l4.toNat 20 → t.Extends ((g ()).exec t).1 →
      Follows esc EsTuple.Extends ((f ()).exec t) ((g ()).exec t)) :
    Follows esc EsTuple.Extends (((esParseTcp a.p a.cap a.end_ l4) >>= f).exec t)
      (((esParseTcp b.p b.cap b.end_ l4) >>= g).exec t) := by
  simp only [esParseTcp, exec_bind_bind, Parse.exec_need_bind, Parse.exec_load_bind,
    Parse.exec_add32_bind, Parse.exec_sub32_bind, exec_exitIf_bind] at hg ⊢
  apply m.follows hg
  intro hsame hok hg
  simp only [UInt32.reduceToNat] at hsame
  have h12 : (l4 + 12).toNat = l4.toNat + 12 := View.toNat_add hok 12 (by decide)
  apply Follows.exitIf _ hg
  · intro _ _ hg
    exact k hsame hg
  · rw [h12, hsame.byte 12 (by omega), hend]
    exact Or.inl Iff.rfl

theorem follows_esParseUdp (m : Meets esc a b l4 8) (hend : a.end_ = b.end_)
    (hg : t.Extends (((esParseUdp b.p b.cap b.end_ l4) >>= g).exec t).1)
    (k : Same a.p b.p l4.toNat 8 → t.Extends ((g ()).exec t).1 →
      Follows esc EsTuple.Extends ((f ()).exec t) ((g ()).exec t)) :
    Follows esc EsTuple.Extends (((esParseUdp a.p a.cap a.end_ l4) >>= f).exec t)
      (((esParseUdp b.p b.cap b.end_ l4) >>= g).exec t) := by
  simp only [esParseUdp, exec_bind_bind, Parse.exec_need_bind, Parse.exec_esBe16_bind,
    Parse.exec_sub32_bind, exec_exitIf_bind] at hg ⊢
  apply m.follows hg
  intro hsame _ hg
  simp only [UInt32.reduceToNat] at hsame
  apply Follows.exitIf _ hg
  · intro _ _ hg
    exact k hsame hg
  · rw [hsame.word 4 (by omega), hend]
    exact Or.inl Iff.rfl

end Transport

/-- The transport stage, of one datagram. -/
theorem follows_esParseL4 {l4 : UInt32} (m : ∀ n, Meets esc a b l4 n) (hend : a.end_ = b.end_) :
    Follows esc EsTuple.Extends ((esParseL4 a.p a.cap a.end_ l4).exec t)
      ((esParseL4 b.p b.cap b.end_ l4).exec t) := by
  have hgrows : Grows EsTuple.Extends (esParseL4 b.p b.cap b.end_ l4) t := grows_esParseL4
  have hg := grows_iff.mp hgrows
  simp only [esParseL4, exec_state_bind, exec_exit_bind, exec_ite] at hg ⊢
  apply Follows.ite Iff.rfl hg
  · intro _ _ hg
    apply follows_esParseTcp (m 20) hend hg
    intro hsame _
    simp only [Parse.exec_memcpy_bind, exec_update, hsame.firstCopy t.sport 2 (by omega),
      hsame.copyInto t.dport 2 2 (by omega)]
    exact .refl _
  · intro _ _ hg
    apply Follows.ite Iff.rfl hg
    · intro _ _ hg
      apply follows_esParseUdp (m 8) hend hg
      intro hsame _
      simp only [Parse.exec_memcpy_bind, exec_update, hsame.firstCopy t.sport 2 (by omega),
        hsame.copyInto t.dport 2 2 (by omega)]
      exact .refl _
    · intro _ _ _
      exact .refl _

theorem follows_esParseArp (m : Meets esc a b off 28) (hf : t.flags = 1) :
    Follows esc EsTuple.Extends ((esParseArp a.p a.cap a.end_ off).exec t)
      ((esParseArp b.p b.cap b.end_ off).exec t) := by
  have hg : Grows EsTuple.Extends (esParseArp b.p b.cap b.end_ off) t :=
    (grows_esParseArp hf).mono (fun _ _ h => h.elim) fun _ _ h => h
  rw [grows_iff] at hg
  simp only [esParseArp, Parse.exec_need_bind, Parse.exec_esBe16_bind, Parse.exec_load_bind,
    Parse.exec_add32_bind, Parse.exec_memcpy_bind, exec_exitIf_bind, exec_update_bind] at hg ⊢
  apply m.follows hg
  intro hsame hok _
  simp only [UInt32.reduceToNat] at hsame
  have h4 : (off + 4).toNat = off.toNat + 4 := View.toNat_add hok 4 (by decide)
  have h5 : (off + 5).toNat = off.toNat + 5 := View.toNat_add hok 5 (by decide)
  rw [h4, h5, hsame.firstWord (by omega), hsame.word 2 (by omega), hsame.byte 4 (by omega),
    hsame.byte 5 (by omega), hsame.copyInto t.src 14 4 (by omega),
    hsame.copyInto t.dst 24 4 (by omega)]
  exact .refl _

/-- The IPv4 stage.  The length field is compared with what is left of each
frame; behind it both runs see the same datagram. -/
theorem follows_esParseIpv4 (m : Meets esc a b off 20) (hf : t.flags = 1)
    (hlen : ∀ total : UInt32, off.toNat + 20 ≤ a.end_.toNat →
      off + total = claimedEnd b.p off 0x0800 →
      (total > a.end_ - off ↔ total > b.end_ - off) ∨ (total > a.end_ - off ∧ esc .malformed))
    (m' : ∀ n, Meets esc (a.within (claimedEnd b.p off 0x0800))
      (b.within (claimedEnd b.p off 0x0800)) off n) :
    Follows esc EsTuple.Extends ((esParseIpv4 a.p a.cap a.end_ off).exec t)
      ((esParseIpv4 b.p b.cap b.end_ off).exec t) := by
  have hg : Grows EsTuple.Extends (esParseIpv4 b.p b.cap b.end_ off) t :=
    (grows_esParseIpv4 hf).mono (fun _ _ h => h.1) fun _ _ h => h
  rw [grows_iff] at hg
  simp only [esParseIpv4, Parse.exec_need_bind, Parse.exec_esBe16_bind, Parse.exec_load_bind,
    Parse.exec_add32_bind, Parse.exec_sub32_bind, Parse.exec_memcpy_bind, exec_exitIf_bind,
    exec_update_bind, exec_ite, exec_exit] at hg ⊢
  apply m.follows hg
  intro hsame hok hg
  have hfits := ((esNeed_eq_ok_iff off 20 a.cap a.end_).mp hok).1
  simp only [UInt32.reduceToNat] at hsame hfits
  have h9 : (off + 9).toNat = off.toNat + 9 := View.toNat_add hok 9 (by decide)
  rw [h9, hsame.first (by omega), hsame.word 2 (by omega), hsame.word 6 (by omega),
    hsame.byte 9 (by omega), hsame.copyInto t.src 12 4 (by omega),
    hsame.copyInto t.dst 16 4 (by omega)]
  rw [h9] at hg
  apply Follows.exitIf (Or.inl Iff.rfl) hg
  intro _ _ hg
  apply Follows.exitIf _ hg
  · intro _ _ hg
    apply (m' _).follows hg
    intro _ _ _
    exact .refl _
  · rcases hlen _ hfits (if_pos rfl).symm with hiff | ⟨hgt, hesc⟩
    · exact Or.inl (or_congr Iff.rfl (or_congr Iff.rfl hiff))
    · exact Or.inr ⟨Or.inr (Or.inr hgt), hesc⟩

/-- The extension headers, of one datagram. -/
theorem follows_esParseExts (m : ∀ off n, Meets esc a b off n) (k : Nat) :
    ∀ (off : UInt32) (next : UInt8) (t : EsTuple),
      Follows esc EsTuple.Extends ((esParseExts a.p a.cap a.end_ k off next).exec t)
        ((esParseExts b.p b.cap b.end_ k off next).exec t) := by
  induction k with
  | zero => intro off next t; exact .refl _
  | succ k ih =>
      intro off next t
      have hg : Grows EsTuple.Extends (esParseExts b.p b.cap b.end_ (k + 1) off next) t :=
        (grows_esParseExts _ _ _ _ _ _ t).mono (fun _ _ h => h ▸ .refl _) fun _ _ h => h
      rw [grows_iff] at hg
      simp only [esParseExts, exec_ite, Parse.exec_need_bind, Parse.exec_load_bind,
        Parse.exec_add32_bind, exec_exitIf_bind, exec_update_bind, exec_exit] at hg ⊢
      apply Follows.ite Iff.rfl hg
      · intro _ _ _
        exact .refl _
      intro _ _ hg
      apply (m off 2).follows hg
      intro hsame hok hg
      simp only [UInt32.reduceToNat] at hsame
      apply Follows.ite Iff.rfl hg
      · intro _ _ hg
        apply (m off 8).follows hg
        intro _ _ _
        rw [hsame.first (by omega)]
        exact .refl _
      · intro _ _ hg
        have h1 : (off + 1).toNat = off.toNat + 1 := View.toNat_add hok 1 (by decide)
        rw [h1] at hg ⊢
        rw [hsame.byte 1 (by omega), hsame.first (by omega)]
        apply Follows.exitIf (Or.inl Iff.rfl) hg
        intro _ _ hg
        apply (m off _).follows hg
        intro _ _ _
        exact ih _ _ t

/-- The IPv6 stage. -/
theorem follows_esParseIpv6 (m : Meets esc a b off 40) (hf : t.flags = 1)
    (hlen : ∀ payload : UInt32, off.toNat + 40 ≤ a.end_.toNat →
      off + 40 + payload = claimedEnd b.p off 0x86dd →
      (payload > a.end_ - off - 40 ↔ payload > b.end_ - off - 40) ∨
        (payload > a.end_ - off - 40 ∧ esc .malformed))
    (m' : ∀ o n, Meets esc (a.within (claimedEnd b.p off 0x86dd))
      (b.within (claimedEnd b.p off 0x86dd)) o n) :
    Follows esc EsTuple.Extends ((esParseIpv6 a.p a.cap a.end_ off).exec t)
      ((esParseIpv6 b.p b.cap b.end_ off).exec t) := by
  have hg : Grows EsTuple.Extends (esParseIpv6 b.p b.cap b.end_ off) t :=
    (grows_esParseIpv6 hf).mono (fun _ _ h => h.1) fun _ _ h => h
  rw [grows_iff] at hg
  simp only [esParseIpv6, Parse.exec_need_bind, Parse.exec_esBe16_bind, Parse.exec_load_bind,
    Parse.exec_add32_bind, Parse.exec_sub32_bind, Parse.exec_memcpy_bind, exec_exitIf_bind,
    exec_update_bind] at hg ⊢
  apply m.follows hg
  intro hsame hok hg
  have hfits := ((esNeed_eq_ok_iff off 40 a.cap a.end_).mp hok).1
  simp only [UInt32.reduceToNat] at hsame hfits
  have h6 : (off + 6).toNat = off.toNat + 6 := View.toNat_add hok 6 (by decide)
  rw [h6, hsame.first (by omega), hsame.word 4 (by omega), hsame.byte 6 (by omega),
    hsame.copyInto t.src 8 16 (by omega), hsame.copyInto t.dst 24 16 (by omega)]
  rw [h6] at hg
  apply Follows.exitIf (Or.inl Iff.rfl) hg
  intro _ _ hg
  apply Follows.exitIf (Or.inl Iff.rfl) hg
  intro _ _ hg
  apply Follows.exitIf (hlen _ hfits (if_neg (by decide)).symm) hg
  intro _ _ _
  apply Follows.bind (follows_esParseExts m' 4 _ _ _)
  apply (grows_esParseExts _ _ _ _ _ _ _).mono
  · intro r t' ht'
    refine ⟨?_, .refl _⟩
    unfold Grows
    simp only [wp_bind, wp_update, wp_exitIf, wp_pure]
    exact ⟨fun _ => .setProto _ _, fun _ => .setProto _ _⟩
  · exact fun _ _ _ => trivial

/-- What the loop over the tags meets: `P` holds of every offset and type it
reaches, and both runs meet the check of each tag. -/
structure TagLoop (esc : EsParseStatus → Prop) (a b : View) (P : UInt32 → UInt16 → Prop) :
    Prop where
  meets : ∀ off type, P off type → esVlan type → Meets esc a b off 4
  next : ∀ off type, P off type → esVlan type →
    P (off + 4) (Bytes.word16 (b.p.get (off.toNat + 2)) (b.p.get (off.toNat + 2 + 1)))

theorem follows_esParseVlans {P : UInt32 → UInt16 → Prop} (l : TagLoop esc a b P) (k : Nat) :
    ∀ (off : UInt32) (type : UInt16) (t : EsTuple), P off type → Untyped t →
      Follows esc EsTuple.Extends ((esParseVlans a.p a.cap a.end_ k off type).exec t)
        ((esParseVlans b.p b.cap b.end_ k off type).exec t) := by
  induction k with
  | zero => intro off type t _ _; exact .refl _
  | succ k ih =>
      intro off type t hP ht
      have hg : Grows EsTuple.Extends (esParseVlans b.p b.cap b.end_ (k + 1) off type) t :=
        (grows_esParseVlans _ _ _ _ _ _ t ht).mono (fun _ _ h => h.1) fun _ _ h => h
      rw [grows_iff] at hg
      simp only [esParseVlans, exec_ite, exec_state_bind, Parse.exec_need_bind,
        Parse.exec_esBe16_bind, Parse.exec_pushVlan_bind, Parse.exec_add32_bind,
        exec_exitIf_bind] at hg ⊢
      apply Follows.ite Iff.rfl hg
      · intro _ _ _
        exact .refl _
      intro _ hv hg
      have htag : esVlan type := not_not.mp hv
      apply Follows.exitIf (Or.inl Iff.rfl) hg
      intro _ _ hg
      apply (l.meets off type hP htag).follows hg
      intro hsame _ _
      simp only [UInt32.reduceToNat] at hsame
      rw [hsame.firstWord (by omega), hsame.word 2 (by omega)]
      exact ih _ _ _ (l.next off type hP htag) ⟨ht.flags, ht.ethertype⟩

/-- The loop ends where `P` holds. -/
theorem TagLoop.reaches {P : UInt32 → UInt16 → Prop} (l : TagLoop esc a b P) (k : Nat) :
    ∀ (off : UInt32) (type : UInt16) (t : EsTuple), P off type →
      Wp (esParseVlans b.p b.cap b.end_ k off type) (fun r _ => P r.1 r.2) (fun _ _ => True) t := by
  induction k with
  | zero => intro off type t hP; exact hP
  | succ k ih =>
      intro off type t hP
      simp only [esParseVlans, wp_ite, wp_bind, wp_state, wp_exitIf, wp_pure, Parse.wp_need,
        Parse.wp_esBe16, Parse.wp_pushVlan, Parse.wp_add32, implies_true, true_and]
      refine ⟨fun _ => hP, ?_⟩
      intro hv _ _
      exact ih _ _ _ (l.next off type hP (not_not.mp hv))

end Stages

/-! ## The whole parser, twice -/

section Body

variable {esc : EsParseStatus → Prop} {a b : View} {off : UInt32} {type : UInt16} {t : EsTuple}

/-- What the network header of the second run meets. -/
structure NetMeets (esc : EsParseStatus → Prop) (a b : View) (off : UInt32) (type : UInt16) :
    Prop where
  net : ∀ t : EsTuple, t.flags = 1 →
    Follows esc EsTuple.Extends ((esParseNet a.p a.cap a.end_ off type).exec t)
      ((esParseNet b.p b.cap b.end_ off type).exec t)
  datagram : ∀ o n, Meets esc (a.within (claimedEnd b.p off type))
    (b.within (claimedEnd b.p off type)) o n

/-- The network and the transport stage. -/
theorem NetMeets.follows (m : NetMeets esc a b off type) (hf : t.flags = 1) :
    Follows esc EsTuple.Extends
      ((esParseNet a.p a.cap a.end_ off type >>= fun r => esParseL4 a.p a.cap r.2 r.1).exec t)
      ((esParseNet b.p b.cap b.end_ off type >>= fun r => esParseL4 b.p b.cap r.2 r.1).exec t) := by
  apply Follows.bind (m.net t hf)
  apply (grows_esParseNet type hf).mono
  · intro r t' hr
    refine ⟨grows_esParseL4, ?_⟩
    rw [hr.2.2]
    exact follows_esParseL4 (fun n => m.datagram r.1 n) rfl
  · exact fun _ _ _ => trivial

theorem grows_netL4 (v : View) (hf : t.flags = 1) :
    Grows EsTuple.Extends
      (esParseNet v.p v.cap v.end_ off type >>= fun r => esParseL4 v.p v.cap r.2 r.1) t := by
  unfold Grows
  rw [wp_bind]
  apply (grows_esParseNet type hf).mono
  · intro r t' hr
    exact grows_esParseL4.mono (fun _ _ h => hr.1.trans h) fun _ _ h => hr.1.trans h
  · exact fun _ _ h => h

/-- **Two runs.**  The parser on `a` follows the parser on `b`. -/
theorem follows_esParseBody {P : UInt32 → UInt16 → Prop} (m : Meets esc a b 0 14)
    (l : TagLoop esc a b P) (h0 : P 14 (Bytes.word16 (b.p.get 12) (b.p.get 13)))
    (hnet : ∀ off type, P off type → ¬ esVlan type → NetMeets esc a b off type)
    (strippedVlan : Bool) (strippedVid : UInt16) :
    Follows esc EsTuple.Extends
      ((esParseBody a.p a.cap a.end_ strippedVlan strippedVid).exec EsTuple.zero)
      ((esParseBody b.p b.cap b.end_ strippedVlan strippedVid).exec EsTuple.zero) := by
  have rest (t : EsTuple) (ht : Untyped t) (type : UInt16) (hP : P 14 type) :
      Follows esc EsTuple.Extends
        ((esParseVlans a.p a.cap a.end_ 2 14 type >>= fun r => do
          update fun t => { t with ethertype := r.2 }
          exitIf (esVlan r.2) .unsupported
          let q ← esParseNet a.p a.cap a.end_ r.1 r.2
          esParseL4 a.p a.cap q.2 q.1).exec t)
        ((esParseVlans b.p b.cap b.end_ 2 14 type >>= fun r => do
          update fun t => { t with ethertype := r.2 }
          exitIf (esVlan r.2) .unsupported
          let q ← esParseNet b.p b.cap b.end_ r.1 r.2
          esParseL4 b.p b.cap q.2 q.1).exec t) := by
    apply Follows.bind (follows_esParseVlans l 2 14 type t hP ht)
    apply ((l.reaches 2 14 type t hP).and (grows_esParseVlans b.p _ _ 2 14 type t ht)).mono
    · intro r t' hr
      obtain ⟨hPr, -, ht'⟩ := hr
      have hext : t'.Extends { t' with ethertype := r.2 } := .setEthertype ht'.ethertype r.2
      have hgrow : Grows EsTuple.Extends (do
          update fun t => { t with ethertype := r.2 }
          exitIf (esVlan r.2) .unsupported
          let q ← esParseNet b.p b.cap b.end_ r.1 r.2
          esParseL4 b.p b.cap q.2 q.1) t' := by
        unfold Grows
        rw [wp_bind, wp_update, wp_bind, wp_exitIf]
        refine ⟨fun _ => hext, fun _ => ?_⟩
        exact (grows_netL4 b (t := { t' with ethertype := r.2 }) ht'.flags).mono
          (fun _ _ h => hext.trans h) fun _ _ h => hext.trans h
      refine ⟨hgrow, ?_⟩
      simp only [exec_update_bind, exec_exitIf_bind]
      by_cases hv : esVlan r.2
      · rw [if_pos hv, if_pos hv]
        exact .refl _
      · rw [if_neg hv, if_neg hv]
        exact (hnet r.1 r.2 hPr hv).follows (t := { t' with ethertype := r.2 }) ht'.flags
    · exact fun _ _ _ => trivial
  simp only [esParseBody, Parse.exec_need_bind, Parse.exec_esBe16_bind, exec_update_bind]
  apply m.follows (EsTuple.Extends.zero _)
  intro hsame _ _
  have htype : Bytes.word16 (a.p.get 12) (a.p.get (12 + 1)) =
      Bytes.word16 (b.p.get 12) (b.p.get (12 + 1)) := by
    have := hsame.word 12 (by decide)
    simpa using this
  rw [htype]
  cases strippedVlan with
  | true =>
      simp only [if_true, Parse.exec_pushVlan_bind]
      exact rest _ ⟨rfl, rfl⟩ _ h0
  | false => exact rest _ ⟨rfl, rfl⟩ _ h0

end Body

end ElephantShrew.Bpf
