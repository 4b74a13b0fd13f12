import ElephantShrew.Bpf.FrameGrammar
import ElephantShrew.Bpf.ParserRules

/-!
# The stages of the parser against the grammar

Each stage of the parser is paired with the part of the grammar it reads, in
both directions.  `_accepts`: where that part of a header stands in the buffer
and lies within both bounds, the stage succeeds, with the offsets and the
tuple the grammar prescribes.  `_decodes`: where the stage succeeds, some such
part stands in the buffer.

The two bounds play different roles.  `end_` limits what the length fields may
claim, `cap` what may be read; a header is accepted when it fits both.
-/

namespace ElephantShrew.Bpf

open ElephantShrew.Verified
open ElephantShrew.Verified.ExitM

/-! ## Small arithmetic of the header bytes -/

theorem toNat_shiftRight_four (b : UInt8) : (b >>> 4).toNat = b.toNat / 16 := by
  simp [UInt8.toNat_shiftRight, Nat.shiftRight_eq_div_pow]

theorem toNat_ihl (b : UInt8) : ((b &&& 0x0f).toUInt32 * 4).toNat = 4 * (b.toNat % 16) := by
  have h := b.toNat_lt
  simp [Nat.and_two_pow_sub_one_eq_mod _ 4]
  omega

theorem toNat_hlen (b : UInt8) : ((b >>> 4).toUInt32 * 4).toNat = 4 * (b.toNat / 16) := by
  have h := b.toNat_lt
  rw [UInt32.toNat_mul, UInt8.toNat_toUInt32, toNat_shiftRight_four]
  simp only [UInt32.reduceToNat]
  omega

theorem toNat_extLen (kind n : UInt8) :
    (if kind = 51 then (n.toUInt32 + 2) * 4 else (n.toUInt32 + 1) * 8).toNat =
      extSize kind n := by
  have := n.toNat_lt
  unfold extSize
  split <;> simp [UInt32.toNat_add, UInt32.toNat_mul] <;> omega

theorem extSize_pos (kind n : UInt8) : 8 ≤ extSize kind n := by
  unfold extSize
  split <;> omega

theorem frag_eq_zero_iff (w : UInt16) :
    w &&& 0x3fff = 0 ↔ w &&& 0x2000 = 0 ∧ w &&& 0x1fff = 0 := by
  simp only [← UInt16.toNat_inj, UInt16.toNat_and, UInt16.reduceToNat]
  rw [show (16383 : Nat) = 8192 ||| 8191 by decide, Nat.and_or_distrib_left, Nat.or_eq_zero_iff]

/-- Offsets add exactly while they stay within a bound. -/
theorem toNat_add_of_le {a b : UInt32} (bound : UInt32) (h : a.toNat + b.toNat ≤ bound.toNat) :
    (a + b).toNat = a.toNat + b.toNat := by
  have := bound.toNat_lt
  rw [UInt32.toNat_add]
  omega

/-- The same for a literal, whose value is `n`. -/
theorem toNat_add_const {a k : UInt32} {n : Nat} (bound : UInt32) (hk : k.toNat = n)
    (h : a.toNat + n ≤ bound.toNat) : (a + k).toNat = a.toNat + n := by
  rw [← hk] at h ⊢
  exact toNat_add_of_le bound h

theorem toNat_sub_of_le' {a b : UInt32} (h : b.toNat ≤ a.toNat) :
    (a - b).toNat = a.toNat - b.toNat :=
  UInt32.toNat_sub_of_le a b (UInt32.le_iff_toNat_le.mpr h)

/-! ## VLAN tags -/

/-- The type word in front of the tags still to be read. -/
def firstType : List VlanTag → UInt16 → UInt16
  | [], inner => inner
  | tag :: _, _ => tag.tpid

theorem firstType_of_at {p : Bytes} {o : Nat} {tags : List VlanTag} {inner : UInt16}
    (h : p.At o (encodeTags tags inner)) :
    Bytes.word16 (p.get o) (p.get (o + 1)) = firstType tags inner := by
  cases tags with
  | nil => exact (Bytes.at_be16_iff p o inner).mp h
  | cons tag tags =>
      simp only [encodeTags, Bytes.at_append, Bytes.at_be16_iff] at h
      exact h.1.1

/-- The tuple after the ids of `tags` have been stored. -/
def EsTuple.pushTags (t : EsTuple) (tags : List VlanTag) : EsTuple :=
  (tags.map fun tag => vidOf tag.tci).foldl EsTuple.pushVlan t

theorem toNat_vlanCount_succ {c : UInt8} (h : c.toNat < 2) : (c + 1).toNat = c.toNat + 1 := by
  rw [UInt8.toNat_add]
  simp only [UInt8.reduceToNat]
  omega

theorem vlanCount_ge_two_iff (c : UInt8) : c ≥ 2 ↔ 2 ≤ c.toNat := by
  simp [UInt8.le_iff_toNat_le]

theorem esParseVlans_accepts (p : Bytes) (cap end_ : UInt32) {inner : UInt16}
    (hinner : ¬ esVlan inner) :
    ∀ (tags : List VlanTag) (n o : Nat) (off : UInt32) (t : EsTuple),
      tags.length ≤ n → off.toNat = o + 2 → t.vlanCount.toNat + tags.length ≤ 2 →
      p.At o (encodeTags tags inner) →
      off.toNat + 4 * tags.length ≤ cap.toNat → off.toNat + 4 * tags.length ≤ end_.toNat →
      Wp (esParseVlans p cap end_ n off (firstType tags inner))
        (fun r t' => r.1.toNat = off.toNat + 4 * tags.length ∧ r.2 = inner ∧ t' = t.pushTags tags)
        (fun _ _ => False) t := by
  intro tags
  induction tags with
  | nil =>
      intro n o off t _ _ _ _ _ _
      cases n with
      | zero => exact ⟨by simp, rfl, rfl⟩
      | succ n =>
          show Wp (esParseVlans p cap end_ (n + 1) off inner) _ _ t
          simp only [esParseVlans, wp_ite, wp_pure]
          exact ⟨fun _ => ⟨by simp, trivial, rfl⟩, fun h => absurd hinner h⟩
  | cons tag tags ih =>
      intro n o off t hn ho hcount hat hcap hend
      simp only [List.length_cons] at hn hcount hcap hend
      obtain ⟨n, rfl⟩ : ∃ m, n = m + 1 := ⟨n - 1, by omega⟩
      have hat' := hat
      simp only [encodeTags, Bytes.at_append, Bytes.at_be16_iff, List.length_append,
        Bytes.length_be16] at hat
      obtain ⟨⟨-, htci⟩, hrest⟩ := hat
      have htype := firstType_of_at hrest
      have hnext : (off + 4).toNat = o + 4 + 2 := by
        rw [toNat_add_of_le end_] <;> simp only [UInt32.reduceToNat] <;> omega
      show Wp (esParseVlans p cap end_ (n + 1) off tag.tpid) _ _ t
      simp only [esParseVlans, wp_ite, wp_bind, wp_state, wp_exitIf, wp_pure,
        Parse.wp_need, Parse.wp_esBe16, Parse.wp_pushVlan, Parse.wp_add32]
      refine ⟨fun h => absurd tag.isTag h, ?_⟩
      intro _
      refine ⟨fun htwo => ?_, ?_⟩
      · rw [vlanCount_ge_two_iff] at htwo
        omega
      intro _
      have h4 : off.toNat + (4 : UInt32).toNat = off.toNat + 4 := rfl
      apply Parse.need_pass (by omega) (by omega)
      have hroom : (t.vlanCount + 1).toNat + tags.length ≤ 2 := by
        rw [toNat_vlanCount_succ (by omega)]
        omega
      have key := ih n (o + 4) (off + 4) (t.pushVlan (vidOf tag.tci)) (by omega) hnext hroom
        hrest (by omega) (by omega)
      rw [ho, htci, show o + 2 + 2 = o + (2 + 2) by omega, htype]
      apply key.mono
      · intro r t' hr
        refine ⟨?_, hr.2.1, hr.2.2⟩
        rw [hr.1, hnext, List.length_cons]
        omega
      · exact fun _ _ h => h

theorem esParseVlans_decodes (p : Bytes) (cap end_ : UInt32) (n : Nat) :
    ∀ (o : Nat) (off : UInt32) (type : UInt16) (t : EsTuple),
      off.toNat = o + 2 → Bytes.word16 (p.get o) (p.get (o + 1)) = type →
      t.vlanCount.toNat ≤ 2 → off.toNat ≤ cap.toNat → off.toNat ≤ end_.toNat →
      Wp (esParseVlans p cap end_ n off type)
        (fun r t' => ∃ tags : List VlanTag,
          p.At o (encodeTags tags r.2) ∧ r.1.toNat = off.toNat + 4 * tags.length ∧
          t.vlanCount.toNat + tags.length ≤ 2 ∧ r.1.toNat ≤ cap.toNat ∧ r.1.toNat ≤ end_.toNat ∧
          t' = t.pushTags tags)
        (fun status _ => status ≠ .ok) t := by
  induction n with
  | zero =>
      intro o off type t _ htype hcount hcap hend
      exact ⟨[], (Bytes.at_be16_iff p o type).mpr htype, by simp, by simpa using hcount,
        hcap, hend, rfl⟩
  | succ n ih =>
      intro o off type t ho htype hcount hcap hend
      simp only [esParseVlans, wp_ite, wp_bind, wp_state, wp_exitIf, wp_pure, Parse.wp_need,
        Parse.wp_esBe16, Parse.wp_pushVlan, Parse.wp_add32]
      constructor
      · intro _
        exact ⟨[], (Bytes.at_be16_iff p o type).mpr htype, by simp, by simpa using hcount,
          hcap, hend, rfl⟩
      intro hv
      refine ⟨fun _ => by decide, ?_⟩
      intro hc
      rw [vlanCount_ge_two_iff] at hc
      apply Parse.need_bounds id
      intro hfits hread
      simp only [UInt32.reduceToNat] at hfits hread
      have hnext : (off + 4).toNat = off.toNat + 4 :=
        toNat_add_const end_ rfl (by omega)
      have hcount' : (t.vlanCount + 1).toNat = t.vlanCount.toNat + 1 :=
        toNat_vlanCount_succ (by omega)
      have hroom : (t.vlanCount + 1).toNat ≤ 2 := by omega
      have hword : o + 2 + 2 = o + 4 := by omega
      rw [ho, hword]
      apply (ih (o + 4) (off + 4) _ (t.pushVlan _) (by omega) rfl hroom (by omega) (by omega)).mono
      · rintro r t' ⟨tags, hat, hr, hle, hrcap, hrend, rfl⟩
        have htag : esVlan type := not_not.mp hv
        let tag : VlanTag := ⟨type, Bytes.word16 (p.get (o + 2)) (p.get (o + 2 + 1)), htag⟩
        refine ⟨tag :: tags, ?_, ?_, ?_, hrcap, hrend, rfl⟩
        · simp only [encodeTags, Bytes.at_append, Bytes.at_be16_iff, List.length_append,
            Bytes.length_be16]
          exact ⟨⟨htype, rfl⟩, hat⟩
        · rw [hr, hnext, List.length_cons]
          omega
        · have hle' : (t.vlanCount + 1).toNat + tags.length ≤ 2 := hle
          rw [List.length_cons]
          omega
      · exact fun _ _ h => h

/-! ## IPv4 -/

/-- The tuple after the network header has been read. -/
def EsTuple.withNet (t : EsTuple) (net : Net) (proto : UInt8) : EsTuple :=
  { t with
    src := net.src, dst := net.dst
    ipVersion := net.ipVersion, l4Proto := proto }.setFlag esTAddrValid

theorem copyInto_widen (p : Bytes) (i : Nat) :
    Bytes.copyInto (Vector.replicate 16 0) p i 4 = Net.widen (p.vec i 4) := by
  ext k hk
  simp only [Bytes.getElem_copyInto, Net.widen, Vector.getElem_ofFn, Bytes.getElem_vec,
    Vector.getElem_replicate]
  split <;> rfl

/-- Where the fields of an IPv4 header stand. -/
theorem Ipv4Header.at_encode_iff (h : Ipv4Header) (p : Bytes) (o : Nat) (total : UInt16)
    (proto : UInt8) :
    p.At o (h.encode total proto) ↔
      p.get o = h.versionIhl ∧ p.get (o + 1) = h.tos ∧
      Bytes.word16 (p.get (o + 2)) (p.get (o + 3)) = total ∧
      Bytes.word16 (p.get (o + 4)) (p.get (o + 5)) = h.ident ∧
      Bytes.word16 (p.get (o + 6)) (p.get (o + 7)) = h.fragment ∧
      p.get (o + 8) = h.ttl ∧ p.get (o + 9) = proto ∧
      Bytes.word16 (p.get (o + 10)) (p.get (o + 11)) = h.checksum ∧
      p.vec (o + 12) 4 = h.src ∧ p.vec (o + 16) 4 = h.dst ∧ p.At (o + 20) h.options := by
  simp only [encode, Bytes.at_append, Bytes.at_cons, Bytes.at_nil, Bytes.at_be16_iff,
    Bytes.at_toList_iff, List.length_append, List.length_cons, List.length_nil,
    Bytes.length_be16, Vector.length_toList, Nat.add_assoc, Nat.reduceAdd, and_assoc, true_and]

section Ipv4

variable {p : Bytes} {cap end_ off : UInt32} {t : EsTuple}

theorem esParseIpv4_accepts {h : Ipv4Header} {total : UInt16} {proto : UInt8}
    (hsrc : t.src = EsTuple.zero.src) (hdst : t.dst = EsTuple.zero.dst)
    (hat : p.At off.toNat (h.encode total proto)) (hsize : h.size ≤ total.toNat)
    (hcap : off.toNat + h.size ≤ cap.toNat) (hend : off.toNat + total.toNat ≤ end_.toNat) :
    Wp (esParseIpv4 p cap end_ off)
      (fun r t' => r.1.toNat = off.toNat + h.size ∧ r.2.toNat = off.toNat + total.toNat ∧
        t' = t.withNet (.ipv4 h total) proto)
      (fun _ _ => False) t := by
  obtain ⟨hvi, -, htot, -, hfrag, -, hproto, -, hs, hd, -⟩ :=
    (h.at_encode_iff p off.toNat total proto).mp hat
  have hihl := h.ihl_ge
  have hver : h.versionIhl >>> 4 = 4 := by
    rw [← UInt8.toNat_inj, toNat_shiftRight_four, h.version]
    rfl
  have hnine : (off + 9).toNat = off.toNat + 9 :=
    toNat_add_of_le end_ (by simp only [UInt32.reduceToNat, Ipv4Header.size] at *; omega)
  have hsum : (off + total.toUInt32).toNat = off.toNat + total.toNat :=
    toNat_add_of_le end_ (by simpa using hend)
  have hl4 : (off + (h.versionIhl &&& 0x0f).toUInt32 * 4).toNat = off.toNat + h.size := by
    rw [toNat_add_of_le end_ (by rw [toNat_ihl, ← Ipv4Header.size]; omega), toNat_ihl,
      Ipv4Header.size]
  simp only [esParseIpv4, wp_bind, wp_exitIf, wp_update, wp_exit, wp_pure, wp_ite,
    Parse.wp_need, Parse.wp_esBe16, Parse.wp_load, Parse.wp_add32, Parse.wp_sub32,
    Parse.wp_memcpy, hvi, hver, htot, hfrag, hnine, hproto]
  have h20 : off.toNat + (20 : UInt32).toNat ≤ off.toNat + h.size := by
    simp only [UInt32.reduceToNat, Ipv4Header.size]
    omega
  apply Parse.need_pass (by omega) (by omega)
  refine ⟨fun hn => hn rfl, ?_⟩
  intro _
  constructor
  · intro hbad
    simp only [GT.gt, UInt32.lt_iff_toNat_lt, toNat_ihl, UInt32.reduceToNat,
      UInt16.toNat_toUInt32, toNat_sub_of_le' (show off.toNat ≤ end_.toNat by omega)] at hbad
    simp only [Ipv4Header.size] at hsize
    omega
  intro _
  have hihl4 : ((h.versionIhl &&& 0x0f).toUInt32 * 4).toNat = h.size := by
    rw [toNat_ihl, ← Ipv4Header.size]
  apply Parse.need_pass (by omega) (by omega)
  constructor
  · intro hn
    exact hn ((frag_eq_zero_iff _).mpr ⟨h.noMoreFragments, h.noOffset⟩)
  intro _
  refine ⟨hl4, hsum, ?_⟩
  simp only [EsTuple.withNet, Net.src, Net.dst, Net.ipVersion, hsrc, hdst, EsTuple.zero,
    copyInto_widen, hs, hd]

theorem esParseIpv4_decodes (hsrc : t.src = EsTuple.zero.src) (hdst : t.dst = EsTuple.zero.dst) :
    Wp (esParseIpv4 p cap end_ off)
      (fun r t' => ∃ (h : Ipv4Header) (total : UInt16) (proto : UInt8),
        p.At off.toNat (h.encode total proto) ∧ r.1.toNat = off.toNat + h.size ∧
        r.2.toNat = off.toNat + total.toNat ∧ h.size ≤ total.toNat ∧
        r.1.toNat ≤ cap.toNat ∧ r.2.toNat ≤ end_.toNat ∧ t' = t.withNet (.ipv4 h total) proto)
      (fun status _ => status ≠ .ok) t := by
  simp only [esParseIpv4, wp_bind, wp_exitIf, wp_update, wp_exit, wp_pure, wp_ite,
    Parse.wp_need, Parse.wp_esBe16, Parse.wp_load, Parse.wp_add32, Parse.wp_sub32,
    Parse.wp_memcpy]
  apply Parse.need_bounds id
  intro hfits hread
  refine ⟨fun _ => by decide, ?_⟩
  intro hver
  refine ⟨fun _ => by decide, ?_⟩
  intro hlen
  apply Parse.need_bounds id
  intro hfits' hread'
  refine ⟨fun _ => by decide, ?_⟩
  intro hfrag
  simp only [UInt32.reduceToNat] at hfits hread
  generalize htot : Bytes.word16 (p.get (off.toNat + 2)) (p.get (off.toNat + 2 + 1)) = total at *
  simp only [not_or, GT.gt, UInt32.lt_iff_toNat_lt, toNat_ihl, UInt32.reduceToNat,
    UInt16.toNat_toUInt32, toNat_sub_of_le' (show off.toNat ≤ end_.toNat by omega)] at hlen
  have hsum : (off + total.toUInt32).toNat = off.toNat + total.toNat := by
    rw [toNat_add_of_le end_, UInt16.toNat_toUInt32]
    rw [UInt16.toNat_toUInt32]
    omega
  rw [toNat_ihl] at hfits' hread'
  rw [hsum] at hfits'
  have hnine : (off + 9).toNat = off.toNat + 9 :=
    toNat_add_const end_ rfl (by omega)
  have hl4 : (off + (p.get off.toNat &&& 0x0f).toUInt32 * 4).toNat =
      off.toNat + 4 * ((p.get off.toNat).toNat % 16) := by
    rw [toNat_add_of_le end_, toNat_ihl]
    rw [toNat_ihl]
    omega
  have hversion : (p.get off.toNat).toNat / 16 = 4 := by
    rw [← toNat_shiftRight_four, not_not.mp hver]
    rfl
  have hmask := (frag_eq_zero_iff _).mp (not_not.mp hfrag)
  -- the header is read off the buffer field by field
  let h : Ipv4Header :=
    { versionIhl := p.get off.toNat
      tos := p.get (off.toNat + 1)
      ident := Bytes.word16 (p.get (off.toNat + 4)) (p.get (off.toNat + 5))
      fragment := Bytes.word16 (p.get (off.toNat + 6)) (p.get (off.toNat + 7))
      ttl := p.get (off.toNat + 8)
      checksum := Bytes.word16 (p.get (off.toNat + 10)) (p.get (off.toNat + 11))
      src := p.vec (off.toNat + 12) 4
      dst := p.vec (off.toNat + 16) 4
      options := p.slice (off.toNat + 20) (4 * ((p.get off.toNat).toNat % 16) - 20)
      version := hversion
      ihl_ge := by omega
      optionsLength := Bytes.length_slice _ _ _
      noMoreFragments := hmask.1
      noOffset := hmask.2 }
  refine ⟨h, total, p.get (off.toNat + 9), ?_, hl4, hsum, ?_, ?_, ?_, ?_⟩
  · rw [Ipv4Header.at_encode_iff]
    exact ⟨rfl, rfl, htot, rfl, rfl, rfl, rfl, rfl, rfl, rfl, Bytes.at_slice _ _ _⟩
  · show 4 * ((p.get off.toNat).toNat % 16) ≤ total.toNat
    omega
  · rw [hl4]
    omega
  · rw [hsum]
    omega
  · simp only [EsTuple.withNet, Net.src, Net.dst, Net.ipVersion, hsrc, hdst, EsTuple.zero,
      copyInto_widen, hnine, h]

end Ipv4

/-! ## IPv6 and its extension headers -/

theorem esParseExts_accepts (p : Bytes) (cap end_ : UInt32) {proto : UInt8}
    (hproto : ¬ esExt proto) :
    ∀ (exts : List Ext) (n : Nat) (off : UInt32) (t : EsTuple),
      exts.length ≤ n → p.At off.toNat (encodeExts exts proto) →
      off.toNat + extsSize exts ≤ cap.toNat → off.toNat + extsSize exts ≤ end_.toNat →
      Wp (esParseExts p cap end_ n off (chainKind exts proto))
        (fun r t' => r.1.toNat = off.toNat + extsSize exts ∧ r.2 = proto ∧ t' = t)
        (fun _ _ => False) t := by
  intro exts
  induction exts with
  | nil =>
      intro n off t _ _ _ _
      cases n with
      | zero => exact ⟨rfl, rfl, rfl⟩
      | succ n =>
          show Wp (esParseExts p cap end_ (n + 1) off proto) _ _ t
          simp only [esParseExts, wp_ite, wp_pure]
          exact ⟨fun _ => ⟨rfl, trivial, trivial⟩, fun h => absurd hproto h⟩
  | cons ext exts ih =>
      intro n off t hn hat hcap hend
      simp only [List.length_cons, extsSize] at hn hcap hend
      obtain ⟨n, rfl⟩ : ∃ m, n = m + 1 := ⟨n - 1, by omega⟩
      have hbody := ext.bodyLength
      have hpos := extSize_pos ext.kind ext.len
      simp only [encodeExts, Bytes.at_append, Bytes.at_cons, Bytes.at_nil, List.length_append,
        List.length_cons, List.length_nil, and_true] at hat
      obtain ⟨⟨⟨hkind, hlen⟩, -⟩, hrest⟩ := hat
      have hext : esExt ext.kind := by
        rcases ext.isExt with h | h | h | h <;> simp [esExt, h]
      have h44 : ext.kind ≠ 44 := by
        rcases ext.isExt with h | h | h | h <;> simp [h]
      have hone : (off + 1).toNat = off.toNat + 1 :=
        toNat_add_const end_ rfl (by omega)
      show Wp (esParseExts p cap end_ (n + 1) off ext.kind) _ _ t
      simp only [esParseExts, wp_ite, wp_bind, wp_exitIf, wp_pure, wp_update, wp_exit,
        Parse.wp_need, Parse.wp_load, Parse.wp_add32, hone, hlen, hkind]
      have hsize := toNat_extLen ext.kind ext.len
      generalize (if ext.kind = 51 then (ext.len.toUInt32 + 2) * 4
        else (ext.len.toUInt32 + 1) * 8) = extLen at hsize ⊢
      have hnext : (off + extLen).toNat = off.toNat + extSize ext.kind ext.len := by
        rw [toNat_add_of_le end_, hsize]
        omega
      refine ⟨fun h => absurd hext h, ?_⟩
      intro _
      have h2 : off.toNat + (2 : UInt32).toNat = off.toNat + 2 := rfl
      apply Parse.need_pass (by omega) (by omega)
      refine ⟨fun h => absurd h h44, ?_⟩
      intro _
      constructor
      · intro hshort
        simp only [UInt32.lt_iff_toNat_lt, UInt32.reduceToNat] at hshort
        omega
      intro _
      apply Parse.need_pass (by omega) (by omega)
      have hchain : p.At (off + extLen).toNat (encodeExts exts proto) := by
        rw [hnext, ← hbody, show off.toNat + (ext.body.length + 2) =
          off.toNat + (0 + 1 + 1 + ext.body.length) by omega]
        exact hrest
      apply (ih n (off + extLen) t (by omega) hchain (by omega) (by omega)).mono
      · intro r t' hr
        refine ⟨?_, hr.2.1, hr.2.2⟩
        rw [hr.1, hnext, extsSize]
        omega
      · exact fun _ _ h => h

theorem esParseExts_decodes (p : Bytes) (cap end_ : UInt32) (n : Nat) :
    ∀ (off : UInt32) (next : UInt8) (t : EsTuple),
      off.toNat ≤ cap.toNat → off.toNat ≤ end_.toNat →
      Wp (esParseExts p cap end_ n off next)
        (fun r t' => ∃ exts : List Ext, exts.length ≤ n ∧ next = chainKind exts r.2 ∧
          p.At off.toNat (encodeExts exts r.2) ∧ r.1.toNat = off.toNat + extsSize exts ∧
          r.1.toNat ≤ cap.toNat ∧ r.1.toNat ≤ end_.toNat ∧ t' = t)
        (fun status _ => status ≠ .ok) t := by
  induction n with
  | zero =>
      intro off next t hcap hend
      exact ⟨[], by simp, rfl, rfl, rfl, hcap, hend, rfl⟩
  | succ n ih =>
      intro off next t hcap hend
      simp only [esParseExts, wp_ite, wp_bind, wp_exitIf, wp_pure, wp_update, wp_exit,
        Parse.wp_need, Parse.wp_load, Parse.wp_add32]
      constructor
      · intro _
        exact ⟨[], by simp, rfl, rfl, rfl, hcap, hend, trivial⟩
      intro hext
      apply Parse.need_bounds id
      intro hfits hread
      -- the fragment header never leads to success
      refine ⟨fun _ => ⟨id, fun _ => by decide⟩, ?_⟩
      intro h44
      refine ⟨fun _ => by decide, ?_⟩
      intro _
      apply Parse.need_bounds id
      intro hfits' hread'
      have hsize := toNat_extLen next (p.get (off + 1).toNat)
      generalize (if next = 51 then ((p.get (off + 1).toNat).toUInt32 + 2) * 4
        else ((p.get (off + 1).toNat).toUInt32 + 1) * 8) = extLen at hsize hfits' hread' ⊢
      simp only [UInt32.reduceToNat] at hfits hread
      have hone : (off + 1).toNat = off.toNat + 1 :=
        toNat_add_const end_ rfl (by omega)
      have hnext : (off + extLen).toNat = off.toNat + extLen.toNat :=
        toNat_add_of_le end_ hfits'
      refine (ih (off + extLen) (p.get off.toNat) t (by omega) (by omega)).mono ?_ fun _ _ h => h
      rintro r t' ⟨exts, hlen, hchain, hat, hr, hrcap, hrend, rfl⟩
      have hpos := extSize_pos next (p.get (off.toNat + 1))
      rw [hone] at hsize
      have hkind : next = 0 ∨ next = 43 ∨ next = 60 ∨ next = 51 := by
        have h := not_not.mp hext
        simp only [esExt, h44, or_false] at h
        exact h
      let ext : Ext :=
        { kind := next
          len := p.get (off.toNat + 1)
          body := p.slice (off.toNat + 2) (extSize next (p.get (off.toNat + 1)) - 2)
          isExt := hkind
          bodyLength := by
            rw [Bytes.length_slice]
            omega }
      refine ⟨ext :: exts, by simpa using hlen, rfl, ?_, ?_, hrcap, hrend, rfl⟩
      · have hbody := ext.bodyLength
        simp only [encodeExts, Bytes.at_append, Bytes.at_cons, Bytes.at_nil, List.length_append,
          List.length_cons, List.length_nil, and_true, Nat.zero_add, Nat.reduceAdd]
        refine ⟨⟨⟨hchain, rfl⟩, Bytes.at_slice _ _ _⟩, ?_⟩
        have hoff : off.toNat + (2 + ext.body.length) = (off + extLen).toNat := by
          rw [hnext, hsize, ← hbody]
          omega
        rw [hoff]
        exact hat
      · show r.1.toNat =
          off.toNat + (extSize next (p.get (off.toNat + 1)) + extsSize exts)
        rw [hr, hnext, hsize]
        omega

/-- Where the fields of an IPv6 header stand. -/
theorem Ipv6Header.at_encode_iff (h : Ipv6Header) (p : Bytes) (o : Nat) (payload : UInt16)
    (proto : UInt8) :
    p.At o (h.encode payload proto) ↔
      p.vec o 4 = h.word ∧ Bytes.word16 (p.get (o + 4)) (p.get (o + 5)) = payload ∧
      p.get (o + 6) = chainKind h.exts proto ∧ p.get (o + 7) = h.hopLimit ∧
      p.vec (o + 8) 16 = h.src ∧ p.vec (o + 24) 16 = h.dst ∧
      p.At (o + 40) (encodeExts h.exts proto) := by
  simp only [encode, Bytes.at_append, Bytes.at_cons, Bytes.at_nil, Bytes.at_be16_iff,
    Bytes.at_toList_iff, List.length_append, List.length_cons, List.length_nil,
    Bytes.length_be16, Vector.length_toList, Nat.add_assoc, Nat.reduceAdd, and_assoc, true_and]

section Ipv6

variable {p : Bytes} {cap end_ off : UInt32} {t : EsTuple}

theorem esParseIpv6_accepts {h : Ipv6Header} {payload : UInt16} {proto : UInt8}
    (hproto : ¬ esExt proto ∧ proto ≠ 50)
    (hat : p.At off.toNat (h.encode payload proto)) (hpos : 0 < payload.toNat)
    (hsize : h.size ≤ 40 + payload.toNat)
    (hcap : off.toNat + h.size ≤ cap.toNat)
    (hend : off.toNat + (40 + payload.toNat) ≤ end_.toNat) :
    Wp (esParseIpv6 p cap end_ off)
      (fun r t' => r.1.toNat = off.toNat + h.size ∧
        r.2.toNat = off.toNat + (40 + payload.toNat) ∧
        t' = t.withNet (.ipv6 h payload) proto)
      (fun _ _ => False) t := by
  obtain ⟨hw, hpay, hchain, -, hs, hd, hexts⟩ := (h.at_encode_iff p off.toNat payload proto).mp hat
  have hver : p.get off.toNat >>> 4 = 6 := by
    have hfirst := Bytes.get_of_vec (i := 0) hw (by decide)
    rw [Nat.add_zero] at hfirst
    rw [← UInt8.toNat_inj, toNat_shiftRight_four, hfirst, h.version]
    rfl
  have h40 : (off + 40).toNat = off.toNat + 40 :=
    toNat_add_const end_ rfl (by omega)
  have hsix : (off + 6).toNat = off.toNat + 6 :=
    toNat_add_const end_ rfl (by omega)
  have hsum : (off + 40 + payload.toUInt32).toNat = off.toNat + (40 + payload.toNat) := by
    rw [toNat_add_of_le end_, h40, UInt16.toNat_toUInt32]
    · omega
    · rw [h40, UInt16.toNat_toUInt32]
      omega
  have hroom : (end_ - off - 40).toNat = end_.toNat - off.toNat - 40 := by
    have hsub := toNat_sub_of_le' (show off.toNat ≤ end_.toNat by omega)
    rw [toNat_sub_of_le', hsub]
    · rfl
    · rw [hsub]
      simp only [UInt32.reduceToNat]
      omega
  simp only [Ipv6Header.size] at hcap hsize
  simp only [esParseIpv6, wp_bind, wp_exitIf, wp_update, wp_pure,
    Parse.wp_need, Parse.wp_esBe16, Parse.wp_load, Parse.wp_add32, Parse.wp_sub32,
    Parse.wp_memcpy, hver, hpay, hsix, hchain, Bytes.copyInto_self, hs, hd]
  have hbase : off.toNat + (40 : UInt32).toNat = off.toNat + 40 := rfl
  apply Parse.need_pass (by omega) (by omega)
  refine ⟨fun hn => hn rfl, ?_⟩
  intro _
  constructor
  · intro hzero
    rw [← UInt32.toNat_inj, UInt16.toNat_toUInt32] at hzero
    simp only [UInt32.reduceToNat] at hzero
    omega
  intro _
  constructor
  · intro hbad
    simp only [GT.gt, UInt32.lt_iff_toNat_lt, hroom, UInt16.toNat_toUInt32] at hbad
    omega
  intro _
  rw [← h40] at hexts
  apply (esParseExts_accepts p cap _ hproto.1 h.exts 4 (off + 40) _ h.atMostFour hexts
    (by omega) (by omega)).mono
  · rintro r t' ⟨hr, hnext, rfl⟩
    rw [hnext]
    refine ⟨fun hbad => hbad.elim hproto.1 hproto.2, ?_⟩
    intro _
    refine ⟨?_, hsum, rfl⟩
    rw [hr, h40, Ipv6Header.size]
    omega
  · exact fun _ _ h => h

theorem esParseIpv6_decodes :
    Wp (esParseIpv6 p cap end_ off)
      (fun r t' => ∃ (h : Ipv6Header) (payload : UInt16) (proto : UInt8),
        p.At off.toNat (h.encode payload proto) ∧ r.1.toNat = off.toNat + h.size ∧
        r.2.toNat = off.toNat + (40 + payload.toNat) ∧ h.size ≤ 40 + payload.toNat ∧
        r.1.toNat ≤ cap.toNat ∧ r.2.toNat ≤ end_.toNat ∧ t' = t.withNet (.ipv6 h payload) proto)
      (fun status _ => status ≠ .ok) t := by
  simp only [esParseIpv6, wp_bind, wp_exitIf, wp_update, wp_pure,
    Parse.wp_need, Parse.wp_esBe16, Parse.wp_load, Parse.wp_add32, Parse.wp_sub32,
    Parse.wp_memcpy, Bytes.copyInto_self]
  apply Parse.need_bounds id
  intro hfits hread
  refine ⟨fun _ => by decide, ?_⟩
  intro hver
  refine ⟨fun _ => by decide, ?_⟩
  intro _
  refine ⟨fun _ => by decide, ?_⟩
  intro hlen
  simp only [UInt32.reduceToNat] at hfits hread
  generalize hpay : Bytes.word16 (p.get (off.toNat + 4)) (p.get (off.toNat + 4 + 1)) = payload at *
  have hroom : (end_ - off - 40).toNat = end_.toNat - off.toNat - 40 := by
    have hsub := toNat_sub_of_le' (show off.toNat ≤ end_.toNat by omega)
    rw [toNat_sub_of_le', hsub]
    · rfl
    · rw [hsub]
      simp only [UInt32.reduceToNat]
      omega
  simp only [GT.gt, UInt32.lt_iff_toNat_lt, hroom, UInt16.toNat_toUInt32] at hlen
  have h40 : (off + 40).toNat = off.toNat + 40 :=
    toNat_add_const end_ rfl (by omega)
  have hsix : (off + 6).toNat = off.toNat + 6 :=
    toNat_add_const end_ rfl (by omega)
  have hsum : (off + 40 + payload.toUInt32).toNat = off.toNat + (40 + payload.toNat) := by
    rw [toNat_add_of_le end_, h40, UInt16.toNat_toUInt32]
    · omega
    · rw [h40, UInt16.toNat_toUInt32]
      omega
  refine (esParseExts_decodes p cap _ 4 (off + 40) _ _ (by omega) (by omega)).mono ?_
    fun _ _ h => h
  rintro r t' ⟨exts, hfour, hchain, hat, hr, hrcap, hrend, rfl⟩
  refine ⟨fun _ => by decide, ?_⟩
  intro _
  have hversion : (p.vec off.toNat 4)[0].toNat / 16 = 6 := by
    rw [Bytes.getElem_vec, Nat.add_zero, ← toNat_shiftRight_four, not_not.mp hver]
    rfl
  let h : Ipv6Header :=
    { word := p.vec off.toNat 4
      hopLimit := p.get (off.toNat + 7)
      src := p.vec (off.toNat + 8) 16
      dst := p.vec (off.toNat + 24) 16
      exts := exts
      version := hversion
      atMostFour := hfour }
  refine ⟨h, payload, r.2, ?_, ?_, hsum, ?_, hrcap, ?_, rfl⟩
  · rw [Ipv6Header.at_encode_iff]
    rw [hsix] at hchain
    rw [h40] at hat
    exact ⟨rfl, hpay, hchain, rfl, rfl, rfl, hat⟩
  · show r.1.toNat = off.toNat + (40 + extsSize exts)
    rw [hr, h40]
    omega
  · rw [hr, h40, hsum] at hrend
    show 40 + extsSize exts ≤ 40 + payload.toNat
    omega
  · rw [hsum]
    omega

end Ipv6

/-! ## The network layer -/

/-- The outcome is not a success with valid ports. -/
def NotAccepted (status : EsParseStatus) (t : EsTuple) : Prop :=
  ¬ (status = .ok ∧ t.has esTPortsValid)

theorem NotAccepted.of_ne {status : EsParseStatus} {t : EsTuple} (h : status ≠ .ok) :
    NotAccepted status t := fun ha => h ha.1

/-- ARP never leads to ports. -/
theorem esParseArp_decodes (p : Bytes) (cap end_ off : UInt32) {t : EsTuple} (hf : t.flags = 1) :
    Wp (esParseArp p cap end_ off) (fun _ _ => False) NotAccepted t := by
  simp only [esParseArp, wp_bind, wp_exitIf, wp_update, wp_exit, Parse.wp_need,
    Parse.wp_esBe16, Parse.wp_load, Parse.wp_add32, Parse.wp_memcpy]
  -- five checks give up with a failure status, and success comes without ports
  refine ⟨.of_ne, fun _ => ?_⟩
  refine ⟨fun _ => .of_ne (by decide), fun _ => ?_⟩
  refine ⟨fun _ => .of_ne (by decide), fun _ => ?_⟩
  refine ⟨fun _ => .of_ne (by decide), fun _ => ?_⟩
  refine ⟨fun _ => .of_ne (by decide), ?_⟩
  intro _ ha
  simp only [EsTuple.has, EsTuple.setFlag, hf] at ha
  exact absurd ha.2 (by decide)

section Network

variable {p : Bytes} {cap end_ off : UInt32} {t : EsTuple}

theorem esParseNet_accepts {net : Net} {proto : UInt8}
    (hproto : ¬ esExt proto ∧ proto ≠ 50)
    (hsrc : t.src = EsTuple.zero.src) (hdst : t.dst = EsTuple.zero.dst)
    (hat : p.At off.toNat (net.encode proto)) (hroom : net.size + 8 ≤ net.datagram)
    (hcap : off.toNat + net.size ≤ cap.toNat) (hend : off.toNat + net.datagram ≤ end_.toNat) :
    Wp (esParseNet p cap end_ off net.ethertype)
      (fun r t' => r.1.toNat = off.toNat + net.size ∧ r.2.toNat = off.toNat + net.datagram ∧
        t' = t.withNet net proto)
      (fun _ _ => False) t := by
  cases net with
  | ipv4 h total =>
      show Wp (esParseIpv4 p cap end_ off) _ _ t
      exact esParseIpv4_accepts hsrc hdst hat
        (Nat.le_trans (Nat.le_add_right _ 8) hroom) hcap hend
  | ipv6 h payload =>
      show Wp (esParseIpv6 p cap end_ off) _ _ t
      simp only [Net.size, Net.datagram] at hroom
      refine esParseIpv6_accepts hproto hat ?_ (by omega) hcap hend
      simp only [Ipv6Header.size] at hroom
      omega

theorem esParseNet_decodes (type : UInt16) (hf : t.flags = 1)
    (hsrc : t.src = EsTuple.zero.src) (hdst : t.dst = EsTuple.zero.dst) :
    Wp (esParseNet p cap end_ off type)
      (fun r t' => ∃ (net : Net) (proto : UInt8), type = net.ethertype ∧
        p.At off.toNat (net.encode proto) ∧ r.1.toNat = off.toNat + net.size ∧
        r.2.toNat = off.toNat + net.datagram ∧ net.size ≤ net.datagram ∧
        r.1.toNat ≤ cap.toNat ∧ r.2.toNat ≤ end_.toNat ∧ t' = t.withNet net proto)
      NotAccepted t := by
  simp only [esParseNet, wp_ite, wp_exit]
  constructor
  · intro _
    exact (esParseArp_decodes p cap end_ off hf).mono (fun _ _ h => h.elim) fun _ _ h => h
  intro _
  constructor
  · intro h4
    refine (esParseIpv4_decodes hsrc hdst).mono ?_ fun _ _ h => .of_ne h
    rintro r t' ⟨h, total, proto, hat, hr⟩
    exact ⟨.ipv4 h total, proto, h4, hat, hr⟩
  intro _
  constructor
  · intro h6
    refine esParseIpv6_decodes.mono ?_ fun _ _ h => .of_ne h
    rintro r t' ⟨h, payload, proto, hat, hr⟩
    exact ⟨.ipv6 h payload, proto, h6, hat, hr⟩
  · exact fun _ => .of_ne (by decide)

end Network

/-! ## The transport layer -/

/-- The tuple after the ports have been read. -/
def EsTuple.withPorts (t : EsTuple) (l4 : Transport) : EsTuple :=
  { t with sport := l4.sport, dport := l4.dport }.setFlag esTPortsValid

/-- Where the fields of a TCP base header stand. -/
theorem TcpHeader.at_encode_iff (h : TcpHeader) (p : Bytes) (o : Nat) :
    p.At o (Transport.tcp h).encode ↔
      p.vec o 2 = h.sport ∧ p.vec (o + 2) 2 = h.dport ∧ p.vec (o + 4) 8 = h.seqAck ∧
      p.get (o + 12) = h.dataOffset ∧ p.vec (o + 13) 7 = h.rest := by
  simp only [Transport.encode, Bytes.at_append, Bytes.at_cons, Bytes.at_nil,
    Bytes.at_toList_iff, List.length_append, List.length_cons, List.length_nil,
    Vector.length_toList, Nat.reduceAdd, and_assoc, true_and]

/-- Where the fields of a UDP header stand. -/
theorem UdpHeader.at_encode_iff (h : UdpHeader) (p : Bytes) (o : Nat) :
    p.At o (Transport.udp h).encode ↔
      p.vec o 2 = h.sport ∧ p.vec (o + 2) 2 = h.dport ∧
      Bytes.word16 (p.get (o + 4)) (p.get (o + 5)) = h.length ∧ p.vec (o + 6) 2 = h.checksum := by
  simp only [Transport.encode, Bytes.at_append, Bytes.at_be16_iff, Bytes.at_toList_iff,
    List.length_append, Vector.length_toList, Bytes.length_be16, Nat.add_assoc, Nat.reduceAdd,
    and_assoc]

section L4

variable {p : Bytes} {cap end_ l4 : UInt32} {t : EsTuple}

theorem esParseTcp_accepts {h : TcpHeader} (hat : p.At l4.toNat (Transport.tcp h).encode)
    (hfits : (Transport.tcp h).Fits (end_.toNat - l4.toNat))
    (hcap : l4.toNat + 20 ≤ cap.toNat) (hend : l4.toNat + 20 ≤ end_.toNat) :
    Wp (esParseTcp p cap end_ l4) (fun _ t' => t' = t) (fun _ _ => False) t := by
  obtain ⟨-, -, -, hoff, -⟩ := (h.at_encode_iff p l4.toNat).mp hat
  have h12 : (l4 + 12).toNat = l4.toNat + 12 :=
    toNat_add_const end_ rfl (by omega)
  have hsub := toNat_sub_of_le' (show l4.toNat ≤ end_.toNat by omega)
  simp only [Transport.Fits] at hfits
  simp only [esParseTcp, wp_bind, wp_exitIf, Parse.wp_need, Parse.wp_load, Parse.wp_add32,
    Parse.wp_sub32, h12, hoff]
  have h20 : l4.toNat + (20 : UInt32).toNat = l4.toNat + 20 := rfl
  apply Parse.need_pass (by omega) (by omega)
  refine ⟨?_, fun _ => trivial⟩
  intro hbad
  simp only [GT.gt, UInt32.lt_iff_toNat_lt, toNat_hlen, hsub, UInt32.reduceToNat] at hbad
  omega

theorem esParseUdp_accepts {h : UdpHeader} (hat : p.At l4.toNat (Transport.udp h).encode)
    (hfits : (Transport.udp h).Fits (end_.toNat - l4.toNat))
    (hcap : l4.toNat + 8 ≤ cap.toNat) (hend : l4.toNat + 8 ≤ end_.toNat) :
    Wp (esParseUdp p cap end_ l4) (fun _ t' => t' = t) (fun _ _ => False) t := by
  obtain ⟨-, -, hlen, -⟩ := (h.at_encode_iff p l4.toNat).mp hat
  have hsub := toNat_sub_of_le' (show l4.toNat ≤ end_.toNat by omega)
  simp only [Transport.Fits] at hfits
  simp only [esParseUdp, wp_bind, wp_exitIf, Parse.wp_need, Parse.wp_esBe16, Parse.wp_sub32,
    Nat.add_assoc, Nat.reduceAdd, hlen]
  have h8 : l4.toNat + (8 : UInt32).toNat = l4.toNat + 8 := rfl
  apply Parse.need_pass (by omega) (by omega)
  refine ⟨?_, fun _ => trivial⟩
  intro hbad
  simp only [GT.gt, UInt32.lt_iff_toNat_lt, hsub, UInt16.toNat_toUInt32,
    UInt32.reduceToNat] at hbad
  omega

theorem esParseL4_accepts (seg : Transport) (hproto : t.l4Proto = seg.proto)
    (hat : p.At l4.toNat seg.encode) (hfits : seg.Fits (end_.toNat - l4.toNat))
    (hcap : l4.toNat + seg.size ≤ cap.toNat) (hend : l4.toNat + seg.size ≤ end_.toNat) :
    Wp (esParseL4 p cap end_ l4) (fun _ t' => t' = t.withPorts seg) (fun _ _ => False) t := by
  simp only [esParseL4, wp_bind, wp_state, wp_ite, wp_exit, wp_update, Parse.wp_memcpy, hproto,
    Bytes.copyInto_self]
  cases seg with
  | tcp h =>
      refine ⟨?_, fun hn => absurd rfl hn⟩
      intro _
      obtain ⟨hs, hd, -⟩ := (h.at_encode_iff p l4.toNat).mp hat
      refine (esParseTcp_accepts hat hfits hcap hend).mono ?_ fun _ _ h => h
      rintro _ _ rfl
      rw [hs, hd]
      rfl
  | udp h =>
      refine ⟨fun h6 => absurd h6 (by simp [Transport.proto]), ?_⟩
      intro _
      refine ⟨?_, fun hn => absurd rfl hn⟩
      intro _
      obtain ⟨hs, hd, -⟩ := (h.at_encode_iff p l4.toNat).mp hat
      refine (esParseUdp_accepts hat hfits hcap hend).mono ?_ fun _ _ h => h
      rintro _ _ rfl
      rw [hs, hd]
      rfl

theorem esParseL4_decodes (hf : t.flags = 3) :
    Wp (esParseL4 p cap end_ l4)
      (fun _ t' => ∃ seg : Transport, t.l4Proto = seg.proto ∧ p.At l4.toNat seg.encode ∧
        seg.Fits (end_.toNat - l4.toNat) ∧ l4.toNat + seg.size ≤ cap.toNat ∧
        l4.toNat + seg.size ≤ end_.toNat ∧ t' = t.withPorts seg)
      NotAccepted t := by
  simp only [esParseL4, esParseTcp, esParseUdp, wp_bind, wp_state, wp_ite, wp_exitIf, wp_exit,
    wp_update, Parse.wp_need, Parse.wp_esBe16, Parse.wp_load, Parse.wp_add32, Parse.wp_sub32,
    Parse.wp_memcpy, Bytes.copyInto_self]
  constructor
  · intro h6
    apply Parse.need_bounds .of_ne
    intro hfits hread
    refine ⟨fun _ => .of_ne (by decide), ?_⟩
    intro hlen
    simp only [UInt32.reduceToNat] at hfits hread
    have h12 : (l4 + 12).toNat = l4.toNat + 12 :=
      toNat_add_const end_ rfl (by omega)
    have hsub := toNat_sub_of_le' (show l4.toNat ≤ end_.toNat by omega)
    simp only [not_or, GT.gt, UInt32.lt_iff_toNat_lt, toNat_hlen, hsub, h12,
      UInt32.reduceToNat] at hlen
    let h : TcpHeader :=
      ⟨p.vec l4.toNat 2, p.vec (l4.toNat + 2) 2, p.vec (l4.toNat + 4) 8, p.get (l4.toNat + 12),
        p.vec (l4.toNat + 13) 7⟩
    refine ⟨.tcp h, h6, (h.at_encode_iff p l4.toNat).mpr ⟨rfl, rfl, rfl, rfl, rfl⟩, ?_,
      hread, hfits, rfl⟩
    simp only [Transport.Fits, h]
    omega
  intro _
  constructor
  · intro h17
    apply Parse.need_bounds .of_ne
    intro hfits hread
    refine ⟨fun _ => .of_ne (by decide), ?_⟩
    intro hlen
    simp only [UInt32.reduceToNat] at hfits hread
    have hsub := toNat_sub_of_le' (show l4.toNat ≤ end_.toNat by omega)
    simp only [not_or, GT.gt, UInt32.lt_iff_toNat_lt, hsub, UInt16.toNat_toUInt32,
      UInt32.reduceToNat, Nat.add_assoc, Nat.reduceAdd] at hlen
    let h : UdpHeader :=
      ⟨p.vec l4.toNat 2, p.vec (l4.toNat + 2) 2,
        Bytes.word16 (p.get (l4.toNat + 4)) (p.get (l4.toNat + 5)), p.vec (l4.toNat + 6) 2⟩
    refine ⟨.udp h, h17, (h.at_encode_iff p l4.toNat).mpr ⟨rfl, rfl, rfl, rfl⟩, ?_,
      hread, hfits, rfl⟩
    simp only [Transport.Fits, h]
    omega
  · intro _ ha
    simp only [EsTuple.has, hf] at ha
    exact absurd ha.2 (by decide)

end L4

end ElephantShrew.Bpf
