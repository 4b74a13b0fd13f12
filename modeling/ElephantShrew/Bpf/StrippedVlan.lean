import ElephantShrew.Bpf.ParserAccepts
import ElephantShrew.Bpf.ParserShift

/-!
# Stripped and in-band tags

A network card may take the outermost tag off a frame and hand it over beside
the packet.  The parser stores such a tag before its loop and an in-band one in
the first iteration, so behind the tag the two runs are in the same state, four
bytes apart, with one iteration more or less to go.  The iteration left over
only finds tags there is no room for, and both runs reject those.
-/

namespace ElephantShrew.Bpf

open ElephantShrew.Verified
open ElephantShrew.Verified.ExitM

/-- The frame `f` with a tag behind its two MAC addresses. -/
def insertTag (f : Bytes) (tpid tci : UInt16) : Bytes :=
  f.slice 0 12 ++ Bytes.be16 tpid ++ Bytes.be16 tci ++ f.drop 12

/-- Two more tags stand where the inserted one was put. -/
def ExcessTags (f : Bytes) : Prop :=
  esVlan (Bytes.word16 (f.get 12) (f.get 13)) ∧ esVlan (Bytes.word16 (f.get 16) (f.get 17))

instance (f : Bytes) : Decidable (ExcessTags f) := inferInstanceAs (Decidable (_ ∧ _))

section InsertTag

variable (f : Bytes) (tpid tci : UInt16)

theorem insertTag_get {i : Nat} (h : 12 ≤ i) : (insertTag f tpid tci).get (i + 4) = f.get i := by
  have hfront : (f.slice 0 12 ++ Bytes.be16 tpid ++ Bytes.be16 tci).length = 16 := by simp
  have hat : i + 4 - 16 = i - 12 := by omega
  have hback : 12 + (i - 12) = i := by omega
  simp only [insertTag, Bytes.get, List.getD_eq_getElem?_getD]
  rw [List.getElem?_append_right (by rw [hfront]; omega), hfront, hat, List.getElem?_drop, hback]

theorem insertTag_tpid :
    Bytes.word16 ((insertTag f tpid tci).get 12) ((insertTag f tpid tci).get 13) = tpid := by
  have hself := Bytes.at_self (insertTag f tpid tci)
  simp only [insertTag, Bytes.at_append, Bytes.length_slice, Bytes.length_be16,
    List.length_append, Nat.zero_add] at hself
  exact (Bytes.at_be16_iff _ 12 tpid).mp hself.1.1.2

theorem insertTag_tci :
    Bytes.word16 ((insertTag f tpid tci).get 14) ((insertTag f tpid tci).get 15) = tci := by
  have hself := Bytes.at_self (insertTag f tpid tci)
  simp only [insertTag, Bytes.at_append, Bytes.length_slice, Bytes.length_be16,
    List.length_append, Nat.zero_add] at hself
  exact (Bytes.at_be16_iff _ 14 tci).mp hself.1.2

end InsertTag

/-! ## The loops -/

section Loops

variable {a b : View} {o o' : UInt32} {type : UInt16} {t : EsTuple}

/-- What a loop returns: the offset and the type word. -/
def LoopBehind (r r' : UInt32 × UInt16) : Prop :=
  Behind r.1 r'.1 ∧ r.2 = r'.2 ∧ 12 ≤ r.1.toNat

/-- The type word behind a tag at `o`. -/
def nextType (v : View) (o : UInt32) : UInt16 :=
  Bytes.word16 (v.p.get (o.toNat + 2)) (v.p.get (o.toNat + 2 + 1))

/-- One iteration on a tag. -/
theorem exec_esParseVlans_tag (v : View) (n : Nat) (hv : esVlan type)
    (hcount : ¬ t.vlanCount ≥ 2) :
    (esParseVlans v.p v.cap v.end_ (n + 1) o type).exec t =
      if v.need o 4 ≠ .ok then (t, .error (v.need o 4))
      else (esParseVlans v.p v.cap v.end_ n (o + 4) (nextType v o)).exec
        (t.pushVlan (Bytes.word16 (v.p.get o.toNat) (v.p.get (o.toNat + 1)) &&& 0x0fff)) := by
  simp only [esParseVlans, exec_ite, exec_state_bind, exec_exitIf_bind, Parse.exec_need_bind,
    Parse.exec_esBe16_bind, Parse.exec_pushVlan_bind, Parse.exec_add32_bind]
  rw [if_neg (not_not.mpr hv), if_neg hcount]
  rfl

/-- The loop stops at a type that is no tag. -/
theorem exec_esParseVlans_done (v : View) (n : Nat) (hv : ¬ esVlan type) :
    (esParseVlans v.p v.cap v.end_ n o type).exec t = (t, .ok (o, type)) := by
  cases n with
  | zero => rfl
  | succ n =>
      simp only [esParseVlans, exec_ite]
      rw [if_pos hv, exec_pure]

/-- The loop rejects a tag it has no slot for. -/
theorem exec_esParseVlans_full (v : View) (n : Nat) (hv : esVlan type)
    (hcount : t.vlanCount ≥ 2) :
    (esParseVlans v.p v.cap v.end_ (n + 1) o type).exec t = (t, .error .unsupported) := by
  simp only [esParseVlans, exec_ite, exec_state_bind, exec_exitIf_bind]
  rw [if_neg (not_not.mpr hv), if_pos hcount]

/-- One slot is taken.  With two iterations left in one run and one in the
other, four bytes further on, the loops agree; or two more tags follow, the
first run rejects the second of them and the other returns it. -/
theorem esParseVlans_agrees (h : Shifted a b) (ho : Behind o o') (h12 : 12 ≤ o.toNat)
    (hcount : t.vlanCount.toNat = 1) :
    Agrees LoopBehind ((esParseVlans a.p a.cap a.end_ 2 o type).exec t)
        ((esParseVlans b.p b.cap b.end_ 1 o' type).exec t) ∨
      esVlan type ∧ esVlan (nextType a o) ∧ ∃ t',
        (esParseVlans a.p a.cap a.end_ 2 o type).exec t = (t', .error .unsupported) ∧
        (esParseVlans b.p b.cap b.end_ 1 o' type).exec t = (t', .ok (o' + 4, nextType a o)) := by
  by_cases hv : esVlan type
  · have hroom : ¬ t.vlanCount ≥ 2 := by
      rw [vlanCount_ge_two_iff]
      omega
    have hnext : nextType b o' = nextType a o := h.word ho h12 2
    rw [exec_esParseVlans_tag a 1 hv hroom, exec_esParseVlans_tag b 0 hv hroom, hnext,
      h.firstWord ho h12, h.need ho 4]
    by_cases hok : a.need o 4 ≠ .ok
    · rw [if_pos hok, if_pos hok]
      exact Or.inl (.error t _)
    rw [if_neg hok, if_neg hok]
    generalize htci : Bytes.word16 (a.p.get o.toNat) (a.p.get (o.toNat + 1)) &&& 0x0fff = vid
    by_cases hv' : esVlan (nextType a o)
    · right
      have hfull : (t.pushVlan vid).vlanCount ≥ 2 := by
        rw [vlanCount_ge_two_iff, EsTuple.pushVlan, toNat_vlanCount_succ (by omega)]
        omega
      exact ⟨hv, hv', t.pushVlan vid, exec_esParseVlans_full a 0 hv' hfull, rfl⟩
    · left
      have hpass := not_not.mp hok
      rw [exec_esParseVlans_done a 1 hv', exec_esParseVlans_done b 0 hv']
      have hfour : (o + 4).toNat = o.toNat + 4 := View.toNat_add hpass 4 (UInt32.le_refl _)
      refine .ok _ ⟨h.behind_add ho hpass (UInt32.le_refl _), rfl, ?_⟩
      rw [hfour]
      omega
  · left
    rw [exec_esParseVlans_done a 2 hv, exec_esParseVlans_done b 1 hv]
    exact .ok t ⟨ho, rfl, h12⟩

end Loops

/-! ## The whole parser -/

/-- The parser behind its loop over the tags. -/
def esParseRest (v : View) (r : UInt32 × UInt16) : Parse Unit := do
  update fun t => { t with ethertype := r.2 }
  exitIf (esVlan r.2) .unsupported
  let q ← esParseNet v.p v.cap v.end_ r.1 r.2
  esParseL4 v.p v.cap q.2 q.1

theorem esParseRest_agrees {a b : View} (h : Shifted a b) {r r' : UInt32 × UInt16}
    (hr : LoopBehind r r') (t : EsTuple) :
    Agrees (fun _ _ => True) ((esParseRest a r).exec t) ((esParseRest b r').exec t) := by
  obtain ⟨ho, htype, h12⟩ := hr
  unfold esParseRest
  simp only [exec_update_bind, exec_exitIf_bind, htype]
  apply Agrees.exitIf Iff.rfl
  intro _
  exact agrees_netL4 h ho h12 r'.2

/-- The outcome of a run as `es_parse` reports it. -/
def reported (r : EsTuple × Except EsParseStatus Unit) : EsParseStatus × EsTuple :=
  match r with
  | (t, .error status) => (status, t)
  | (t, .ok ()) => (.ok, t)

theorem esParse_eq_reported (p : Bytes) (cap originalLen : UInt32) (strippedVlan : Bool)
    (strippedVid : UInt16) :
    esParse p cap originalLen strippedVlan strippedVid =
      reported ((esParseBody p (esParseCap cap originalLen) originalLen strippedVlan
        strippedVid).exec EsTuple.zero) := rfl

theorem reported_of_agrees {r r' : EsTuple × Except EsParseStatus Unit}
    (h : Agrees (fun _ _ => True) r r') : reported r' = reported r := by
  cases h <;> rfl

/-- The tuple behind the first tag. -/
def firstTag (tci : UInt16) : EsTuple :=
  EsTuple.pushVlan { EsTuple.zero with flags := esTL2Valid } (tci &&& 0x0fff)

/-- The body of the parser, with room for an Ethernet header. -/
theorem exec_esParseBody (v : View) (strippedVlan : Bool) (strippedVid : UInt16)
    (h14 : v.need 0 14 = .ok) :
    (esParseBody v.p v.cap v.end_ strippedVlan strippedVid).exec EsTuple.zero =
      (esParseVlans v.p v.cap v.end_ 2 14 (Bytes.word16 (v.p.get 12) (v.p.get 13)) >>=
        esParseRest v).exec
          (if strippedVlan then firstTag strippedVid
          else { EsTuple.zero with flags := esTL2Valid }) := by
  have hpass : ¬ esNeed 0 14 v.cap v.end_ ≠ .ok := not_not.mpr h14
  simp only [esParseBody, Parse.exec_need_bind, Parse.exec_esBe16_bind, exec_update_bind]
  rw [if_neg hpass]
  cases strippedVlan with
  | true =>
      simp only [if_true, Parse.exec_pushVlan_bind]
      rfl
  | false => rfl

/-- Without a stripped tag the first iteration stores the tag of the packet. -/
theorem exec_esParseBody_inBand (v : View) (strippedVid : UInt16) (h18 : v.need 14 4 = .ok)
    (hv : esVlan (Bytes.word16 (v.p.get 12) (v.p.get 13))) :
    (esParseBody v.p v.cap v.end_ false strippedVid).exec EsTuple.zero =
      (esParseVlans v.p v.cap v.end_ 1 18 (Bytes.word16 (v.p.get 16) (v.p.get 17)) >>=
        esParseRest v).exec (firstTag (Bytes.word16 (v.p.get 14) (v.p.get 15))) := by
  have h14 : v.need 0 14 = .ok := by
    obtain ⟨hend, hcap⟩ := (esNeed_eq_ok_iff 14 4 v.cap v.end_).mp h18
    simp only [UInt32.reduceToNat] at hend hcap
    apply (esNeed_eq_ok_iff 0 14 v.cap v.end_).mpr
    simp only [UInt32.reduceToNat]
    omega
  have hstep := exec_esParseVlans_tag (o := 14) (t := { EsTuple.zero with flags := esTL2Valid })
    v 1 hv (by decide)
  rw [if_neg (not_not.mpr h18)] at hstep
  rw [exec_esParseBody v false strippedVid h14, if_neg (by decide), exec_bind, hstep, exec_bind]
  rfl

/-- **Stripped and in-band tags.**  With the tag in the packet the parser
returns the same status and the same tuple as with the tag beside it; where the
packet has more than two tags, both reject it, and the EtherType left behind
may differ. -/
theorem esParse_insertTag (f : Bytes) (tpid tci : UInt16) (cap originalLen : UInt32)
    (strippedVid : UInt16) (htpid : esVlan tpid) (hcap : 14 ≤ cap ∧ cap ≤ 124)
    (hlen : 14 ≤ originalLen ∧ originalLen.toNat ≤ 2 ^ 32 - 5) :
    (esParse (insertTag f tpid tci) (cap + 4) (originalLen + 4) false strippedVid).1 =
        (esParse f cap originalLen true tci).1 ∧
      ((esParse (insertTag f tpid tci) (cap + 4) (originalLen + 4) false strippedVid).2 =
          (esParse f cap originalLen true tci).2 ∨
        (esParse f cap originalLen true tci).1 = .unsupported ∧ ExcessTags f ∧
        ∃ ethertype,
          (esParse (insertTag f tpid tci) (cap + 4) (originalLen + 4) false strippedVid).2 =
            { (esParse f cap originalLen true tci).2 with ethertype := ethertype }) := by
  let a : View := ⟨f, esParseCap cap originalLen, originalLen⟩
  let b : View := ⟨insertTag f tpid tci, esParseCap (cap + 4) (originalLen + 4), originalLen + 4⟩
  have hcap14 := UInt32.le_iff_toNat_le.mp hcap.1
  have hcap124 := UInt32.le_iff_toNat_le.mp hcap.2
  have hlen14 := UInt32.le_iff_toNat_le.mp hlen.1
  simp only [UInt32.reduceToNat] at hcap14 hcap124 hlen14
  have hcap4 : (cap + 4).toNat = cap.toNat + 4 := by
    rw [UInt32.toNat_add]
    simp only [UInt32.reduceToNat]
    omega
  have hlen4 : (originalLen + 4).toNat = originalLen.toNat + 4 := by
    rw [UInt32.toNat_add]
    simp only [UInt32.reduceToNat]
    omega
  have hshift : Shifted a b := by
    refine ⟨fun i hi => insertTag_get f tpid tci hi, ?_, hlen4⟩
    show (esParseCap (cap + 4) (originalLen + 4)).toNat = (esParseCap cap originalLen).toNat + 4
    rw [toNat_esParseCap, toNat_esParseCap, hcap4, hlen4]
    omega
  have h14 : a.need 0 14 = .ok := by
    apply (esNeed_eq_ok_iff 0 14 a.cap a.end_).mpr
    show 0 + 14 ≤ originalLen.toNat ∧ 0 + 14 ≤ (esParseCap cap originalLen).toNat
    rw [toNat_esParseCap]
    omega
  have h18 : b.need 14 4 = .ok := by
    apply (esNeed_eq_ok_iff 14 4 b.cap b.end_).mpr
    rw [hshift.cap, hshift.end_]
    show 14 + 4 ≤ originalLen.toNat + 4 ∧ 14 + 4 ≤ (esParseCap cap originalLen).toNat + 4
    rw [toNat_esParseCap]
    omega
  -- behind the first tag both runs stand in the same state
  have hstripped := exec_esParseBody a true tci h14
  have hinBand := exec_esParseBody_inBand b strippedVid h18
    (by rw [insertTag_tpid]; exact htpid)
  rw [insertTag_tci] at hinBand
  have htype : Bytes.word16 (b.p.get 16) (b.p.get 17) =
      Bytes.word16 (a.p.get 12) (a.p.get 13) := by
    rw [hshift.bytes 12 (by omega), hshift.bytes 13 (by omega)]
  rw [htype] at hinBand
  rw [esParse_eq_reported, esParse_eq_reported, hstripped, hinBand, if_pos rfl]
  have htwo := @esParseVlans_agrees a b 14 18 (Bytes.word16 (a.p.get 12) (a.p.get 13))
    (firstTag tci) hshift rfl (by decide) rfl
  rcases htwo with hagree | ⟨hv, hv', t', hfull, hleft⟩
  · have hrest := hagree.bind (S := fun _ _ => True) (f := esParseRest a) (g := esParseRest b)
      fun r r' t hr => esParseRest_agrees hshift hr t
    rw [reported_of_agrees hrest]
    exact ⟨rfl, Or.inl rfl⟩
  · rw [exec_bind, exec_bind, hfull, hleft]
    have hreject : (esParseRest b (18 + 4, nextType a 14)).exec t' =
        ({ t' with ethertype := nextType a 14 }, .error .unsupported) := by
      simp only [esParseRest, exec_update_bind, exec_exitIf_bind]
      rw [if_pos hv']
    refine ⟨?_, Or.inr ⟨rfl, ⟨hv, hv'⟩, nextType a 14, ?_⟩⟩
    · simp only [hreject, reported]
    · simp only [hreject, reported]

/-- An outer service tag in front of a tagged frame. -/
theorem esParse_insertTag_taggedUdp :
    (esParse (insertTag taggedUdp.encode 0x88a8 7) (46 + 4) (50 + 4) false 0).1 =
        (esParse taggedUdp.encode 46 50 true 7).1 ∧
      ((esParse (insertTag taggedUdp.encode 0x88a8 7) (46 + 4) (50 + 4) false 0).2 =
          (esParse taggedUdp.encode 46 50 true 7).2 ∨
        (esParse taggedUdp.encode 46 50 true 7).1 = .unsupported ∧ ExcessTags taggedUdp.encode ∧
        ∃ ethertype,
          (esParse (insertTag taggedUdp.encode 0x88a8 7) (46 + 4) (50 + 4) false 0).2 =
            { (esParse taggedUdp.encode 46 50 true 7).2 with ethertype := ethertype }) :=
  esParse_insertTag taggedUdp.encode 0x88a8 7 46 50 0 (Or.inr rfl) (by decide) (by decide)

end ElephantShrew.Bpf
