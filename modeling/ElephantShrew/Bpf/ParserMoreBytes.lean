import ElephantShrew.Bpf.ParserSafety
import ElephantShrew.Bpf.ParserTwoRuns

/-!
# What more bytes can change

A run that sees less follows a run that sees more.  More captured bytes change
the answer `TRUNCATED` only, and then the tuple left behind is a part of the
one the longer run leaves; more bytes behind the frame change `MALFORMED` and
`TRUNCATED` only.  Both hold because every check tries the bound of the frame
before the bound of the capture.  Two buffers that agree on the captured bytes
are parsed alike.
-/

namespace ElephantShrew.Bpf

open ElephantShrew.Verified
open ElephantShrew.Verified.ExitM

/-- `a` sees no more than `b`, and `esc` has the statuses that say so. -/
structure Narrower (esc : EsParseStatus → Prop) (a b : View) : Prop where
  cap : a.cap.toNat ≤ b.cap.toNat
  end_ : a.end_.toNat ≤ b.end_.toNat
  same : ∀ i, i < a.cap.toNat → a.p.get i = b.p.get i
  truncated : a.cap.toNat < b.cap.toNat → esc .truncated
  malformed : a.end_.toNat < b.end_.toNat → esc .malformed

namespace Narrower

variable {esc : EsParseStatus → Prop} {a b : View} {off n : UInt32}

theorem meets (h : Narrower esc a b) (off n : UInt32) : Meets esc a b off n := by
  have hcap := h.cap
  have hend := h.end_
  constructor
  · unfold View.need
    rw [esNeed_eq, esNeed_eq off n b.cap b.end_]
    by_cases hfits : a.end_.toNat < off.toNat + n.toNat
    · rw [if_pos hfits]
      rcases Nat.lt_or_ge b.end_.toNat (off.toNat + n.toNat) with hlt | hge
      · rw [if_pos hlt]
        exact Or.inl rfl
      · exact Or.inr ⟨by decide, h.malformed (by omega)⟩
    · rw [if_neg hfits, if_neg (show ¬ b.end_.toNat < off.toNat + n.toNat by omega)]
      by_cases hread : a.cap.toNat < off.toNat + n.toNat
      · rw [if_pos hread]
        rcases Nat.lt_or_ge b.cap.toNat (off.toNat + n.toNat) with hlt | hge
        · rw [if_pos hlt]
          exact Or.inl rfl
        · exact Or.inr ⟨by decide, h.truncated (by omega)⟩
      · rw [if_neg hread, if_neg (show ¬ b.cap.toNat < off.toNat + n.toNat by omega)]
        exact Or.inl rfl
  · intro hok i _ hi
    have hread := ((esNeed_eq_ok_iff off n a.cap a.end_).mp hok).2
    exact h.same i (by omega)

theorem within (h : Narrower esc a b) (end_ : UInt32) :
    Narrower esc (a.within end_) (b.within end_) where
  cap := h.cap
  end_ := Nat.le_refl _
  same := h.same
  truncated := h.truncated
  malformed hlt := absurd hlt (Nat.lt_irrefl _)

/-- A length field that the longer frame has room for. -/
theorem length (h : Narrower esc a b) {v x y : UInt32} (hxy : x.toNat ≤ y.toNat)
    (heq : a.end_.toNat = b.end_.toNat → x = y) :
    (v > x ↔ v > y) ∨ (v > x ∧ esc .malformed) := by
  rcases Nat.lt_or_ge a.end_.toNat b.end_.toNat with hlt | hge
  · by_cases hv : v > x
    · exact Or.inr ⟨hv, h.malformed hlt⟩
    · refine Or.inl (iff_of_false hv ?_)
      simp only [GT.gt, UInt32.lt_iff_toNat_lt] at hv ⊢
      omega
  · rw [heq (Nat.le_antisymm h.end_ hge)]
    exact Or.inl Iff.rfl

theorem netMeets (h : Narrower esc a b) (off : UInt32) (type : UInt16) :
    NetMeets esc a b off type where
  net t hf := by
    have hend := h.end_
    simp only [esParseNet, exec_ite, exec_exit]
    by_cases harp : type = 0x0806
    · rw [if_pos harp, if_pos harp]
      exact follows_esParseArp (h.meets off 28) hf
    rw [if_neg harp, if_neg harp]
    by_cases h4 : type = 0x0800
    · rw [if_pos h4, if_pos h4]
      apply follows_esParseIpv4 (h.meets off 20) hf
      · intro total hfits _
        apply h.length
        · rw [toNat_sub_of_le' (by omega), toNat_sub_of_le' (by omega)]
          omega
        · intro heq
          rw [UInt32.toNat_inj.mp heq]
      · exact fun n => (h.within _).meets off n
    rw [if_neg h4, if_neg h4]
    by_cases h6 : type = 0x86dd
    · rw [if_pos h6, if_pos h6]
      apply follows_esParseIpv6 (h.meets off 40) hf
      · intro payload hfits _
        apply h.length
        · have h40 : (40 : UInt32).toNat = 40 := rfl
          have ha : (a.end_ - off).toNat = a.end_.toNat - off.toNat :=
            toNat_sub_of_le' (by omega)
          have hb : (b.end_ - off).toNat = b.end_.toNat - off.toNat :=
            toNat_sub_of_le' (by omega)
          rw [toNat_sub_of_le' (show (40 : UInt32).toNat ≤ (a.end_ - off).toNat by omega),
            toNat_sub_of_le' (show (40 : UInt32).toNat ≤ (b.end_ - off).toNat by omega)]
          omega
        · intro heq
          rw [UInt32.toNat_inj.mp heq]
      · exact fun o n => (h.within _).meets o n
    · rw [if_neg h6, if_neg h6]
      exact .refl _
  datagram o n := (h.within _).meets o n

theorem follows (h : Narrower esc a b) (strippedVlan : Bool) (strippedVid : UInt16) :
    Follows esc EsTuple.Extends
      ((esParseBody a.p a.cap a.end_ strippedVlan strippedVid).exec EsTuple.zero)
      ((esParseBody b.p b.cap b.end_ strippedVlan strippedVid).exec EsTuple.zero) :=
  follows_esParseBody (P := fun _ _ => True) (h.meets 0 14)
    ⟨fun off _ _ _ => h.meets off 4, fun _ _ _ _ => trivial⟩ trivial
    (fun off type _ _ => h.netMeets off type) strippedVlan strippedVid

end Narrower

/-! ## The whole parser -/

/-- What `esParse` returns, from the outcome of its body. -/
theorem esParse_follows {esc : EsParseStatus → Prop} {p q : Bytes}
    {cap cap' originalLen originalLen' : UInt32} {strippedVlan : Bool} {strippedVid : UInt16}
    (h : Follows esc EsTuple.Extends
      ((esParseBody p (esParseCap cap originalLen) originalLen strippedVlan strippedVid).exec
        EsTuple.zero)
      ((esParseBody q (esParseCap cap' originalLen') originalLen' strippedVlan strippedVid).exec
        EsTuple.zero)) :
    esParse q cap' originalLen' strippedVlan strippedVid =
        esParse p cap originalLen strippedVlan strippedVid ∨
      (esc (esParse p cap originalLen strippedVlan strippedVid).1 ∧
        (esParse p cap originalLen strippedVlan strippedVid).2.Extends
          (esParse q cap' originalLen' strippedVlan strippedVid).2) := by
  unfold esParse
  dsimp only
  rcases h with heq | ⟨e, t, hx, he, hle⟩
  · rw [heq]
    exact Or.inl rfl
  · rw [hx]
    rcases hy : (esParseBody q (esParseCap cap' originalLen') originalLen' strippedVlan
      strippedVid).exec EsTuple.zero with ⟨t', e' | u⟩ <;> rw [hy] at hle
    · exact Or.inr ⟨he, hle⟩
    · exact Or.inr ⟨he, hle⟩

/-- What lies beyond the captured prefix is never read. -/
theorem esParse_congr {p q : Bytes} {cap originalLen : UInt32} {strippedVlan : Bool}
    {strippedVid : UInt16}
    (hsame : ∀ i, i < min (min cap.toNat 128) originalLen.toNat → p.get i = q.get i) :
    esParse q cap originalLen strippedVlan strippedVid =
      esParse p cap originalLen strippedVlan strippedVid := by
  have hnarrow : Narrower (fun _ => False) ⟨p, esParseCap cap originalLen, originalLen⟩
      ⟨q, esParseCap cap originalLen, originalLen⟩ := by
    constructor
    · exact Nat.le_refl _
    · exact Nat.le_refl _
    · intro i hi
      rw [toNat_esParseCap] at hi
      exact hsame i hi
    · exact fun hlt => absurd hlt (Nat.lt_irrefl _)
    · exact fun hlt => absurd hlt (Nat.lt_irrefl _)
  rcases esParse_follows (hnarrow.follows strippedVlan strippedVid) with heq | ⟨hnone, -⟩
  · exact heq
  · exact hnone.elim

/-- A frame is found truncated only when it is longer than its captured prefix. -/
theorem esParse_truncated (p : Bytes) (cap originalLen : UInt32) (strippedVlan : Bool)
    (strippedVid : UInt16) :
    (esParse p cap originalLen strippedVlan strippedVid).1 = .truncated →
      min cap.toNat 128 < originalLen.toNat := by
  have hsafe := (safe_esParseBody p (esParseCap cap originalLen) originalLen strippedVlan
    strippedVid).2
  have hshort := esParse_of_wp (R := fun status _ =>
    Short (esParseCap cap originalLen).toNat originalLen.toNat status)
    (hsafe.mono (fun _ _ _ => .of_ne (by decide)) fun _ _ h => h)
  intro htrunc
  have hlt := hshort htrunc
  rw [toNat_esParseCap] at hlt
  omega

/-- **More captured bytes.**  For any frame and any two captures of it. -/
theorem esParse_moreCaptured (p q : Bytes) (cap cap' originalLen : UInt32) (strippedVlan : Bool)
    (strippedVid : UInt16) (hcap : cap ≤ cap')
    (hsame : ∀ i, i < min (min cap.toNat 128) originalLen.toNat → p.get i = q.get i) :
    ((esParse p cap originalLen strippedVlan strippedVid).1 ≠ .truncated →
      esParse q cap' originalLen strippedVlan strippedVid =
        esParse p cap originalLen strippedVlan strippedVid) ∧
    ((esParse p cap originalLen strippedVlan strippedVid).1 = .truncated →
      min cap.toNat 128 < originalLen.toNat ∧
        (esParse p cap originalLen strippedVlan strippedVid).2.Extends
          (esParse q cap' originalLen strippedVlan strippedVid).2) := by
  have hnarrow : Narrower (· = .truncated) ⟨p, esParseCap cap originalLen, originalLen⟩
      ⟨q, esParseCap cap' originalLen, originalLen⟩ := by
    constructor
    · have := UInt32.le_iff_toNat_le.mp hcap
      simp only [toNat_esParseCap]
      omega
    · exact Nat.le_refl _
    · intro i hi
      rw [toNat_esParseCap] at hi
      exact hsame i hi
    · exact fun _ => rfl
    · exact fun hlt => absurd hlt (Nat.lt_irrefl _)
  rcases esParse_follows (hnarrow.follows strippedVlan strippedVid) with heq | ⟨htrunc, hext⟩
  · refine ⟨fun _ => heq, fun htrunc => ⟨esParse_truncated _ _ _ _ _ htrunc, ?_⟩⟩
    rw [heq]
    exact .refl _
  · exact ⟨fun hne => absurd htrunc hne, fun _ => ⟨esParse_truncated _ _ _ _ _ htrunc, hext⟩⟩

/-- Ten captured bytes of sixty. -/
theorem esParse_moreCaptured_tenBytes :
    (esParse (List.replicate 60 0) 10 60 true 5).1 = .truncated ∧
      (esParse (List.replicate 60 0) 10 60 true 5).2.Extends
        (esParse (List.replicate 60 0) 60 60 true 5).2 := by
  have htrunc : (esParse (List.replicate 60 0) 10 60 true 5).1 = .truncated := rfl
  exact ⟨htrunc, ((esParse_moreCaptured (List.replicate 60 0) (List.replicate 60 0) 10 60 60 true 5
    (by decide) fun _ _ => rfl).2 htrunc).2⟩

/-- More bytes behind the frame. -/
theorem esParse_appended {p q : Bytes} {cap cap' originalLen originalLen' : UInt32}
    (strippedVlan : Bool) (strippedVid : UInt16) (hcap : cap ≤ cap')
    (hlen : originalLen ≤ originalLen')
    (hsame : ∀ i, i < min (min cap.toNat 128) originalLen.toNat → p.get i = q.get i)
    (hstatus : (esParse p cap originalLen strippedVlan strippedVid).1 ≠ .malformed ∧
      (esParse p cap originalLen strippedVlan strippedVid).1 ≠ .truncated) :
    esParse q cap' originalLen' strippedVlan strippedVid =
      esParse p cap originalLen strippedVlan strippedVid := by
  have hnarrow : Narrower (fun status => status = .malformed ∨ status = .truncated)
      ⟨p, esParseCap cap originalLen, originalLen⟩
      ⟨q, esParseCap cap' originalLen', originalLen'⟩ := by
    constructor
    · have hc := UInt32.le_iff_toNat_le.mp hcap
      have hl := UInt32.le_iff_toNat_le.mp hlen
      simp only [toNat_esParseCap]
      omega
    · exact UInt32.le_iff_toNat_le.mp hlen
    · intro i hi
      rw [toNat_esParseCap] at hi
      exact hsame i hi
    · exact fun _ => Or.inr rfl
    · exact fun _ => Or.inl rfl
  rcases esParse_follows (hnarrow.follows strippedVlan strippedVid) with heq | ⟨hbad, -⟩
  · exact heq
  · exact absurd hbad (not_or.mpr hstatus)

end ElephantShrew.Bpf
