import ElephantShrew.Bpf.PacketParser

/-!
# Rules for the parser's primitives

One weakest-precondition rule for each primitive of `PacketParser`, and the
meaning of the bounds check over the integers.  With these in the simp set a
stage of the parser unfolds to the conditions under which it exits and the
tuple it exits with; no later proof looks inside `ExitM` again.
-/

namespace ElephantShrew.Bpf

open ElephantShrew.Verified
open ElephantShrew.Verified.ExitM

/-! ## The bounds check -/

/-- The two subtractions never wrap: the check compares exact sums. -/
theorem esNeed_eq (off n cap end_ : UInt32) :
    esNeed off n cap end_ =
      if end_.toNat < off.toNat + n.toNat then .malformed
      else if cap.toNat < off.toNat + n.toNat then .truncated
      else .ok := by
  have fits (x : UInt32) : (off > x ∨ n > x - off) ↔ x.toNat < off.toNat + n.toNat := by
    rcases Nat.lt_or_ge x.toNat off.toNat with hlt | hge
    · simp only [GT.gt, UInt32.lt_iff_toNat_lt]
      omega
    · have hsub := UInt32.toNat_sub_of_le x off (UInt32.le_iff_toNat_le.mpr hge)
      simp only [GT.gt, UInt32.lt_iff_toNat_lt, hsub]
      omega
  simp only [esNeed, fits]

/-- The check passes exactly when the range lies within both bounds. -/
theorem esNeed_eq_ok_iff (off n cap end_ : UInt32) :
    esNeed off n cap end_ = .ok ↔
      off.toNat + n.toNat ≤ end_.toNat ∧ off.toNat + n.toNat ≤ cap.toNat := by
  rw [esNeed_eq]
  split
  · simp; omega
  · split <;> simp <;> omega

/-- A failed check reports one of two statuses. -/
theorem esNeed_ne_ok {off n cap end_ : UInt32} (h : esNeed off n cap end_ ≠ .ok) :
    esNeed off n cap end_ = .malformed ∨ esNeed off n cap end_ = .truncated := by
  unfold esNeed at h ⊢
  split at h <;> [skip; split at h] <;> simp_all

/-! ## Weakest preconditions of the primitives -/

namespace Parse

section Rules

variable {E : EsParseStatus → EsTuple → Prop} {t : EsTuple}

@[simp] theorem wp_need (off n cap end_ : UInt32) {Q : Unit → EsTuple → Prop} :
    Wp (need off n cap end_) Q E t ↔
      (esNeed off n cap end_ ≠ .ok → E (esNeed off n cap end_) t) ∧
        (esNeed off n cap end_ = .ok → Q () t) := by
  simp [need]

@[simp] theorem wp_load (p : Bytes) (i : Nat) {Q : UInt8 → EsTuple → Prop} :
    Wp (load p i) Q E t ↔ Q (p.get i) t := by
  simp [load]

@[simp] theorem wp_esBe16 (p : Bytes) (i : Nat) {Q : UInt16 → EsTuple → Prop} :
    Wp (esBe16 p i) Q E t ↔ Q (Bytes.word16 (p.get i) (p.get (i + 1))) t := by
  simp [esBe16]

@[simp] theorem wp_add32 (a b : UInt32) {Q : UInt32 → EsTuple → Prop} :
    Wp (add32 a b) Q E t ↔ Q (a + b) t := by
  simp [add32]

@[simp] theorem wp_sub32 (a b : UInt32) {Q : UInt32 → EsTuple → Prop} :
    Wp (sub32 a b) Q E t ↔ Q (a - b) t := by
  simp [sub32]

@[simp] theorem wp_memcpy (i n : Nat) (f : EsTuple → EsTuple) {Q : Unit → EsTuple → Prop} :
    Wp (memcpy i n f) Q E t ↔ Q () (f t) := by
  simp [memcpy]

@[simp] theorem wp_pushVlan (vid : UInt16) {Q : Unit → EsTuple → Prop} :
    Wp (pushVlan vid) Q E t ↔ Q () (t.pushVlan vid) := by
  simp [pushVlan]

end Rules

/-! Walking past a bounds check: one rule for a range known to fit, one for a
check that is only known to have passed. -/

section Walk

variable {off n cap end_ : UInt32} {P Q : Prop}

theorem need_pass (hend : off.toNat + n.toNat ≤ end_.toNat)
    (hcap : off.toNat + n.toNat ≤ cap.toNat) (h : Q) :
    (esNeed off n cap end_ ≠ .ok → P) ∧ (esNeed off n cap end_ = .ok → Q) := by
  have hok := (esNeed_eq_ok_iff off n cap end_).mpr ⟨hend, hcap⟩
  exact ⟨fun hn => absurd hok hn, fun _ => h⟩

theorem need_bounds (hexit : esNeed off n cap end_ ≠ .ok → P)
    (h : off.toNat + n.toNat ≤ end_.toNat → off.toNat + n.toNat ≤ cap.toNat → Q) :
    (esNeed off n cap end_ ≠ .ok → P) ∧ (esNeed off n cap end_ = .ok → Q) := by
  refine ⟨hexit, fun hok => ?_⟩
  obtain ⟨hend, hcap⟩ := (esNeed_eq_ok_iff off n cap end_).mp hok
  exact h hend hcap

end Walk

end Parse

/-! ## Results of the whole parser -/

/-- A property of the outcome of `esParse`, from a precondition of its body. -/
theorem esParse_of_wp {p : Bytes} {cap originalLen : UInt32} {strippedVlan : Bool}
    {strippedVid : UInt16} {R : EsParseStatus → EsTuple → Prop}
    (h : Wp (esParseBody p (esParseCap cap originalLen) originalLen strippedVlan strippedVid)
      (fun _ t => R .ok t) R EsTuple.zero) :
    R (esParse p cap originalLen strippedVlan strippedVid).1
      (esParse p cap originalLen strippedVlan strippedVid).2 := by
  unfold Wp at h
  unfold esParse
  dsimp only
  split at h <;> rename_i hx <;> simp only [hx] <;> exact h

/-- The clamped prefix length, over the integers. -/
theorem toNat_esParseCap (cap originalLen : UInt32) :
    (esParseCap cap originalLen).toNat = min (min cap.toNat 128) originalLen.toNat := by
  have h128 : esParseBytes.toNat = 128 := rfl
  unfold esParseCap
  simp only [GT.gt, UInt32.lt_iff_toNat_lt]
  split <;> split <;> omega

end ElephantShrew.Bpf
