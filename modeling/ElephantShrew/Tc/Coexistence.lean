import ElephantShrew.Tc.Ownership

/-!
# Attachments side by side

Any number of attachments at any slots, whose callers and kernel calls take their
steps in any order.  `Attach` never replaces a filter and `Detach` removes what it
has found to run its own program, so that attachments need no agreement: what one
of them owns is what stands in the kernel under its name, and no other touches it.

Others may attach, replace and remove filters of their own meanwhile; that they
leave those of the attachments alone is the assumption of this file, which
`SharedSlot.lean` does without.
-/

namespace ElephantShrew.Tc.Coexistence

open ElephantShrew.Verified

variable {ι : Type}

/-- A filter in the kernel: the attachment that has installed it, if one has, and the
program it runs. -/
structure Standing (ι : Type) where
  owner : Option ι
  programId : UInt32

structure World (ι : Type) where
  objects : ι → State
  slots : Slot → Option (Standing ι)

inductive Act (ι : Type) where
  /-- a call of an attachment, or the kernel's answer to it -/
  | object (i : ι) (a : Action)
  /-- somebody else removes, installs or replaces a filter -/
  | stranger (slot : Slot) (program : Option UInt32)

def World.put (w : World ι) (slot : Slot) (filter : Option (Standing ι)) : World ι :=
  { w with slots := Function.update w.slots slot filter }

/-- What an answer does in the kernel, and whether the kernel can give it: any call
may fail, and changes nothing then, but a filter is reported gone only if it is. -/
def kernel (progs : Int → Option UInt32) (w : World ι) (i : ι) : Action → Option (World ι)
  | .infoAnswer rc _ id =>
      match (w.objects i).call with
      | .readingInfo args => if rc < 0 ∨ progs args.progFd = some id then some w else none
      | _ => none
  | .attachAnswer rc handle priority =>
      match (w.objects i).call with
      | .attaching args _ =>
          let slot : Slot := ⟨(w.objects i).obj.hook, args.handle, args.priority⟩
          if rc ≠ 0 then some w
          -- an occupied identity is an error
          else if handle = args.handle ∧ priority = args.priority ∧ (w.slots slot).isNone then
            (progs args.progFd).map fun id => w.put slot (some ⟨some i, id⟩)
          else none
      | _ => none
  | .queryAnswer rc progId =>
      match w.slots (w.objects i).obj.slot with
      | none => if rc ≠ 0 then some w else none
      | some filter =>
          if (rc = 0 ∧ progId = filter.programId) ∨ (rc ≠ 0 ∧ ¬ Gone rc) then some w else none
  | .detachAnswer rc =>
      match w.slots (w.objects i).obj.slot with
      | none => if rc ≠ 0 then some w else none
      | some _ =>
          if rc = 0 then some (w.put (w.objects i).obj.slot none)
          else if Gone rc then none
          else some w
  | _ => some w

section Step

variable [DecidableEq ι] (progs : Int → Option UInt32)

/-- One step of anybody. -/
def act (w : World ι) : Act ι → Option (World ι)
  | .object i a =>
      (kernel progs w i a).bind fun w' =>
        (next (w.objects i) a).map fun p =>
          { w' with objects := Function.update w'.objects i p.1 }
  | .stranger slot program =>
      if (w.slots slot).all fun filter => filter.owner.isNone then
        some (w.put slot (program.map fun id => ⟨none, id⟩))
      else none

/-- Constructed attachments, and filters of others. -/
def Initial (w : World ι) : Prop :=
  (∀ i, Tc.Initial (w.objects i)) ∧
    ∀ slot filter, w.slots slot = some filter → filter.owner = none

/-- The attachments, the kernel and everybody else. -/
def system : System (World ι) (Act ι) := .ofAct Initial (act progs)

end Step

/-! ## Whose filter stands where -/

/-- The filter stands in the kernel under the name of attachment `i`. -/
def StandsFor (slots : Slot → Option (Standing ι)) (i : ι) (filter : Filter) : Prop :=
  slots filter.slot = some ⟨some i, filter.programId⟩

/-- During `Attach`, the program is the one the kernel knows. -/
def Identifies (progs : Int → Option UInt32) (s : State) : Prop :=
  ∀ args info, s.call = .creatingHook args info ∨ s.call = .attaching args info →
    progs args.progFd = some info

/-- An attachment owns what stands under its name. -/
structure Keeps (progs : Int → Option UInt32) (slots : Slot → Option (Standing ι)) (i : ι)
    (s : State) : Prop where
  inCall : InCall s
  identifies : Identifies progs s
  owned : ∀ filter, StandsFor slots i filter ↔ s.obj.attached = true ∧ s.obj.filter = filter

/-- The invariant. -/
def Inv (progs : Int → Option UInt32) (w : World ι) : Prop :=
  ∀ i, Keeps progs w.slots i (w.objects i)

variable {progs : Int → Option UInt32} {w w' : World ι} {i : ι} {s s' : State}
  {slots : Slot → Option (Standing ι)}

theorem Inv.init (h : Initial w) : Inv progs w := by
  obtain ⟨hobjects, hslots⟩ := h
  intro i
  obtain ⟨hobj, hidle, -, -, -⟩ := hobjects i
  constructor
  case inCall =>
    rw [InCall, hidle]
    trivial
  case identifies =>
    intro args info hcall
    rw [hidle] at hcall
    rcases hcall with hcall | hcall <;> cases hcall
  case owned =>
    intro filter
    constructor
    · intro hstands
      have hnone := hslots _ _ hstands
      cases hnone
    · rintro ⟨hattached, -⟩
      rw [hobj] at hattached
      cases hattached

/-- Somebody else touches no filter of an attachment. -/
theorem Inv.stranger (h : Inv progs w) {slot : Slot} {program : Option UInt32}
    (hfree : (w.slots slot).all (fun filter => filter.owner.isNone) = true) :
    Inv progs (w.put slot (program.map fun id => ⟨none, id⟩)) := by
  intro i
  refine ⟨(h i).inCall, (h i).identifies, ?_⟩
  intro filter
  show StandsFor (Function.update w.slots slot _) i filter ↔
    (w.objects i).obj.attached = true ∧ (w.objects i).obj.filter = filter
  rw [← (h i).owned filter]
  unfold StandsFor
  by_cases hslot : filter.slot = slot
  · rw [hslot, Function.update_self]
    constructor
    · intro hput
      cases program <;> simp at hput
    · intro hstands
      rw [hstands] at hfree
      cases hfree
  · rw [Function.update_of_ne hslot]

/-- The kernel is left alone, and the attachment owns what it owned. -/
theorem Keeps.move (h : Keeps progs slots i s) (hin : InCall s') (hid : Identifies progs s')
    (hown : (s'.obj.attached = false ∧ s.obj.attached = false) ∨ s'.obj = s.obj) :
    Keeps progs slots i s' := by
  refine ⟨hin, hid, ?_⟩
  intro filter
  rw [h.owned filter]
  rcases hown with ⟨hfalse, hbefore⟩ | heq
  · simp [hfalse, hbefore]
  · rw [heq]

/-- The attachment takes a slot. -/
theorem Keeps.install (h : Keeps progs slots i s) (hbefore : s.obj.attached = false)
    (hattached : s'.obj.attached = true) (hin : InCall s') (hid : Identifies progs s') :
    Keeps progs (Function.update slots s'.obj.slot (some ⟨some i, s'.obj.programId⟩)) i s' := by
  refine ⟨hin, hid, ?_⟩
  intro filter
  have hold := h.owned filter
  unfold StandsFor at hold ⊢
  obtain ⟨slot, programId⟩ := filter
  rw [TcAttachment.filter, hattached, Filter.mk.injEq]
  by_cases hslot : slot = s'.obj.slot
  · subst hslot
    simp
  · rw [Function.update_of_ne hslot, hold, hbefore]
    simp [Ne.symm hslot]

/-- The attachment gives its slot back. -/
theorem Keeps.remove (h : Keeps progs slots i s) (hattached : s'.obj.attached = false)
    (hin : InCall s') (hid : Identifies progs s') :
    Keeps progs (Function.update slots s.obj.slot none) i s' := by
  refine ⟨hin, hid, ?_⟩
  intro filter
  have hold := h.owned filter
  unfold StandsFor at hold ⊢
  rw [hattached]
  by_cases hslot : filter.slot = s.obj.slot
  · rw [hslot, Function.update_self]
    simp
  · rw [Function.update_of_ne hslot, hold]
    constructor
    · rintro ⟨-, hfilter⟩
      rw [← hfilter] at hslot
      exact absurd rfl hslot
    · rintro ⟨hfalse, -⟩
      cases hfalse

/-! ## One step of an attachment -/

/-- What a step may do to the filters: one more of attachment `i` where there was
none, or one less of `i`. -/
def OwnOnly (i : ι) (slots slots' : Slot → Option (Standing ι)) : Prop :=
  ∀ slot, slots' slot = slots slot ∨
    (slots slot = none ∧ ∃ id, slots' slot = some ⟨some i, id⟩) ∨
    ((∃ id, slots slot = some ⟨some i, id⟩) ∧ slots' slot = none)

theorem OwnOnly.same : OwnOnly i slots slots := fun _ => Or.inl rfl

/-- The others own what they owned. -/
theorem OwnOnly.keeps {slots' : Slot → Option (Standing ι)} {j : ι} (h : OwnOnly i slots slots')
    (hj : j ≠ i) (hkeeps : Keeps progs slots j s) : Keeps progs slots' j s := by
  refine ⟨hkeeps.inCall, hkeeps.identifies, ?_⟩
  intro filter
  rw [← hkeeps.owned filter]
  unfold StandsFor
  rcases h filter.slot with hsame | ⟨hnone, id, hsome⟩ | ⟨⟨id, hsome⟩, hnone⟩
  · rw [hsame]
  · rw [hnone, hsome]
    simp [Ne.symm hj]
  · rw [hnone, hsome]
    simp [Ne.symm hj]

/-- A step of attachment `i`, with the kernel's part in it. -/
structure Stepped (progs : Int → Option UInt32) (i : ι) (w w' : World ι)
    (p : State × Option Event) : Prop where
  objects : w'.objects = w.objects
  ownOnly : OwnOnly i w.slots w'.slots
  keeps : Keeps progs w'.slots i p.1
  /-- `Detach` reports success exactly when nothing is left -/
  reports : ∀ dtor rc, p.2 = some (reports dtor rc) → (rc = 0 ↔ p.1.obj.attached = false)

/-- The kernel's part is nothing. -/
theorem Stepped.still {p : State × Option Event} (h : Keeps progs w.slots i (w.objects i))
    (hin : InCall p.1) (hid : Identifies progs p.1)
    (hown : (p.1.obj.attached = false ∧ (w.objects i).obj.attached = false) ∨
      p.1.obj = (w.objects i).obj)
    (hreports : ∀ dtor rc, p.2 = some (Tc.reports dtor rc) → (rc = 0 ↔ p.1.obj.attached = false)) :
    Stepped progs i w w p :=
  ⟨rfl, OwnOnly.same, h.move hin hid hown, hreports⟩

/-- Outside `Attach` there is nothing to identify. -/
theorem Identifies.of_ended {dtor : Bool} (h : s.call = ended dtor) : Identifies progs s := by
  intro args info hcall
  rw [h] at hcall
  cases dtor <;> rcases hcall with hcall | hcall <;> cases hcall

theorem Identifies.of_idle (h : s.call = .idle) : Identifies progs s := by
  have hended : s.call = ended false := h
  exact .of_ended hended

/-- During `Detach` the filter stands at its slot. -/
theorem Keeps.stands (h : Keeps progs slots i s) {dtor : Bool}
    (hc : s.call = .querying dtor ∨ s.call = .detaching dtor) :
    s.obj.attached = true ∧ slots s.obj.slot = some ⟨some i, s.obj.programId⟩ := by
  have hattached : s.obj.attached = true := by
    have hcall := h.inCall
    rcases hc with hc | hc
    · rw [InCall, hc] at hcall
      exact hcall.1
    · rw [InCall, hc] at hcall
      exact hcall.1
  exact ⟨hattached, (h.owned s.obj.filter).mpr ⟨hattached, rfl⟩⟩

/-- **One step.** -/
theorem Stepped.of_act (h : Keeps progs w.slots i (w.objects i)) {a : Action}
    {p : State × Option Event} (hkernel : kernel progs w i a = some w')
    (hnext : next (w.objects i) a = some p) : Stepped progs i w w' p := by
  have hsteps := Steps.of_next hnext
  have hin := h.inCall.step hsteps
  obtain ⟨s', e⟩ := p
  dsimp only at hsteps hin
  cases hsteps with
  | refuse args err hc =>
      rw [← Option.some.inj hkernel]
      exact .still h hin (.of_idle hc) (Or.inr rfl) (by simp)
  | beginAttach args hc hno hargs =>
      rw [← Option.some.inj hkernel]
      refine .still h hin ?_ (Or.inr rfl) (by simp)
      rintro args' info (hcall | hcall) <;> cases hcall
  | infoFails args rc errno id hc hrc =>
      simp only [kernel, hc, hrc, true_or, if_true, Option.some.injEq] at hkernel
      rw [← hkernel]
      exact .still h hin (.of_idle rfl) (Or.inr rfl) (by simp)
  | readInfo args rc errno id hc hrc =>
      simp only [kernel, hc, Int.not_lt.mpr hrc, false_or] at hkernel
      split at hkernel
      · next hprog =>
          rw [← Option.some.inj hkernel]
          have hno : (w.objects i).obj.attached = false := by
            have hcall := h.inCall
            rw [InCall, hc] at hcall
            exact hcall.1
          refine .still h hin ?_ (Or.inl ⟨hno, hno⟩) (by simp)
          rintro args' info (hcall | hcall)
          · cases hcall
            exact hprog
          · cases hcall
      · cases hkernel
  | hookFails args info rc hc =>
      rw [← Option.some.inj hkernel]
      exact .still h hin (.of_idle rfl) (Or.inr rfl) (by simp)
  | createHook args info rc hc =>
      rw [← Option.some.inj hkernel]
      refine .still h hin ?_ (Or.inr rfl) (by simp)
      rintro args' info' (hcall | hcall)
      · cases hcall
      · cases hcall
        exact h.identifies args info (Or.inl hc)
  | attachFails args info handle priority rc hc hrc =>
      simp only [kernel, hc, hrc, ne_eq, not_false_eq_true, if_true, Option.some.injEq] at hkernel
      rw [← hkernel]
      exact .still h hin (.of_idle rfl) (Or.inr rfl) (by simp)
  | attach args info handle priority hc =>
      have hprog := h.identifies args info (Or.inr hc)
      have hno : (w.objects i).obj.attached = false := by
        have hcall := h.inCall
        rw [InCall, hc] at hcall
        exact hcall.1
      simp only [kernel, hc, ne_eq, not_true_eq_false, if_false, hprog, Option.map_some] at hkernel
      split at hkernel
      · next hslot =>
          obtain ⟨rfl, rfl, hfree⟩ := hslot
          rw [← Option.some.inj hkernel]
          refine ⟨rfl, ?_, h.install hno rfl hin (.of_idle rfl), by simp⟩
          intro slot
          by_cases hsame : slot = ⟨(w.objects i).obj.hook, args.handle, args.priority⟩
          · subst hsame
            exact Or.inr (Or.inl ⟨Option.isNone_iff_eq_none.mp hfree, info,
              Function.update_self ..⟩)
          · exact Or.inl (Function.update_of_ne hsame _ _)
      · cases hkernel
  | nothingToDetach dtor hc hno =>
      have hsame : w = w' := by cases dtor <;> exact Option.some.inj hkernel
      rw [← hsame]
      refine .still h hin (.of_ended rfl) (Or.inr rfl) ?_
      intro dtor' rc hreports
      have hzero : rc = 0 := (reports_inj.mp (Option.some.inj hreports)).2.symm
      exact ⟨fun _ => hno, fun _ => hzero⟩
  | beginDetach dtor hc hown =>
      have hsame : w = w' := by cases dtor <;> exact Option.some.inj hkernel
      rw [← hsame]
      refine .still h hin ?_ (Or.inr rfl) (by simp)
      rintro args' info (hcall | hcall) <;> cases hcall
  | findGone dtor rc progId hc hrc =>
      -- the filter stands, and is not reported gone
      have hne : rc ≠ 0 := by
        rintro rfl
        rcases hrc with hrc | hrc <;> cases hrc
      simp only [kernel, (h.stands (Or.inl hc)).2, hne, hrc, false_and, not_true_eq_false,
        and_false, or_self, if_false, reduceCtorEq] at hkernel
  | queryFails dtor rc progId hc hgone hrc =>
      obtain ⟨hattached, hstands⟩ := h.stands (Or.inl hc)
      simp only [kernel, hstands, hrc, hgone, false_and, ne_eq, not_false_eq_true, and_self,
        or_true, if_true, Option.some.injEq] at hkernel
      rw [← hkernel]
      refine .still h hin (.of_ended rfl) (Or.inr rfl) ?_
      intro dtor' rc' hreports
      rw [← (reports_inj.mp (Option.some.inj hreports)).2]
      exact ⟨fun hzero => absurd hzero hrc,
        fun hfalse => Bool.noConfusion (hattached.symm.trans hfalse)⟩
  | findReplaced dtor progId hc hid =>
      -- nobody has replaced the program
      simp only [kernel, (h.stands (Or.inl hc)).2, hid, and_false, ne_eq, not_true_eq_false,
        false_and, or_self, if_false, reduceCtorEq] at hkernel
  | findOwn dtor hc =>
      simp only [kernel, (h.stands (Or.inl hc)).2, and_self, true_or, if_true,
        Option.some.injEq] at hkernel
      rw [← hkernel]
      refine .still h hin ?_ (Or.inr rfl) (by simp)
      rintro args' info (hcall | hcall) <;> cases hcall
  | detach dtor rc hc hrc =>
      obtain ⟨-, hstands⟩ := h.stands (Or.inr hc)
      have hzero : rc = 0 := by
        rcases hrc with hzero | hgone
        · exact hzero
        · have hne : rc ≠ 0 := by
            rintro rfl
            rcases hgone with hgone | hgone <;> cases hgone
          simp only [kernel, hstands, hne, hgone, if_true, if_false, reduceCtorEq] at hkernel
      simp only [kernel, hstands, hzero, if_true, Option.some.injEq] at hkernel
      rw [← hkernel]
      refine ⟨rfl, ?_, h.remove rfl hin (.of_ended rfl), ?_⟩
      · intro slot
        by_cases hsame : slot = (w.objects i).obj.slot
        · subst hsame
          exact Or.inr (Or.inr ⟨⟨_, hstands⟩, Function.update_self ..⟩)
        · exact Or.inl (Function.update_of_ne hsame _ _)
      · intro dtor' rc' hreports
        have hzero' : rc' = 0 := (reports_inj.mp (Option.some.inj hreports)).2.symm
        exact ⟨fun _ => rfl, fun _ => hzero'⟩
  | detachFails dtor rc hc hgone hrc =>
      obtain ⟨hattached, hstands⟩ := h.stands (Or.inr hc)
      simp only [kernel, hstands, hrc, hgone, if_false, Option.some.injEq] at hkernel
      rw [← hkernel]
      refine .still h hin (.of_ended rfl) (Or.inr rfl) ?_
      intro dtor' rc' hreports
      rw [← (reports_inj.mp (Option.some.inj hreports)).2]
      exact ⟨fun hzero => absurd hzero hrc,
        fun hfalse => Bool.noConfusion (hattached.symm.trans hfalse)⟩

/-! ## The law -/

variable [DecidableEq ι]

/-- **One step of anybody.** -/
theorem Inv.act (h : Inv progs w) {a : Act ι} (hs : act progs w a = some w') : Inv progs w' := by
  cases a with
  | object i a =>
      obtain ⟨w₁, hkernel, hs⟩ := Option.bind_eq_some_iff.mp hs
      obtain ⟨p, hnext, rfl⟩ := Option.map_eq_some_iff.mp hs
      have hstepped := Stepped.of_act (h i) hkernel hnext
      intro j
      show Keeps progs w₁.slots j (Function.update w₁.objects i p.1 j)
      by_cases hj : j = i
      · subst hj
        rw [Function.update_self]
        exact hstepped.keeps
      · rw [Function.update_of_ne hj, hstepped.objects]
        exact hstepped.ownOnly.keeps hj (h j)
  | stranger slot program =>
      simp only [Coexistence.act] at hs
      split at hs
      · next hfree =>
          rw [← Option.some.inj hs]
          exact h.stranger hfree
      · cases hs

/-- What attachments side by side may rely on. -/
structure Coexist (progs : Int → Option UInt32) (w : World ι) : Prop where
  /-- `attached_`, `hook_`, `handle_`, `priority_` and `program_id_` say what stands in
  the kernel under the name of the attachment -/
  owned : ∀ i filter, StandsFor w.slots i filter ↔
    (w.objects i).obj.attached = true ∧ (w.objects i).obj.filter = filter
  /-- no two hold one slot -/
  apart : ∀ i j, (w.objects i).obj.attached = true → (w.objects j).obj.attached = true →
    (w.objects i).obj.slot = (w.objects j).obj.slot → i = j
  /-- a step of an attachment touches its own filter only -/
  ownOnly : ∀ i a w', act progs w (.object i a) = some w' → OwnOnly i w.slots w'.slots
  /-- `Detach` returns 0 exactly when none of its filters is left -/
  reports : ∀ i a w' p dtor rc, act progs w (.object i a) = some w' →
    next (w.objects i) a = some p → p.2 = some (Tc.reports dtor rc) →
      (rc = 0 ↔ ∀ filter, ¬ StandsFor w'.slots i filter)

/-- **Coexistence.**  Under every schedule of the calls of any number of attachments,
of the kernel's answers and of others that leave their filters alone. -/
theorem tcAttachments_coexist (progs : Int → Option UInt32) {tr : List (Act ι)} {w : World ι}
    (h : (system progs).Run tr w) : Coexist progs w := by
  have hinv : Inv progs w :=
    h.invariant (P := fun _ w => Inv progs w) (fun _ hw => Inv.init hw)
      fun _ _ _ _ ih hs => ih.act hs
  constructor
  case owned => exact fun i => (hinv i).owned
  case apart =>
    intro i j hi hj hslot
    have histands := ((hinv i).owned _).mpr ⟨hi, rfl⟩
    have hjstands := ((hinv j).owned _).mpr ⟨hj, rfl⟩
    unfold StandsFor TcAttachment.filter at histands hjstands
    rw [hslot, hjstands] at histands
    simpa using (Standing.mk.inj (Option.some.inj histands)).1.symm
  case ownOnly =>
    intro i a w' hs
    obtain ⟨w₁, hkernel, hs⟩ := Option.bind_eq_some_iff.mp hs
    obtain ⟨p, hnext, rfl⟩ := Option.map_eq_some_iff.mp hs
    exact (Stepped.of_act (hinv i) hkernel hnext).ownOnly
  case reports =>
    intro i a w' p dtor rc hs hnext hreports
    obtain ⟨w₁, hkernel, hs⟩ := Option.bind_eq_some_iff.mp hs
    obtain ⟨p', hnext', rfl⟩ := Option.map_eq_some_iff.mp hs
    obtain rfl : p = p' := Option.some.inj (hnext.symm.trans hnext')
    have hstepped := Stepped.of_act (hinv i) hkernel hnext
    rw [hstepped.reports dtor rc hreports]
    constructor
    · intro hfalse filter hstands
      have howned := (hstepped.keeps.owned filter).mp hstands
      rw [hfalse] at howned
      cases howned.1
    · intro hnone
      by_contra htrue
      exact hnone _ ((hstepped.keeps.owned _).mpr ⟨by simpa using htrue, rfl⟩)

/-- Two attachments of one program share a hook, and the first gives its slot back. -/
theorem tcAttachments_coexist_sharedHook : ∃ w : World Bool, Coexist (fun _ => some 7) w ∧
    (w.objects false).obj.attached = false ∧ (w.objects true).obj.attached = true := by
  have fresh : Tc.Initial ⟨⟨⟨0, 0⟩, 0, 0, 0, false⟩, .idle, [], ⟨⟨0, 0⟩, 0, 0, 0, false⟩, []⟩ :=
    ⟨rfl, rfl, rfl, rfl, rfl⟩
  have start : (system (ι := Bool) fun _ => some 7).Run [] ⟨fun _ => _, fun _ => none⟩ :=
    .init ⟨fun _ => fresh, fun _ _ hslot => by cases hslot⟩
  have first := (((start.act (.object false (.attach ⟨2, 1, 3, 1, 50⟩)) rfl).act
    (.object false (.infoAnswer 0 0 7)) rfl).act (.object false (.hookAnswer 0)) rfl).act
    (.object false (.attachAnswer 0 1 50)) rfl
  have second := (((first.act (.object true (.attach ⟨2, 1, 3, 2, 50⟩)) rfl).act
    (.object true (.infoAnswer 0 0 7)) rfl).act (.object true (.hookAnswer eExist)) rfl).act
    (.object true (.attachAnswer 0 2 50)) rfl
  have back := ((second.act (.object false .detach) rfl).act (.object false (.queryAnswer 0 7))
    rfl).act (.object false (.detachAnswer 0)) rfl
  exact ⟨_, tcAttachments_coexist _ back, rfl, rfl⟩

end ElephantShrew.Tc.Coexistence
