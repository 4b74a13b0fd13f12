import ElephantShrew.Bpf.EventSequence
import ElephantShrew.Bpf.Interleaved

/-!
# Overlapping calls are serial

Whatever the interleaving, the counters and the ring are those of the same calls
made one after the other, in the order in which they were decided.  So what is
proved of serial runs of the observer holds of the overlapping ones, for the
consumer as soon as it can see it.
-/

namespace ElephantShrew.Bpf.Interleaved

open ElephantShrew.Verified

/-! ## Counters up to the one left out -/

/-- The same counters, that of the flow table apart. -/
def Alike (v w : EsCounters) : Prop := ∀ id, id ≠ .flowUpdateFailed → v id = w id

theorem Alike.refl (v : EsCounters) : Alike v v := fun _ _ => rfl

theorem Alike.symm {v w : EsCounters} (h : Alike v w) : Alike w v :=
  fun id hid => (h id hid).symm

theorem Alike.trans {u v w : EsCounters} (h : Alike u v) (h' : Alike v w) : Alike u w :=
  fun id hid => (h id hid).trans (h' id hid)

theorem Alike.add {v w : EsCounters} (h : Alike v w) (id : EsCounterId) (n : UInt64) :
    Alike (v.add id n) (w.add id n) := by
  intro c hc
  simp only [EsCounters.add, h c hc]

theorem Alike.countStatus {v w : EsCounters} (h : Alike v w) (status : EsParseStatus) :
    Alike (countStatus v status) (countStatus w status) := by
  unfold Bpf.countStatus
  split
  · exact h.add _ _
  · split
    · exact h.add _ _
    · exact h

theorem Alike.snapshot {v w : EsCounters} (h : Alike v w) (cfg : Settings) (c : ObserveCall)
    (e : EsEvent) : Alike (takeSnapshot cfg c e v).2 (takeSnapshot cfg c e w).2 := by
  rw [takeSnapshot_snd, takeSnapshot_snd]
  split
  · exact h.add _ _
  · exact h

/-- The counters once the packet, its bytes and its parse status are counted. -/
def classifiedOf (cfg : Settings) (c : ObserveCall) (v : EsCounters) : EsCounters :=
  let v := (v.add .packets 1).add .bytes c.skb.len.toUInt64
  if cfg.parses then countStatus v (esObserveParse cfg c).1 else v

@[simp] theorem classifiedOf_selected (cfg : Settings) (c : ObserveCall) (v : EsCounters) :
    classifiedOf cfg c v .selected = v .selected := by
  unfold classifiedOf
  split
  · rw [countStatus_ne _ _ (by decide) (by decide), EsCounters.add_ne _ _ (by decide),
      EsCounters.add_ne _ _ (by decide)]
  · rw [EsCounters.add_ne _ _ (by decide), EsCounters.add_ne _ _ (by decide)]

theorem alike_esObserveCount (cfg : Settings) (c : ObserveCall) (st : ObserverState) :
    Alike (esObserveCount cfg c st).1 (classifiedOf cfg c (st.counters c.direction c.cpu)) :=
  fun _ hid => esObserveCount_counters cfg c st hid

/-- The record a call fills, if it is the `seq`-th of its slot. -/
def recordOf (cfg : Settings) (c : ObserveCall) (seq : UInt64) : EsEvent :=
  (takeSnapshot cfg c (fillEvent c seq (esObserveParse cfg c)) fun _ => 0).1

/-! ## A whole call on its slot -/

section Call

variable (cfg : Settings) (c : ObserveCall) (st : ObserverState)

theorem esObserve_deselected (h : deselected cfg (esObserveParse cfg c)) :
    Alike ((esObserve cfg c st).2.counters c.direction c.cpu)
      (classifiedOf cfg c (st.counters c.direction c.cpu)) := by
  simp only [esObserve, if_pos h, ObserverState.setSlot, and_self, if_true]
  exact alike_esObserveCount cfg c st

variable (h : ¬ deselected cfg (esObserveParse cfg c))

include h

theorem esObserve_unsampled
    (hs : ¬ sampled cfg (st.counters c.direction c.cpu .selected + 1)) :
    Alike ((esObserve cfg c st).2.counters c.direction c.cpu)
      ((classifiedOf cfg c (st.counters c.direction c.cpu)).add .selected 1) := by
  simp only [esObserve, if_neg h, esObserveCount_selected, if_pos hs, ObserverState.setSlot,
    and_self, if_true]
  exact (alike_esObserveCount cfg c st).add _ _

theorem esObserve_refused (hs : sampled cfg (st.counters c.direction c.cpu .selected + 1))
    (hr : ¬ c.ringReserved = true) :
    Alike ((esObserve cfg c st).2.counters c.direction c.cpu)
      (((classifiedOf cfg c (st.counters c.direction c.cpu)).add .selected 1).add .ringLost 1) := by
  simp only [esObserve, if_neg h, esObserveCount_selected, if_neg (not_not.mpr hs), if_neg hr,
    ObserverState.setSlot, and_self, if_true]
  exact ((alike_esObserveCount cfg c st).add _ _).add _ _

theorem esObserve_published (hs : sampled cfg (st.counters c.direction c.cpu .selected + 1))
    (hr : c.ringReserved = true) (e : EsEvent) :
    Alike ((esObserve cfg c st).2.counters c.direction c.cpu)
      ((takeSnapshot cfg c e
        ((classifiedOf cfg c (st.counters c.direction c.cpu)).add .selected 1)).2.add
          .events 1) := by
  simp only [esObserve, if_neg h, esObserveCount_selected, if_neg (not_not.mpr hs), if_pos hr,
    ObserverState.setSlot, and_self, if_true]
  apply Alike.add
  have hsame := ((alike_esObserveCount cfg c st).add .selected 1).snapshot cfg c e
  rw [takeSnapshot_snd] at hsame ⊢
  exact hsame

end Call

/-! ## The invariant -/

/-- The call in hand that is not decided yet. -/
def Phase.undecided : Phase → List ObserveCall
  | .entered c _ | .measured c _ | .classified c _ | .chosen c _ _ => [c]
  | _ => []

/-- The record the call has reserved and not submitted. -/
def Phase.holds : Phase → Nat → Prop
  | .reserved _ _ index, i | .filled _ index, i => index = i
  | _, _ => False

/-- What the counters of a slot and its phase have to do with the serial run: until
its call is decided they are ahead of it, then behind. -/
def Agrees (cfg : Settings) (st : ObserverState) (slot : Slot) (v : EsCounters) : Phase → Prop
  | .idle => Alike v (st.counters slot.1 slot.2)
  | .entered c seq => c.slot = slot ∧ seq = st.counters slot.1 slot.2 .packets + 1 ∧
      Alike v ((st.counters slot.1 slot.2).add .packets 1)
  | .measured c seq => c.slot = slot ∧ seq = st.counters slot.1 slot.2 .packets + 1 ∧
      Alike v (((st.counters slot.1 slot.2).add .packets 1).add .bytes c.skb.len.toUInt64)
  | .classified c seq => c.slot = slot ∧ seq = st.counters slot.1 slot.2 .packets + 1 ∧
      Alike v (classifiedOf cfg c (st.counters slot.1 slot.2))
  | .chosen c seq selected => c.slot = slot ∧ seq = st.counters slot.1 slot.2 .packets + 1 ∧
      ¬ deselected cfg (esObserveParse cfg c) ∧
      selected = st.counters slot.1 slot.2 .selected + 1 ∧
      Alike v ((classifiedOf cfg c (st.counters slot.1 slot.2)).add .selected 1)
  | .refused => Alike (v.add .ringLost 1) (st.counters slot.1 slot.2)
  | .reserved c seq i => st.submitted[i]? = some (recordOf cfg c seq) ∧
      ∀ e, Alike ((takeSnapshot cfg c e v).2.add .events 1) (st.counters slot.1 slot.2)
  | .filled e i => st.submitted[i]? = some e ∧
      Alike (v.add .events 1) (st.counters slot.1 slot.2)
  | .submitted => Alike (v.add .events 1) (st.counters slot.1 slot.2)

variable {cfg : Settings} {s s' : State}

/-- The calls overlap as if they were made in the order in which they were decided. -/
structure Inv (cfg : Settings) (s : State) : Prop where
  slots : ∀ slot, Agrees cfg (s.serial cfg) slot (s.counters slot) (s.phase slot)
  order : ∀ slot : Slot, slotCalls slot.1 slot.2 s.begun =
    slotCalls slot.1 slot.2 s.decided ++ (s.phase slot).undecided
  length : s.ring.length = (s.serial cfg).submitted.length
  ready : ∀ (i : Nat) (e : EsEvent), s.ring[i]? = some (some e) →
    (s.serial cfg).submitted[i]? = some e
  busy : ∀ i : Nat, s.ring[i]? = some none → ∃ slot, (s.phase slot).holds i

theorem Inv.init : Inv cfg .init := by
  constructor
  case slots => exact fun _ => Alike.refl _
  case order => exact fun _ => rfl
  case length => rfl
  case ready => exact nofun
  case busy => exact nofun

/-- A slot agrees with a serial run as long as it is left alone. -/
theorem Agrees.mono {st st' : ObserverState} {slot : Slot} {v : EsCounters} {p : Phase}
    (h : Agrees cfg st slot v p)
    (hcounters : st'.counters slot.1 slot.2 = st.counters slot.1 slot.2)
    (hsubmitted : st.submitted <+: st'.submitted) : Agrees cfg st' slot v p := by
  obtain ⟨more, hmore⟩ := hsubmitted
  have hkept : ∀ (i : Nat) (e : EsEvent), st.submitted[i]? = some e →
      st'.submitted[i]? = some e := by
    intro i e hi
    rw [← hmore, List.getElem?_append_left (List.getElem?_eq_some_iff.mp hi).1]
    exact hi
  cases p
  case reserved =>
    unfold Agrees
    rw [hcounters]
    exact ⟨hkept _ _ h.1, h.2⟩
  case filled =>
    unfold Agrees
    rw [hcounters]
    exact ⟨hkept _ _ h.1, h.2⟩
  all_goals
    unfold Agrees
    rw [hcounters]
    exact h

/-! ## One operation -/

/-- Only the call of one slot moves, and it is not decided by it. -/
theorem Inv.moved (h : Inv cfg s) {slot : Slot} {v : EsCounters} {p : Phase}
    {ring : List (Option EsEvent)} {begun : List ObserveCall}
    (hagrees : Agrees cfg (s.serial cfg) slot v p)
    (horder : ∀ other : Slot, slotCalls other.1 other.2 begun =
      slotCalls other.1 other.2 s.decided ++ (Function.update s.phase slot p other).undecided)
    (hlength : ring.length = s.ring.length)
    (hready : ∀ (i : Nat) (e : EsEvent), ring[i]? = some (some e) →
      (s.serial cfg).submitted[i]? = some e)
    (hbusy : ∀ i : Nat, ring[i]? = some none →
      ∃ other, (Function.update s.phase slot p other).holds i) :
    Inv cfg { s.move slot v p with ring := ring, begun := begun } := by
  constructor
  case slots =>
    intro other
    show Agrees cfg (s.serial cfg) other (Function.update s.counters slot v other)
      (Function.update s.phase slot p other)
    by_cases hother : other = slot
    · subst hother
      rw [Function.update_self, Function.update_self]
      exact hagrees
    · rw [Function.update_of_ne hother, Function.update_of_ne hother]
      exact h.slots other
  case order => exact horder
  case length => exact hlength.trans h.length
  case ready => exact hready
  case busy => exact hbusy

/-- The operation is on the slot's own counters. -/
theorem Inv.move (h : Inv cfg s) {slot : Slot} {v : EsCounters} {p : Phase}
    (hagrees : Agrees cfg (s.serial cfg) slot v p)
    (hundecided : p.undecided = (s.phase slot).undecided)
    (hholds : ∀ i, (s.phase slot).holds i → p.holds i) : Inv cfg (s.move slot v p) := by
  apply h.moved hagrees _ rfl h.ready
  · intro i hi
    obtain ⟨other, hother⟩ := h.busy i hi
    refine ⟨other, ?_⟩
    by_cases hslot : other = slot
    · subst hslot
      rw [Function.update_self]
      exact hholds i hother
    · rw [Function.update_of_ne hslot]
      exact hother
  · intro other
    rw [h.order other]
    by_cases hslot : other = slot
    · subst hslot
      rw [Function.update_self, hundecided]
    · rw [Function.update_of_ne hslot]

theorem serial_decide (s : State) (c : ObserveCall) :
    (s.decide c).serial cfg = (esObserve cfg c (s.serial cfg)).2 :=
  observeAll_concat s.decided c .init

theorem onSlot_iff (slot : Slot) (c : ObserveCall) : onSlot slot.1 slot.2 c ↔ slot = c.slot := by
  rw [onSlot, ObserveCall.slot, Prod.ext_iff]

theorem Phase.not_holds {p : Phase} {c : ObserveCall} (h : p.undecided = [c]) (i : Nat) :
    ¬ p.holds i := by
  cases p
  case reserved => cases h
  case filled => cases h
  all_goals exact id

/-- The call in hand is decided, with a record of the ring or without. -/
theorem Inv.decide (h : Inv cfg s) {c : ObserveCall} {v : EsCounters} {p : Phase}
    (hcall : (s.phase c.slot).undecided = [c]) (hdone : p.undecided = [])
    {more : List (Option EsEvent)}
    (hmore : more = if publishes cfg c (s.serial cfg) then [none] else [])
    (hagrees : Agrees cfg (esObserve cfg c (s.serial cfg)).2 c.slot v p)
    (hholds : publishes cfg c (s.serial cfg) → p.holds s.ring.length) :
    Inv cfg { (s.move c.slot v p).decide c with ring := s.ring ++ more } := by
  have hserial : ∀ ring : List (Option EsEvent),
      State.serial cfg { (s.move c.slot v p).decide c with ring := ring } =
        (esObserve cfg c (s.serial cfg)).2 := fun _ => serial_decide s c
  have hsubmitted := esObserve_submitted cfg c (s.serial cfg)
  constructor
  case slots =>
    intro other
    rw [hserial]
    by_cases hother : other = c.slot
    · subst hother
      simpa [State.move, State.decide] using hagrees
    · have hslot : ¬ (other.1 = c.direction ∧ other.2 = c.cpu) :=
        fun hon => hother ((onSlot_iff other c).mp hon)
      have hmono : Agrees cfg (esObserve cfg c (s.serial cfg)).2 other (s.counters other)
          (s.phase other) :=
        (h.slots other).mono (esObserve_other_slot cfg c _ hslot) ⟨_, hsubmitted.symm⟩
      simpa [State.move, State.decide, hother] using hmono
  case order =>
    intro other
    show slotCalls other.1 other.2 s.begun = slotCalls other.1 other.2 (s.decided ++ [c]) ++
      (Function.update s.phase c.slot p other).undecided
    rw [slotCalls_concat, h.order other]
    by_cases hother : other = c.slot
    · subst hother
      rw [if_pos ((onSlot_iff _ c).mpr rfl), Function.update_self, hdone, hcall, List.append_nil]
    · rw [if_neg (fun hon => hother ((onSlot_iff other c).mp hon)), Function.update_of_ne hother,
        List.append_nil]
  case length =>
    rw [hserial, hsubmitted, List.length_append, List.length_append, h.length, hmore]
    split <;> rfl
  case ready =>
    intro i e hi
    rw [hserial, hsubmitted]
    have hold : s.ring[i]? = some (some e) := by
      by_cases hlt : i < s.ring.length
      · rwa [List.getElem?_append_left hlt] at hi
      · rw [List.getElem?_append_right (Nat.le_of_not_lt hlt), hmore] at hi
        split at hi
        · cases hn : i - s.ring.length <;> simp [hn] at hi
        · simp at hi
    have hready := h.ready i e hold
    rw [List.getElem?_append_left (List.getElem?_eq_some_iff.mp hready).1]
    exact hready
  case busy =>
    intro i hi
    show ∃ slot, (Function.update s.phase c.slot p slot).holds i
    by_cases hlt : i < s.ring.length
    · rw [List.getElem?_append_left hlt] at hi
      obtain ⟨slot, hslot⟩ := h.busy i hi
      have hne : slot ≠ c.slot := by
        intro heq
        exact Phase.not_holds hcall i (heq ▸ hslot)
      exact ⟨slot, by rwa [Function.update_of_ne hne]⟩
    · rw [List.getElem?_append_right (Nat.le_of_not_lt hlt), hmore] at hi
      by_cases hp : publishes cfg c (s.serial cfg)
      · rw [if_pos hp] at hi
        have hlast : i = s.ring.length := by
          have := (List.getElem?_eq_some_iff.mp hi).1
          simp only [List.length_singleton] at this
          omega
        refine ⟨c.slot, ?_⟩
        rw [Function.update_self, hlast]
        exact hholds hp
      · rw [if_neg hp] at hi
        simp at hi

theorem Inv.enter (h : Inv cfg s) {c : ObserveCall} (hs : enter s c = some s') : Inv cfg s' := by
  unfold Interleaved.enter at hs
  have hslot := h.slots c.slot
  cases hphase : s.phase c.slot
  case idle =>
    rw [hphase] at hs hslot
    injection hs with hs
    subst hs
    apply h.moved _ _ rfl h.ready
    · intro i hi
      obtain ⟨other, hother⟩ := h.busy i hi
      refine ⟨other, ?_⟩
      have hne : other ≠ c.slot := by
        intro heq
        rw [heq, hphase] at hother
        exact hother
      rw [Function.update_of_ne hne]
      exact hother
    · refine ⟨rfl, ?_, hslot.add _ _⟩
      rw [hslot .packets (by decide)]
    · intro other
      rw [slotCalls_concat, h.order other]
      by_cases hother : other = c.slot
      · subst hother
        rw [if_pos ((onSlot_iff _ c).mpr rfl), Function.update_self, hphase]
        exact List.append_nil _ ▸ rfl
      · rw [if_neg (fun hon => hother ((onSlot_iff other c).mp hon)),
          Function.update_of_ne hother, List.append_nil]
  all_goals
    rw [hphase] at hs
    cases hs

/-- The record of a filled slot goes to the consumer. -/
theorem Inv.submit (h : Inv cfg s) {slot : Slot} {e : EsEvent} {index : Nat}
    (hphase : s.phase slot = .filled e index) :
    Inv cfg { s.move slot (s.counters slot) .submitted with
      ring := s.ring.set index (some e) } := by
  have hslot := h.slots slot
  rw [hphase] at hslot
  have hagrees : Agrees cfg (s.serial cfg) slot (s.counters slot) .submitted := hslot.2
  apply h.moved hagrees _ List.length_set
  · intro i e' hi
    rw [List.getElem?_set] at hi
    split at hi
    · next heq =>
        subst heq
        split at hi
        · injection hi with hi
          injection hi with hi
          rw [← hi]
          exact hslot.1
        · cases hi
    · exact h.ready i e' hi
  · intro i hi
    rw [List.getElem?_set] at hi
    split at hi
    · split at hi
      · injection hi with hi
        cases hi
      · cases hi
    · next hne =>
        obtain ⟨other, hother⟩ := h.busy i hi
        refine ⟨other, ?_⟩
        have hslot : other ≠ slot := by
          intro heq
          rw [heq, hphase] at hother
          exact hne hother
        rw [Function.update_of_ne hslot]
        exact hother
  · intro other
    show slotCalls other.1 other.2 s.begun = _
    rw [h.order other]
    by_cases hother : other = slot
    · subst hother
      rw [Function.update_self, hphase]
      rfl
    · rw [Function.update_of_ne hother]

/-- The call leaves without a record. -/
theorem Inv.pass (h : Inv cfg s) {c : ObserveCall} {v : EsCounters} {p : Phase}
    (hcall : (s.phase c.slot).undecided = [c]) (hdone : p.undecided = [])
    (hnone : ¬ publishes cfg c (s.serial cfg))
    (hagrees : Agrees cfg (esObserve cfg c (s.serial cfg)).2 c.slot v p) :
    Inv cfg ((s.move c.slot v p).decide c) := by
  have hmore : ([] : List (Option EsEvent)) =
      if publishes cfg c (s.serial cfg) then [none] else [] := by
    rw [if_neg hnone]
  have hdecided := h.decide hcall hdone hmore hagrees fun hp => absurd hp hnone
  rw [List.append_nil] at hdecided
  exact hdecided

/-- **One operation** of the call of a slot. -/
theorem Inv.proceed (h : Inv cfg s) {slot : Slot} (hs : proceed cfg s slot = some s') :
    Inv cfg s' := by
  unfold Interleaved.proceed at hs
  have hslot := h.slots slot
  cases hphase : s.phase slot with
  | idle =>
      rw [hphase] at hs
      cases hs
  | entered c seq =>
      rw [hphase] at hs hslot
      injection hs with hs
      subst hs
      apply h.move _ (by rw [hphase]; rfl) (by rw [hphase]; exact nofun)
      exact ⟨hslot.1, hslot.2.1, hslot.2.2.add _ _⟩
  | measured c seq =>
      rw [hphase] at hs hslot
      injection hs with hs
      subst hs
      apply h.move _ (by rw [hphase]; rfl) (by rw [hphase]; exact nofun)
      refine ⟨hslot.1, hslot.2.1, ?_⟩
      unfold classifiedOf
      by_cases hp : cfg.parses
      · simp only [if_pos hp]
        exact hslot.2.2.countStatus _
      · simp only [if_neg hp]
        exact hslot.2.2
  | classified c seq =>
      rw [hphase] at hs hslot
      obtain ⟨rfl, hseq, halike⟩ := hslot
      dsimp only at hs
      split at hs
      · next hdeselected =>
          injection hs with hs
          subst hs
          apply h.pass (by rw [hphase]; rfl) rfl
          · exact fun hp => (not_deselected_iff cfg c).mpr hp.1.1 hdeselected
          · exact halike.trans (esObserve_deselected cfg c _ hdeselected).symm
      · next hchosen =>
          injection hs with hs
          subst hs
          apply h.move _ (by rw [hphase]; rfl) (by rw [hphase]; exact nofun)
          refine ⟨rfl, hseq, hchosen, ?_, halike.add _ _⟩
          rw [halike .selected (by decide), classifiedOf_selected]
  | chosen c seq selected =>
      rw [hphase] at hs hslot
      obtain ⟨rfl, hseq, hchosen, rfl, halike⟩ := hslot
      dsimp only at hs
      split at hs
      · next hsampled =>
          injection hs with hs
          subst hs
          apply h.pass (by rw [hphase]; rfl) rfl
          · exact fun hp => hsampled hp.1.2
          · exact halike.trans (esObserve_unsampled cfg c _ hchosen hsampled).symm
      · next hsampled =>
          rw [not_not] at hsampled
          split at hs
          · next hroom =>
              injection hs with hs
              subst hs
              have hp : publishes cfg c (s.serial cfg) :=
                ⟨⟨(not_deselected_iff cfg c).mp hchosen, hsampled⟩, hroom⟩
              apply h.decide (p := .reserved c seq s.ring.length) (by rw [hphase]; rfl) rfl
                (by rw [if_pos hp]) _ fun _ => rfl
              constructor
              · rw [esObserve_submitted, if_pos hp, h.length,
                  List.getElem?_append_right (Nat.le_refl _), Nat.sub_self, hseq]
                rfl
              · intro e
                exact ((halike.snapshot cfg c e).add _ _).trans
                  (esObserve_published cfg c _ hchosen hsampled hroom e).symm
          · next hroom =>
              injection hs with hs
              subst hs
              apply h.pass (by rw [hphase]; rfl) rfl
              · exact fun hp => hroom hp.2
              · exact (halike.add _ _).trans
                  (esObserve_refused cfg c _ hchosen hsampled hroom).symm
  | refused =>
      rw [hphase] at hs hslot
      injection hs with hs
      subst hs
      exact h.move hslot (by rw [hphase]; rfl) (by rw [hphase]; exact nofun)
  | reserved c seq index =>
      rw [hphase] at hs hslot
      have hrecord := takeSnapshot_fst cfg c (fillEvent c seq (esObserveParse cfg c))
        (s.counters slot) fun _ => 0
      have hbehind := hslot.2 (fillEvent c seq (esObserveParse cfg c))
      dsimp only at hs
      generalize takeSnapshot cfg c (fillEvent c seq (esObserveParse cfg c)) (s.counters slot) =
        snapshot at hs hrecord hbehind
      injection hs with hs
      subst hs
      apply h.move _ (by rw [hphase]; rfl) (by rw [hphase]; exact fun _ hi => hi)
      refine ⟨?_, hbehind⟩
      rw [hslot.1, hrecord]
      rfl
  | filled e index =>
      rw [hphase] at hs
      injection hs with hs
      subst hs
      exact h.submit hphase
  | submitted =>
      rw [hphase] at hs hslot
      injection hs with hs
      subst hs
      exact h.move hslot (by rw [hphase]; rfl) (by rw [hphase]; exact nofun)

theorem Inv.act (h : Inv cfg s) {a : Action} (hs : act cfg s a = some s') : Inv cfg s' := by
  cases a with
  | enter c => exact h.enter hs
  | proceed slot => exact h.proceed hs

theorem Inv.run {tr : List Action} (h : (system cfg).Run tr s) : Inv cfg s := by
  apply h.invariant (P := fun _ s => Inv cfg s)
  · intro s hinit
    rw [show s = .init from hinit]
    exact .init
  · intro tr s a s' hinv hs
    exact hinv.act hs

/-! ## What the consumer sees -/

/-- Records that are ready as they will be give an initial part of what will be. -/
theorem consumable_mono {ring : List (Option EsEvent)} {events : List EsEvent}
    (hready : ∀ (i : Nat) (e : EsEvent), ring[i]? = some (some e) → events[i]? = some e) :
    consumable ring <+: events := by
  induction ring generalizing events with
  | nil => exact List.nil_prefix
  | cons r ring ih =>
      cases r with
      | none => exact List.nil_prefix
      | some e =>
          have hhead := hready 0 e rfl
          cases events with
          | nil => cases hhead
          | cons e' events =>
              injection hhead with hhead
              rw [consumable, hhead, List.prefix_cons_inj]
              exact ih fun i => hready (i + 1)

/-- With nothing busy all of it is there. -/
theorem length_consumable {ring : List (Option EsEvent)}
    (hbusy : ∀ i : Nat, ring[i]? ≠ some none) : (consumable ring).length = ring.length := by
  induction ring with
  | nil => rfl
  | cons r ring ih =>
      cases r with
      | none => exact absurd rfl (hbusy 0)
      | some e =>
          have htail := ih fun i => hbusy (i + 1)
          rw [consumable, List.length_cons, List.length_cons, htail]

theorem consumable_concat (ring : List (Option EsEvent)) :
    consumable ring <+: consumable (ring ++ [none]) := by
  induction ring with
  | nil => exact List.nil_prefix
  | cons r ring ih =>
      cases r with
      | none => exact List.nil_prefix
      | some e => exact List.prefix_cons_inj e |>.mpr ih

/-- A record may be filled without a change to those before it. -/
theorem consumable_set {ring : List (Option EsEvent)} {i : Nat} {e : EsEvent}
    (h : ∀ e', ring[i]? = some (some e') → e' = e) :
    consumable ring <+: consumable (ring.set i (some e)) := by
  induction ring generalizing i with
  | nil => exact List.nil_prefix
  | cons r ring ih =>
      cases r with
      | none => exact List.nil_prefix
      | some e' =>
          cases i with
          | zero =>
              rw [h e' rfl]
              exact List.prefix_rfl
          | succ i => exact List.prefix_cons_inj e' |>.mpr (ih h)

/-! ## The law -/

/-- Overlapping calls as the serial run of the decided ones. -/
structure Serialized (cfg : Settings) (s : State) : Prop where
  /-- a slot's calls are decided in the order they begin, all but the one in hand -/
  order : ∀ slot : Slot, slotCalls slot.1 slot.2 s.begun =
    slotCalls slot.1 slot.2 s.decided ++ (s.phase slot).undecided
  /-- between its calls a slot has the counters of the serial run -/
  counters : ∀ slot, s.phase slot = .idle →
    Alike (s.counters slot) ((s.serial cfg).counters slot.1 slot.2)
  /-- the consumer sees the first events of the serial run -/
  seen : consumable s.ring <+: (s.serial cfg).submitted
  /-- and all of them once no call runs -/
  settled : (∀ slot, s.phase slot = .idle) → consumable s.ring = (s.serial cfg).submitted
  /-- the sequences it sees of a slot increase -/
  sequences : ∀ slot : Slot, (slotCalls slot.1 slot.2 s.decided).length < 2 ^ 64 →
    (slotEvents slot.1 slot.2 (consumable s.ring)).Pairwise fun e e' => e.sequence < e'.sequence
  /-- no operation takes a decision or an event back -/
  grows : ∀ a s', act cfg s a = some s' →
    s.decided <+: s'.decided ∧ consumable s.ring <+: consumable s'.ring

theorem Inv.grows (h : Inv cfg s) {a : Action} (hs : Interleaved.act cfg s a = some s') :
    s.decided <+: s'.decided ∧ consumable s.ring <+: consumable s'.ring := by
  cases a with
  | enter c =>
      have hsame : Interleaved.enter s c = some s' := hs
      unfold Interleaved.enter at hsame
      cases hphase : s.phase c.slot <;> rw [hphase] at hsame <;> cases hsame
      exact ⟨List.prefix_rfl, List.prefix_rfl⟩
  | proceed slot =>
      have hsame : Interleaved.proceed cfg s slot = some s' := hs
      have hslot := h.slots slot
      unfold Interleaved.proceed at hsame
      cases hphase : s.phase slot <;> rw [hphase] at hsame hslot <;> dsimp only at hsame
      case idle => cases hsame
      case classified c seq =>
        split at hsame
        · cases hsame
          exact ⟨List.prefix_append _ _, List.prefix_rfl⟩
        · cases hsame
          exact ⟨List.prefix_rfl, List.prefix_rfl⟩
      case chosen c seq selected =>
        split at hsame
        · cases hsame
          exact ⟨List.prefix_append _ _, List.prefix_rfl⟩
        · split at hsame
          · cases hsame
            exact ⟨List.prefix_append _ _, consumable_concat _⟩
          · cases hsame
            exact ⟨List.prefix_append _ _, List.prefix_rfl⟩
      case filled e index =>
        cases hsame
        refine ⟨List.prefix_rfl, consumable_set ?_⟩
        intro e' he'
        have hready := h.ready index e' he'
        rw [hslot.1] at hready
        exact (Option.some.inj hready).symm
      all_goals
        cases hsame
        exact ⟨List.prefix_rfl, List.prefix_rfl⟩

/-- **Overlapping calls are serial**: under every interleaving of the calls of all
CPUs the ring and the counters are those of the calls made one after the other. -/
theorem esObserve_serializable (cfg : Settings) (tr : List Action) (s : State)
    (h : (system cfg).Run tr s) : Serialized cfg s := by
  have hinv : Inv cfg s := Inv.run h
  have hseen : consumable s.ring <+: (s.serial cfg).submitted := consumable_mono hinv.ready
  constructor
  case order => exact hinv.order
  case counters =>
    intro slot hidle
    have hslot := hinv.slots slot
    rw [hidle] at hslot
    exact hslot
  case seen => exact hseen
  case settled =>
    intro hidle
    apply hseen.eq_of_length
    rw [length_consumable, hinv.length]
    intro i hi
    obtain ⟨slot, hslot⟩ := hinv.busy i hi
    rw [hidle slot] at hslot
    exact hslot
  case sequences =>
    intro slot hwrap
    have hincreasing : (eventsAfter cfg slot.1 slot.2 s.decided).Pairwise
        fun e e' => e.sequence < e'.sequence := increasing_run s.decided hwrap
    exact hincreasing.sublist (hseen.sublist.filter _)
  case grows =>
    intro a s' hs
    exact hinv.grows hs

/-- A packet of one byte, on one of two CPUs. -/
def onCpu (cpu : UInt32) : ObserveCall where
  skb := ⟨[0, 0], 3, 0, 0, by decide⟩
  direction := .ingress
  cpu := cpu
  now := 0
  parseLoad := .success
  snapshotLoad := .success
  ringReserved := true
  flowInsert := ⟨true, fun _ => false⟩

/-- The first to reserve is the last to submit. -/
theorem esObserve_serializable_twoCpus : ∃ s, Serialized ⟨1, 0, 0, 0, 0⟩ s ∧
    consumable s.ring = [] ∧ (s.decided.map ObserveCall.cpu) = [0, 1] := by
  have start : (system ⟨1, 0, 0, 0, 0⟩).Run [] .init := .init rfl
  have first := ((((start.act (.enter (onCpu 0)) rfl).act (.proceed (.ingress, 0)) rfl).act
    (.proceed (.ingress, 0)) rfl).act (.proceed (.ingress, 0)) rfl).act (.proceed (.ingress, 0)) rfl
  have second := (((((((first.act (.enter (onCpu 1)) rfl).act (.proceed (.ingress, 1)) rfl).act
    (.proceed (.ingress, 1)) rfl).act (.proceed (.ingress, 1)) rfl).act
      (.proceed (.ingress, 1)) rfl).act (.proceed (.ingress, 1)) rfl).act
        (.proceed (.ingress, 1)) rfl)
  exact ⟨_, esObserve_serializable _ _ _ second, rfl, rfl⟩

end ElephantShrew.Bpf.Interleaved
