import ElephantShrew.Bpf.PolicyVerdict
import Mathlib.Data.List.Induction
import Mathlib.Data.List.Infix

/-!
# What the policy counters count

Each cell of a slot is incremented where the program does the thing the cell
is named after, with one exception: the last exit drops the packet of a rule
with an unknown action and a valid target, and counts nothing.
`PolicyLaw.run` is the exact balance over any run, with the uncounted drops as
the difference; the condition under which the cells tell the truth is read off
it.
-/

namespace ElephantShrew.Bpf

open ElephantShrew.Verified

/-! ## Runs -/

/-- What one call was seen to do. -/
structure PolicyRecord where
  cpu : UInt32
  verdict : Int
  effect : Option PolicyEffect

/-- The thing a counter is named after happened.  The observer's counters are
named after nothing that happens here. -/
def PolicyRecord.did (r : PolicyRecord) : EsCounterId → Bool
  | .policyDrop => decide (r.verdict = esTcDrop)
  | .mirrorAttempt =>
      match r.effect with
      | some (.cloneRedirect _ _) => true
      | _ => false
  | .mirrorError =>
      match r.effect with
      | some (.cloneRedirect _ rc) => decide (rc < 0)
      | _ => false
  | .redirectAttempt =>
      match r.effect with
      | some (.redirect _) => true
      | _ => false
  | _ => false

/-- A packet and the rules map it meets. -/
structure PolicyInput where
  rules : Option Rules
  call : PolicyCall

/-- The counters of every CPU and what was seen so far. -/
structure PolicyState where
  counters : UInt32 → EsCounters
  seen : List PolicyRecord

/-- Freshly loaded maps. -/
def PolicyState.init : PolicyState := ⟨fun _ _ => 0, []⟩

/-- One packet, with the counters map present. -/
def policyStep (st : PolicyState) (x : PolicyInput) : PolicyState :=
  let out := esActiveIngress x.rules (some (st.counters x.call.cpu)) x.call
  { counters := match out.counters with
      | some s => Function.update st.counters x.call.cpu s
      | none => st.counters
    seen := st.seen ++ [⟨x.call.cpu, out.verdict, out.effect⟩] }

/-- A run of the classifier: packets one after the other. -/
def policyAll (xs : List PolicyInput) : PolicyState := xs.foldl policyStep .init

/-- How often the thing `id` is named after happened on a CPU. -/
def PolicyState.times (st : PolicyState) (cpu : UInt32) (id : EsCounterId) : Nat :=
  st.seen.countP fun r => decide (r.cpu = cpu) && r.did id

/-- The counters of every CPU tell what was seen. -/
def PolicyState.Counted (st : PolicyState) : Prop :=
  ∀ cpu id, st.counters cpu id = UInt64.ofNat (st.times cpu id)

/-! ## The uncounted exit -/

/-- An action without a name. -/
def EsRule.unknown (rule : EsRule) : Prop :=
  rule.action ≠ esPolicyNext ∧ rule.action ≠ esPolicyDrop ∧ rule.action ≠ esPolicyMirror ∧
    rule.action ≠ esPolicyRedirect

instance (rule : EsRule) : Decidable rule.unknown := inferInstanceAs (Decidable (_ ∧ _ ∧ _ ∧ _))

/-- The packet is governed by a rule with an unknown action and a valid target. -/
def PolicyInput.Uncounted (x : PolicyInput) : Prop :=
  ∃ rule ∈ x.rules.bind (governingRule · x.call),
    rule.unknown ∧ rule.targets x.call.skb.ifindex

instance (x : PolicyInput) : Decidable x.Uncounted := Option.decidableExistsMem _

/-! ## One packet -/

/-- The slot `s'` is `s` with each cell grown by one where the thing it is named
after happened, except for the drop that is `missed`. -/
def Tells (s s' : EsCounters) (missed : Prop) [Decidable missed] (r : PolicyRecord) : Prop :=
  ∀ id, (s' id + if id = .policyDrop ∧ missed then 1 else 0) =
    s id + if r.did id then 1 else 0

/-- Nothing was missed: one equation for each cell. -/
theorem Tells.of_not_missed {s s' : EsCounters} {missed : Prop} [Decidable missed]
    {r : PolicyRecord} (hm : ¬ missed) (h : ∀ id, s' id = s id + if r.did id then 1 else 0) :
    Tells s s' missed r := by
  intro id
  rw [if_neg fun hid => hm hid.2, UInt64.add_zero, h]

/-- A rule carried out. -/
theorem esActiveApply_tells (c : PolicyCall) (rule : EsRule) (s : EsCounters)
    (hredirect : c.redirectRet = esTcRedirect) :
    ∃ s', (esActiveApply c rule s).counters = some s' ∧
      Tells s s' (rule.unknown ∧ rule.targets c.skb.ifindex)
        ⟨c.cpu, (esActiveApply c rule s).verdict, (esActiveApply c rule s).effect⟩ := by
  unfold esActiveApply
  by_cases hnext : rule.action = esPolicyNext
  · rw [if_pos hnext]
    refine ⟨s, rfl, .of_not_missed (fun hm => hm.1.1 hnext) fun id => ?_⟩
    cases id <;> simp [PolicyRecord.did, esTcNext, esTcDrop]
  rw [if_neg hnext]
  by_cases hdrop : rule.action = esPolicyDrop
  · rw [if_pos hdrop]
    refine ⟨_, rfl, .of_not_missed (fun hm => hm.1.2.1 hdrop) fun id => ?_⟩
    cases id <;> simp [PolicyRecord.did, EsCounters.add]
  rw [if_neg hdrop]
  by_cases hout : rule.outIfindex = 0 ∨ rule.outIfindex = c.skb.ifindex
  · rw [if_pos hout]
    refine ⟨_, rfl, .of_not_missed (fun hm => not_or.mpr hm.2 hout) fun id => ?_⟩
    cases id <;> simp [PolicyRecord.did, EsCounters.add]
  rw [if_neg hout]
  by_cases hmirror : rule.action = esPolicyMirror
  · rw [if_pos hmirror]
    refine ⟨_, rfl, .of_not_missed (fun hm => hm.1.2.2.1 hmirror) fun id => ?_⟩
    by_cases hret : c.cloneRet < 0 <;>
      cases id <;> simp [PolicyRecord.did, EsCounters.add, esTcNext, esTcDrop, hret]
  rw [if_neg hmirror]
  by_cases hredir : rule.action = esPolicyRedirect
  · rw [if_pos hredir]
    refine ⟨_, rfl, .of_not_missed (fun hm => hm.1.2.2.2 hredir) fun id => ?_⟩
    cases id <;>
      simp [PolicyRecord.did, EsCounters.add, hredirect, esTcRedirect, esTcDrop]
  rw [if_neg hredir]
  -- the exit that drops and counts nothing
  have hmissed : rule.unknown ∧ rule.targets c.skb.ifindex :=
    ⟨⟨hnext, hdrop, hmirror, hredir⟩, not_or.mp hout⟩
  refine ⟨s, rfl, fun id => ?_⟩
  cases id <;> simp [PolicyRecord.did, hmissed]

/-- **One packet.** -/
theorem esActiveIngress_tells (x : PolicyInput) (s : EsCounters)
    (hredirect : x.call.redirectRet = esTcRedirect) :
    ∃ s', (esActiveIngress x.rules (some s) x.call).counters = some s' ∧
      Tells s s' x.Uncounted
        ⟨x.call.cpu, (esActiveIngress x.rules (some s) x.call).verdict,
          (esActiveIngress x.rules (some s) x.call).effect⟩ := by
  have pass (hm : ¬ x.Uncounted) : Tells s s x.Uncounted ⟨x.call.cpu, esTcNext, none⟩ := by
    refine .of_not_missed hm fun id => ?_
    cases id <;> simp [PolicyRecord.did, esTcNext, esTcDrop]
  cases hrules : x.rules with
  | none =>
      refine ⟨s, rfl, pass ?_⟩
      simp [PolicyInput.Uncounted, hrules]
  | some rules =>
      simp only [esActiveIngress, esActiveLookup_eq]
      cases hrule : governingRule rules x.call with
      | none =>
          refine ⟨s, rfl, pass ?_⟩
          simp [PolicyInput.Uncounted, hrules, hrule]
      | some rule =>
          obtain ⟨s', hs', ht⟩ := esActiveApply_tells x.call rule s hredirect
          refine ⟨s', hs', fun id => ?_⟩
          have hm : x.Uncounted ↔ rule.unknown ∧ rule.targets x.call.skb.ifindex := by
            simp [PolicyInput.Uncounted, hrules, hrule]
          simp only [hm]
          exact ht id

/-! ## The whole run -/

/-- The uncounted packets of a run on a CPU, for the counter `id`. -/
def uncountedTimes (xs : List PolicyInput) (cpu : UInt32) (id : EsCounterId) : Nat :=
  xs.countP fun x => decide (x.call.cpu = cpu) && decide (id = .policyDrop ∧ x.Uncounted)

/-- The exact balance: what is counted and what is missed make up what happened. -/
def PolicyLaw (xs : List PolicyInput) (st : PolicyState) : Prop :=
  ∀ cpu id, st.counters cpu id + UInt64.ofNat (uncountedTimes xs cpu id) =
    UInt64.ofNat (st.times cpu id)

theorem policyStep_eq {st : PolicyState} {x : PolicyInput} {s' : EsCounters}
    (h : (esActiveIngress x.rules (some (st.counters x.call.cpu)) x.call).counters = some s') :
    policyStep st x =
      { counters := Function.update st.counters x.call.cpu s'
        seen := st.seen ++ [⟨x.call.cpu,
          (esActiveIngress x.rules (some (st.counters x.call.cpu)) x.call).verdict,
          (esActiveIngress x.rules (some (st.counters x.call.cpu)) x.call).effect⟩] } := by
  simp only [policyStep, h]

/-- Adding one packet to a balance of wrapping cells. -/
theorem balance_step {a a' u d t e : UInt64} (h : a + u = t) (hs : a' + d = a + e) :
    a' + (u + d) = t + e := by
  calc a' + (u + d) = (a' + d) + u := by ac_rfl
    _ = (a + u) + e := by rw [hs]; ac_rfl
    _ = t + e := by rw [h]

theorem PolicyLaw.step {xs : List PolicyInput} {st : PolicyState} (h : PolicyLaw xs st)
    (x : PolicyInput) (hredirect : x.call.redirectRet = esTcRedirect) :
    PolicyLaw (xs ++ [x]) (policyStep st x) := by
  obtain ⟨s', hs', ht⟩ := esActiveIngress_tells x (st.counters x.call.cpu) hredirect
  intro cpu id
  rw [policyStep_eq hs', uncountedTimes, PolicyState.times]
  simp only [List.countP_append, List.countP_singleton, ofNat_add_ite]
  have hlaw := h cpu id
  rw [uncountedTimes, PolicyState.times] at hlaw
  by_cases hcpu : x.call.cpu = cpu
  · subst hcpu
    have hid := ht id
    simp only [Function.update_self, decide_true, Bool.true_and, decide_eq_true_eq]
    exact balance_step hlaw hid
  · simp only [Function.update_of_ne (Ne.symm hcpu), hcpu, decide_false, Bool.false_and,
      Bool.false_eq_true, if_false, UInt64.add_zero]
    exact hlaw

/-- **The exact balance of any run.** -/
theorem PolicyLaw.run (xs : List PolicyInput)
    (hredirect : ∀ x ∈ xs, x.call.redirectRet = esTcRedirect) : PolicyLaw xs (policyAll xs) := by
  induction xs using List.reverseRecOn with
  | nil => exact fun _ _ => rfl
  | append_singleton xs x ih =>
      rw [policyAll, List.foldl_append]
      exact (ih fun y hy => hredirect y (List.mem_append_left _ hy)).step x
        (hredirect x (by simp))

/-- No packet is missed where none meets the uncounted exit. -/
theorem PolicyLaw.counted {xs : List PolicyInput} {st : PolicyState} (h : PolicyLaw xs st)
    (hnone : ∀ x ∈ xs, ¬ x.Uncounted) : st.Counted := by
  intro cpu id
  have hzero : uncountedTimes xs cpu id = 0 := by
    rw [uncountedTimes, List.countP_eq_zero]
    intro x hx
    simp [hnone x hx]
  have hlaw := h cpu id
  rw [hzero] at hlaw
  exact (UInt64.add_zero _).symm.trans hlaw

/-- A packet that meets it makes the drop counter wrong, before it or after. -/
theorem PolicyLaw.not_counted {xs : List PolicyInput} {x : PolicyInput} {st st' : PolicyState}
    (h : PolicyLaw xs st) (h' : PolicyLaw (xs ++ [x]) st') (hx : x.Uncounted) :
    ¬ (st.Counted ∧ st'.Counted) := by
  rintro ⟨hc, hc'⟩
  have hlaw := h x.call.cpu .policyDrop
  have hlaw' := h' x.call.cpu .policyDrop
  rw [hc, UInt64.add_eq_left] at hlaw
  rw [hc', UInt64.add_eq_left, uncountedTimes, List.countP_append, List.countP_singleton,
    ofNat_add_ite, if_pos (by simp [hx])] at hlaw'
  change UInt64.ofNat (uncountedTimes xs x.call.cpu .policyDrop) + 1 = 0 at hlaw'
  rw [hlaw] at hlaw'
  exact absurd hlaw' (by decide)

/-- **When every policy drop is counted.**  Throughout a run the counters of
every CPU tell what happened exactly when no packet of the run is governed by
a rule with an unknown action and a valid target. -/
theorem policy_counted_iff (xs : List PolicyInput)
    (hredirect : ∀ x ∈ xs, x.call.redirectRet = esTcRedirect) :
    (∀ ys, ys <+: xs → (policyAll ys).Counted) ↔ ∀ x ∈ xs, ¬ x.Uncounted := by
  have law (ys : List PolicyInput) (hys : ys <+: xs) : PolicyLaw ys (policyAll ys) :=
    .run ys fun y hy => hredirect y (hys.subset hy)
  constructor
  · intro h x hx hun
    obtain ⟨ys, zs, rfl⟩ := List.append_of_mem hx
    have hys : ys <+: ys ++ x :: zs := List.prefix_append _ _
    have hyx : ys ++ [x] <+: ys ++ x :: zs := ⟨zs, by simp⟩
    exact (law ys hys).not_counted (law _ hyx) hun ⟨h ys hys, h _ hyx⟩
  · intro h ys hys
    exact (law ys hys).counted fun y hy => h y (hys.subset hy)

/-- A one-byte packet whose default rule has action 4 and target 5. -/
def unknownActionInput : PolicyInput where
  rules := some fun key => if key = EsPolicyKey.zero then some ⟨4, 5, 1⟩ else none
  call :=
    { skb := ⟨[0], 1, 0, 0, by decide⟩
      cpu := 0
      load := .success
      cloneRet := 0
      redirectRet := esTcRedirect }

theorem policy_counted_iff_unknownAction :
    (∀ ys, ys <+: [unknownActionInput] → (policyAll ys).Counted) ↔
      ∀ x ∈ [unknownActionInput], ¬ x.Uncounted :=
  policy_counted_iff [unknownActionInput] (by simp [unknownActionInput])

/-- That packet is dropped and not counted. -/
theorem policyAll_unknownAction_not_counted :
    ¬ ∀ xs : List PolicyInput, (∀ x ∈ xs, x.call.redirectRet = esTcRedirect) →
      ∀ cpu, (policyAll xs).counters cpu .policyDrop =
        UInt64.ofNat ((policyAll xs).times cpu .policyDrop) := by
  intro h
  have hdrop := h [unknownActionInput] (by simp [unknownActionInput]) 0
  revert hdrop
  decide +kernel

end ElephantShrew.Bpf
