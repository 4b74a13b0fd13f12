import ElephantShrew.Bpf.ActiveTc
import ElephantShrew.Bpf.LoadedParse

/-!
# The policy the active classifier carries out

What an operator means by a rules map is smaller than the map: a table from
flows to rules for the interface the packet came in on, and one rule for every
other packet.  `Policy` is that meaning, `Policy.governing` and `ruleAction`
say what it decides for a packet of some flow or of none.  Which flow a packet is
of is said by `es_parse` on its first bytes, not by the classifier
(`classified`).  The classifier is proved to decide the same.
-/

namespace ElephantShrew.Bpf

open ElephantShrew.Verified

/-! ## The reference policy -/

/-- The rules of one interface: a rule for each flow that has one, and the rule
for everything else. -/
structure Policy where
  exact : EsTuple → Option EsRule
  fallback : Option EsRule

/-- The rule that governs a packet classified as the flow `flow`, or as no flow. -/
def Policy.governing (p : Policy) (flow : Option EsTuple) : Option EsRule :=
  match flow.bind p.exact with
  | some rule => some rule
  | none => p.fallback

/-- What a policy can ask for. -/
inductive PolicyAction where
  | pass
  | drop
  | mirror (outIfindex : UInt32)
  | redirect (outIfindex : UInt32)
  deriving DecidableEq, Repr

/-- A packet of interface `own` may be sent to the rule's target. -/
def EsRule.targets (rule : EsRule) (own : UInt32) : Prop :=
  rule.outIfindex ≠ 0 ∧ rule.outIfindex ≠ own

instance (rule : EsRule) (own : UInt32) : Decidable (rule.targets own) :=
  inferInstanceAs (Decidable (_ ∧ _))

/-- What the governing rule asks for, by action. -/
def ruleAction (own : UInt32) : Option EsRule → PolicyAction
  | none => .pass
  | some rule =>
      if rule.action = esPolicyNext then .pass
      else if rule.action = esPolicyMirror ∧ rule.targets own then .mirror rule.outIfindex
      else if rule.action = esPolicyRedirect ∧ rule.targets own then .redirect rule.outIfindex
      else .drop

/-- An action as the program reports it: the value returned and the helper
called. -/
def PolicyAction.report (c : PolicyCall) : PolicyAction → Int × Option PolicyEffect
  | .pass => (esTcNext, none)
  | .drop => (esTcDrop, none)
  | .mirror out => (esTcNext, some (.cloneRedirect out c.cloneRet))
  | .redirect out => (c.redirectRet, some (.redirect out))

/-! ## What the map and the packet mean -/

/-- The key of an exact rule. -/
def exactKey (ifindex : UInt32) (tuple : EsTuple) : EsPolicyKey where
  flow := ⟨tuple, ifindex, EsDirection.ingress.toUInt8, Vector.replicate 3 0⟩
  kind := 1
  reserved := 0

/-- The policy a rules map holds for one interface. -/
def Rules.policy (rules : Rules) (ifindex : UInt32) : Policy where
  exact tuple := rules (exactKey ifindex tuple)
  fallback := rules EsPolicyKey.zero

/-- The flow of a packet: the tuple of a complete parse with ports of the first
bytes of the packet, and no flow if they could not be loaded. -/
def classified (c : PolicyCall) : Option EsTuple :=
  if (c.skb.parsed c.load).1 = .ok ∧ (c.skb.parsed c.load).2.has esTPortsValid then
    some (c.skb.parsed c.load).2
  else none

/-- The rule that governs a packet under a rules map. -/
def governingRule (rules : Rules) (c : PolicyCall) : Option EsRule :=
  (rules.policy c.skb.ifindex).governing (classified c)

/-- A flow is a canonical tuple. -/
theorem classified_canonical {c : PolicyCall} {t : EsTuple} (h : classified c = some t) :
    Canonical .ok t := by
  unfold classified at h
  split at h
  · next hok =>
      injection h with h
      rw [← h, ← hok.1]
      exact c.skb.parsed_canonical c.load
  · cases h

theorem classified_eq_none {c : PolicyCall} (h : (c.skb.parsed c.load).1 ≠ .ok) :
    classified c = none := by
  rw [classified, if_neg fun hok => h hok.1]

/-- The lookups find the governing rule. -/
theorem esActiveLookup_eq (rules : Rules) (c : PolicyCall) :
    esActiveLookup rules c = governingRule rules c := by
  unfold esActiveLookup governingRule Policy.governing classified esActiveParse
  rw [parseLoaded_eq]
  dsimp only
  by_cases hok : (c.skb.parsed c.load).1 = .ok ∧ (c.skb.parsed c.load).2.has esTPortsValid
  · simp only [if_pos hok, Option.bind_some]
    rfl
  · simp only [if_neg hok, Option.bind_none]
    rfl

/-! ## The verdict -/

theorem ruleAction_target {own out : UInt32} {rule : Option EsRule}
    (h : ruleAction own rule = .mirror out ∨ ruleAction own rule = .redirect out) :
    out ≠ 0 ∧ out ≠ own := by
  cases rule with
  | none => rcases h with h | h <;> cases h
  | some rule =>
      simp only [ruleAction] at h
      split_ifs at h with hnext hmirror hredirect
      · simp at h
      · simp only [PolicyAction.mirror.injEq, or_false] at h
        rw [← h]
        exact hmirror.2
      · simp only [PolicyAction.redirect.injEq, false_or] at h
        rw [← h]
        exact hredirect.2
      · simp at h

/-- A helper is only ever given a target the policy allows. -/
theorem report_target {c : PolicyCall} {own : UInt32} {rule : Option EsRule} {e : PolicyEffect}
    (h : ((ruleAction own rule).report c).2 = some e) : e.target ≠ 0 ∧ e.target ≠ own := by
  cases ha : ruleAction own rule with
  | pass => rw [ha] at h; cases h
  | drop => rw [ha] at h; cases h
  | mirror out =>
      rw [ha] at h
      injection h with h
      subst h
      exact ruleAction_target (Or.inl ha)
  | redirect out =>
      rw [ha] at h
      injection h with h
      subst h
      exact ruleAction_target (Or.inr ha)

/-- The selected rule is carried out as its action. -/
theorem esActiveApply_report (c : PolicyCall) (rule : EsRule) (s : EsCounters) :
    ((esActiveApply c rule s).verdict, (esActiveApply c rule s).effect) =
      (ruleAction c.skb.ifindex (some rule)).report c := by
  have htargets : rule.targets c.skb.ifindex ↔
      ¬ (rule.outIfindex = 0 ∨ rule.outIfindex = c.skb.ifindex) := not_or.symm
  unfold esActiveApply ruleAction
  simp only [htargets]
  by_cases hnext : rule.action = esPolicyNext
  · simp only [if_pos hnext]
    rfl
  · rw [if_neg hnext, if_neg hnext]
    by_cases hdrop : rule.action = esPolicyDrop
    · have hm : rule.action ≠ esPolicyMirror := by rw [hdrop]; decide
      have hr : rule.action ≠ esPolicyRedirect := by rw [hdrop]; decide
      simp only [if_pos hdrop, hm, hr, false_and, if_false]
      rfl
    · rw [if_neg hdrop]
      by_cases hout : rule.outIfindex = 0 ∨ rule.outIfindex = c.skb.ifindex
      · simp only [hout, not_true_eq_false, and_false, if_false]
        rfl
      · rw [if_neg hout]
        simp only [hout, not_false_eq_true, and_true]
        split_ifs <;> rfl

/-- **One call under any rules map.**  The verdict and the helper call are the
reference policy's. -/
theorem esActiveIngress_report (rules : Rules) (s : EsCounters) (c : PolicyCall) :
    ((esActiveIngress (some rules) (some s) c).verdict,
      (esActiveIngress (some rules) (some s) c).effect) =
        (ruleAction c.skb.ifindex (governingRule rules c)).report c := by
  simp only [esActiveIngress, esActiveLookup_eq]
  cases governingRule rules c with
  | none => rfl
  | some rule => exact esActiveApply_report c rule s

/-- What it means for a call to carry out the policy of a rules map. -/
structure CarriesOut (rules : Rules) (s : EsCounters) (c : PolicyCall) : Prop where
  /-- the verdict and the helper call are those of the governing rule -/
  action : ((esActiveIngress (some rules) (some s) c).verdict,
    (esActiveIngress (some rules) (some s) c).effect) =
      (ruleAction c.skb.ifindex (governingRule rules c)).report c
  /-- an exact rule is looked up under a canonical tuple -/
  flow : ∀ t, classified c = some t → Canonical .ok t
  /-- no packet goes to interface zero or back where it came from -/
  target : ∀ e, (esActiveIngress (some rules) (some s) c).effect = some e →
    e.target ≠ 0 ∧ e.target ≠ c.skb.ifindex
  /-- a packet that could not be loaded is left to the default rule -/
  unloaded : c.load ≠ .success → governingRule rules c = rules EsPolicyKey.zero
  /-- and so is an incomplete parse -/
  incomplete : (c.skb.parsed c.load).1 ≠ .ok → governingRule rules c = rules EsPolicyKey.zero
  /-- rules under other keys have no influence -/
  others : ∀ rules' : Rules, rules' EsPolicyKey.zero = rules EsPolicyKey.zero →
    (∀ t, classified c = some t →
      rules' (exactKey c.skb.ifindex t) = rules (exactKey c.skb.ifindex t)) →
    esActiveIngress (some rules') (some s) c = esActiveIngress (some rules) (some s) c

/-- **The policy verdict.**  For every packet, rules map and helper outcome,
the classifier carries out the reference policy. -/
theorem esActiveIngress_carriesOut (rules : Rules) (s : EsCounters) (c : PolicyCall) :
    CarriesOut rules s c where
  action := esActiveIngress_report rules s c
  flow _ h := classified_canonical h
  target e h := by
    have hreport := congrArg Prod.snd (esActiveIngress_report rules s c)
    exact report_target (hreport.symm.trans h)
  unloaded h := by
    cases hload : c.load with
    | success => exact absurd hload h
    | failure junk =>
        have hnone : (c.skb.parsed c.load).1 ≠ .ok := by
          rw [hload]
          exact EsParseStatus.noConfusion
        rw [governingRule, classified_eq_none hnone]
        rfl
  incomplete h := by
    rw [governingRule, classified_eq_none h]
    rfl
  others rules' hzero hexact := by
    have hrule : governingRule rules' c = governingRule rules c := by
      unfold governingRule Policy.governing Rules.policy
      cases hc : classified c with
      | none => exact hzero
      | some t => simp only [Option.bind_some, hexact t hc, hzero]
    simp only [esActiveIngress, esActiveLookup_eq, hrule]

/-- A tagged UDP packet that came in on interface 3. -/
def udpPolicyCall (load : LoadOutcome) : PolicyCall where
  skb := ⟨taggedUdp.encode, 3, 0, 0, taggedUdp_length⟩
  cpu := 0
  load := load
  cloneRet := 0
  redirectRet := 7

/-- Its flow goes to interface 5, everything else is dropped. -/
def udpRules : Rules := fun key =>
  if key = exactKey 3 (taggedUdp.header.tuple false 0) then some ⟨esPolicyRedirect, 5, 1⟩
  else if key = EsPolicyKey.zero then some ⟨esPolicyDrop, 0, 1⟩
  else none

theorem classified_udpPolicyCall :
    classified (udpPolicyCall .success) = some (taggedUdp.header.tuple false 0) := by
  have hframe : (udpPolicyCall .success).skb.IsFrame taggedUdp :=
    ⟨rfl, by simp [Header.TagsOk, taggedUdp, udpPolicyCall]⟩
  have hparsed := SkBuff.parsed_of_frame hframe (by decide)
  rw [classified, if_pos ⟨hparsed.1, hparsed.2.1⟩]
  exact congrArg some hparsed.2.2

/-- The packet is redirected when it can be loaded, and dropped when it cannot. -/
theorem esActiveIngress_carriesOut_udpRules :
    CarriesOut udpRules (fun _ => 0) (udpPolicyCall .success) ∧
      ((esActiveIngress (some udpRules) (some fun _ => 0) (udpPolicyCall .success)).verdict,
        (esActiveIngress (some udpRules) (some fun _ => 0) (udpPolicyCall .success)).effect) =
          (7, some (.redirect 5)) ∧
      (esActiveIngress (some udpRules) (some fun _ => 0) (udpPolicyCall (.failure []))).verdict =
        esTcDrop := by
  have hcarries := esActiveIngress_carriesOut udpRules (fun _ => 0) (udpPolicyCall .success)
  have hrule : governingRule udpRules (udpPolicyCall .success) = some ⟨esPolicyRedirect, 5, 1⟩ := by
    rw [governingRule, classified_udpPolicyCall]
    rfl
  refine ⟨hcarries, ?_, rfl⟩
  rw [hcarries.action, hrule]
  rfl

end ElephantShrew.Bpf
