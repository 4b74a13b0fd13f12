import ElephantShrew.Bpf.PolicyDrops
import ElephantShrew.Verified.StepSystem

/-!
# Generations of rules

The rules are reached through a map of maps, so that user space replaces all of them
at once: it fills a map that nobody reads and publishes it in `active_rules`.  A
call of `es_active_ingress` looks up the published map once and makes its one or
two rule lookups in that map, while other maps are published and other CPUs go on.

As long as only maps are edited that are neither published nor read, every packet
is judged by one generation: the calls are those of a serial run, each with the
rules that were published when it looked.  There is one call at a time on a CPU, and
its counters are never missing.
-/

namespace ElephantShrew.Bpf.Generations

open ElephantShrew.Verified

/-- Where the call of a CPU stands. -/
inductive Phase where
  | idle
  /-- `active_rules` has led to no map -/
  | unruled (c : PolicyCall)
  /-- `active_rules` has led to the map `id` -/
  | looked (c : PolicyCall) (id : Nat)
  /-- there is no exact rule, and the key is all zeros -/
  | missed (c : PolicyCall) (id : Nat)
  /-- one rule is copied -/
  | selected (c : PolicyCall) (rule : EsRule)

/-- The call reads the map. -/
def Phase.reads (id : Nat) : Phase → Prop
  | .looked _ id' => id' = id
  | .missed _ id' => id' = id
  | _ => False

structure State where
  /-- the inner maps -/
  maps : Nat → Rules
  /-- what `active_rules` holds -/
  active : Option Nat
  counters : UInt32 → EsCounters
  phase : UInt32 → Phase
  /-- the packets in the order of their first lookup, each with the rules it met -/
  begun : List PolicyInput
  seen : List PolicyRecord

/-- Freshly loaded maps: the template is published. -/
def Initial (s : State) : Prop :=
  s.active.isSome ∧ s.counters = (fun _ _ => 0) ∧ s.phase = (fun _ => .idle) ∧ s.begun = [] ∧
    s.seen = []

def State.move (s : State) (cpu : UInt32) (p : Phase) : State :=
  { s with phase := Function.update s.phase cpu p }

/-- The call returns. -/
def State.finish (s : State) (c : PolicyCall) (out : PolicyOutcome) : State :=
  { s.move c.cpu .idle with
    counters := match out.counters with
      | some v => Function.update s.counters c.cpu v
      | none => s.counters
    seen := s.seen ++ [⟨c.cpu, out.verdict, out.effect⟩] }

/-- A call begins with the lookup in `active_rules`. -/
def enter (s : State) (c : PolicyCall) : Option State :=
  match s.phase c.cpu with
  | .idle =>
      match s.active with
      | none => some { s.move c.cpu (.unruled c) with begun := s.begun ++ [⟨none, c⟩] }
      | some id =>
          some { s.move c.cpu (.looked c id) with begun := s.begun ++ [⟨some (s.maps id), c⟩] }
  | _ => none

/-- The next lookup of a call, or its end. -/
def proceed (s : State) (cpu : UInt32) : Option State :=
  match s.phase cpu with
  | .idle => none
  -- explicit initial fail-open policy
  | .unruled c => some (s.finish c ⟨esTcNext, none, some (s.counters cpu)⟩)
  | .looked c id =>
      match (classified c).bind fun tuple => s.maps id (exactKey c.skb.ifindex tuple) with
      | some rule => some (s.move cpu (.selected c rule))
      | none => some (s.move cpu (.missed c id))
  | .missed c id =>
      match s.maps id EsPolicyKey.zero with
      | some rule => some (s.move cpu (.selected c rule))
      | none => some (s.finish c ⟨esTcNext, none, some (s.counters cpu)⟩)
  | .selected c rule => some (s.finish c (esActiveApply c rule (s.counters cpu)))

inductive Action where
  | enter (c : PolicyCall)
  | proceed (cpu : UInt32)
  /-- user space fills a map -/
  | edit (id : Nat) (rules : Rules)
  /-- user space replaces the published map, or removes it -/
  | publish (active : Option Nat)

def act (s : State) : Action → Option State
  | .enter c => enter s c
  | .proceed cpu => proceed s cpu
  | .edit id rules => some { s with maps := Function.update s.maps id rules }
  | .publish active => some { s with active := active }

/-- The calls on all CPUs and user space. -/
def system : System State Action := .ofAct Initial act

/-- A map is edited only while it is not published and nobody reads it. -/
def Unread (s : State) : Action → Prop
  | .edit id _ => s.active ≠ some id ∧ ∀ cpu, ¬ (s.phase cpu).reads id
  | _ => True

/-! ## The packets of one CPU -/

def onCpu (cpu : UInt32) (xs : List PolicyInput) : List PolicyInput :=
  xs.filter fun x => x.call.cpu = cpu

def seenOn (cpu : UInt32) (seen : List PolicyRecord) : List PolicyRecord :=
  seen.filter fun r => r.cpu = cpu

theorem onCpu_concat (cpu : UInt32) (xs : List PolicyInput) (x : PolicyInput) :
    onCpu cpu (xs ++ [x]) = onCpu cpu xs ++ if x.call.cpu = cpu then [x] else [] := by
  rw [onCpu, List.filter_append]
  by_cases hcpu : x.call.cpu = cpu <;> simp [onCpu, hcpu]

theorem seenOn_concat (cpu : UInt32) (seen : List PolicyRecord) (r : PolicyRecord) :
    seenOn cpu (seen ++ [r]) = seenOn cpu seen ++ if r.cpu = cpu then [r] else [] := by
  rw [seenOn, List.filter_append]
  by_cases hcpu : r.cpu = cpu <;> simp [seenOn, hcpu]

theorem policyAll_concat (xs : List PolicyInput) (x : PolicyInput) :
    policyAll (xs ++ [x]) = policyStep (policyAll xs) x := List.foldl_concat ..

/-- A packet leaves the other CPUs alone. -/
theorem policyStep_of_ne {st : PolicyState} {x : PolicyInput} {cpu : UInt32}
    (h : x.call.cpu ≠ cpu) : (policyStep st x).counters cpu = st.counters cpu := by
  unfold policyStep
  dsimp only
  cases (esActiveIngress x.rules (some (st.counters x.call.cpu)) x.call).counters with
  | none => rfl
  | some v => exact Function.update_of_ne (Ne.symm h) _ _

/-- Two states that agree on a CPU make the same of its packet. -/
theorem policyStep_congr {st st' : PolicyState} {x : PolicyInput}
    (h : st.counters x.call.cpu = st'.counters x.call.cpu) :
    (policyStep st x).counters x.call.cpu = (policyStep st' x).counters x.call.cpu ∧
      ∃ r, r.cpu = x.call.cpu ∧ (policyStep st x).seen = st.seen ++ [r] ∧
        (policyStep st' x).seen = st'.seen ++ [r] := by
  unfold policyStep
  rw [h]
  refine ⟨?_, _, rfl, rfl, rfl⟩
  dsimp only
  cases (esActiveIngress x.rules (some (st'.counters x.call.cpu)) x.call).counters with
  | none => exact h
  | some v =>
      show Function.update st.counters x.call.cpu v x.call.cpu =
        Function.update st'.counters x.call.cpu v x.call.cpu
      rw [Function.update_self, Function.update_self]

/-- The packets of other CPUs make no difference. -/
theorem policyAll_onCpu (cpu : UInt32) (xs : List PolicyInput) :
    (policyAll (onCpu cpu xs)).counters cpu = (policyAll xs).counters cpu ∧
      (policyAll (onCpu cpu xs)).seen = seenOn cpu (policyAll xs).seen := by
  induction xs using List.reverseRecOn with
  | nil => exact ⟨rfl, rfl⟩
  | append_singleton xs x ih =>
      rw [onCpu_concat, policyAll_concat xs x]
      by_cases hcpu : x.call.cpu = cpu
      · subst hcpu
        obtain ⟨hcounters, r, hr, hseen, hseen'⟩ := policyStep_congr ih.1
        rw [if_pos rfl, policyAll_concat, hcounters, hseen, hseen', seenOn_concat, if_pos hr, ih.2]
        exact ⟨rfl, rfl⟩
      · rw [if_neg hcpu, List.append_nil, policyStep_of_ne hcpu, policyStep, seenOn_concat,
          if_neg hcpu, List.append_nil]
        exact ih

/-! ## The invariant -/

/-- The packet that a call is judging. -/
def Awaits (maps : Nat → Rules) (cpu : UInt32) (pending : List PolicyInput) : Phase → Prop
  | .idle => pending = []
  | .unruled c => c.cpu = cpu ∧ pending = [⟨none, c⟩]
  | .looked c id => c.cpu = cpu ∧ pending = [⟨some (maps id), c⟩]
  | .missed c id => c.cpu = cpu ∧ pending = [⟨some (maps id), c⟩] ∧
      (classified c).bind (fun tuple => maps id (exactKey c.skb.ifindex tuple)) = none
  | .selected c rule => c.cpu = cpu ∧
      ∃ rules, pending = [⟨some rules, c⟩] ∧ governingRule rules c = some rule

/-- The counters of a CPU and what was seen of it are those of a serial run of its
packets, all but the one its call is judging. -/
def Serial (s : State) (cpu : UInt32) (pending : List PolicyInput) : Prop :=
  ∃ done, onCpu cpu s.begun = done ++ pending ∧
    s.counters cpu = (policyAll done).counters cpu ∧
    seenOn cpu s.seen = seenOn cpu (policyAll done).seen

/-- The invariant. -/
def Inv (s : State) : Prop :=
  ∀ cpu, ∃ pending, Serial s cpu pending ∧ Awaits s.maps cpu pending (s.phase cpu)

variable {s s' : State}

theorem Inv.init (h : Initial s) : Inv s := by
  obtain ⟨-, hcounters, hphase, hbegun, hseen⟩ := h
  intro cpu
  refine ⟨[], ⟨[], ?_, ?_, ?_⟩, ?_⟩
  · rw [hbegun]
    rfl
  · rw [hcounters]
    rfl
  · rw [hseen]
    rfl
  · rw [hphase]
    rfl

/-- A call takes a step within its judgement. -/
theorem Inv.move (h : Inv s) {cpu : UInt32} {p : Phase}
    (hp : ∀ pending, Awaits s.maps cpu pending (s.phase cpu) → Awaits s.maps cpu pending p) :
    Inv (s.move cpu p) := by
  intro other
  obtain ⟨pending, hserial, hawaits⟩ := h other
  refine ⟨pending, hserial, ?_⟩
  show Awaits s.maps other pending (Function.update s.phase cpu p other)
  by_cases hother : other = cpu
  · subst hother
    rw [Function.update_self]
    exact hp pending hawaits
  · rw [Function.update_of_ne hother]
    exact hawaits

/-- A call that returns leaves the other CPUs alone. -/
theorem State.finish_of_ne (s : State) {c : PolicyCall} (out : PolicyOutcome) {cpu : UInt32}
    (h : cpu ≠ c.cpu) : (s.finish c out).counters cpu = s.counters cpu ∧
      seenOn cpu (s.finish c out).seen = seenOn cpu s.seen ∧
      (s.finish c out).phase cpu = s.phase cpu := by
  refine ⟨?_, ?_, Function.update_of_ne h _ _⟩
  · unfold State.finish
    dsimp only
    cases out.counters with
    | none => rfl
    | some v => exact Function.update_of_ne h _ _
  · rw [State.finish, seenOn_concat, if_neg (Ne.symm h), List.append_nil]

/-- **A call returns**, with what its packet gets from the rules it met. -/
theorem Inv.finish (h : Inv s) {c : PolicyCall} {out : PolicyOutcome}
    (hout : ∀ pending, Awaits s.maps c.cpu pending (s.phase c.cpu) →
      ∃ rules, pending = [⟨rules, c⟩] ∧ out = esActiveIngress rules (some (s.counters c.cpu)) c) :
    Inv (s.finish c out) := by
  intro cpu
  obtain ⟨pending, ⟨done, hbegun, hcounters, hseen⟩, hawaits⟩ := h cpu
  by_cases hcpu : cpu = c.cpu
  · subst hcpu
    obtain ⟨rules, hpending, hout⟩ := hout pending hawaits
    -- returning is a step of the serial run
    obtain ⟨hstep, r, -, hrecord, hrecord'⟩ :=
      @policyStep_congr ⟨s.counters, s.seen⟩ (policyAll done) ⟨rules, c⟩ hcounters
    refine ⟨[], ⟨done ++ [⟨rules, c⟩], ?_, ?_, ?_⟩, ?_⟩
    · rw [List.append_nil, ← hpending]
      exact hbegun
    · rw [policyAll_concat, hout]
      exact hstep
    · rw [policyAll_concat, hrecord', seenOn_concat, ← hseen, ← seenOn_concat, ← hrecord, hout]
      rfl
    · show Awaits s.maps c.cpu [] (Function.update s.phase c.cpu .idle c.cpu)
      rw [Function.update_self]
      rfl
  · obtain ⟨hcounters', hseen', hphase⟩ := s.finish_of_ne out hcpu
    refine ⟨pending, ⟨done, hbegun, hcounters'.trans hcounters, hseen'.trans hseen⟩, ?_⟩
    rw [hphase]
    exact hawaits

/-- A packet is met by a CPU that judges none. -/
theorem Inv.begin (h : Inv s) {x : PolicyInput} {p : Phase} (hidle : s.phase x.call.cpu = .idle)
    (hp : Awaits s.maps x.call.cpu [x] p) :
    Inv { s.move x.call.cpu p with begun := s.begun ++ [x] } := by
  intro other
  obtain ⟨pending, ⟨done, hbegun, hcounters, hseen⟩, hawaits⟩ := h other
  show ∃ pending, (∃ done, onCpu other (s.begun ++ [x]) = done ++ pending ∧
      s.counters other = (policyAll done).counters other ∧
      seenOn other s.seen = seenOn other (policyAll done).seen) ∧
    Awaits s.maps other pending (Function.update s.phase x.call.cpu p other)
  by_cases hother : other = x.call.cpu
  · subst hother
    rw [hidle] at hawaits
    have hnone : pending = [] := hawaits
    refine ⟨[x], ⟨done, ?_, hcounters, hseen⟩, ?_⟩
    · rw [onCpu_concat, if_pos rfl, hbegun, hnone, List.append_nil]
    · rw [Function.update_self]
      exact hp
  · refine ⟨pending, ⟨done, ?_, hcounters, hseen⟩, ?_⟩
    · rw [onCpu_concat, if_neg (Ne.symm hother), List.append_nil]
      exact hbegun
    · rw [Function.update_of_ne hother]
      exact hawaits

/-- A map that nobody reads is edited. -/
theorem Inv.edit (h : Inv s) {id : Nat} (rules : Rules)
    (hunread : ∀ cpu, ¬ (s.phase cpu).reads id) :
    Inv { s with maps := Function.update s.maps id rules } := by
  intro cpu
  obtain ⟨pending, hserial, hawaits⟩ := h cpu
  refine ⟨pending, hserial, ?_⟩
  show Awaits (Function.update s.maps id rules) cpu pending (s.phase cpu)
  have hcpu := hunread cpu
  cases hphase : s.phase cpu with
  | idle =>
      rw [hphase] at hawaits
      exact hawaits
  | looked c id' =>
      rw [hphase] at hawaits hcpu
      have hne : id' ≠ id := hcpu
      rw [Awaits, Function.update_of_ne hne]
      exact hawaits
  | missed c id' =>
      rw [hphase] at hawaits hcpu
      have hne : id' ≠ id := hcpu
      rw [Awaits, Function.update_of_ne hne]
      exact hawaits
  | unruled c =>
      rw [hphase] at hawaits
      exact hawaits
  | selected c rule =>
      rw [hphase] at hawaits
      exact hawaits

/-- A call begins. -/
theorem Inv.enter (h : Inv s) {c : PolicyCall} (hs : enter s c = some s') : Inv s' := by
  unfold Generations.enter at hs
  split at hs
  · next hidle =>
      split at hs
      · rw [← Option.some.inj hs]
        exact h.begin (x := ⟨none, c⟩) hidle ⟨rfl, rfl⟩
      · next id hactive =>
          rw [← Option.some.inj hs]
          exact h.begin (x := ⟨some (s.maps id), c⟩) hidle ⟨rfl, rfl⟩
  · cases hs

/-- An exact rule governs its packet. -/
theorem governingRule_of_exact {rules : Rules} {c : PolicyCall} {rule : EsRule}
    (h : (classified c).bind (fun tuple => rules (exactKey c.skb.ifindex tuple)) = some rule) :
    governingRule rules c = some rule := by
  have hexact : (classified c).bind (rules.policy c.skb.ifindex).exact = some rule := h
  rw [governingRule, Policy.governing, hexact]

/-- Without one it is the default rule. -/
theorem governingRule_of_missed {rules : Rules} {c : PolicyCall}
    (h : (classified c).bind (fun tuple => rules (exactKey c.skb.ifindex tuple)) = none) :
    governingRule rules c = rules EsPolicyKey.zero := by
  have hexact : (classified c).bind (rules.policy c.skb.ifindex).exact = none := h
  rw [governingRule, Policy.governing, hexact]
  rfl

/-- **A call goes on.** -/
theorem Inv.proceed (h : Inv s) {cpu : UInt32} (hs : proceed s cpu = some s') : Inv s' := by
  obtain ⟨pending₀, -, hawaits₀⟩ := h cpu
  unfold Generations.proceed at hs
  cases hphase : s.phase cpu with
  | idle =>
      rw [hphase] at hs
      cases hs
  | unruled c =>
      rw [hphase] at hs hawaits₀
      obtain ⟨rfl, -⟩ := hawaits₀
      rw [← Option.some.inj hs]
      apply h.finish
      intro pending hawaits
      rw [hphase] at hawaits
      exact ⟨none, hawaits.2, rfl⟩
  | looked c id =>
      rw [hphase] at hs
      dsimp only at hs
      split at hs
      · next rule hrule =>
          rw [← Option.some.inj hs]
          apply h.move
          intro pending hawaits
          rw [hphase] at hawaits
          exact ⟨hawaits.1, _, hawaits.2, governingRule_of_exact hrule⟩
      · next hnone =>
          rw [← Option.some.inj hs]
          apply h.move
          intro pending hawaits
          rw [hphase] at hawaits
          exact ⟨hawaits.1, hawaits.2, hnone⟩
  | missed c id =>
      rw [hphase] at hs hawaits₀
      obtain ⟨rfl, -, hmiss⟩ := hawaits₀
      have hgoverning := governingRule_of_missed hmiss
      dsimp only at hs
      split at hs
      · next rule hrule =>
          rw [← Option.some.inj hs]
          apply h.move
          intro pending hawaits
          rw [hphase] at hawaits
          exact ⟨hawaits.1, _, hawaits.2.1, hgoverning.trans hrule⟩
      · next hnone =>
          rw [← Option.some.inj hs]
          apply h.finish
          intro pending hawaits
          rw [hphase] at hawaits
          refine ⟨_, hawaits.2.1, ?_⟩
          rw [esActiveIngress, esActiveLookup_eq, hgoverning, hnone]
  | selected c rule =>
      rw [hphase] at hs hawaits₀
      obtain ⟨rfl, -⟩ := hawaits₀
      rw [← Option.some.inj hs]
      apply h.finish
      intro pending hawaits
      rw [hphase] at hawaits
      obtain ⟨-, rules, hpending, hrule⟩ := hawaits
      refine ⟨_, hpending, ?_⟩
      rw [esActiveIngress, esActiveLookup_eq, hrule]

/-- **Every run** in which only unread maps are edited. -/
theorem Inv.run {tr : List Action} (h : (system.guard Unread).Run tr s) : Inv s := by
  apply h.invariant (P := fun _ s => Inv s) (fun _ hs => Inv.init hs)
  rintro _ s a s' ih ⟨hs, hunread⟩
  have hact : act s a = some s' := hs
  cases a with
  | enter c => exact ih.enter hact
  | proceed cpu => exact ih.proceed hact
  | edit id rules =>
      rw [← Option.some.inj hact]
      exact ih.edit rules hunread.2
  | publish active =>
      rw [← Option.some.inj hact]
      exact ih

/-! ## The law -/

/-- The packets are judged as if they came one after the other, each under the rules
that were published when it came. -/
structure OneGeneration (s : State) : Prop where
  /-- a packet comes with the published rules -/
  meets : ∀ c s', enter s c = some s' → s'.begun = s.begun ++ [⟨s.active.map s.maps, c⟩]
  /-- every CPU is as after a serial run of its packets, but for the one it judges -/
  serial : ∀ cpu, ∃ pending, pending.length ≤ 1 ∧ Serial s cpu pending
  /-- and when none is being judged, all are as after the serial run of all packets -/
  quiet : (∀ cpu, s.phase cpu = .idle) → s.counters = (policyAll s.begun).counters ∧
    ∀ cpu, seenOn cpu s.seen = seenOn cpu (policyAll s.begun).seen

theorem Awaits.length_le {maps : Nat → Rules} {cpu : UInt32} {pending : List PolicyInput}
    {p : Phase} (h : Awaits maps cpu pending p) : pending.length ≤ 1 := by
  cases p with
  | idle =>
      have hnone : pending = [] := h
      simp [hnone]
  | unruled c => simp [h.2]
  | looked c id => simp [h.2]
  | missed c id => simp [h.2.1]
  | selected c rule =>
      obtain ⟨-, rules, hpending, -⟩ := h
      simp [hpending]

/-- **One generation for each packet**, under every schedule of the calls on all CPUs
and of user space, which edits no map that is published or read. -/
theorem esActiveIngress_oneGeneration {tr : List Action} {s : State}
    (h : (system.guard Unread).Run tr s) : OneGeneration s := by
  have hinv := Inv.run h
  constructor
  case meets =>
    intro c s' hs
    unfold enter at hs
    split at hs
    · split at hs
      · next hactive =>
          rw [← Option.some.inj hs, hactive]
          rfl
      · next id hactive =>
          rw [← Option.some.inj hs, hactive]
          rfl
    · cases hs
  case serial =>
    intro cpu
    obtain ⟨pending, hserial, hawaits⟩ := hinv cpu
    exact ⟨pending, hawaits.length_le, hserial⟩
  case quiet =>
    intro hidle
    have hall : ∀ cpu, s.counters cpu = (policyAll s.begun).counters cpu ∧
        seenOn cpu s.seen = seenOn cpu (policyAll s.begun).seen := by
      intro cpu
      obtain ⟨pending, ⟨done, hbegun, hcounters, hseen⟩, hawaits⟩ := hinv cpu
      rw [hidle cpu] at hawaits
      have hnone : pending = [] := hawaits
      rw [hnone, List.append_nil] at hbegun
      obtain ⟨hlocal, hlocal'⟩ := policyAll_onCpu cpu s.begun
      rw [hbegun] at hlocal hlocal'
      refine ⟨hcounters.trans hlocal, ?_⟩
      rw [hseen, hlocal', seenOn, seenOn, List.filter_filter]
      simp
    exact ⟨funext fun cpu => (hall cpu).1, fun cpu => (hall cpu).2⟩

theorem proceed_selected {cpu : UInt32} {c : PolicyCall} {id : Nat} {rule : EsRule}
    (hphase : s.phase cpu = .looked c id)
    (hrule : (classified c).bind (fun tuple => s.maps id (exactKey c.skb.ifindex tuple)) =
      some rule) : act s (.proceed cpu) = some (s.move cpu (.selected c rule)) := by
  show Generations.proceed s cpu = _
  unfold Generations.proceed
  rw [hphase]
  dsimp only
  rw [hrule]

theorem proceed_missed {cpu : UInt32} {c : PolicyCall} {id : Nat}
    (hphase : s.phase cpu = .looked c id)
    (hnone : (classified c).bind (fun tuple => s.maps id (exactKey c.skb.ifindex tuple)) = none) :
    act s (.proceed cpu) = some (s.move cpu (.missed c id)) := by
  show Generations.proceed s cpu = _
  unfold Generations.proceed
  rw [hphase]
  dsimp only
  rw [hnone]

/-- The rules of a redirect are filled in and published while a packet of the flow is
being judged: it passes, and the next packet of the flow is redirected. -/
theorem esActiveIngress_oneGeneration_published :
    ∃ s, OneGeneration s ∧ s.begun.length = 2 ∧
      s.seen = [⟨1, 7, some (.redirect 5)⟩, ⟨0, esTcNext, none⟩] := by
  have start : (system.guard Unread).Run []
      ⟨fun _ _ => none, some 0, fun _ _ => 0, fun _ => .idle, [], []⟩ :=
    .init ⟨rfl, rfl, rfl, rfl, rfl⟩
  have filled := start.actMeeting (.edit 1 udpRules) rfl ⟨nofun, fun _ hreads => hreads⟩
  have first := filled.actMeeting (.enter (udpPolicyCall .success)) rfl trivial
  have published := first.actMeeting (.publish (some 1)) rfl trivial
  have second := published.actMeeting (.enter { udpPolicyCall .success with cpu := 1 }) rfl trivial
  -- the second packet finds its rule in the new map
  have redirects : udpRules (exactKey 3 (taggedUdp.header.tuple false 0)) =
      some ⟨esPolicyRedirect, 5, 1⟩ := if_pos rfl
  have found : (classified { udpPolicyCall .success with cpu := 1 }).bind
      (fun tuple => udpRules (exactKey 3 tuple)) = some ⟨esPolicyRedirect, 5, 1⟩ :=
    (congrArg (·.bind fun tuple => udpRules (exactKey 3 tuple)) classified_udpPolicyCall).trans
      redirects
  have selected := second.actMeeting (.proceed 1) (proceed_selected rfl found) trivial
  have redirected := selected.actMeeting (.proceed 1) rfl trivial
  -- the first one still looks in the empty one
  have missing : (classified (udpPolicyCall .success)).bind (fun _ => (none : Option EsRule)) =
      none := Option.bind_fun_none _
  have missed := redirected.actMeeting (.proceed 0) (proceed_missed rfl missing) trivial
  have passed := missed.actMeeting (.proceed 0) rfl trivial
  exact ⟨_, esActiveIngress_oneGeneration passed, rfl, rfl⟩

end ElephantShrew.Bpf.Generations
