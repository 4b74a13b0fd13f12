import ElephantShrew.Capture.Bridge
import ElephantShrew.Capture.Persistence
import ElephantShrew.Store.SlotAccounting

/-!
# What reaches Redis

A record moves from the receiver's hand to a slot of the store and from there to
the connection.  No move loses it or doubles it: the store outlives the captures
(`Orderly`), so that a thread never finds it closed.
-/

namespace ElephantShrew.Capture.Persistence

open ElephantShrew.Verified
open ElephantShrew.Verified.ExitM
open ElephantShrew.Config
open ElephantShrew.Store (PacketInfo Caller Job JobAction xadd unsettled)
open ElephantShrew.Store.Teardown (Progress Orderly store_kept reserve_accepting)

variable {D : Type} {o : Store.Options}

/-! ## The requests of a packet -/

/-- How often a packet was handed to the connection and how often it was given up,
where it is. -/
def Told (o : Store.Options) (j : Job) (asked givenUp : Nat) : Prop :=
  match j.phase with
  | .posting | .posted => asked = 0 ∧ givenUp = 0
  | .postFailed | .taskFailed => asked = 0 ∧ givenUp = 1
  | .executing request => asked = 1 ∧ givenUp = 0 ∧ request = xadd o j.packet
  | .completing _ => asked = 1 ∧ givenUp = 0
  | .settled => asked + givenUp = 1

theorem Told.le_one {j : Job} {n m : Nat} (h : Told o j n m) : n + m ≤ 1 := by
  unfold Told at h
  split at h <;> omega

/-- A packet keeps its record. -/
theorem step_packet {j j' : Job} {a : JobAction} (h : j.step o a = some j') :
    j'.packet = j.packet := by
  cases a with
  | post ok =>
      cases hphase : j.phase <;> simp only [Job.step, hphase, Option.some.injEq, reduceCtorEq] at h
      rw [← h]
  | task r =>
      cases hphase : j.phase <;> simp only [Job.step, hphase, Option.some.injEq, reduceCtorEq] at h
      rw [← h]
  | handler failed =>
      cases hphase : j.phase <;> simp only [Job.step, hphase, Option.some.injEq, reduceCtorEq] at h
      rw [← h]
  | completePendingWrite =>
      cases hphase : j.phase <;> simp only [Job.step, hphase, Option.some.injEq, reduceCtorEq] at h
      all_goals rw [← h]

/-- A step of a packet, told. -/
theorem Told.step {j j' : Job} {a : JobAction} {n m : Nat} (h : Told o j n m)
    (hstep : j.step o a = some j') :
    Told o j' (n + if a = .task .accepted then 1 else 0) (m + if givesUp a then 1 else 0) := by
  obtain ⟨packet, phase, completions⟩ := j
  cases a with
  | post ok =>
      cases phase <;> simp only [Job.step, Option.some.injEq, reduceCtorEq] at hstep
      subst hstep
      obtain ⟨rfl, rfl⟩ := h
      cases ok <;> simp [Told, givesUp]
  | task r =>
      cases phase <;> simp only [Job.step, Option.some.injEq, reduceCtorEq] at hstep
      subst hstep
      obtain ⟨rfl, rfl⟩ := h
      cases r <;> simp [Told, givesUp]
  | handler failed =>
      cases phase <;> simp only [Job.step, Option.some.injEq, reduceCtorEq] at hstep
      subst hstep
      obtain ⟨rfl, rfl, -⟩ := h
      simp [Told, givesUp]
  | completePendingWrite =>
      cases phase <;> simp only [Job.step, Option.some.injEq, reduceCtorEq] at hstep
      all_goals
        subst hstep
        obtain ⟨rfl, rfl⟩ := h
        simp [Told, givesUp]

/-- How often the packets of a kind of step are met, one step later. -/
theorem count_concat (kind : JobAction → Bool) (tr : List (Action D)) (l : Action D) (id : Nat) :
    ((tr ++ [l]).filterMap (Action.packetOf kind)).count id =
      (tr.filterMap (Action.packetOf kind)).count id +
        if l.packetOf kind = some id then 1 else 0 := by
  rw [List.filterMap_append, List.count_append]
  cases hl : l.packetOf kind with
  | none => simp [hl]
  | some id' => by_cases hid : id' = id <;> simp [hl, hid]

/-- The packets of the store as the labels tell of them. -/
structure JobsTold (o : Store.Options) (tr : List (Action D)) (jobs : List Job) : Prop where
  told : ∀ id j, jobs[id]? = some j → Told o j (asked tr id) (givenUp tr id)
  untold : ∀ id, jobs.length ≤ id → asked tr id = 0 ∧ givenUp tr id = 0

variable {tr : List (Action D)} {jobs : List Job}

/-- A step that is no step of a packet. -/
theorem JobsTold.keep (h : JobsTold o tr jobs) {l : Action D}
    (hl : ∀ kind, l.packetOf kind = none) : JobsTold o (tr ++ [l]) jobs := by
  have hasked : ∀ id, asked (tr ++ [l]) id = asked tr id := by
    intro id
    simp [asked, hl]
  have hgiven : ∀ id, givenUp (tr ++ [l]) id = givenUp tr id := by
    intro id
    simp [givenUp, hl]
  constructor
  · intro id j hj
    rw [hasked, hgiven]
    exact h.told id j hj
  · intro id hid
    rw [hasked, hgiven]
    exact h.untold id hid

/-- A packet is admitted. -/
theorem JobsTold.admit (h : JobsTold o tr jobs) (packet : PacketInfo) :
    JobsTold o tr (jobs ++ [⟨packet, .posting, 0⟩]) := by
  constructor
  · intro id j hj
    rcases Nat.lt_or_ge id jobs.length with hid | hid
    · rw [List.getElem?_append_left hid] at hj
      exact h.told id j hj
    · rw [List.getElem?_append_right hid, List.getElem?_singleton] at hj
      split at hj
      · rw [← Option.some.inj hj]
        exact h.untold id hid
      · cases hj
  · intro id hid
    rw [List.length_append, List.length_singleton] at hid
    exact h.untold id (by omega)

/-- A packet takes a step. -/
theorem JobsTold.job (h : JobsTold o tr jobs) {id : Nat} {a : JobAction} {j j' : Job}
    (hj : jobs[id]? = some j) (hstep : j.step o a = some j') :
    JobsTold o (tr ++ [.program (.store (.job id a))]) (jobs.set id j') := by
  have hid : id < jobs.length := (List.getElem?_eq_some_iff.mp hj).1
  have hother : ∀ (kind : JobAction → Bool) (id' : Nat), id' ≠ id →
      (Action.program (.store (.job id a)) : Action D).packetOf kind ≠ some id' := by
    intro kind id' hne hsome
    rw [Action.packetOf, Option.ite_none_right_eq_some, Option.some.injEq] at hsome
    exact hne hsome.2.symm
  constructor
  · intro id' i hi
    unfold asked givenUp
    rw [count_concat, count_concat]
    by_cases hsame : id' = id
    · subst hsame
      rw [List.getElem?_set_self hid] at hi
      rw [← Option.some.inj hi]
      simpa [Action.packetOf, asked, givenUp] using (h.told id' j hj).step hstep
    · rw [List.getElem?_set_ne (Ne.symm hsame)] at hi
      rw [if_neg (hother _ id' hsame), if_neg (hother _ id' hsame)]
      exact h.told id' i hi
  · intro id' hid'
    rw [List.length_set] at hid'
    have hne : id' ≠ id := by omega
    unfold asked givenUp
    rw [count_concat, count_concat, if_neg (hother _ id' hne), if_neg (hother _ id' hne)]
    exact h.untold id' hid'

variable {n : Nat} {p p' : Store.Teardown.State}

/-! ## From a hand to a slot -/

/-- Each admitted packet was in its thread's hand before and is in a slot after. -/
structure Hands (n : Nat) (before after : Store.State) (more : List (Nat × PacketInfo)) :
    Prop where
  hand : ∀ i, (more.filter fun e => e.1 = i).map Prod.snd ++ inHand (after.callers i) =
    inHand (before.callers i)
  slot : after.jobs.map Job.packet = before.jobs.map Job.packet ++ more.map Prod.snd
  owned : ∀ e ∈ more, e.1 < n

variable {st st' : Store.State}

/-- Nothing is admitted. -/
theorem Hands.none (hhand : ∀ i, inHand (st'.callers i) = inHand (st.callers i))
    (hjobs : st'.jobs.map Job.packet = st.jobs.map Job.packet) : Hands n st st' [] where
  hand := hhand
  slot := by rw [hjobs, List.map_nil, List.append_nil]
  owned := fun _ he => absurd he List.not_mem_nil

/-- A thread moves on with what it has in its hand. -/
theorem Hands.moves {t : Nat} {c : Caller} (h : inHand c = inHand (st.callers t)) :
    Hands n st (st.setCaller t c) [] := by
  have hhand : ∀ i, inHand ((st.setCaller t c).callers i) = inHand (st.callers i) := by
    intro i
    by_cases hi : i = t
    · rw [hi, st.setCaller_self, h]
    · rw [st.setCaller_of_ne c hi]
  exact Hands.none hhand rfl

/-- **A look for a slot.**  The store is open, so the thread goes to sleep or its packet
is admitted. -/
theorem Hands.reserve {t : Nat} {packet : PacketInfo} (hc : st.callers t = .reserving packet)
    (hopen : st.acceptingWrites = true) (ht : t < n) :
    Hands n st (Store.reserve o st t packet)
      (admits st (Store.reserve o st t packet) (.store (.reserve t))) := by
  have hclosed : ¬ st.acceptingWrites = false := by
    rw [hopen]
    exact Bool.noConfusion
  rw [admits]
  by_cases hroom : st.pendingWrites < o.maxPendingWrites ∨ st.acceptingWrites = false
  · rw [Store.reserve, if_neg (not_not.mpr hroom), if_neg hclosed]
    dsimp only
    rw [List.drop_left, List.map_singleton]
    constructor
    case hand =>
      intro i
      by_cases hi : i = t
      · rw [hi, st.setCaller_self, hc]
        simp [inHand]
      · rw [st.setCaller_of_ne _ hi]
        simp [Ne.symm hi]
    case slot => simp
    case owned =>
      intro e he
      rw [List.mem_singleton.mp he]
      exact ht
  · rw [Store.reserve, if_pos hroom]
    have hnone : (st.setCaller t (.waiting packet)).jobs.drop st.jobs.length = [] :=
      List.drop_length
    rw [hnone]
    exact Hands.moves (by rw [hc]; rfl)

/-- **What a step admits** was in the hand of its thread. -/
theorem Hands.next (h : Orderly n p) {a : Store.Teardown.Action}
    (hs : Store.Teardown.next o n p a = some p') (hin : ∀ t packet, a ≠ .store (.store t packet)) :
    Hands n p.store p'.store (admits p.store p'.store a) := by
  cases a with
  | store b =>
      obtain ⟨hallowed, store, hstore, rfl⟩ := Store.Teardown.next_store hs
      cases Store.Steps.of_next hstore with
      | store t packet hc => exact absurd rfl (hin t packet)
      | reserve t packet hc =>
          have hbusy : p.store.callers t ≠ .idle := by
            rw [hc]
            exact Caller.noConfusion
          exact Hands.reserve hc (h.accepting_of_busy hbusy) (h.busy t hbusy).1
      | wake t packet hc => exact Hands.moves (by rw [hc]; rfl)
      | storeReturn t id hc => exact Hands.moves (by rw [hc]; rfl)
      | job id a j j' hj hstep =>
          have hjobs : (p.store.jobs.set id j').map Job.packet = p.store.jobs.map Job.packet := by
            obtain ⟨hid, hget⟩ := List.getElem?_eq_some_iff.mp hj
            rw [List.map_set, step_packet hstep, ← hget]
            apply List.ext_getElem?
            intro i
            by_cases hi : i = id
            · simp [hi, hid]
            · rw [List.getElem?_set_ne (Ne.symm hi)]
          exact Hands.none (fun _ => rfl) hjobs
      | stopAccepting hd => exact Hands.none (fun _ => rfl) rfl
      | waitEnds hd => exact Hands.none (fun _ => rfl) rfl
  | release =>
      cases ht : p.teardown <;> simp only [Store.Teardown.next, ht, reduceCtorEq] at hs
      split at hs
      · split at hs
        · next store hstore =>
            injection hs with hs
            subst hs
            cases Store.Steps.of_next hstore with
            | stopAccepting hd => exact Hands.none (fun _ => rfl) rfl
        · cases hs
      · cases hs
  | destroy | stop | stopReturns | stall =>
      rw [store_kept hs (by simp) (by simp)]
      exact Hands.none (fun _ => rfl) rfl

/-! ## From the wire to a hand -/

section Traffic

variable [DecidableEq D] {Buffer : Type} {lib : CaptureLibrary Buffer}
  {env : PacketEnvironment D} {captures : D → Option Direction}
  {receivers : List (RunningReceiver D)} {r r' : RunningReceiver D} {t t' : Traffic D Buffer}

/-- What comes in, or the host sends, is not carried on yet. -/
theorem carriedOn_put (device : D) {entry : Origin × RawPacket} (h : entry.1 ≠ .program) :
    carriedOn r (t.put lib captures device entry) = carriedOn r t := by
  unfold carriedOn
  cases r.routeDevice with
  | none => rfl
  | some route =>
      show ofOrigin .program ((t.put lib captures device entry).wire route) = _
      rw [Traffic.put_wire]
      by_cases hd : route = device <;> simp [ofOrigin, hd, h]

/-- What the thread of a receiver does with its next packet. -/
structure Handled (env : PacketEnvironment D) (r : RunningReceiver D) (packet : RawPacket)
    (t t' : Traffic D Buffer) : Prop where
  log : t'.log = t.log ++ (onPacketArrives env r packet).trace t.calls
  mine : (t'.handled r.device).map Prod.snd = (t.handled r.device).map Prod.snd ++ [packet]
  others : ∀ d, d ≠ r.device → t'.handled d = t.handled d
  sent : ∀ d, ofOrigin .program (t'.wire d) =
    ofOrigin .program (t.wire d) ++ accepted (offersOf env r packet t.calls d)

theorem handled_of_handle (h : Traffic.handle lib env captures r t = some t') :
    ∃ packet, Handled env r packet t t' := by
  unfold Traffic.handle at h
  split at h
  · cases h
  next entry rest hnext =>
    injection h with h
    obtain ⟨hwire, hhandled, hlog⟩ := Traffic.putSent_spec lib captures
      ((onPacketArrives env r entry.2).trace t.calls) _
    rw [h] at hwire hhandled hlog
    refine ⟨entry.2, hlog, ?_, ?_, ?_⟩
    · rw [hhandled]
      simp
    · intro d hd
      rw [hhandled]
      exact Function.update_of_ne hd _ _
    · intro d
      rw [hwire, offers_onPacketArrives]
      unfold ofOrigin
      rw [List.filter_append, List.map_append]
      congr 1
      rw [List.filter_eq_self.mpr (by simp)]
      simp

/-- A recording receiver hands the store what it carries on. -/
theorem Handled.self {packet : RawPacket} (h : Handled env r packet t t')
    (hrecord : r.recordPackets = true) (hstore : r.store = true) :
    ∃ more : Option RawPacket, carriedOn r t' = carriedOn r t ++ more.toList ∧
      storedOf (t'.log.drop t.log.length) = more.toList.map (recordOf env r) := by
  have hone := (@wpLog_onPacketArrives D env r [] t.calls (fun _ => hstore) packet)
  have hstored : storedOf ((onPacketArrives env r packet).trace t.calls) =
      if forwards env r t.calls.sent then [recordOf env r packet] else [] := by
    simpa [storedOf, hrecord] using hone.outcome_of_returns.stored
  have hlog : t'.log.drop t.log.length = (onPacketArrives env r packet).trace t.calls := by
    rw [h.log, List.drop_left]
  refine ⟨if forwards env r t.calls.sent then some packet else none, ?_, ?_⟩
  · unfold carriedOn
    cases hroute : r.routeDevice with
    | none =>
        have hforwards : forwards env r t.calls.sent = true := by simp [forwards, hroute]
        rw [hforwards]
        exact h.mine
    | some route =>
        have hforwards : forwards env r t.calls.sent = env.sends t.calls.sent := by
          simp [forwards, hroute]
        rw [hforwards]
        show ofOrigin .program (t'.wire route) = _
        rw [h.sent, offersOf, if_pos hroute]
        cases hsends : env.sends t.calls.sent <;> simp [accepted]
  · rw [hlog, hstored]
    split <;> rfl

/-- The other receivers have carried on what they had. -/
theorem Handled.other {packet : RawPacket} (h : Handled env r packet t t')
    (hseparate : Separate receivers) (hr : r ∈ receivers) (hr' : r' ∈ receivers)
    (hne : r'.device ≠ r.device) : carriedOn r' t' = carriedOn r' t := by
  unfold carriedOn
  cases hroute : r'.routeDevice with
  | none =>
      show (t'.handled r'.device).map Prod.snd = _
      rw [h.others _ hne]
  | some route =>
      have hnone : r.routeDevice ≠ some route := by
        rw [ne_eq, hseparate r hr r' hr' route hroute]
        exact Ne.symm hne
      show ofOrigin .program (t'.wire route) = _
      rw [h.sent, offersOf, if_neg hnone]
      exact List.append_nil _

end Traffic

/-! ## The invariant -/

/-- A step of the store or of the teardown tells of its packet. -/
theorem JobsTold.program {a : Store.Teardown.Action} (h : JobsTold o tr p.store.jobs)
    (hs : Store.Teardown.next o n p a = some p') :
    JobsTold o (tr ++ [.program a]) p'.store.jobs := by
  cases a with
  | store b =>
      obtain ⟨-, store, hstore, rfl⟩ := Store.Teardown.next_store hs
      cases Store.Steps.of_next hstore with
      | reserve t packet hc =>
          have hkept := h.keep (l := .program (.store (.reserve t))) fun _ => rfl
          show JobsTold o _ (Store.reserve o p.store t packet).jobs
          unfold Store.reserve
          split
          · exact hkept
          · split
            · exact hkept
            · exact hkept.admit packet
      | job id a j j' hj hstep => exact h.job hj hstep
      | store | wake | storeReturn | stopAccepting | waitEnds => exact h.keep fun _ => rfl
  | release =>
      have hjobs : p'.store.jobs = p.store.jobs := by
        cases ht : p.teardown <;> simp only [Store.Teardown.next, ht, reduceCtorEq] at hs
        split at hs
        · split at hs
          · next store hstore =>
              injection hs with hs
              subst hs
              cases Store.Steps.of_next hstore with
              | stopAccepting hd => rfl
          · cases hs
        · cases hs
      rw [hjobs]
      exact h.keep fun _ => rfl
  | destroy | stop | stopReturns | stall =>
      rw [store_kept hs (by simp) (by simp)]
      exact h.keep fun _ => rfl

section Invariant

variable [DecidableEq D] {Buffer : Type}

/-- Where the records are. -/
structure Inv (env : PacketEnvironment D) (receivers : List (RunningReceiver D))
    (o : Store.Options) (tr : List (Action D)) (s : State D Buffer) : Prop where
  carried : Carried receivers s.traffic
  store : Store.Inv o s.program.store
  orderly : Orderly receivers.length s.program
  told : JobsTold o tr s.program.store.jobs
  slots : s.program.store.jobs.map Job.packet = s.admitted.map Prod.snd
  owned : ∀ e ∈ s.admitted, e.1 < receivers.length
  recorded : ∀ i r, receivers[i]? = some r →
    admittedFrom i s ++ inHand (s.program.store.callers i) =
      (carriedOn r s.traffic).map (recordOf env r)

variable {lib : CaptureLibrary Buffer} {env : PacketEnvironment D}
  {captures : D → Option Direction} {receivers : List (RunningReceiver D)}
  {s s' : State D Buffer}

theorem Inv.init (h : Initial lib receivers s) : Inv env receivers o [] s := by
  obtain ⟨htraffic, hprogram, -, hadmitted⟩ := h
  obtain ⟨-, -, hidle, hjobs, -⟩ := hprogram.1
  constructor
  case carried =>
    rw [htraffic]
    exact .initial
  case store => exact Store.Inv.init hprogram.1
  case orderly => exact Orderly.init hprogram
  case told =>
    rw [hjobs]
    exact ⟨fun _ _ hj => by simp at hj, fun _ _ => ⟨rfl, rfl⟩⟩
  case slots =>
    rw [hjobs, hadmitted]
    rfl
  case owned =>
    rw [hadmitted]
    exact fun _ he => absurd he List.not_mem_nil
  case recorded =>
    intro i r _
    rw [admittedFrom, hadmitted, hidle, htraffic, carriedOn]
    cases r.routeDevice <;> rfl

/-- A packet passes that the program has not sent. -/
theorem Inv.put (h : Inv env receivers o tr s) (device : D) {entry : Origin × RawPacket}
    (horigin : entry.1 ≠ .program) {l : Action D} (hl : ∀ kind, l.packetOf kind = none) :
    Inv env receivers o (tr ++ [l])
      { s with traffic := s.traffic.put lib captures device entry } where
  carried := h.carried.put device horigin
  store := h.store
  orderly := h.orderly
  told := h.told.keep hl
  slots := h.slots
  owned := h.owned
  recorded := by
    intro i r hr
    show _ = (carriedOn r (s.traffic.put lib captures device entry)).map _
    rw [carriedOn_put device horigin]
    exact h.recorded i r hr

/-- **A step of the store or of the teardown.** -/
theorem Inv.program (h : Inv env receivers o tr s) {a : Store.Teardown.Action}
    {program : Store.Teardown.State}
    (hs : Store.Teardown.next o receivers.length s.program a = some program)
    (hin : ∀ t packet, a ≠ .store (.store t packet)) :
    Inv env receivers o (tr ++ [.program a])
      { s with
        program := program
        admitted := s.admitted ++ admits s.program.store program.store a } := by
  have hhands := Hands.next h.orderly hs hin
  constructor
  case carried => exact h.carried
  case store =>
    rcases Store.Teardown.next_store_cases hs with heq | ⟨b, hb⟩
    · show Store.Inv o program.store
      rw [heq]
      exact h.store
    · exact h.store.next hb
  case orderly => exact h.orderly.next hs
  case told => exact h.told.program hs
  case slots =>
    show program.store.jobs.map Job.packet = _
    rw [hhands.slot, h.slots, List.map_append]
  case owned =>
    intro e he
    rcases List.mem_append.mp he with he | he
    · exact h.owned e he
    · exact hhands.owned e he
  case recorded =>
    intro i r hr
    rw [← h.recorded i r hr, ← hhands.hand i, admittedFrom, List.filter_append, List.map_append,
      List.append_assoc]
    rfl

/-- **A packet is handled.**  Its record, if it has one, is in the hand of the thread. -/
theorem Inv.handles (h : Inv env receivers o tr s) (hseparate : Separate receivers)
    (hnodup : (receivers.map RunningReceiver.device).Nodup)
    (hrecord : ∀ r ∈ receivers, r.recordPackets = true ∧ r.store = true) {i : Nat}
    {r : RunningReceiver D} (hr : receivers[i]? = some r)
    (hs : handles lib env captures receivers o s i r = some s') :
    Inv env receivers o (tr ++ [.handles i]) s' := by
  have hmem : r ∈ receivers := List.mem_of_getElem? hr
  have hothers : ∀ j r', receivers[j]? = some r' → j ≠ i → r'.device ≠ r.device := by
    intro j r' hr' hne heq
    have hj : j < (receivers.map RunningReceiver.device).length := by
      rw [List.length_map]
      exact (List.getElem?_eq_some_iff.mp hr').1
    apply hne
    apply (List.getElem?_inj hj hnodup).mp
    rw [List.getElem?_map, List.getElem?_map, hr, hr', Option.map_some, Option.map_some, heq]
  unfold Persistence.handles at hs
  split at hs
  · next hready =>
      obtain ⟨traffic, htraffic, hs⟩ := Option.bind_eq_some_iff.mp hs
      obtain ⟨packet, hhandled⟩ := handled_of_handle htraffic
      obtain ⟨more, hmore, hstored⟩ := hhandled.self (hrecord r hmem).1 (hrecord r hmem).2
      have hcarried := h.carried.handle hseparate hmem htraffic
      rw [hstored] at hs
      cases more with
      | none =>
          injection hs with hs
          subst hs
          refine ⟨hcarried, h.store, h.orderly, h.told.keep fun _ => rfl, h.slots, h.owned, ?_⟩
          intro j r' hr'
          show _ = (carriedOn r' traffic).map _
          by_cases hj : j = i
          · subst hj
            have hsame : r' = r := Option.some.inj (hr'.symm.trans hr)
            rw [hsame, hmore, Option.toList_none, List.append_nil]
            exact h.recorded j r hr
          · rw [hhandled.other hseparate hmem (List.mem_of_getElem? hr') (hothers j r' hr' hj)]
            exact h.recorded j r' hr'
      | some packet =>
          obtain ⟨program, hprogram, hs⟩ := Option.map_eq_some_iff.mp hs
          subst hs
          obtain ⟨-, store, hstore, rfl⟩ := Store.Teardown.next_store hprogram
          have hinv := h.store.next hstore
          have horderly := h.orderly.next hprogram
          cases Store.Steps.of_next hstore with
          | store _ _ hc =>
              refine ⟨hcarried, hinv, horderly, h.told.keep fun _ => rfl, h.slots, h.owned, ?_⟩
              intro j r' hr'
              have hold := h.recorded j r' hr'
              show admittedFrom j s ++ inHand ((s.program.store.setCaller i _).callers j) =
                (carriedOn r' traffic).map _
              by_cases hj : j = i
              · subst hj
                have hsame : r' = r := Option.some.inj (hr'.symm.trans hr)
                subst hsame
                rw [hc] at hold
                rw [Store.State.setCaller_self, hmore, List.map_append, ← hold]
                simp only [inHand, List.append_nil, Option.toList_some, List.map_singleton]
                rfl
              · rw [hhandled.other hseparate hmem (List.mem_of_getElem? hr') (hothers j r' hr' hj),
                  Store.State.setCaller_of_ne _ _ hj]
                exact hold
  · cases hs

/-- **One step of any thread.** -/
theorem Inv.step (hseparate : Separate receivers)
    (hnodup : (receivers.map RunningReceiver.device).Nodup)
    (hrecord : ∀ r ∈ receivers, r.recordPackets = true ∧ r.store = true)
    (h : Inv env receivers o tr s) {l : Action D}
    (hs : next lib env captures receivers o s l = some s') :
    Inv env receivers o (tr ++ [l]) s' := by
  cases l with
  | arrives device packet =>
      rw [← Option.some.inj hs]
      exact h.put device (by simp) fun _ => rfl
  | hostSends device packet =>
      rw [← Option.some.inj hs]
      exact h.put device (by simp) fun _ => rfl
  | handles i =>
      obtain ⟨r, hr, hs⟩ := Option.bind_eq_some_iff.mp hs
      exact h.handles hseparate hnodup hrecord hr hs
  | program a =>
      have hin : ∀ t packet, a ≠ .store (.store t packet) := by
        intro t packet heq
        subst heq
        cases hs
      have hmap : (Store.Teardown.next o receivers.length s.program a).map (fun program =>
          { s with
            program := program
            admitted := s.admitted ++ admits s.program.store program.store a }) = some s' := by
        rw [← hs]
        unfold next
        split
        case h_4 b t packet hb => exact absurd (Action.program.inj hb) (hin t packet)
        case h_5 b _ hb => rw [Action.program.inj hb]
        all_goals cases ‹_›
      obtain ⟨program, hprogram, rfl⟩ := Option.map_eq_some_iff.mp hmap
      exact h.program hprogram hin

/-- **Every run.** -/
theorem Inv.run (hseparate : Separate receivers)
    (hnodup : (receivers.map RunningReceiver.device).Nodup)
    (hrecord : ∀ r ∈ receivers, r.recordPackets = true ∧ r.store = true)
    (h : (system lib env captures receivers o).Run tr s) :
    Inv env receivers o tr s :=
  h.invariant (P := fun tr s => Inv env receivers o tr s) (fun _ hs => Inv.init hs)
    fun _ _ _ _ ih hs => ih.step hseparate hnodup hrecord hs

/-- When the drain is over, no thread is in `Store`. -/
theorem Inv.idle_of_finished (h : Inv env receivers o tr s) {drained : Bool}
    (hd : s.program.store.destructor = .finished drained) (t : Nat) :
    s.program.store.callers t = .idle := by
  by_contra hbusy
  have hnone := h.store.accepting (h.orderly.accepting_of_busy hbusy)
  rw [hd] at hnone
  cases hnone

/-! ## The receivers of `Init` -/

omit [DecidableEq D] in
/-- They record, if the options say so. -/
theorem records_running {config : RuntimeConfig} {st : Capture.State D}
    (hrecord : config.capture.recordPackets = true) :
    ∀ r ∈ runningOf config st, r.recordPackets = true ∧ r.store = true := by
  intro r hr
  obtain ⟨receiver, -, hrunning⟩ := List.mem_filterMap.mp hr
  obtain ⟨device, -, rfl⟩ := Option.map_eq_some_iff.mp hrunning
  exact ⟨hrecord, hrecord⟩

/-- The directions in which the devices capture when `Init` has returned. -/
def capturesAfter (env : Environment D) (earlier : List RuntimeConfig) (config : RuntimeConfig)
    (st : Capture.State D) : D → Option Direction :=
  capturesOf (logAfter env earlier ++ (init env config).trace (stateAfter env earlier)) st

/-- They capture from different devices, and share no route. -/
theorem running_apart {env : Environment D} {earlier : List RuntimeConfig}
    {config : RuntimeConfig} {st : Capture.State D}
    (hinit : (init env config).exec (stateAfter env earlier) = (st, .ok ())) :
    Separate (runningOf config st) ∧
      ((runningOf config st).map RunningReceiver.device).Nodup := by
  have hmade : Makes (init env config) _ _ _ := made_init config (sound_stateAfter env earlier)
  unfold Makes WpLog Wp at hmade
  rw [hinit] at hmade
  generalize logAfter env earlier ++ (init env config).trace (stateAfter env earlier) = log
    at hmade
  obtain ⟨hsound, hmade⟩ := hmade
  have hends : ∃ dir ends, Made dir ends log st ∧ Apart ends := by
    split at hmade
    · obtain ⟨a, b, -, -, hmade⟩ := hmade
      exact ⟨_, _, hmade, apart_routeOf (hmade.ends_ne hsound)⟩
    · obtain ⟨devices, hmade⟩ := hmade
      exact ⟨_, _, hmade, apart_unrouted devices⟩
  obtain ⟨dir, ends, hmade, hapart⟩ := hends
  refine ⟨hmade.separate hapart, ?_⟩
  have hdevices : (runningOf config st).map RunningReceiver.device = ends.map Prod.fst := by
    rw [← runningOf_map hmade.2, List.map_map]
    rfl
  rw [hdevices]
  exact hmade.nodup hsound

/-! ## The law -/

/-- What the receivers have carried on is what the store is given, and what the
connection is given of it. -/
structure Persists (env : PacketEnvironment D) (receivers : List (RunningReceiver D))
    (o : Store.Options) (tr : List (Action D)) (s : State D Buffer) : Prop where
  /-- what a receiver has carried on is admitted in its order, its last packet perhaps
  still in the thread's hand -/
  recorded : ∀ i r, receivers[i]? = some r →
    admittedFrom i s ++ inHand (s.program.store.callers i) =
      (carriedOn r s.traffic).map (recordOf env r)
  /-- with the lengths and the bytes of the packets -/
  truthful : ∀ i r, receivers[i]? = some r →
    List.Forall₂ Records (carriedOn r s.traffic)
      (admittedFrom i s ++ inHand (s.program.store.callers i))
  /-- the packets of the store are those of the receivers -/
  slots : s.program.store.jobs.map Job.packet = s.admitted.map Prod.snd ∧
    ∀ e ∈ s.admitted, e.1 < receivers.length
  /-- the connection is given a packet once, or the packet is given up once -/
  once : ∀ id, asked tr id + givenUp tr id ≤ 1
  settled : ∀ (id : Nat) (j : Job), s.program.store.jobs[id]? = some j → j.phase = .settled →
    asked tr id + givenUp tr id = 1
  request : ∀ (id : Nat) (j : Job) request, s.program.store.jobs[id]? = some j →
    j.phase = .executing request → request = xadd o j.packet
  /-- and no more than the limit wait for their end -/
  backlog : unsettled s.program.store.jobs ≤ o.maxPendingWrites
  /-- a drain that is complete leaves nothing out -/
  drained : s.program.store.destructor = .finished true →
    (∀ i r, receivers[i]? = some r →
      admittedFrom i s = (carriedOn r s.traffic).map (recordOf env r)) ∧
    ∀ id < s.program.store.jobs.length, asked tr id + givenUp tr id = 1

theorem Inv.persists (h : Inv env receivers o tr s) :
    Persists env receivers o tr s := by
  have hsettled : ∀ id j, s.program.store.jobs[id]? = some j → j.phase = .settled →
      asked tr id + givenUp tr id = 1 := by
    intro id j hj hphase
    have htold := h.told.told id j hj
    rwa [Told, hphase] at htold
  constructor
  case recorded => exact h.recorded
  case truthful =>
    intro i r hr
    rw [h.recorded i r hr, List.forall₂_map_right_iff, List.forall₂_same]
    exact fun packet _ => records_recordOf packet
  case slots => exact ⟨h.slots, h.owned⟩
  case once =>
    intro id
    rcases Nat.lt_or_ge id s.program.store.jobs.length with hid | hid
    · exact (h.told.told id _ (List.getElem?_eq_getElem hid)).le_one
    · rw [(h.told.untold id hid).1, (h.told.untold id hid).2]
      exact Nat.zero_le 1
  case settled => exact hsettled
  case request =>
    intro id j request hj hphase
    have htold := h.told.told id j hj
    rw [Told, hphase] at htold
    exact htold.2.2
  case backlog =>
    rw [← h.store.pending]
    exact h.store.le
  case drained =>
    intro hd
    constructor
    · intro i r hr
      rw [← h.recorded i r hr, h.idle_of_finished hd]
      exact (List.append_nil _).symm
    · intro id hid
      apply hsettled id _ (List.getElem?_eq_getElem hid)
      exact not_not.mp (h.store.drained hd _ (List.getElem_mem hid))

end Invariant

/-- **From the wire to Redis.**  When `Init` has returned and packets are recorded,
under every schedule of packets, capture threads, tasks, completions and the
teardown: what a receiver has put on its route, or was handed without one, is
admitted to the store in its order, and the connection is given each once with its
bytes, unless that throws. -/
theorem capture_persists [DecidableEq D] {Buffer : Type} (env : Environment D)
    (earlier : List RuntimeConfig) (config : RuntimeConfig) (st : Capture.State D)
    (hinit : (init env config).exec (stateAfter env earlier) = (st, .ok ()))
    (hrecord : config.capture.recordPackets = true) (lib : CaptureLibrary Buffer)
    (penv : PacketEnvironment D) (o : Store.Options) (tr : List (Action D)) (s : State D Buffer)
    (hrun : (system lib penv (capturesAfter env earlier config st) (runningOf config st) o).Run
      tr s) :
    Persists penv (runningOf config st) o tr s := by
  obtain ⟨hseparate, hnodup⟩ := running_apart hinit
  exact (Inv.run hseparate hnodup (records_running hrecord) hrun).persists

/-- Two interfaces, bridged and recorded. -/
def recordedBridge : RuntimeConfig where
  capture := { recordPackets := true }
  routing := ⟨true, "eth0", "eth1", true⟩

/-- A packet comes in on `eth0`, is sent on `eth1` and its request is given to the
connection. -/
theorem capture_persists_onePacket : ∃ st tr, ∃ s : State String (List (Origin × RawPacket)),
    Persists (link fun _ => true) (runningOf recordedBridge st) ⟨"packets", 1, by decide⟩ tr s ∧
      asked tr 0 = 1 := by
  have start : (system (boundedLibrary 2) (link fun _ => true)
      (capturesAfter twoInterfaces [] recordedBridge
        ((init twoInterfaces recordedBridge).exec (stateAfter twoInterfaces [])).1)
      (runningOf recordedBridge
        ((init twoInterfaces recordedBridge).exec (stateAfter twoInterfaces [])).1)
      ⟨"packets", 1, by decide⟩).Run []
      ⟨.initial (boundedLibrary 2),
        ⟨⟨0, true, fun _ => .idle, [], .notStarted⟩, .notStarted, fun _ => true, false⟩, []⟩ :=
    .init ⟨rfl, ⟨⟨rfl, rfl, fun _ => rfl, rfl, rfl⟩, rfl, rfl⟩, fun _ _ => rfl, rfl⟩
  have run := ((((start.act (.arrives "eth0" frame) rfl).act (.handles 0) rfl).act
    (.program (.store (.reserve 0))) rfl).act (.program (.store (.job 0 (.post true)))) rfl).act
    (.program (.store (.job 0 (.task .accepted)))) rfl
  exact ⟨_, _, _,
    capture_persists twoInterfaces [] recordedBridge _ rfl rfl (boundedLibrary 2) _ _ _ _ run, rfl⟩

end ElephantShrew.Capture.Persistence
