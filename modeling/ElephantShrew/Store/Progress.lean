import ElephantShrew.Store.Wakeups
import ElephantShrew.Verified.Fairness

/-!
# Writes settle, and callers return

Under a fair scheduler, and a connection that answers, every admitted packet is
settled, unless the destructor stops the io context first: the wait for the
pending writes has a timeout.  A thread in `Store` returns, unless packets of
others are admitted again and again in its place; once the store no longer
accepts, every thread returns that is not overtaken by the end of the destructor.

Fairness stands for the surroundings: the io thread and the connection go on with
each packet, a due call of `notify_all` is made, a thread that was notified or is
awake runs, and so does the destructor, whose wait ends by its timeout at the
latest.  A sleeper need not wake by itself.
-/

namespace ElephantShrew.Store.Wakeups

open ElephantShrew.Verified

variable {o : Options} {s s' : State} {a : Action}

/-- Those the scheduler is fair to. -/
inductive Party where
  | thread (t : Nat)
  | packet (id : Nat)
  | notifier
  | destructor
  deriving DecidableEq, Repr

/-- The steps of a party; a call of `Store` or of the destructor and a wakeup without
notification are nobody's. -/
def By : Party → Action → Prop
  | .thread t, .store (.reserve u) => u = t
  | .thread t, .store (.storeReturn u) => u = t
  | .thread t, .wakeNotified u => u = t
  | .packet id, .store (.job i _) => i = id
  | .notifier, .notifyAll => True
  | .destructor, .store .waitEnds => True
  | .destructor, .cancel => True
  | .destructor, .stop => True
  | .destructor, .join => True
  | _, _ => False

/-! ## A packet -/

theorem enabled_of {p : Party} (hby : By p a) (h : next o s a = some s') :
    (system o).Enabled (By p) s :=
  ⟨a, s', hby, h⟩

/-- The io context starts no handler any more. -/
def Stopped (s : State) : Prop := s.ending = .stopped ∨ s.ending = .joined

theorem allows_of_not_stopped (h : ¬ Stopped s) (b : Store.Action) :
    allows s.ending b = true := by
  cases hend : s.ending with
  | notStarted => rfl
  | cancelled => rfl
  | stopped => exact absurd (Or.inl hend) h
  | joined => exact absurd (Or.inr hend) h

/-- Only the start of a handler is ever refused before the end. -/
theorem allows_of_not_joined (h : s.ending ≠ .joined) {b : Store.Action}
    (hb : startsHandler b = false) : allows s.ending b = true := by
  cases hend : s.ending with
  | notStarted => rfl
  | cancelled => rfl
  | stopped => simp [allows, hb]
  | joined => exact absurd hend h

theorem not_joined_of_allows {b : Store.Action} (h : allows s.ending b = true) :
    s.ending ≠ .joined := by
  intro hend
  rw [hend] at h
  cases h

/-- A step of the store is possible here if it is there. -/
theorem next_store {b : Store.Action} {store : Store.State} (hallows : allows s.ending b = true)
    (h : Store.next o s.store b = some store) : ∃ s', next o s (.store b) = some s' := by
  simp only [next, hallows, if_true, h]
  exact ⟨_, rfl⟩

/-- Nobody takes a step when the store is gone. -/
theorem Steps.alive (h : Steps o s a s') : s.ending ≠ .joined := by
  cases h with
  | store b store hallows h => exact not_joined_of_allows hallows
  | wakeNotified t store hend hn h => exact hend
  | notifyAll hend h => exact hend
  | cancel drained hend hd =>
      rw [hend]
      exact Ending.noConfusion
  | stop hend =>
      rw [hend]
      exact Ending.noConfusion
  | join hend h =>
      rw [hend]
      exact Ending.noConfusion

theorem Stopped.step (h : Stopped s) (hstep : Steps o s a s') : Stopped s' := by
  cases hstep with
  | store | wakeNotified | notifyAll => exact h
  | cancel drained hend hd => rcases h with h | h <;> rw [h] at hend <;> cases hend
  | stop hend => exact Or.inl rfl
  | join hend hidle => exact Or.inr rfl

/-- The packet was admitted, and `CompletePendingWrite` was called for it. -/
def Settled (id : Nat) (s : State) : Prop :=
  ∃ j, s.store.jobs[id]? = some j ∧ ¬ j.Unsettled

/-- A packet takes a step of its own or stays as it is. -/
theorem job_next {st st' : Store.State} {b : Store.Action} (h : Store.next o st b = some st')
    {id : Nat} {j : Job} (hj : st.jobs[id]? = some j) :
    (∃ act j', b = .job id act ∧ j.step o act = some j' ∧ st'.jobs[id]? = some j') ∨
      ((∀ act, b ≠ .job id act) ∧ st'.jobs[id]? = some j) := by
  cases Store.Steps.of_next h with
  | reserve t packet hc =>
      refine Or.inr ⟨fun _ => Store.Action.noConfusion, ?_⟩
      unfold reserve
      split
      · exact hj
      · split
        · exact hj
        · show (st.jobs ++ [_])[id]? = some j
          rw [List.getElem?_append_left (List.getElem?_eq_some_iff.mp hj).1]
          exact hj
  | job i act ji j' hi hstep =>
      by_cases hid : i = id
      · subst hid
        rw [hj] at hi
        injection hi with hi
        subst hi
        refine Or.inl ⟨act, j', rfl, hstep, ?_⟩
        exact List.getElem?_set_self (List.getElem?_eq_some_iff.mp hj).1
      · refine Or.inr ⟨?_, (List.getElem?_set_ne hid).trans hj⟩
        intro act' heq
        injection heq with heq
        exact hid heq
  | store | wake | storeReturn | stopAccepting | waitEnds =>
      exact Or.inr ⟨fun _ => Store.Action.noConfusion, hj⟩

theorem job_step (h : Steps o s a s') {id : Nat} {j : Job} (hj : s.store.jobs[id]? = some j) :
    (∃ act j', j.step o act = some j' ∧ s'.store.jobs[id]? = some j') ∨
      (¬ By (.packet id) a ∧ s'.store.jobs[id]? = some j) := by
  cases h with
  | notifyAll | cancel | stop | join => exact Or.inr ⟨fun hby => hby, hj⟩
  | wakeNotified t store hend hn hstore =>
      rcases job_next hstore hj with ⟨act, j', hb, -⟩ | ⟨-, hsame⟩
      · cases hb
      · exact Or.inr ⟨fun hby => hby, hsame⟩
  | store b store hallows hstore =>
      rcases job_next hstore hj with ⟨act, j', -, hstep, hj'⟩ | ⟨hother, hsame⟩
      · exact Or.inl ⟨act, j', hstep, hj'⟩
      · refine Or.inr ⟨?_, hsame⟩
        intro hby
        cases b <;> try exact hby
        case job i act =>
          rw [show i = id from hby] at hother
          exact hother act rfl

theorem Settled.step {id : Nat} (h : Settled id s) (hstep : Steps o s a s') : Settled id s' := by
  obtain ⟨j, hj, hset⟩ := h
  rcases job_step hstep hj with ⟨act, j', hjob, -⟩ | ⟨-, hsame⟩
  · exact absurd (Job.step_cases hjob).1 hset
  · exact ⟨j, hsame, hset⟩

theorem length_le_step (hstep : Steps o s a s') :
    s.store.jobs.length ≤ s'.store.jobs.length := by
  cases hstep with
  | notifyAll | cancel | stop | join => exact Nat.le_refl _
  | wakeNotified t store hend hn hstore => exact length_le_next hstore
  | store b store hallows hstore => exact length_le_next hstore

theorem length_le_of_le {ρ : Trace (system o)} {u v : Nat} (huv : u ≤ v) :
    (ρ.state u).store.jobs.length ≤ (ρ.state v).store.jobs.length :=
  Trace.stable (P := fun s : State => (ρ.state u).store.jobs.length ≤ s.store.jobs.length)
    (fun _ _ _ _ hs hstep => hs.trans (length_le_step (.of_next hstep))) (Nat.le_refl _) huv

/-- How far a packet is from being settled. -/
def toSettle (id : Nat) (s : State) : Nat := (s.store.jobs[id]?).elim 0 fun j => j.phase.rank

variable {ρ : Trace (system o)}

/-- **An admitted packet is settled**, unless the io context is stopped first. -/
theorem settles (hfair : ∀ p, ρ.Fair (By p)) (id : Nat) :
    ρ.LeadsTo (fun s => id < s.store.jobs.length) fun s => Settled id s ∨ Stopped s := by
  apply Trace.LeadsTo.ranked hfair (toSettle id) (fun _ => .packet id)
  · intro s a s' _ hid hstep
    have hstep := Steps.of_next hstep
    have hj : s.store.jobs[id]? = some s.store.jobs[id] := List.getElem?_eq_getElem hid
    have hid' := Nat.lt_of_lt_of_le hid (length_le_step hstep)
    rcases job_step hstep hj with ⟨act, j', hjob, hj'⟩ | ⟨hnot, hsame⟩
    · refine Or.inr ⟨hid', Or.inl ?_⟩
      simp only [toSettle, hj, hj', Option.elim_some]
      exact Job.step_rank hjob
    · refine Or.inr ⟨hid', Or.inr ⟨?_, rfl, hnot⟩⟩
      simp only [toSettle, hj, hsame]
  · intro k p t ht
    obtain ⟨hid, -, rfl⟩ := ht
    refine ⟨t, Nat.le_refl t, ?_⟩
    have hj : (ρ.state t).store.jobs[id]? = some (ρ.state t).store.jobs[id] :=
      List.getElem?_eq_getElem hid
    by_cases hstopped : Stopped (ρ.state t)
    · exact Or.inr (Or.inl (Or.inr hstopped))
    by_cases hun : ((ρ.state t).store.jobs[id]).Unsettled
    · apply Or.inl
      obtain ⟨act, j', hjob⟩ := Job.progress (o := o) hun
      have hnext : ∃ store, Store.next o (ρ.state t).store (.job id act) = some store := by
        simp only [Store.next, hj, hjob]
        exact ⟨_, rfl⟩
      obtain ⟨store, hstore⟩ := hnext
      obtain ⟨s', hs'⟩ := next_store (allows_of_not_stopped hstopped _) hstore
      exact enabled_of (p := .packet id) (a := .store (.job id act)) rfl hs'
    · exact Or.inr (Or.inl (Or.inl ⟨_, hj, hun⟩))

/-- The packets admitted so far are settled together. -/
theorem all_settle (hfair : ∀ p, ρ.Fair (By p)) (k : Nat) :
    ρ.LeadsTo (fun s => k ≤ s.store.jobs.length)
      fun s => (∀ id, id < k → Settled id s) ∨ Stopped s := by
  have hall : ρ.LeadsTo (fun s => k ≤ s.store.jobs.length)
      fun s => ∀ id : Fin k, Settled id s ∨ Stopped s := by
    apply Trace.LeadsTo.all
    · intro id t ht
      exact settles hfair id t (Nat.lt_of_lt_of_le id.isLt ht)
    · intro s a s' _ hk hstep
      exact hk.trans (length_le_step (.of_next hstep))
    · intro id s a s' _ hs hstep
      exact hs.imp (fun h => h.step (.of_next hstep)) fun h => h.step (.of_next hstep)
  apply hall.trans
  apply Trace.LeadsTo.of_imp
  intro s _ hs
  by_cases hstopped : Stopped s
  · exact Or.inr hstopped
  · exact Or.inl fun id hid => (hs ⟨id, hid⟩).resolve_right hstopped

/-- With all packets settled nothing is pending. -/
theorem Inv.pending_zero (h : Inv o s)
    (hall : ∀ id, id < s.store.jobs.length → Settled id s) : s.store.pendingWrites = 0 := by
  rw [h.store.pending, unsettled, List.countP_eq_zero]
  intro j hj
  obtain ⟨id, hid, hget⟩ := List.getElem_of_mem hj
  obtain ⟨j', hj', hset⟩ := hall id hid
  rw [List.getElem?_eq_getElem hid, hget] at hj'
  injection hj' with hj'
  rw [hj', decide_eq_true_eq]
  exact hset

/-! ## A thread in `Store` -/

variable {t k : Nat}

/-- The thread is in `Store`, and the store is there. -/
structure Inside (t : Nat) (s : State) : Prop where
  alive : s.ending ≠ .joined
  inside : s.store.callers t ≠ .idle

/-- How far a thread with this packet is from its return. -/
def toReturn : Phase → Nat
  | .posting => 3
  | .postFailed => 2
  | _ => 1

/-- How far a thread is from its return, if there is room for it. -/
def toLeave (t : Nat) (s : State) : Nat :=
  match s.store.callers t with
  | .idle => 0
  | .reserving _ => 1
  | .waiting _ => if s.notified t then 2 else 3
  | .storing id => (s.store.jobs[id]?).elim 1 fun j => toReturn j.phase

/-- Who has to move for that. -/
def leaver (t : Nat) (s : State) : Party :=
  match s.store.callers t with
  | .waiting _ => if s.notified t then .thread t else .notifier
  | .storing id =>
      (s.store.jobs[id]?).elim (.thread t) fun j =>
        if j.phase.returns then .thread t else .packet id
  | _ => .thread t

/-- What leaves the thread and its packet alone keeps rank and turn. -/
theorem toLeave_congr (hcaller : s'.store.callers t = s.store.callers t)
    (hnotified : s'.notified t = s.notified t)
    (hjob : ∀ id, s.store.callers t = .storing id → s'.store.jobs[id]? = s.store.jobs[id]?) :
    toLeave t s' = toLeave t s ∧ leaver t s' = leaver t s := by
  unfold toLeave leaver
  rw [hcaller, hnotified]
  cases hc : s.store.callers t with
  | storing id =>
      dsimp only
      rw [hjob id hc]
      exact ⟨rfl, rfl⟩
  | idle | reserving | waiting => exact ⟨rfl, rfl⟩

/-- A packet's step brings its thread nearer, or has nothing to do with it. -/
theorem step_toReturn {j j' : Job} {act : JobAction} (h : j.step o act = some j') :
    if j.phase.returns then toReturn j'.phase = toReturn j.phase ∧ j'.phase.returns
    else toReturn j'.phase < toReturn j.phase := by
  obtain ⟨packet, phase, completions⟩ := j
  cases act with
  | post ok =>
      cases phase <;> simp only [Job.step, Option.some.injEq, reduceCtorEq] at h
      subst h
      cases ok <;> simp [toReturn, Phase.returns]
  | task r =>
      cases phase <;> simp only [Job.step, Option.some.injEq, reduceCtorEq] at h
      subst h
      cases r <;> simp [toReturn, Phase.returns]
  | handler failed =>
      cases phase <;> simp only [Job.step, Option.some.injEq, reduceCtorEq] at h
      subst h
      simp [toReturn, Phase.returns]
  | completePendingWrite =>
      cases phase <;> simp only [Job.step, Option.some.injEq, reduceCtorEq] at h
      all_goals
        subst h
        simp [toReturn, Phase.returns]

theorem leaver_cases (t : Nat) (s : State) :
    leaver t s = .thread t ∨ leaver t s = .notifier ∨
      ∃ id j, leaver t s = .packet id ∧ s.store.callers t = .storing id ∧
        s.store.jobs[id]? = some j ∧ j.phase.returns = false := by
  unfold leaver
  cases hc : s.store.callers t with
  | idle => exact Or.inl rfl
  | reserving packet => exact Or.inl rfl
  | waiting packet =>
      dsimp only
      split
      · exact Or.inl rfl
      · exact Or.inr (Or.inl rfl)
  | storing id =>
      dsimp only
      cases hj : s.store.jobs[id]? with
      | none => exact Or.inl rfl
      | some j =>
          cases hreturns : j.phase.returns with
          | true => exact Or.inl (by simp [hreturns])
          | false => exact Or.inr (Or.inr ⟨id, j, by simp [hreturns], rfl, hj, hreturns⟩)

/-- Steps that are neither the thread's, nor its packet's, nor a notification. -/
theorem not_by_leaver (hthread : ¬ By (.thread t) a) (hnotify : a ≠ .notifyAll)
    (hpacket : ∀ id, s.store.callers t = .storing id → ¬ By (.packet id) a) :
    ¬ By (leaver t s) a := by
  rcases leaver_cases t s with hl | hl | ⟨id, j, hl, hc, -, -⟩ <;> rw [hl]
  · exact hthread
  · intro hby
    cases a <;> first | exact hby | exact hnotify rfl
  · exact hpacket id hc

/-- A step brings the thread nearer to its return, or is somebody else's and leaves
rank and turn alone. -/
def Nears (t : Nat) (s : State) (a : Action) (s' : State) : Prop :=
  toLeave t s' < toLeave t s ∨
    (toLeave t s' = toLeave t s ∧ leaver t s' = leaver t s ∧ ¬ By (leaver t s) a)

/-- Somebody else has moved. -/
theorem Inside.aside (h : Inside t s) (hend : s'.ending ≠ .joined)
    (hcaller : s'.store.callers t = s.store.callers t) (hnotified : s'.notified t = s.notified t)
    (hjob : ∀ id, s.store.callers t = .storing id → s'.store.jobs[id]? = s.store.jobs[id]?)
    (hnot : ¬ By (leaver t s) a) : Inside t s' ∧ Nears t s a s' := by
  have hsame := toLeave_congr hcaller hnotified hjob
  refine ⟨⟨hend, ?_⟩, Or.inr ⟨hsame.1, hsame.2, hnot⟩⟩
  rw [hcaller]
  exact h.inside

/-- The thread wakes. -/
theorem Inside.woken (h : Inside t s) {packet : PacketInfo}
    (hc : s.store.callers t = .waiting packet)
    (hs' : s'.store = s.store.setCaller t (.reserving packet)) (hend : s'.ending = s.ending) :
    Inside t s' ∧ Nears t s a s' := by
  have hcaller : s'.store.callers t = .reserving packet := by
    rw [hs']
    exact Function.update_self ..
  refine ⟨⟨?_, ?_⟩, Or.inl ?_⟩
  · rw [hend]
    exact h.alive
  · rw [hcaller]
    exact Caller.noConfusion
  · unfold toLeave
    rw [hcaller, hc]
    dsimp only
    split <;> decide

/-- A notification reaches the thread if it sleeps. -/
theorem Inside.notifyAll (h : Inside t s) (due : Nat) :
    Inside t { s with notified := fun _ => true, due := due } ∧
      Nears t s .notifyAll { s with notified := fun _ => true, due := due } := by
  refine ⟨⟨h.alive, h.inside⟩, ?_⟩
  by_cases hasleep : (∃ packet, s.store.callers t = .waiting packet) ∧ s.notified t = false
  · obtain ⟨⟨packet, hc⟩, hn⟩ := hasleep
    apply Or.inl
    simp [toLeave, hc, hn]
  · have hawake : ∀ packet, s.store.callers t = .waiting packet → s.notified t = true := by
      intro packet hc
      by_contra hn
      exact hasleep ⟨⟨packet, hc⟩, Bool.not_eq_true _ |>.mp hn⟩
    refine Or.inr ⟨?_, ?_, ?_⟩
    · cases hc : s.store.callers t <;> simp [toLeave, hc]
      exact hawake _ hc
    · cases hc : s.store.callers t <;> simp [leaver, hc]
      exact hawake _ hc
    · rcases leaver_cases t s with hl | hl | ⟨id, j, hl, hc, -, -⟩
      · rw [hl]
        exact fun hby => hby
      · unfold leaver at hl
        cases hc : s.store.callers t with
        | waiting packet => simp [hc, hawake packet hc] at hl
        | storing id =>
            rw [hc] at hl
            dsimp only at hl
            cases hj : s.store.jobs[id]? with
            | none => simp [hj] at hl
            | some j => cases hreturns : j.phase.returns <;> simp [hj, hreturns] at hl
        | idle | reserving => simp [hc] at hl
      · rw [hl]
        exact fun hby => hby

/-- The thread's packet moves on. -/
theorem Inside.packet (h : Inside t s) {id : Nat} {act : JobAction} {j j' : Job}
    (hc : s.store.callers t = .storing id) (hj : s.store.jobs[id]? = some j)
    (hjob : j.step o act = some j') (hs' : s'.store = s.store.setJob id act j')
    (hend : s'.ending = s.ending) : Inside t s' ∧ Nears t s (.store (.job id act)) s' := by
  have hnear := step_toReturn hjob
  have hj' : (s.store.jobs.set id j')[id]? = some j' :=
    List.getElem?_set_self (List.getElem?_eq_some_iff.mp hj).1
  refine ⟨⟨?_, ?_⟩, ?_⟩
  · rw [hend]
    exact h.alive
  · rw [hs']
    exact h.inside
  · cases hreturns : j.phase.returns with
    | true =>
        rw [hreturns, if_pos rfl] at hnear
        have hl : leaver t s = .thread t := by simp [leaver, hc, hj, hreturns]
        refine Or.inr ⟨?_, ?_, ?_⟩
        · simp [toLeave, hs', Store.State.setJob, hc, hj, hj', hnear.1]
        · simp [leaver, hs', Store.State.setJob, hc, hj, hj', hnear.2, hreturns]
        · rw [hl]
          exact fun hby => hby
    | false =>
        rw [hreturns, if_neg Bool.false_ne_true] at hnear
        apply Or.inl
        simpa [toLeave, hs', Store.State.setJob, hc, hj, hj'] using hnear

/-- **One step**: the thread has returned, the store is gone, the thread has looked
for a slot, it has come nearer, or somebody else has moved. -/
theorem Inside.step (h : Inside t s) (hinv : Inv o s) (hstep : Steps o s a s') :
    (s'.store.callers t = .idle ∨ s'.ending = .joined) ∨ a = .store (.reserve t) ∨
      (Inside t s' ∧ Nears t s a s') := by
  have moved : ∀ {u : Nat} (c : Caller), t ≠ u →
      (s.store.setCaller u c).callers t = s.store.callers t :=
    fun c htu => Function.update_of_ne htu _ _
  cases hstep with
  | cancel drained hend hd =>
      exact Or.inr (Or.inr (h.aside Ending.noConfusion rfl rfl (fun _ _ => rfl)
        (not_by_leaver (fun hby => hby) Action.noConfusion fun _ _ hby => hby)))
  | stop hend =>
      exact Or.inr (Or.inr (h.aside Ending.noConfusion rfl rfl (fun _ _ => rfl)
        (not_by_leaver (fun hby => hby) Action.noConfusion fun _ _ hby => hby)))
  | join hend hidle => exact Or.inl (Or.inr rfl)
  | notifyAll hend hdue => exact Or.inr (Or.inr (h.notifyAll _))
  | wakeNotified u store hend hn hstore =>
      apply Or.inr (Or.inr _)
      cases Store.Steps.of_next hstore with
      | wake _ packet hc =>
          by_cases htu : t = u
          · subst htu
            exact h.woken hc rfl rfl
          · exact h.aside h.alive (moved _ htu) rfl (fun _ _ => rfl)
              (not_by_leaver (fun hby => htu (show u = t from hby).symm) Action.noConfusion
                fun _ _ hby => hby)
  | store b store hallows hstore =>
      cases Store.Steps.of_next hstore with
      | store u packet hc =>
          have htu : t ≠ u := by
            rintro rfl
            exact h.inside hc
          exact Or.inr (Or.inr (h.aside h.alive (moved _ htu) rfl (fun _ _ => rfl)
            (not_by_leaver (fun hby => hby) Action.noConfusion fun _ _ hby => hby)))
      | wake u packet hc =>
          apply Or.inr (Or.inr _)
          by_cases htu : t = u
          · subst htu
            exact h.woken hc rfl rfl
          · exact h.aside h.alive (moved _ htu) rfl (fun _ _ => rfl)
              (not_by_leaver (fun hby => hby) Action.noConfusion fun _ _ hby => hby)
      | storeReturn u id hc =>
          by_cases htu : t = u
          · subst htu
            exact Or.inl (Or.inl (Function.update_self ..))
          · exact Or.inr (Or.inr (h.aside h.alive (moved _ htu) rfl (fun _ _ => rfl)
              (not_by_leaver (fun hby => htu (show u = t from hby).symm) Action.noConfusion
                fun _ _ hby => hby)))
      | stopAccepting hd | waitEnds hd =>
          exact Or.inr (Or.inr (h.aside h.alive rfl rfl (fun _ _ => rfl)
            (not_by_leaver (fun hby => hby) Action.noConfusion fun _ _ hby => hby)))
      | reserve u packet hc =>
          by_cases htu : t = u
          · subst htu
            exact Or.inr (Or.inl rfl)
          · refine Or.inr (Or.inr (h.aside h.alive (reserve_callers_of_ne packet htu)
              (Function.update_of_ne htu _ _) ?_
              (not_by_leaver (fun hby => htu (show u = t from hby).symm) Action.noConfusion
                fun _ _ hby => hby)))
            intro id hid
            have hlt := hinv.admitted t id hid
            have hj := List.getElem?_eq_getElem hlt
            rcases job_next hstore hj with ⟨_, _, hb, -⟩ | ⟨-, hsame⟩
            · cases hb
            · exact hsame.trans hj.symm
      | job i act j j' hj hjob =>
          apply Or.inr (Or.inr _)
          by_cases hmine : s.store.callers t = .storing i
          · exact h.packet hmine hj hjob rfl rfl
          · refine h.aside h.alive rfl rfl ?_
              (not_by_leaver (fun hby => hby) Action.noConfusion ?_)
            · intro id hc
              apply List.getElem?_set_ne
              rintro rfl
              exact hmine hc
            · intro id hc hby
              rw [show i = id from hby] at hmine
              exact hmine hc

/-! ### What is possible -/

theorem enabled_reserve (hend : s.ending ≠ .joined) {packet : PacketInfo}
    (hc : s.store.callers t = .reserving packet) : (system o).Enabled (By (.thread t)) s := by
  have hstore : Store.next o s.store (.reserve t) = some (reserve o s.store t packet) := by
    simp only [Store.next, hc]
  obtain ⟨s', hs'⟩ := next_store (allows_of_not_joined hend rfl) hstore
  exact enabled_of (p := .thread t) (a := .store (.reserve t)) rfl hs'

theorem enabled_wake (hend : s.ending ≠ .joined) {packet : PacketInfo}
    (hc : s.store.callers t = .waiting packet) (hn : s.notified t = true) :
    (system o).Enabled (By (.thread t)) s := by
  apply enabled_of (p := .thread t) (a := .wakeNotified t) rfl
  simp only [next, Store.next, hc, hn, if_true, hend, ne_eq, not_false_eq_true, and_self]
  rfl

theorem enabled_notifyAll (hend : s.ending ≠ .joined) (hdue : 0 < s.due) :
    (system o).Enabled (By .notifier) s := by
  apply enabled_of (p := .notifier) (a := .notifyAll) trivial
  simp only [next, if_pos (And.intro hend hdue)]
  rfl

theorem enabled_storeReturn (hend : s.ending ≠ .joined) {id : Nat}
    (hc : s.store.callers t = .storing id) {j : Job} (hj : s.store.jobs[id]? = some j)
    (hreturns : j.phase.returns = true) : (system o).Enabled (By (.thread t)) s := by
  have hstore : Store.next o s.store (.storeReturn t) = some (s.store.setCaller t .idle) := by
    simp only [Store.next, hc, hj, hreturns, if_true]
  obtain ⟨s', hs'⟩ := next_store (allows_of_not_joined hend rfl) hstore
  exact enabled_of (p := .thread t) (a := .store (.storeReturn t)) rfl hs'

/-- Whoever has to move can, if the thread sleeps for no reason. -/
theorem Inside.enabled (h : Inside t s) (hinv : Inv o s)
    (hroom : ¬(s.store.pendingWrites = o.maxPendingWrites ∧ s.store.acceptingWrites = true)) :
    (system o).Enabled (By (leaver t s)) s := by
  unfold leaver
  cases hc : s.store.callers t with
  | idle => exact absurd hc h.inside
  | reserving packet => exact enabled_reserve h.alive hc
  | waiting packet =>
      dsimp only
      cases hn : s.notified t with
      | true => exact enabled_wake h.alive hc hn
      | false =>
          have hdue : 0 < s.due := by
            rcases hinv.heard t packet hc with hheard | hdue | hfull
            · rw [hn] at hheard
              cases hheard
            · exact hdue
            · exact absurd hfull hroom
          exact enabled_notifyAll h.alive hdue
  | storing id =>
      obtain ⟨j, hj⟩ : ∃ j, s.store.jobs[id]? = some j :=
        ⟨_, List.getElem?_eq_getElem (hinv.admitted t id hc)⟩
      dsimp only
      rw [hj, Option.elim_some]
      cases hreturns : j.phase.returns with
      | true => exact enabled_storeReturn h.alive hc hj hreturns
      | false =>
          have hmove : ∃ act j', j.step o act = some j' ∧ startsHandler (.job id act) = false := by
            obtain ⟨packet, phase, completions⟩ := j
            cases phase <;> simp only [Phase.returns, reduceCtorEq] at hreturns
            · exact ⟨.post true, _, rfl, rfl⟩
            · exact ⟨.completePendingWrite, _, rfl, rfl⟩
          obtain ⟨act, j', hjob, hact⟩ := hmove
          have hstore : Store.next o s.store (.job id act) = some (s.store.setJob id act j') := by
            simp only [Store.next, hj, hjob]
          obtain ⟨s', hs'⟩ := next_store (allows_of_not_joined h.alive hact) hstore
          exact enabled_of (p := .packet id) (a := .store (.job id act)) rfl hs'

/-! ## The store closes -/

theorem closed_step (h : s.store.acceptingWrites = false) (hstep : Steps o s a s') :
    s'.store.acceptingWrites = false ∧ s'.store.jobs.length = s.store.jobs.length := by
  cases hstep with
  | notifyAll | cancel | stop | join => exact ⟨h, rfl⟩
  | wakeNotified t store hend hn hstore => exact next_not_accepting hstore h
  | store b store hallows hstore => exact next_not_accepting hstore h

theorem closed_stays {u v : Nat} (h : (ρ.state u).store.acceptingWrites = false) (huv : u ≤ v) :
    (ρ.state v).store.acceptingWrites = false ∧
      (ρ.state v).store.jobs.length = (ρ.state u).store.jobs.length := by
  have hkeeps : ∀ s a s', (system o).Reachable s →
      (s.store.acceptingWrites = false ∧
        s.store.jobs.length = (ρ.state u).store.jobs.length) → (system o).step s a s' →
      (s'.store.acceptingWrites = false ∧
        s'.store.jobs.length = (ρ.state u).store.jobs.length) := by
    intro s a s' _ hs hstep
    have hclosed := closed_step hs.1 (.of_next hstep)
    exact ⟨hclosed.1, hclosed.2.trans hs.2⟩
  exact Trace.stable hkeeps ⟨h, rfl⟩ huv

/-- A store whose destructor is past its wait is closed. -/
theorem Inv.closed (h : Inv o s) (hend : s.ending ≠ .notStarted) :
    s.store.acceptingWrites = false := by
  obtain ⟨drained, hd⟩ := h.ending hend
  by_contra hacc
  rw [h.store.accepting (Bool.not_eq_false _ |>.mp hacc)] at hd
  cases hd

theorem Stopped.closed (h : Stopped s) (hinv : Inv o s) : s.store.acceptingWrites = false := by
  apply hinv.closed
  rcases h with h | h <;> rw [h] <;> exact Ending.noConfusion

/-- A thread is in a store that is closed. -/
structure Leaving (t : Nat) (s : State) : Prop where
  inside : Inside t s
  closed : s.store.acceptingWrites = false

/-- A closed store takes in nothing. -/
theorem reserve_closed {st : Store.State} {u : Nat} {packet : PacketInfo}
    (h : st.acceptingWrites = false) : reserve o st u packet = st.setCaller u .idle := by
  have hlook : ¬¬(st.pendingWrites < o.maxPendingWrites ∨ st.acceptingWrites = false) :=
    not_not.mpr (Or.inr h)
  rw [reserve, if_neg hlook, if_pos h]

/-- **One step** of a closed store. -/
theorem Leaving.step (h : Leaving t s) (hinv : Inv o s) (hstep : Steps o s a s') :
    (s'.store.callers t = .idle ∨ s'.ending = .joined) ∨
      (Leaving t s' ∧ Nears t s a s') := by
  rcases h.inside.step hinv hstep with hend | rfl | ⟨hinside, hmoved⟩
  · exact Or.inl hend
  · cases hstep with
    | store b store hallows hstore =>
        cases Store.Steps.of_next hstore with
        | reserve _ packet hc =>
            apply Or.inl (Or.inl _)
            show (reserve o s.store t packet).callers t = .idle
            rw [reserve_closed h.closed]
            exact Function.update_self ..
  · exact Or.inr ⟨⟨hinside, (closed_step h.closed hstep).1⟩, hmoved⟩

/-- **Every thread leaves a closed store**, or is overtaken by the end of the destructor. -/
theorem leaves (hfair : ∀ p, ρ.Fair (By p)) (t : Nat) :
    ρ.LeadsTo (fun s => s.store.acceptingWrites = false)
      fun s => s.store.callers t = .idle ∨ s.ending = .joined := by
  have hleaving : ρ.LeadsTo (Leaving t)
      fun s => s.store.callers t = .idle ∨ s.ending = .joined := by
    apply Trace.LeadsTo.ranked hfair (toLeave t) (leaver t)
    · rintro s a s' ⟨tr, hs⟩ h hstep
      exact h.step (Inv.run hs) (.of_next hstep)
    · intro r p
      apply Trace.LeadsTo.of_imp
      rintro s ⟨tr, hs⟩ ⟨h, -, rfl⟩
      apply Or.inl (h.inside.enabled (Inv.run hs) _)
      rw [h.closed]
      simp
  intro u hclosed
  by_cases hend : (ρ.state u).ending = .joined
  · exact ⟨u, Nat.le_refl u, Or.inr hend⟩
  by_cases hidle : (ρ.state u).store.callers t = .idle
  · exact ⟨u, Nat.le_refl u, Or.inl hidle⟩
  · exact hleaving u ⟨⟨hend, hidle⟩, hclosed⟩

/-! ## A thread in an open store -/

/-- A thread is in `Store`, all packets are settled, and `k` were admitted. -/
structure Free (t k : Nat) (s : State) : Prop where
  inside : Inside t s
  length : s.store.jobs.length = k
  settled : ∀ id, id < k → Settled id s

/-- The thread has returned, or another packet was admitted. -/
def Served (t k : Nat) (s : State) : Prop := s.store.callers t = .idle ∨ k < s.store.jobs.length

/-- With room in the backlog a thread that looks does not sleep. -/
theorem reserve_of_room {st : Store.State} (hroom : st.pendingWrites < o.maxPendingWrites) (u : Nat)
    (packet : PacketInfo) :
    (reserve o st u packet).callers u = .idle ∨
      st.jobs.length < (reserve o st u packet).jobs.length := by
  have hlook : ¬¬(st.pendingWrites < o.maxPendingWrites ∨ st.acceptingWrites = false) :=
    not_not.mpr (Or.inl hroom)
  rw [reserve, if_neg hlook]
  split
  · exact Or.inl (Function.update_self ..)
  · apply Or.inr
    simp

theorem Free.room (h : Free t k s) (hinv : Inv o s) :
    s.store.pendingWrites < o.maxPendingWrites := by
  rw [hinv.pending_zero fun id hid => h.settled id (h.length ▸ hid)]
  exact o.maxPendingWrites_pos

/-- **One step**: the thread is served, or comes nearer, or somebody else has moved. -/
theorem Free.step (h : Free t k s) (hinv : Inv o s) (hstep : Steps o s a s') :
    (Served t k s' ∨ s'.ending = .joined) ∨ (Free t k s' ∧ Nears t s a s') := by
  have hle := length_le_step hstep
  by_cases hgrown : k < s'.store.jobs.length
  · exact Or.inl (Or.inl (Or.inr hgrown))
  rcases h.inside.step hinv hstep with hend | rfl | ⟨hinside, hmoved⟩
  · exact Or.inl (hend.imp Or.inl id)
  · cases hstep with
    | store b store hallows hstore =>
        cases Store.Steps.of_next hstore with
        | reserve _ packet hc =>
            rcases reserve_of_room (h.room hinv) t packet with hidle | hmore
            · exact Or.inl (Or.inl (Or.inl hidle))
            · exact absurd (h.length ▸ hmore) hgrown
  · have hlength : s'.store.jobs.length = k := by
      have hk := h.length
      omega
    exact Or.inr ⟨⟨hinside, hlength, fun id hid => (h.settled id hid).step hstep⟩, hmoved⟩

/-- **A thread in `Store` returns, or another packet is admitted**, unless the
destructor ends first. -/
theorem served (hfair : ∀ p, ρ.Fair (By p)) (t k : Nat) :
    ρ.LeadsTo (fun s => s.store.callers t ≠ .idle ∧ s.store.jobs.length = k)
      fun s => Served t k s ∨ s.ending = .joined := by
  have hfree : ρ.LeadsTo (Free t k) fun s => Served t k s ∨ s.ending = .joined := by
    apply Trace.LeadsTo.ranked hfair (toLeave t) (leaver t)
    · intro s a s' hs h hstep
      obtain ⟨tr, hs⟩ := hs
      exact h.step (Inv.run hs) (.of_next hstep)
    · intro r p
      apply Trace.LeadsTo.of_imp
      rintro s ⟨tr, hs⟩ ⟨h, -, rfl⟩
      have hroom := h.room (Inv.run hs)
      exact Or.inl (h.inside.enabled (Inv.run hs) fun hfull => by omega)
  have hstay : ∀ s a s', (system o).Reachable s →
      s.store.callers t ≠ .idle ∧ s.store.jobs.length = k → (system o).step s a s' →
      (s'.store.callers t ≠ .idle ∧ s'.store.jobs.length = k) ∨ Served t k s' := by
    intro s a s' _ h hstep
    have hle := length_le_step (Steps.of_next hstep)
    by_cases hidle : s'.store.callers t = .idle
    · exact Or.inr (Or.inl hidle)
    · by_cases hmore : k < s'.store.jobs.length
      · exact Or.inr (Or.inr hmore)
      · exact Or.inl ⟨hidle, by omega⟩
  have hsettle : ρ.LeadsTo (fun s => s.store.callers t ≠ .idle ∧ s.store.jobs.length = k)
      fun s => (∀ id, id < k → Settled id s) ∨ Stopped s :=
    fun u hu => all_settle hfair k u hu.2.ge
  apply (hsettle.while hstay).trans
  intro u hu
  rcases hu with ⟨⟨hinside, hlength⟩, hall | hstopped⟩ | hserved
  · by_cases hend : (ρ.state u).ending = .joined
    · exact ⟨u, Nat.le_refl u, Or.inr hend⟩
    · exact hfree u ⟨⟨hend, hinside⟩, hlength, hall⟩
  · obtain ⟨tr, h⟩ := ρ.reachable u
    obtain ⟨v, hv, hleft⟩ := leaves hfair t u (hstopped.closed (Inv.run h))
    exact ⟨v, hv, hleft.imp Or.inl id⟩
  · exact ⟨u, Nat.le_refl u, Or.inl hserved⟩

end ElephantShrew.Store.Wakeups
