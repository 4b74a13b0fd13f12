import ElephantShrew.Telemetry.Lifecycle

/-!
# One producer at a time

Who may run a callback is a matter of roles: the poller until it has been
joined, then the thread that drains, and nobody once `FinishAfterDetach` has
returned.  `Roles` says so of the two threads, and what the flags are in each
phase; `Wired` ties the sources to the rings.  Both hold after any sequence of
lifecycle calls, whichever of them fail.
-/

namespace ElephantShrew.Telemetry.Lifecycle

open ElephantShrew.Verified
open ElephantShrew.Telemetry
open ElephantShrew.Telemetry.Drain (Gone)

variable {capacity : Nat} {o : Codec.ByteOrder}

/-! ## The two threads -/

/-- The call is in `OnEvent`. -/
def InEvent : Drain.Call → Prop
  | .entered _ _ => True
  | .loaded _ _ _ => True
  | _ => False

/-- The poller thread is in `OnEvent`. -/
def PollerInEvent (s : Drain.State) : Prop := ∃ call, s.poller = .polling call ∧ InEvent call

/-- The thread in `FinishAfterDetach` is in `OnEvent`. -/
def FinisherInEvent (s : Drain.State) : Prop := ∃ call, s.finisher = .consuming call ∧ InEvent call

/-- The poller may still run. -/
def Unjoined : Drain.Finisher → Prop
  | .notCalled => True
  | .joining _ => True
  | _ => False

/-- Who may run, and what the flags are meanwhile. -/
structure Roles (s : Drain.State) : Prop where
  gone : ¬ Unjoined s.finisher → Gone s.poller
  unset : Unjoined s.finisher → s.shared.deadlineNs = 0
  loaded : ∀ ring n deadline, s.poller = .polling (.loaded ring n deadline) → deadline = 0
  polling : s.finisher = .notCalled → s.shared.abort = false
  joining : ∀ ms, s.finisher = .joining ms → s.shared.abort = true

theorem Gone.not_polling {s : Drain.State} (h : Gone s.poller) (call : Drain.Call) :
    s.poller ≠ .polling call := by
  intro hp
  rcases h with h | h <;> rw [hp] at h <;> cases h

theorem Roles.unjoined {s : Drain.State} (h : Roles s) (hrun : ¬ Gone s.poller) :
    Unjoined s.finisher := by
  by_contra hn
  exact hrun (h.gone hn)

/-- **One producer.** -/
theorem Roles.oneProducer {s : Drain.State} (h : Roles s) :
    ¬ (PollerInEvent s ∧ FinisherInEvent s) := by
  intro hall
  obtain ⟨⟨call, hp, -⟩, ⟨call', hf, -⟩⟩ := hall
  apply (h.gone _).elim
  · intro habsent
    rw [hp] at habsent
    cases habsent
  · intro hexited
    rw [hp] at hexited
    cases hexited
  · rw [hf]
    exact id

/-- A step of the poller, before it is joined. -/
theorem Roles.poller {s : Drain.State} (h : Roles s) {sh : Drain.Shared} {p : Drain.Poller}
    {e : Int} (hun : Unjoined s.finisher) (habort : sh.abort = s.shared.abort)
    (hdeadline : sh.deadlineNs = s.shared.deadlineNs)
    (hloaded : ∀ ring n deadline, p = .polling (.loaded ring n deadline) → deadline = 0) :
    Roles { s with shared := sh, poller := p, pollError := e } where
  gone hn := absurd hun hn
  unset _ := hdeadline.trans (h.unset hun)
  loaded := hloaded
  polling hf := habort.trans (h.polling hf)
  joining ms hf := habort.trans (h.joining ms hf)

/-- A step of the thread that drains, after the join. -/
theorem Roles.finisher {s : Drain.State} (h : Roles s) {sh : Drain.Shared} {f : Drain.Finisher}
    {e : Int} (hjoined : ¬ Unjoined s.finisher) (hf : ¬ Unjoined f) :
    Roles { s with shared := sh, finisher := f, pollError := e } where
  gone _ := h.gone hjoined
  unset hun := absurd hun hf
  loaded := h.loaded
  polling hf' := by
    dsimp only at hf'
    rw [hf'] at hf
    exact absurd trivial hf
  joining ms hf' := by
    dsimp only at hf'
    rw [hf'] at hf
    exact absurd trivial hf

theorem CallSteps.deadline {consuming : Bool} {sh sh' : Drain.Shared} {call call' : Drain.Call}
    {a : Drain.CallAction} (h : Drain.CallSteps capacity o consuming sh call a sh' call') :
    sh'.deadlineNs = sh.deadlineNs := by
  cases h <;> rfl

theorem Roles.step {s s' : Drain.State} {a : Drain.Action} (h : Roles s)
    (hs : Drain.Steps capacity o s a s') : Roles s' := by
  cases hs with
  | pollerLoop hp =>
      have hun : Unjoined s.finisher := h.unjoined fun hg => by
        rcases hg with hg | hg <;> rw [hp] at hg <;> cases hg
      apply h.poller (e := s.pollError) hun rfl rfl
      intro ring n deadline heq
      split at heq <;> cases heq
  | poll call call' a sh hp hcall =>
      have hun : Unjoined s.finisher := h.unjoined fun hg => Gone.not_polling hg call hp
      apply h.poller (e := s.pollError) hun hcall.abort (CallSteps.deadline hcall)
      intro ring n deadline heq
      injection heq with heq
      cases hcall with
      | loadDeadline ring' n' =>
          injection heq with _ _ heq
          rw [← heq]
          exact h.unset hun
      | onEvent ring' n' deadline' nowNs cb rest hring => split at heq <;> cases heq
      | take ring' n' => cases heq
      | finish n' hall => cases heq
      | interrupt => cases heq
      | fail n' rc => cases heq
  | checkPoll rc p e hpoller hp =>
      have hun : Unjoined s.finisher := h.unjoined fun hg => Gone.not_polling hg _ hpoller
      apply h.poller hun rfl rfl
      intro ring n deadline heq
      rcases hp with hp | ⟨hp, -⟩ <;> rw [hp] at heq <;> cases heq
  | finishAfterDetach ms hf =>
      constructor
      · exact fun hn => absurd trivial hn
      · intro _
        exact h.unset (by rw [hf]; trivial)
      · exact h.loaded
      · exact nofun
      · exact fun _ _ => rfl
  | join ms hf hp =>
      exact ⟨fun _ => hp, (fun hun => hun.elim), h.loaded, nofun, nofun⟩
  | skipDrain ms hf hno => exact h.finisher (e := s.pollError) (by rw [hf]; exact id) id
  | arm ms nowNs deadline hf => exact h.finisher (e := s.pollError) (by rw [hf]; exact id) id
  | clearAbort hf => exact h.finisher (e := s.pollError) (by rw [hf]; exact id) id
  | drainLoop nowNs hf =>
      apply h.finisher (e := s.pollError) (by rw [hf]; exact id)
      split <;> exact id
  | consume call call' a sh hf hcall =>
      exact h.finisher (e := s.pollError) (by rw [hf]; exact id) id
  | checkConsume rc f e hf hf' =>
      apply h.finisher (by rw [hf]; exact id)
      rcases hf' with hf' | ⟨hf', -⟩ <;> rw [hf'] <;> exact id
  | close hf => exact h.finisher (e := s.pollError) (by rw [hf]; exact id) id
  | pop record queue hqueue => exact ⟨h.gone, h.unset, h.loaded, h.polling, h.joining⟩

/-- Once `FinishAfterDetach` has returned, only the sink moves. -/
theorem Roles.returned {s s' : Drain.State} {a : Drain.Action} (h : Roles s)
    (hf : s.finisher = .returned) (hs : Drain.Steps capacity o s a s') :
    a = .pop ∧ s'.finisher = .returned ∧ s'.poller = s.poller ∧
      s'.shared.ended = s.shared.ended ∧ s'.pollError = s.pollError ∧
      s'.shared.rings = s.shared.rings := by
  have hgone : Gone s.poller := h.gone (by rw [hf]; exact id)
  cases hs with
  | pollerLoop hp =>
      exfalso
      rcases hgone with hg | hg <;> rw [hp] at hg <;> cases hg
  | poll call call' a sh hp hcall => exact absurd hp (Gone.not_polling hgone call)
  | checkPoll rc p e hpoller hp => exact absurd hpoller (Gone.not_polling hgone _)
  | pop record queue hqueue => exact ⟨rfl, hf, rfl, rfl, rfl, rfl⟩
  | finishAfterDetach ms hf' => cases hf.symm.trans hf'
  | join ms hf' hp => cases hf.symm.trans hf'
  | skipDrain ms hf' hno => cases hf.symm.trans hf'
  | arm ms nowNs deadline hf' => cases hf.symm.trans hf'
  | clearAbort hf' => cases hf.symm.trans hf'
  | drainLoop nowNs hf' => cases hf.symm.trans hf'
  | consume call call' a sh hf' hcall => cases hf.symm.trans hf'
  | checkConsume rc f e hf' hf'' => cases hf.symm.trans hf'
  | close hf' => cases hf.symm.trans hf'

/-! ## One step of the object -/

/-- What a source that could not be registered leaves. -/
theorem popSource_pushSource (s : State) (ptr : Nat) (source : Source) :
    (s.pushSource ptr source).popSource = s := by
  simp [State.pushSource, State.popSource]

/-- Everything a step can be. -/
inductive Steps (capacity : Nat) (o : Codec.ByteOrder) (s : State) :
    Action → State → Option Event → Prop
  | refuse (a : Action) (err : LifecycleError) : Steps capacity o s a s (some (.threw err))
  | addSource (fd : Int) (source : Source) (answer : Registration) (ptr : Nat) (hidle : s.Idle)
      (hstarted : s.started = false) (hfinished : s.finished = false) :
      Steps capacity o s (.addSource fd source answer) ((s.pushSource ptr source).register ptr)
        (some .added)
  | start (hidle : s.Idle) (hstarted : s.started = false) (hfinished : s.finished = false) :
      Steps capacity o s (.start none)
        { s with core := { s.core with poller := .top }, started := true } (some .started)
  | finishAgain (ms : Int) (hfinished : s.finished = true) :
      Steps capacity o s (.finishAfterDetach ms) s (some (.finished s.core.pollError))
  | finishAfterDetach (ms : Int) (core : Drain.State) (hfinished : s.finished = false)
      (hcore : Drain.next capacity o s.core (.finishAfterDetach ms) = some core) :
      Steps capacity o s (.finishAfterDetach ms) { s with core := core } none
  | step (a : Drain.Action) (core : Drain.State) (ha : a ≠ .close)
      (hfinish : ∀ ms, a ≠ .finishAfterDetach ms)
      (hcore : Drain.next capacity o s.core a = some core) :
      Steps capacity o s (.step a) { s with core := core } none
  | close (core : Drain.State) (hcore : Drain.next capacity o s.core .close = some core) :
      Steps capacity o s (.step .close) { s with core := core, finished := true }
        (some (.finished core.pollError))
  | arrive (ring : Nat) (data : Option Bytes) (size : Nat) (records : List Callback) :
      Steps capacity o s (.arrive ring data size)
        { s with core := { s.core with
            shared := { s.core.shared with rings := s.core.shared.rings.set ring records } } } none
  | destroyAgain (hlife : s.life = .alive) (hfinished : s.finished = true) :
      Steps capacity o s .destroy { s with life := .destroying }
        (some (.finished s.core.pollError))
  | destroy (core : Drain.State) (hlife : s.life = .alive) (hfinished : s.finished = false)
      (hcore : Drain.next capacity o s.core (.finishAfterDetach 0) = some core) :
      Steps capacity o s .destroy { s with core := core, life := .destroying } none
  | freeRing (hlife : s.life = .destroying) (hfinished : s.finished = true) :
      Steps capacity o s .freeRing
        { s with
          contexts := []
          core := { s.core with shared := { s.core.shared with rings := [] } }
          life := .ringFreed } none
  | freeSources (hlife : s.life = .ringFreed) :
      Steps capacity o s .freeSources { s with sources := [], life := .destroyed } none

theorem Steps.of_registered {s : State} {fd : Int} {source : Source} {answer : Registration}
    {ptr : Nat} {rc : Int} (hidle : s.Idle) (hstarted : s.started = false)
    (hfinished : s.finished = false) {p : State × Option Event}
    (h : (s.pushSource ptr source).registered ptr rc = p) :
    Steps capacity o s (.addSource fd source answer) p.1 p.2 := by
  rw [← h]
  unfold State.registered
  by_cases hrc : rc ≠ 0
  · rw [if_pos hrc, popSource_pushSource]
    exact .refuse _ _
  · rw [if_neg hrc]
    exact .addSource fd source answer ptr hidle hstarted hfinished

theorem Steps.of_addSource {s : State} {fd : Int} {source : Source} {answer : Registration}
    {p : State × Option Event} (hidle : s.Idle)
    (h : Lifecycle.addSource s fd source answer = some p) :
    Steps capacity o s (.addSource fd source answer) p.1 p.2 := by
  unfold Lifecycle.addSource at h
  by_cases hbad : s.started = true ∨ s.finished = true ∨ fd < 0 ∨ source.ifindex = 0
  · rw [if_pos hbad] at h
    injection h with h
    rw [← h]
    exact .refuse _ _
  rw [if_neg hbad] at h
  simp only [not_or, Bool.not_eq_true] at hbad
  cases answer with
  | noMemory =>
      injection h with h
      rw [← h]
      exact .refuse _ _
  | ringNew ptr made errno =>
      dsimp only at h
      by_cases hptr : s.contexts = [] ∧ ptr ∉ s.pointers
      · rw [if_pos hptr] at h
        injection h with h
        exact .of_registered hidle hbad.1 hbad.2.1 h
      · rw [if_neg hptr] at h
        cases h
  | ringAdd ptr rc =>
      dsimp only at h
      by_cases hptr : s.contexts ≠ [] ∧ ptr ∉ s.pointers
      · rw [if_pos hptr] at h
        injection h with h
        exact .of_registered hidle hbad.1 hbad.2.1 h
      · rw [if_neg hptr] at h
        cases h

theorem Steps.of_start {s : State} {errno : Option Int} {p : State × Option Event}
    (hidle : s.Idle) (h : Lifecycle.start s errno = p) :
    Steps capacity o s (.start errno) p.1 p.2 := by
  rw [← h]
  unfold Lifecycle.start
  by_cases hbad : s.contexts = [] ∨ s.started = true ∨ s.finished = true
  · rw [if_pos hbad]
    exact .refuse _ _
  rw [if_neg hbad]
  simp only [not_or, Bool.not_eq_true] at hbad
  cases errno with
  | some code => exact .refuse _ _
  | none => exact .start hidle hbad.2.1 hbad.2.2

theorem Steps.of_step {s : State} {a : Drain.Action} {p : State × Option Event}
    (h : Lifecycle.step capacity o s a = some p) : Steps capacity o s (.step a) p.1 p.2 := by
  cases a
  case finishAfterDetach ms => cases h
  case close =>
    obtain ⟨core, hcore, hp⟩ := Option.map_eq_some_iff.mp h
    rw [← hp]
    exact .close core hcore
  all_goals
    obtain ⟨core, hcore, hp⟩ := Option.map_eq_some_iff.mp h
    rw [← hp]
    exact .step _ core (fun ha => by cases ha) (fun _ ha => by cases ha) hcore

theorem Steps.of_next {s : State} {a : Action} {p : State × Option Event}
    (h : next capacity o s a = some p) : Steps capacity o s a p.1 p.2 := by
  cases a with
  | addSource fd source answer =>
      simp only [next] at h
      split_ifs at h with hidle
      exact .of_addSource hidle h
  | start errno =>
      simp only [next] at h
      split_ifs at h with hidle
      injection h with h
      exact .of_start hidle h
  | finishAfterDetach ms =>
      simp only [next, Lifecycle.finishAfterDetach] at h
      split_ifs at h with hidle hfinished
      · injection h with h
        rw [← h]
        exact .finishAgain ms hfinished
      · obtain ⟨core, hcore, hp⟩ := Option.map_eq_some_iff.mp h
        rw [← hp]
        exact .finishAfterDetach ms core (eq_false_of_ne_true hfinished) hcore
  | step a =>
      simp only [next] at h
      split_ifs at h with hlife
      exact .of_step h
  | arrive ring data size =>
      obtain ⟨s', hs', hp⟩ := Option.map_eq_some_iff.mp h
      rw [← hp]
      unfold Lifecycle.arrive at hs'
      split at hs'
      · obtain ⟨source, -, hs''⟩ := Option.map_eq_some_iff.mp hs'
        rw [← hs'']
        exact .arrive ring data size _
      · cases hs'
  | destroy =>
      simp only [next, Lifecycle.finishAfterDetach] at h
      split_ifs at h with hidle hfinished
      · injection h with h
        rw [← h]
        exact .destroyAgain hidle.1 hfinished
      · simp only [Option.map_map] at h
        obtain ⟨core, hcore, hp⟩ := Option.map_eq_some_iff.mp h
        rw [← hp]
        exact .destroy core hidle.1 (eq_false_of_ne_true hfinished) hcore
  | freeRing =>
      simp only [next] at h
      split_ifs at h with hc
      injection h with h
      rw [← h]
      exact .freeRing hc.1 hc.2
  | freeSources =>
      simp only [next] at h
      split_ifs at h with hlife
      injection h with h
      rw [← h]
      exact .freeSources hlife

/-! ## Sources and rings -/

/-- The rings are those of the sources, as long as the ring library has them. -/
structure Wired (s : State) : Prop where
  contexts : s.life = .alive ∨ s.life = .destroying → s.contexts = s.pointers
  freed : s.life = .ringFreed ∨ s.life = .destroyed → s.contexts = []
  rings : s.core.shared.rings.length = s.contexts.length
  started : s.started = false → s.core.poller = .absent
  finished : s.finished = true ↔ s.core.finisher = .returned

/-- A step of a thread changes no ring's context. -/
theorem steps_frame {s s' : Drain.State} {a : Drain.Action}
    (hs : Drain.Steps capacity o s a s') :
    s'.shared.rings.length = s.shared.rings.length ∧
      (s.poller = .absent → s'.poller = .absent) ∧
      (s'.finisher = .returned ↔ s.finisher = .returned ∨ a = .close) := by
  have inCall {consuming : Bool} {call call' : Drain.Call} {ca : Drain.CallAction}
      {sh : Drain.Shared} (h : Drain.CallSteps capacity o consuming s.shared call ca sh call') :
      sh.rings.length = s.shared.rings.length := by
    cases h with
    | onEvent ring n deadline nowNs cb rest hring => simp [Drain.Shared.consume]
    | take | finish | interrupt | fail | loadDeadline => rfl
  cases hs with
  | pollerLoop hp => exact ⟨rfl, (fun h => by cases hp.symm.trans h), by simp⟩
  | poll call call' a sh hp hcall =>
      exact ⟨inCall hcall, (fun h => by cases hp.symm.trans h), by simp⟩
  | checkPoll rc p e hpoller hp => exact ⟨rfl, (fun h => by cases hpoller.symm.trans h), by simp⟩
  | finishAfterDetach ms hf => exact ⟨rfl, id, by simp [hf]⟩
  | join ms hf hp => exact ⟨rfl, id, by simp [hf]⟩
  | skipDrain ms hf hno => exact ⟨rfl, id, by simp [hf]⟩
  | arm ms nowNs deadline hf => exact ⟨rfl, id, by simp [hf]⟩
  | clearAbort hf => exact ⟨rfl, id, by simp [hf]⟩
  | drainLoop nowNs hf =>
      refine ⟨rfl, id, ?_⟩
      dsimp only
      split <;> simp [hf]
  | consume call call' a sh hf hcall => exact ⟨inCall hcall, id, by simp [hf]⟩
  | checkConsume rc f e hf hf' =>
      refine ⟨rfl, id, ?_⟩
      rcases hf' with hf' | ⟨hf', -⟩ <;> simp [hf, hf']
  | close hf => exact ⟨rfl, id, by simp⟩
  | pop record queue hqueue => exact ⟨rfl, id, by simp⟩

/-- A step of a thread that does not end `FinishAfterDetach`. -/
theorem Wired.core {s : State} (h : Wired s) {a : Drain.Action} {core : Drain.State}
    (hcore : Drain.next capacity o s.core a = some core) (ha : a ≠ .close) :
    Wired { s with core := core } := by
  obtain ⟨hrings, hpoller, hreturned⟩ := steps_frame (.of_next hcore)
  refine ⟨h.contexts, h.freed, hrings.trans h.rings, fun hs => hpoller (h.started hs), ?_⟩
  exact h.finished.trans (hreturned.trans (or_iff_left ha)).symm

theorem Wired.step {s s' : State} {a : Action} {e : Option Event} (h : Wired s)
    (hs : Steps capacity o s a s' e) : Wired s' := by
  cases hs with
  | refuse a err => exact h
  | addSource fd source answer ptr hidle hstarted hfinished =>
      constructor
      · intro hlife
        have hc : s.contexts = s.pointers := h.contexts hlife
        simp [State.register, State.pushSource, State.pointers, hc]
      · intro hlife
        rcases hlife with hl | hl <;> exact absurd (hidle.1.symm.trans hl) nofun
      · have hr := h.rings
        simp only [State.register, State.pushSource, List.length_append, List.length_singleton]
        omega
      · exact h.started
      · exact h.finished
  | start hidle hstarted hfinished =>
      exact ⟨h.contexts, h.freed, h.rings, (fun hs => by cases hs), h.finished⟩
  | finishAgain ms hfinished => exact h
  | finishAfterDetach ms core hfinished hcore => exact h.core hcore nofun
  | step a core ha hfinish hcore => exact h.core hcore ha
  | close core hcore =>
      obtain ⟨hrings, hpoller, hreturned⟩ := steps_frame (.of_next hcore)
      refine ⟨h.contexts, h.freed, hrings.trans h.rings, fun hs => hpoller (h.started hs), ?_⟩
      exact iff_of_true rfl (hreturned.mpr (Or.inr rfl))
  | arrive ring data size records =>
      refine ⟨h.contexts, h.freed, ?_, h.started, h.finished⟩
      simp [h.rings]
  | destroyAgain hlife hfinished =>
      exact ⟨fun _ => h.contexts (Or.inl hlife), (fun hl => by rcases hl with hl | hl <;> cases hl),
        h.rings, h.started, h.finished⟩
  | destroy core hlife hfinished hcore =>
      have hw := h.core hcore nofun
      exact ⟨fun _ => h.contexts (Or.inl hlife), (fun hl => by rcases hl with hl | hl <;> cases hl),
        hw.rings, hw.started, hw.finished⟩
  | freeRing hlife hfinished =>
      exact ⟨(fun hl => by rcases hl with hl | hl <;> cases hl), fun _ => rfl, rfl, h.started,
        h.finished⟩
  | freeSources hlife =>
      exact ⟨(fun hl => by rcases hl with hl | hl <;> cases hl), fun _ => h.freed (Or.inl hlife),
        h.rings, h.started, h.finished⟩

/-- The roles are kept by every step of the object. -/
theorem Roles.next {s s' : State} {a : Action} {e : Option Event} (h : Roles s.core)
    (hw : Wired s) (hs : Steps capacity o s a s' e) : Roles s'.core := by
  cases hs with
  | refuse a err => exact h
  | addSource fd source answer ptr hidle hstarted hfinished =>
      exact ⟨h.gone, h.unset, h.loaded, h.polling, h.joining⟩
  | start hidle hstarted hfinished =>
      have hf : s.core.finisher = .notCalled := by
        apply hidle.2.resolve_right
        intro hret
        rw [hw.finished.mpr hret] at hfinished
        cases hfinished
      have hun : Unjoined s.core.finisher := by
        rw [hf]
        trivial
      exact ⟨fun hn => absurd hun hn, h.unset, (fun _ _ _ hp => by cases hp), h.polling, h.joining⟩
  | finishAgain ms hfinished => exact h
  | finishAfterDetach ms core hfinished hcore => exact h.step (.of_next hcore)
  | step a core ha hfinish hcore => exact h.step (.of_next hcore)
  | close core hcore => exact h.step (.of_next hcore)
  | arrive ring data size records => exact ⟨h.gone, h.unset, h.loaded, h.polling, h.joining⟩
  | destroyAgain hlife hfinished => exact h
  | destroy core hlife hfinished hcore => exact h.step (.of_next hcore)
  | freeRing hlife hfinished => exact ⟨h.gone, h.unset, h.loaded, h.polling, h.joining⟩
  | freeSources hlife => exact h

/-- Both invariants, of every run. -/
theorem run_invariants {tr : List (Action × Option Event)} {s : State}
    (h : (system capacity o).Run tr s) : Roles s.core ∧ Wired s := by
  apply h.invariant (P := fun _ s => Roles s.core ∧ Wired s)
  · intro s hs
    rw [show s = initial from hs]
    constructor
    · exact ⟨fun _ => Or.inl rfl, fun _ => rfl, (fun _ _ _ hp => by cases hp), fun _ => rfl,
        fun _ hf => by cases hf⟩
    · exact ⟨fun _ => rfl, fun _ => rfl, rfl, fun _ => rfl, by decide⟩
  · intro tr s l s' hinv hstep
    have hsteps := Steps.of_next hstep
    exact ⟨hinv.1.next hinv.2 hsteps, hinv.2.step hsteps⟩

/-! ## Errors -/

/-- The ring library reports no error. -/
def NoLibraryError (_ : State) : Action × Option Event → Prop
  | (.step (.poll (.fail _)), _) => False
  | (.step (.consume (.fail _)), _) => False
  | _ => True

/-- What a poll may have returned without an error of the library. -/
def PollCalm (s : Drain.State) : Prop :=
  ∀ rc, s.poller = .polling (.returned rc) →
    0 ≤ rc ∨ rc = Drain.eIntr ∨ (rc = Drain.eCanceled ∧ s.shared.abort = true)

/-- What a consume may have returned without an error of the library. -/
def ConsumeCalm (s : Drain.State) : Prop :=
  ∀ rc, s.finisher = .consuming (.returned rc) →
    0 ≤ rc ∨ rc = Drain.eIntr ∨ rc = Drain.eCanceled

/-- No error of the library waits to be recorded, and `error` is what was. -/
structure Calm (error : Int) (s : Drain.State) : Prop where
  poll : PollCalm s
  consume : ConsumeCalm s
  recorded : s.pollError = error

/-- What a call returns when the library reports no error of its own. -/
theorem callSteps_calm {consuming : Bool} {sh sh' : Drain.Shared} {call : Drain.Call}
    {a : Drain.CallAction} {rc : Int}
    (h : Drain.CallSteps capacity o consuming sh call a sh' (.returned rc))
    (ha : ∀ rc, a ≠ .fail rc) :
    0 ≤ rc ∨ rc = Drain.eIntr ∨ (rc = Drain.eCanceled ∧ ∃ ring n deadline cb nowNs,
      call = .loaded ring n deadline ∧
        Drain.runEvent capacity o sh cb deadline nowNs = .discarded) := by
  generalize hcall : Drain.Call.returned rc = call' at h
  cases h with
  | take ring n => cases hcall
  | finish n hall =>
      injection hcall with hrc
      exact Or.inl (by omega)
  | interrupt =>
      injection hcall with hrc
      exact Or.inr (Or.inl hrc)
  | fail n rc' => exact absurd rfl (ha rc')
  | loadDeadline ring n => cases hcall
  | onEvent ring n deadline nowNs cb rest hring =>
      split at hcall
      · next hout =>
          injection hcall with hrc
          exact Or.inr (Or.inr ⟨hrc, ring, n, deadline, cb, nowNs, rfl, hout⟩)
      · cases hcall

/-- Steps after which the two threads stand where they stood. -/
theorem Calm.frame {error : Int} {s s' : Drain.State} (h : Calm error s)
    (hp : s'.poller = s.poller) (hf : s'.finisher = s.finisher)
    (habort : s.shared.abort = true → s'.shared.abort = true)
    (herror : s'.pollError = s.pollError) : Calm error s' := by
  constructor
  · intro rc hrc
    exact (h.poll rc (hp ▸ hrc)).imp id (Or.imp id (And.imp id habort))
  · intro rc hrc
    exact h.consume rc (hf ▸ hrc)
  · exact herror.trans h.recorded

/-- The thread in `FinishAfterDetach` moves, and the poller has not returned
from a poll that it cancelled. -/
theorem Calm.moves {error : Int} {s s' : Drain.State} (h : Calm error s)
    (hp : s'.poller = s.poller) (hf : ∀ rc, s'.finisher ≠ .consuming (.returned rc))
    (habort : Gone s.poller ∨ s'.shared.abort = true) (herror : s'.pollError = s.pollError) :
    Calm error s' := by
  constructor
  · intro rc hrc
    rcases habort with hgone | habort
    · exact absurd (hp ▸ hrc) (Gone.not_polling hgone _)
    · exact (h.poll rc (hp ▸ hrc)).imp id (Or.imp id (And.imp id fun _ => habort))
  · intro rc hrc
    exact absurd hrc (hf rc)
  · exact herror.trans h.recorded

/-- The poller moves, and has not returned from a poll. -/
theorem Calm.pollerMoves {error : Int} {s s' : Drain.State} (h : Calm error s)
    (hp : ∀ rc, s'.poller ≠ .polling (.returned rc)) (hf : s'.finisher = s.finisher)
    (herror : s'.pollError = s.pollError) : Calm error s' := by
  constructor
  · intro rc hrc
    exact absurd hrc (hp rc)
  · intro rc hrc
    exact h.consume rc (hf ▸ hrc)
  · exact herror.trans h.recorded

/-- **One step without an error of the library.** -/
theorem Calm.step {error : Int} {s s' : Drain.State} {a : Drain.Action} (h : Calm error s)
    (hr : Roles s) (hs : Drain.next capacity o s a = some s')
    (ha : ∀ rc, a ≠ .poll (.fail rc) ∧ a ≠ .consume (.fail rc)) : Calm error s' := by
  have hsteps := Drain.Steps.of_next hs
  have gone (hn : ¬ Unjoined s.finisher) : Gone s.poller := hr.gone hn
  cases hsteps with
  | pollerLoop hp =>
      refine h.pollerMoves ?_ rfl rfl
      intro rc hrc
      dsimp only at hrc
      split at hrc <;> cases hrc
  | poll call call' ca sh hp hcall =>
      refine ⟨fun rc hrc => ?_, h.consume, h.recorded⟩
      injection hrc with hrc
      rw [hrc] at hcall
      rcases callSteps_calm hcall fun rc hf => (ha rc).1 (congrArg _ hf) with hrc | hrc | hrc
      · exact Or.inl hrc
      · exact Or.inr (Or.inl hrc)
      · obtain ⟨hrc, ring, n, deadline, cb, nowNs, hloaded, hout⟩ := hrc
        rw [hloaded] at hp
        -- the poller never sees a deadline, so it was `abort` that cancelled
        have habort := (Drain.runEvent_discarded hout).resolve_right fun hd =>
          hd.1 (hr.loaded ring n deadline hp)
        exact Or.inr (Or.inr ⟨hrc, hcall.abort.trans habort⟩)
  | checkPoll rc p e hpoller hp =>
      simp only [Drain.next, hpoller] at hs
      have hcalm := h.poll rc hpoller
      split_ifs at hs with hintr hcanceled hneg
      · injection hs with hs
        rw [← hs]
        exact h.pollerMoves (fun _ hrc => by cases hrc) rfl rfl
      · injection hs with hs
        rw [← hs]
        exact h.pollerMoves (fun _ hrc => by cases hrc) rfl rfl
      · rcases hcalm with hpos | hi | hc
        · omega
        · exact absurd hi hintr
        · exact absurd hc hcanceled
      · injection hs with hs
        rw [← hs]
        exact h.pollerMoves (fun _ hrc => by cases hrc) rfl rfl
  | finishAfterDetach ms hf => exact h.moves rfl (fun _ hc => by cases hc) (Or.inr rfl) rfl
  | join ms hf hp => exact h.moves rfl (fun _ hc => by cases hc) (Or.inl hp) rfl
  | skipDrain ms hf hno =>
      exact h.moves rfl (fun _ hc => by cases hc) (Or.inl (gone (by rw [hf]; exact id))) rfl
  | arm ms nowNs deadline hf =>
      exact h.moves rfl (fun _ hc => by cases hc) (Or.inl (gone (by rw [hf]; exact id))) rfl
  | clearAbort hf =>
      exact h.moves rfl (fun _ hc => by cases hc) (Or.inl (gone (by rw [hf]; exact id))) rfl
  | drainLoop nowNs hf =>
      refine h.moves rfl ?_ (Or.inl (gone (by rw [hf]; exact id))) rfl
      intro rc hc
      dsimp only at hc
      split at hc <;> cases hc
  | consume call call' ca sh hf hcall =>
      have hgone := gone (by rw [hf]; exact id)
      refine ⟨fun rc hrc => absurd hrc (Gone.not_polling hgone _), fun rc hrc => ?_, h.recorded⟩
      injection hrc with hrc
      rw [hrc] at hcall
      rcases callSteps_calm hcall fun rc hf => (ha rc).2 (congrArg _ hf) with hrc | hrc | hrc
      · exact Or.inl hrc
      · exact Or.inr (Or.inl hrc)
      · exact Or.inr (Or.inr hrc.1)
  | checkConsume rc f e hf hf' =>
      have hgone := gone (by rw [hf]; exact id)
      simp only [Drain.next, hf] at hs
      have hcalm := h.consume rc hf
      split_ifs at hs with hintr hdone hneg
      · injection hs with hs
        rw [← hs]
        exact h.moves rfl (fun _ hc => by cases hc) (Or.inl hgone) rfl
      · injection hs with hs
        rw [← hs]
        exact h.moves rfl (fun _ hc => by cases hc) (Or.inl hgone) rfl
      · rcases hcalm with hpos | hi | hc
        · omega
        · exact absurd hi hintr
        · exact absurd (Or.inl hc) hdone
      · injection hs with hs
        rw [← hs]
        exact h.moves rfl (fun _ hc => by cases hc) (Or.inl hgone) rfl
  | close hf =>
      exact h.moves rfl (fun _ hc => by cases hc) (Or.inl (gone (by rw [hf]; exact id))) rfl
  | pop record queue hqueue => exact h.frame rfl rfl id rfl

/-- One step of the object without an error of the library. -/
theorem Calm.next {error : Int} {s s' : State} {a : Action} {e : Option Event}
    (h : Calm error s.core) (hr : Roles s.core) (hs : Steps capacity o s a s' e)
    (ha : NoLibraryError s (a, e)) : Calm error s'.core := by
  cases hs with
  | refuse a err => exact h
  | addSource fd source answer ptr hidle hstarted hfinished => exact h.frame rfl rfl id rfl
  | start hidle hstarted hfinished =>
      exact h.pollerMoves (fun _ hp => by cases hp) rfl rfl
  | finishAgain ms hfinished => exact h
  | finishAfterDetach ms core hfinished hcore =>
      exact h.step hr hcore fun _ => ⟨(fun hf => by cases hf), fun hf => by cases hf⟩
  | step a core hclose hfinish hcore =>
      apply h.step hr hcore
      intro rc
      constructor
      · intro hfail
        rw [hfail] at ha
        exact ha
      · intro hfail
        rw [hfail] at ha
        exact ha
  | close core hcore =>
      exact h.step hr hcore fun _ => ⟨(fun hf => by cases hf), fun hf => by cases hf⟩
  | arrive ring data size records => exact h.frame rfl rfl id rfl
  | destroyAgain hlife hfinished => exact h
  | destroy core hlife hfinished hcore =>
      exact h.step hr hcore fun _ => ⟨(fun hf => by cases hf), fun hf => by cases hf⟩
  | freeRing hlife hfinished => exact h.frame rfl rfl id rfl
  | freeSources hlife => exact h

/-! ## The law -/

/-- What the class promises in a state. -/
structure Disciplined (capacity : Nat) (o : Codec.ByteOrder) (s : State) : Prop where
  oneProducer : ¬ (PollerInEvent s.core ∧ FinisherInEvent s.core)
  /-- after `FinishAfterDetach` nobody is in `OnEvent`, and no callback ends -/
  silent : s.finished = true → ¬ PollerInEvent s.core ∧ ¬ FinisherInEvent s.core ∧
    ∀ a s' e, next capacity o s a = some (s', e) →
      s'.finished = true ∧ s'.core.shared.ended = s.core.shared.ended ∧
        s'.core.pollError = s.core.pollError
  /-- a second call changes nothing -/
  again : s.finished = true → ∀ ms s' e, next capacity o s (.finishAfterDetach ms) = some (s', e) →
    s' = s ∧ e = some (.finished s.core.pollError)
  /-- every call returns the code that is kept from then on -/
  returns : ∀ a s' rc, next capacity o s a = some (s', some (.finished rc)) →
    s'.finished = true ∧ rc = s'.core.pollError
  live : ∀ ptr ∈ s.contexts, ∃ source, (ptr, source) ∈ s.sources
  sources : s.life = .alive ∨ s.life = .destroying →
    s.sources.length = s.core.shared.rings.length ∧ s.contexts = s.pointers
  threw : ∀ fd source answer s' err,
    next capacity o s (.addSource fd source answer) = some (s', some (.threw err)) → s' = s
  /-- no source is added once the poller was started -/
  frozen : s.started = true → ∀ a s' e, next capacity o s a = some (s', e) →
    e ≠ some .added ∧ s'.started = true ∧ (s'.sources = s.sources ∨ s'.sources = [])

/-- After `FinishAfterDetach` has returned. -/
theorem Steps.silent {s s' : State} {a : Action} {e : Option Event} (hr : Roles s.core)
    (hw : Wired s) (hfinished : s.finished = true) (hs : Steps capacity o s a s' e) :
    s'.finished = true ∧ s'.core.shared.ended = s.core.shared.ended ∧
      s'.core.pollError = s.core.pollError := by
  have hret := hw.finished.mp hfinished
  have no {da : Drain.Action} {core : Drain.State}
      (hcore : Drain.next capacity o s.core da = some core) (hda : da ≠ .pop) : False :=
    hda (hr.returned hret (.of_next hcore)).1
  cases hs with
  | refuse a err => exact ⟨hfinished, rfl, rfl⟩
  | addSource fd source answer ptr hidle hstarted hopen =>
      rw [hfinished] at hopen
      cases hopen
  | start hidle hstarted hopen =>
      rw [hfinished] at hopen
      cases hopen
  | finishAgain ms hfinished => exact ⟨hfinished, rfl, rfl⟩
  | finishAfterDetach ms core hopen hcore => exact (no hcore nofun).elim
  | step a core hclose hfinish hcore =>
      obtain ⟨-, -, -, hended, herror, -⟩ := hr.returned hret (.of_next hcore)
      exact ⟨hfinished, hended, herror⟩
  | close core hcore => exact (no hcore nofun).elim
  | arrive ring data size records => exact ⟨hfinished, rfl, rfl⟩
  | destroyAgain hlife hfinished => exact ⟨hfinished, rfl, rfl⟩
  | destroy core hlife hopen hcore => exact (no hcore nofun).elim
  | freeRing hlife hfinished => exact ⟨hfinished, rfl, rfl⟩
  | freeSources hlife => exact ⟨hfinished, rfl, rfl⟩

theorem Steps.frozen {s s' : State} {a : Action} {e : Option Event} (hstarted : s.started = true)
    (hs : Steps capacity o s a s' e) :
    e ≠ some .added ∧ s'.started = true ∧ (s'.sources = s.sources ∨ s'.sources = []) := by
  cases hs with
  | addSource fd source answer ptr hidle hopen hfinished =>
      rw [hstarted] at hopen
      cases hopen
  | start hidle hopen hfinished =>
      rw [hstarted] at hopen
      cases hopen
  | freeSources hlife => exact ⟨nofun, hstarted, Or.inr rfl⟩
  | refuse | finishAgain | finishAfterDetach | step | close | arrive | destroyAgain | destroy
  | freeRing => exact ⟨nofun, hstarted, Or.inl rfl⟩

theorem Steps.returns {s s' : State} {a : Action} {rc : Int}
    (hs : Steps capacity o s a s' (some (.finished rc))) :
    s'.finished = true ∧ rc = s'.core.pollError := by
  generalize he : some (Event.finished rc) = e at hs
  cases hs with
  | finishAgain ms hfinished =>
      injection he with he
      injection he with he
      exact ⟨hfinished, he⟩
  | close core hcore =>
      injection he with he
      injection he with he
      exact ⟨rfl, he⟩
  | destroyAgain hlife hfinished =>
      injection he with he
      injection he with he
      exact ⟨hfinished, he⟩
  | refuse | addSource | start | finishAfterDetach | step | arrive | destroy | freeRing
  | freeSources => cases he

theorem Disciplined.of_invariants {s : State} (hr : Roles s.core) (hw : Wired s) :
    Disciplined capacity o s where
  oneProducer := hr.oneProducer
  silent hfinished := by
    have hret := hw.finished.mp hfinished
    have hgone : Gone s.core.poller := hr.gone (by rw [hret]; exact id)
    refine ⟨?_, ?_, ?_⟩
    · intro hall
      obtain ⟨call, hp, -⟩ := hall
      exact Gone.not_polling hgone call hp
    · intro hall
      obtain ⟨call, hf, -⟩ := hall
      rw [hret] at hf
      cases hf
    · intro a s' e hnext
      exact Steps.silent hr hw hfinished (Steps.of_next hnext)
  again hfinished ms s' e hnext := by
    simp only [next, finishAfterDetach] at hnext
    split_ifs at hnext
    injection hnext with hnext
    injection hnext with hs he
    exact ⟨hs.symm, he.symm⟩
  returns a s' rc hnext := Steps.returns (Steps.of_next hnext)
  live ptr hptr := by
    have hpointers : s.contexts = s.pointers := by
      cases hlife : s.life with
      | alive => exact hw.contexts (Or.inl hlife)
      | destroying => exact hw.contexts (Or.inr hlife)
      | ringFreed =>
          rw [hw.freed (Or.inl hlife)] at hptr
          cases hptr
      | destroyed =>
          rw [hw.freed (Or.inr hlife)] at hptr
          cases hptr
    rw [hpointers] at hptr
    obtain ⟨⟨ptr', source⟩, hmem, heq⟩ := List.mem_map.mp hptr
    exact ⟨source, heq ▸ hmem⟩
  sources hlife := by
    refine ⟨?_, hw.contexts hlife⟩
    rw [hw.rings, hw.contexts hlife, State.pointers, List.length_map]
  threw fd source answer s' err hnext := by
    have hs : Steps capacity o s (.addSource fd source answer) s' (some (.threw err)) :=
      Steps.of_next hnext
    generalize he : some (Event.threw err) = e at hs
    generalize ha : Action.addSource fd source answer = a at hs
    cases hs with
    | refuse a err => rfl
    | addSource => cases he
    | start | finishAgain | finishAfterDetach | step | close | arrive | destroyAgain | destroy
    | freeRing | freeSources => cases ha
  frozen hstarted a s' e hnext := Steps.frozen hstarted (Steps.of_next hnext)

/-- The object, left in `s`, under further calls. -/
def systemFrom (capacity : Nat) (o : Codec.ByteOrder) (s : State) :
    System State (Action × Option Event) :=
  .ofNext (· = s) (next capacity o)

/-- A continued run. -/
theorem run_from {tr tr' : List (Action × Option Event)} {s s' : State}
    (h : (system capacity o).Run tr s) (h' : (systemFrom capacity o s).Run tr' s') :
    (system capacity o).Run (tr ++ tr') s' := by
  induction h' with
  | init hs =>
      rw [List.append_nil, show _ = s from hs]
      exact h
  | step _ hs ih =>
      rw [← List.append_assoc]
      exact ih.step hs

/-- **The lifecycle.**  After every sequence of calls and under every schedule:
one producer at a time, no callback after `FinishAfterDetach`, and every ring
with its own live source; and from any state in which no error of the library
waits to be recorded, a shutdown without one records none. -/
theorem ebpfTelemetry_disciplined (capacity : Nat) (o : Codec.ByteOrder)
    (tr : List (Action × Option Event)) (s : State) (h : (system capacity o).Run tr s) :
    Disciplined capacity o s ∧
      (PollCalm s.core → ConsumeCalm s.core →
        ∀ tr' s', ((systemFrom capacity o s).guard NoLibraryError).Run tr' s' →
          s'.core.pollError = s.core.pollError) := by
  obtain ⟨hr, hw⟩ := run_invariants h
  refine ⟨.of_invariants hr hw, ?_⟩
  intro hpoll hconsume tr' s' h'
  have hcalm : Calm s.core.pollError s'.core := by
    induction h' with
    | init hs =>
        rw [show _ = s from hs]
        exact ⟨hpoll, hconsume, rfl⟩
    | step hrun hs ih =>
        have hroles := (run_invariants (run_from h hrun.of_guard)).1
        exact ih.next hroles (Steps.of_next hs.1) hs.2
  exact hcalm.recorded

/-- A source that cannot be added, one that can, and a shutdown. -/
theorem ebpfTelemetry_disciplined_oneSource :
    ∃ s, Disciplined 1 .little s ∧ s.finished = true ∧ s.contexts = [64] := by
  have begun : (system 1 .little).Run [] initial := .init rfl
  have added := (begun.next (.addSource 5 ⟨3, 40, 50⟩ (.ringNew 64 false 0)) rfl).next
    (.addSource 5 ⟨3, 40, 50⟩ (.ringNew 64 true 0)) rfl
  have finished := ((((added.next (.start none) rfl).next (.finishAfterDetach 0) rfl).next
    (.step .pollerLoop) rfl).next (.step .join) rfl).next (.step .skipDrain) rfl
  have closed := finished.next (.step .close) rfl
  exact ⟨_, (ebpfTelemetry_disciplined 1 .little _ _ closed).1, rfl, rfl⟩

end ElephantShrew.Telemetry.Lifecycle
