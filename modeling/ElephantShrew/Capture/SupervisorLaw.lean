import ElephantShrew.Capture.Supervisor

/-!
# The supervisor's law

Whenever no capture is up nothing is open; a capture is brought up again only
after one has failed, and then after exactly the delay; once a stop is requested
`main` returns, and does at most one more thing on the way that takes time.
-/

namespace ElephantShrew.Capture

open ElephantShrew.Verified
open ElephantShrew.Verified.ExitM
open ElephantShrew.Config

variable {D : Type} [DecidableEq D] {env : Environment D} {config : RuntimeConfig}
  {log : List (Op D)} {s : State D}

/-! ## One capture -/

/-- A new object has nothing, and nothing is open. -/
theorem Dropped.fresh (h : Dropped log s) :
    Dropped log { s with receivers := [], openedDevices := [] } := by
  constructor
  · have htracked : Tracked s.status [] := ⟨fun d hd => absurd (h.closed d) hd, List.nodup_nil⟩
    have hsound : Kept log s.status s.openedDevices s.allocated s.receivers := h.sound
    rw [h.receivers] at hsound
    exact { hsound with tracked := htracked }
  · rfl
  · exact h.closed

/-- **A capture is up, or nothing is left of it.** -/
theorem wpLog_resolve (h : Dropped log s) :
    WpLog (resolve env config) (fun _ => Sound) (fun _ => Dropped) log s := by
  simp only [resolve, wpLog_bind, wpLog_update, wpLog_attempt]
  apply (keeps_init config log _ h.fresh.sound).mono
  · intro u log' s' h'
    rw [wpLog_pure]
    exact h'
  · intro what log' s' h'
    apply (wpLog_destroy h').mono
    · intro _ log'' s'' h''
      rw [wpLog_exit]
      exact h''
    · exact fun _ _ _ h'' => h''

namespace Supervisor

/-! ## What was seen -/

/-- How long `main` has slept since a capture was last brought up or tried to. -/
def rested (events : List Event) : Int :=
  events.foldl (fun total e => match e with
    | .init _ => 0
    | .slept ms => total + ms
    | .destroyed => total) 0

/-- What became of the last capture. -/
def lastInit (events : List Event) : Option Bool :=
  events.foldl (fun last e => match e with
    | .init ok => some ok
    | _ => last) none

@[simp] theorem rested_init (events : List Event) (ok : Bool) :
    rested (events ++ [.init ok]) = 0 := by
  simp [rested]

@[simp] theorem rested_slept (events : List Event) (ms : Int) :
    rested (events ++ [.slept ms]) = rested events + ms := by
  simp [rested]

@[simp] theorem lastInit_init (events : List Event) (ok : Bool) :
    lastInit (events ++ [.init ok]) = some ok := by
  simp [lastInit]

@[simp] theorem lastInit_slept (events : List Event) (ms : Int) :
    lastInit (events ++ [.slept ms]) = lastInit events := by
  simp [lastInit]

/-- A capture may be brought up at the start, or after a failed one and the delay. -/
def Due (config : RuntimeConfig) (events : List Event) : Prop :=
  lastInit events = none ∨
    (lastInit events = some false ∧ rested events = max 0 (restartDelay config))

/-- What each event needs of those before it. -/
def Allowed (config : RuntimeConfig) (before : List Event) : Event → Prop
  | .init _ => Due config before
  | .slept ms => 0 < ms ∧ ms ≤ pollInterval config
  | .destroyed => lastInit before = some true

/-! ## The invariant -/

/-- How many steps are left once a stop is requested. -/
def Pc.rank : Pc → Nat
  | .resolving | .napping => 4
  | .waiting | .sleeping _ => 3
  | .leaving | .restarting _ => 2
  | .stopped | .loop => 1
  | .returned => 0

/-- How many of them can be seen to take time. -/
def Pc.busy : Pc → Nat
  | .resolving | .napping | .sleeping _ => 1
  | _ => 0

/-- What holds where `main` is. -/
def At (config : RuntimeConfig) (stop : Bool) (events : List Event) : Pc → Prop
  | .loop => stop = true ∨ Due config events
  | .resolving => Due config events
  | .waiting => lastInit events = some true
  | .napping => lastInit events = some true
  | .leaving => stop = true ∧ lastInit events = some true
  | .stopped => stop = true ∨ (lastInit events = some false ∧ rested events = 0)
  | .restarting remaining => stop = true ∨
      (lastInit events = some false ∧
        rested events + max 0 remaining = max 0 (restartDelay config))
  | .sleeping remaining => 0 < remaining ∧ (stop = true ∨
      (lastInit events = some false ∧ rested events + remaining = max 0 (restartDelay config)))
  | .returned => stop = true

/-- A capture is up. -/
def Pc.up : Pc → Bool
  | .waiting | .napping | .leaving => true
  | _ => false

structure Inv (config : RuntimeConfig) (events : List Event) (s : State D) : Prop where
  sound : Sound s.log s.capture
  dropped : s.pc.up = false → Dropped s.log s.capture
  at_ : At config s.stopRequested events s.pc
  lawful : Each (Allowed config) events

variable {s s' : State D} {events : List Event}

theorem pollInterval_pos (config : RuntimeConfig) : 0 < pollInterval config := by
  unfold pollInterval
  dsimp only
  split <;> omega

theorem dropped_initial : Dropped ([] : List (Op D)) Capture.State.initial :=
  ⟨sound_initial, rfl, fun _ => rfl⟩

theorem Inv.init (h : Initial s) : Inv config [] s := by
  obtain ⟨-, hpc, hcapture, hlog⟩ := h
  constructor
  case sound =>
    rw [hcapture, hlog]
    exact sound_initial
  case dropped =>
    intro _
    rw [hcapture, hlog]
    exact dropped_initial
  case at_ =>
    rw [hpc]
    exact Or.inr (Or.inl rfl)
  case lawful => exact each_nil

/-- A step that touches no device and is not seen. -/
theorem Inv.silent (h : Inv config events s) (stop : Bool) (pc : Pc)
    (hup : pc.up = false → s.pc.up = false) (hat : At config stop events pc) :
    Inv config events { s with stopRequested := stop, pc := pc } :=
  ⟨h.sound, fun hpc => h.dropped (hup hpc), hat, h.lawful⟩

/-- The flag is set, and stays set. -/
theorem Inv.signal (h : Inv config events s) :
    Inv config events { s with stopRequested := true } := by
  have hat := h.at_
  apply h.silent true s.pc fun hup => hup
  cases hpc : s.pc with
  | loop => exact Or.inl rfl
  | resolving =>
      rw [hpc] at hat
      exact hat
  | waiting =>
      rw [hpc] at hat
      exact hat
  | napping =>
      rw [hpc] at hat
      exact hat
  | leaving =>
      rw [hpc] at hat
      exact ⟨rfl, hat.2⟩
  | stopped => exact Or.inl rfl
  | restarting remaining => exact Or.inl rfl
  | sleeping remaining =>
      rw [hpc] at hat
      exact ⟨hat.1, Or.inl rfl⟩
  | returned => exact rfl

/-- A capture is brought up. -/
theorem Inv.resolve (h : Inv config events s) (hpc : s.pc = .resolving) {s' : State D}
    (hs' : s' = s.run (Capture.resolve env config) fun
      | .ok () => .waiting
      | .error _ => .stopped) :
    Inv config (events ++ [.init (s'.pc = .waiting)]) s' := by
  have hdropped : Dropped s.log s.capture := h.dropped (by rw [hpc]; rfl)
  have hdue : Due config events := by
    have hat := h.at_
    rw [hpc] at hat
    exact hat
  have hwp : WpLog (Capture.resolve env config) (fun _ => Sound) (fun _ => Dropped) s.log
      s.capture := wpLog_resolve hdropped
  have hlawful : ∀ ok, Each (Allowed config) (events ++ [.init ok]) :=
    fun ok => each_concat.mpr ⟨h.lawful, hdue⟩
  subst hs'
  unfold WpLog Wp at hwp
  unfold State.run
  split at hwp
  · next capture u hexec =>
      rw [hexec]
      refine ⟨hwp, fun hup => Bool.noConfusion hup, ?_, hlawful _⟩
      simp [At]
  · next capture what hexec =>
      rw [hexec]
      refine ⟨hwp.sound, fun _ => hwp, Or.inr ?_, hlawful _⟩
      simp

/-- The bootstrapper is destroyed. -/
theorem Inv.leave (h : Inv config events s) (hpc : s.pc = .leaving) :
    Inv config (events ++ [.destroyed]) (s.run destroy fun _ => .stopped) := by
  have hdropped : Dropped (s.log ++ destroy.trace s.capture) (destroy.exec s.capture).1 :=
    (wpLog_destroy h.sound).outcome
  have hat := h.at_
  rw [hpc] at hat
  exact ⟨hdropped.sound, fun _ => hdropped, Or.inl hat.1, each_concat.mpr ⟨h.lawful, hat.2⟩⟩

theorem Inv.main {e : Option Event} (h : Inv config events s)
    (hs : mainStep env config s = some (s', e)) : Inv config (events ++ e.toList) s' := by
  have hat := h.at_
  have hpoll := pollInterval_pos config
  unfold mainStep at hs
  cases hpc : s.pc <;> rw [hpc] at hs hat <;>
    simp only [Option.some.injEq, Prod.mk.injEq, reduceCtorEq] at hs <;>
    obtain ⟨rfl, rfl⟩ := hs
  case loop =>
    rw [Option.toList_none, List.append_nil]
    cases hstop : s.stopRequested with
    | true =>
        have hsilent := h.silent true .returned (fun _ => by rw [hpc]; rfl) rfl
        simpa [hstop] using hsilent
    | false =>
        rw [hstop] at hat
        have hdue : Due config events := hat.resolve_left Bool.false_ne_true
        have hsilent := h.silent false .resolving
          (fun _ => by rw [hpc]; rfl) hdue
        simpa [hstop] using hsilent
  case resolving => exact h.resolve hpc rfl
  case waiting =>
    rw [Option.toList_none, List.append_nil]
    cases hstop : s.stopRequested with
    | true =>
        have hsilent := h.silent true .leaving (fun hup => Bool.noConfusion hup)
          ⟨rfl, hat⟩
        simpa [hstop] using hsilent
    | false =>
        have hsilent := h.silent false .napping
          (fun hup => Bool.noConfusion hup) hat
        simpa [hstop] using hsilent
  case napping =>
    refine ⟨h.sound, fun hup => Bool.noConfusion hup, ?_, ?_⟩
    · show lastInit (events ++ [.slept _]) = some true
      rw [lastInit_slept]
      exact hat
    · exact each_concat.mpr ⟨h.lawful, hpoll, Int.le_refl _⟩
  case leaving => exact h.leave hpc
  case stopped =>
    rw [Option.toList_none, List.append_nil]
    cases hstop : s.stopRequested with
    | true =>
        have hsilent := h.silent true .returned (fun _ => by rw [hpc]; rfl) rfl
        simpa [hstop] using hsilent
    | false =>
        rw [hstop] at hat
        obtain ⟨hlast, hrested⟩ := hat.resolve_left Bool.false_ne_true
        have hsilent := h.silent false (.restarting (restartDelay config))
          (fun _ => by rw [hpc]; rfl) (Or.inr ⟨hlast, by omega⟩)
        simpa [hstop] using hsilent
  case restarting remaining =>
    rw [Option.toList_none, List.append_nil]
    have hdown : s.pc.up = false := by
      rw [hpc]
      rfl
    split
    · next hgo =>
        rw [hgo.2] at hat
        obtain ⟨hlast, hrested⟩ := hat.resolve_left Bool.false_ne_true
        exact h.silent _ _ (fun _ => hdown) ⟨hgo.1, Or.inr ⟨hlast, by omega⟩⟩
    · next hdone =>
        apply h.silent _ _ (fun _ => hdown)
        rcases hat with hstop | ⟨hlast, hrested⟩
        · exact Or.inl hstop
        · by_cases hstop : s.stopRequested = true
          · exact Or.inl hstop
          · refine Or.inr (Or.inr ⟨hlast, ?_⟩)
            rw [Bool.not_eq_true] at hstop
            have hle : remaining ≤ 0 := by
              by_contra hpos
              exact hdone ⟨by omega, hstop⟩
            omega
  case sleeping remaining =>
    obtain ⟨hpos, hat⟩ := hat
    have hdown : s.pc.up = false := by
      rw [hpc]
      rfl
    refine ⟨h.sound, fun _ => h.dropped hdown, ?_, ?_⟩
    · rcases hat with hstop | ⟨hlast, hrested⟩
      · exact Or.inl hstop
      · refine Or.inr ⟨?_, ?_⟩
        · rw [Option.toList_some, lastInit_slept]
          exact hlast
        · rw [Option.toList_some, rested_slept]
          split <;> omega
    · apply each_concat.mpr ⟨h.lawful, ?_⟩
      show 0 < _ ∧ _ ≤ _
      split <;> omega

/-! ## After a stop is requested -/

/-- How many of the steps are `main`'s. -/
def mainSteps (tr : List (Action × Option Event)) : Nat := tr.countP fun l => l.1 = .main

/-- `main` goes down, and does at most one thing that takes time. -/
theorem mainStep_rank {e : Option Event} (hstop : s.stopRequested = true)
    (hs : mainStep env config s = some (s', e)) :
    s'.stopRequested = true ∧ s'.pc.rank < s.pc.rank ∧
      s'.pc.busy + (e.toList.countP fun e => e ≠ .destroyed) ≤ s.pc.busy := by
  unfold mainStep at hs
  cases hpc : s.pc <;> rw [hpc] at hs <;>
    simp only [Option.some.injEq, Prod.mk.injEq, reduceCtorEq] at hs <;>
    obtain ⟨rfl, rfl⟩ := hs
  case resolving =>
    refine ⟨hstop, ?_⟩
    cases hexec : ((Capture.resolve env config).exec s.capture).2 <;>
      simp [State.run, hexec, Pc.rank, Pc.busy]
  case leaving => exact ⟨hstop, by simp [State.run, Pc.rank], by simp [State.run, Pc.busy]⟩
  all_goals simp [hstop, Pc.rank, Pc.busy]

/-- Only `main` in its last place has no step. -/
theorem mainStep_isSome (env : Environment D) (config : RuntimeConfig) (s : State D) :
    (mainStep env config s).isSome = true ↔ s.pc ≠ .returned := by
  unfold mainStep
  cases s.pc <;> simp

/-! ## The law -/

/-- What holds at the end of a run. -/
structure Supervised (env : Environment D) (config : RuntimeConfig)
    (tr : List (Action × Option Event)) (s : State D) : Prop where
  /-- no device is closed under a capture, and whatever is open is tracked -/
  sound : Sound s.log s.capture
  /-- when no capture is up every device is closed and every capture was stopped -/
  dropped : s.pc.up = false → Dropped s.log s.capture
  /-- captures are brought up when they are due, and no sleep is longer than the interval -/
  lawful : Each (Allowed config) (System.events tr)
  /-- `main` returns when a stop was requested -/
  returned : s.pc = .returned → s.stopRequested = true
  /-- and then it does, in at most four steps, one of which takes time -/
  progress : (mainStep env config s).isSome = true ↔ s.pc ≠ .returned
  stops : ∀ before after, tr = before ++ (.signal, none) :: after →
    mainSteps after + s.pc.rank ≤ 4 ∧
      ((System.events after).countP fun e => e ≠ .destroyed) ≤ 1

theorem Pc.rank_le (pc : Pc) : pc.rank ≤ 4 ∧ pc.busy ≤ 1 := by
  cases pc <;> simp [Pc.rank, Pc.busy]

/-- What is left to do after the signal. -/
theorem run_stops {tr : List (Action × Option Event)} (h : (system env config).Run tr s) :
    ∀ before after, tr = before ++ (.signal, none) :: after → s.stopRequested = true ∧
      mainSteps after + s.pc.rank ≤ 4 ∧
        ((System.events after).countP fun e => e ≠ .destroyed) + s.pc.busy ≤ 1 := by
  apply h.invariant (P := fun tr s => ∀ before after,
    tr = before ++ (.signal, none) :: after → s.stopRequested = true ∧
      mainSteps after + s.pc.rank ≤ 4 ∧
        ((System.events after).countP fun e => e ≠ .destroyed) + s.pc.busy ≤ 1)
  · intro s _ before after htr
    simp at htr
  · rintro tr s ⟨a, e⟩ s' ih hstep before after htr
    rcases concat_eq_append_cons htr with ⟨-, hlast, rfl⟩ | ⟨rest, rfl, hrest⟩
    · injection hlast with ha he
      subst ha
      injection hstep with hstep
      injection hstep with hstep
      obtain ⟨hrank, hbusy⟩ := s.pc.rank_le
      rw [← hstep]
      refine ⟨rfl, ?_, ?_⟩
      · simpa [mainSteps] using hrank
      · simpa [System.events] using hbusy
    · obtain ⟨hstop, hrank, hbusy⟩ := ih before rest hrest
      have hevents : System.events (rest ++ [(a, e)]) = System.events rest ++ e.toList := by
        cases e <;> simp
      cases a with
      | signal =>
          injection hstep with hstep
          injection hstep with hstep he
          have he' : e = none := he.symm
          subst he'
          rw [← hstep]
          refine ⟨rfl, ?_, ?_⟩
          · simpa [mainSteps] using hrank
          · simpa using hbusy
      | main =>
          replace hstep : mainStep env config s = some (s', e) := hstep
          obtain ⟨hstop', hless, hseen⟩ := mainStep_rank hstop hstep
          refine ⟨hstop', ?_, ?_⟩
          · have hone : mainSteps (rest ++ [(.main, e)]) = mainSteps rest + 1 := by
              simp [mainSteps]
            rw [hone]
            omega
          · rw [hevents, List.countP_append]
            omega

/-- **The supervisor restarts what fails, after the delay, and leaves nothing
open**, whenever the signals arrive and whatever fails. -/
theorem main_supervised (env : Environment D) (config : RuntimeConfig)
    (tr : List (Action × Option Event)) (s : State D) (h : (system env config).Run tr s) :
    Supervised env config tr s := by
  have hinv : Inv config (System.events tr) s := by
    apply h.invariant (P := fun tr s => Inv config (System.events tr) s)
    · exact fun s hs => .init hs
    · rintro tr s ⟨a, e⟩ s' hs hstep
      have hevents : System.events (tr ++ [(a, e)]) = System.events tr ++ e.toList := by
        cases e <;> simp
      rw [hevents]
      cases a with
      | signal =>
          injection hstep with hstep
          injection hstep with hstep he
          have he' : e = none := he.symm
          subst he'
          rw [← hstep, Option.toList_none, List.append_nil]
          exact hs.signal
      | main => exact hs.main hstep
  constructor
  case sound => exact hinv.sound
  case dropped => exact hinv.dropped
  case lawful => exact hinv.lawful
  case returned =>
    intro hpc
    have hat := hinv.at_
    rw [hpc] at hat
    exact hat
  case progress => exact mainStep_isSome env config s
  case stops =>
    intro before after htr
    obtain ⟨-, hrank, hbusy⟩ := run_stops h before after htr
    exact ⟨hrank, by omega⟩

/-- No interface is there. -/
def noInterface : Environment Nat where
  name := toString
  devicesList := fun _ => []
  deviceByName := fun _ _ => none
  opens := fun _ _ => true
  starts := fun _ _ => true
  store := fun _ => none

/-- The capture fails, a signal arrives in the delay, and `main` returns. -/
theorem main_supervised_noInterface : ∃ tr s, Supervised noInterface {} tr s ∧
    s.pc = .returned ∧ lastInit (System.events tr) = some false := by
  have start : (system noInterface {}).Run [] ⟨false, .loop, Capture.State.initial, []⟩ :=
    .init ⟨rfl, rfl, rfl, rfl⟩
  have failed := (start.next .main rfl).next .main rfl
  have delayed := ((failed.next .main rfl).next .main rfl).next .signal rfl
  have done := ((delayed.next .main rfl).next .main rfl).next .main rfl
  exact ⟨_, _, main_supervised _ _ _ _ done, rfl, rfl⟩

end Supervisor

end ElephantShrew.Capture
