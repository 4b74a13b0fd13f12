import ElephantShrew.Capture.CaptureLaw
import ElephantShrew.Config.NumericSettings
import ElephantShrew.Verified.StepSystem

/-!
# The supervisor

`main` of `ElephantShrewMain.cpp` from its loop on, with `RunCaptureService`,
`WaitUntilStopRequested`, `SleepWithStopCheck`, and `Resolve` and the destructor
of `Bootstrapper.cpp`.  A signal may arrive between any two steps; it sets
`g_stopRequested`, and nothing resets it.

The object is made, brought up and destroyed in one step each: none of them
looks at the flag.
-/

namespace ElephantShrew.Capture

open ElephantShrew.Verified
open ElephantShrew.Verified.ExitM
open ElephantShrew.Config

variable {D : Type} [DecidableEq D]

/-- `Bootstrapper::Resolve`: a new object, kept by the bootstrapper once it is up
and destroyed as the exception passes. -/
def resolve (env : Environment D) (config : RuntimeConfig) : CaptureM D Unit := do
  update fun s => { s with receivers := [], openedDevices := [] }
  match ← attempt (init env config) with
  | .error what =>
      destroy
      exit what
  | .ok () => return

namespace Supervisor

/-- Where `main` is. -/
inductive Pc where
  /-- `while (!StopRequested())` -/
  | loop
  /-- in `RunCaptureService`, before `Resolve` -/
  | resolving
  /-- in `WaitUntilStopRequested`, before the flag is looked at -/
  | waiting
  | napping
  /-- before `~Bootstrapper` -/
  | leaving
  /-- `if (StopRequested()) break;` -/
  | stopped
  /-- in `SleepWithStopCheck`, before the condition of its loop -/
  | restarting (remaining : Int)
  | sleeping (remaining : Int)
  | returned
  deriving DecidableEq, Repr

/-- The flag, `main`, the devices with the object there is, and what was done to
the devices. -/
structure State (D : Type) where
  stopRequested : Bool
  pc : Pc
  capture : Capture.State D
  log : List (Op D)

inductive Action where
  | signal
  | main
  deriving DecidableEq, Repr

/-- What others can see of a step. -/
inductive Event where
  /-- a capture was brought up, or not -/
  | init (ok : Bool)
  | slept (milliseconds : Int)
  | destroyed
  deriving DecidableEq, Repr

/-- `restart_delay` of `main`. -/
def restartDelay (config : RuntimeConfig) : Int :=
  (milliseconds config.supervisor.restartDelayMs).toInt

/-- `poll_interval`, as both waits correct it. -/
def pollInterval (config : RuntimeConfig) : Int :=
  let interval := (milliseconds config.supervisor.pollIntervalMs).toInt
  if interval ≤ 0 then 1 else interval

/-- A fresh process: no device is open. -/
def Initial (s : State D) : Prop :=
  s.stopRequested = false ∧ s.pc = .loop ∧ s.capture = Capture.State.initial ∧ s.log = []

/-- A computation on the devices. -/
def State.run {α : Type} (s : State D) (x : CaptureM D α) (pc : Except String α → Pc) : State D :=
  { s with
    pc := pc (x.exec s.capture).2
    capture := (x.exec s.capture).1
    log := s.log ++ x.trace s.capture }

/-- The next step of `main`. -/
def mainStep (env : Environment D) (config : RuntimeConfig) (s : State D) :
    Option (State D × Option Event) :=
  match s.pc with
  | .loop => some ({ s with pc := if s.stopRequested then .returned else .resolving }, none)
  | .resolving =>
      let s' := s.run (resolve env config) fun
        | .ok () => .waiting
        | .error _ => .stopped
      some (s', some (.init (s'.pc = .waiting)))
  | .waiting => some ({ s with pc := if s.stopRequested then .leaving else .napping }, none)
  | .napping => some ({ s with pc := .waiting }, some (.slept (pollInterval config)))
  | .leaving => some (s.run destroy fun _ => .stopped, some .destroyed)
  | .stopped =>
      some ({ s with
        pc := if s.stopRequested then .returned else .restarting (restartDelay config) }, none)
  | .restarting remaining =>
      some ({ s with
        pc := if remaining > 0 ∧ s.stopRequested = false then .sleeping remaining else .loop },
        none)
  | .sleeping remaining =>
      let sleepFor :=
        if remaining > pollInterval config then pollInterval config else remaining
      some ({ s with pc := .restarting (remaining - sleepFor) }, some (.slept sleepFor))
  | .returned => none

/-- A signal, or a step of `main`. -/
def next (env : Environment D) (config : RuntimeConfig) (s : State D) :
    Action → Option (State D × Option Event)
  | .signal => some ({ s with stopRequested := true }, none)
  | .main => mainStep env config s

/-- The process, with signals at any time. -/
def system (env : Environment D) (config : RuntimeConfig) :
    System (State D) (Action × Option Event) := .ofNext Initial (next env config)

end Supervisor

end ElephantShrew.Capture
