import Mathlib.Logic.Function.Basic
import ElephantShrew.Bpf.ObserverStep
import ElephantShrew.Verified.StepSystem

/-!
# The observer on many CPUs

Calls of `es_observe` overlap: there is one at a time on a direction and CPU, and
any number of them on different ones.  Here a call is its atomic operations, in
the order of the source, and an action is one operation of one of the calls.  The
flow table is left out, and with it the counter of its failures.
-/

namespace ElephantShrew.Bpf

open ElephantShrew.Verified

/-- A direction and a CPU: the slot whose counters a call adds to. -/
abbrev Slot := EsDirection × UInt32

def ObserveCall.slot (c : ObserveCall) : Slot := (c.direction, c.cpu)

namespace Interleaved

/-- Where the call of a slot stands between two of its atomic operations. -/
inductive Phase where
  | idle
  /-- its packet is counted, as the `seq`-th of the slot -/
  | entered (c : ObserveCall) (seq : UInt64)
  /-- its bytes are counted -/
  | measured (c : ObserveCall) (seq : UInt64)
  /-- its parse status is counted -/
  | classified (c : ObserveCall) (seq : UInt64)
  /-- it is counted as the `selected`-th one selected -/
  | chosen (c : ObserveCall) (seq selected : UInt64)
  /-- the ring had no room -/
  | refused
  /-- it has reserved a record of the ring -/
  | reserved (c : ObserveCall) (seq : UInt64) (index : Nat)
  /-- the record is filled -/
  | filled (e : EsEvent) (index : Nat)
  /-- the record is submitted -/
  | submitted

structure State where
  counters : Slot → EsCounters
  phase : Slot → Phase
  /-- the records in the order of their reservations; one not yet submitted is `none` -/
  ring : List (Option EsEvent)
  /-- the calls that have begun, and those whose record or lack of one is decided,
  each in the order of these two moments -/
  begun : List ObserveCall
  decided : List ObserveCall

/-- Freshly loaded maps. -/
def State.init : State := ⟨fun _ _ => 0, fun _ => .idle, [], [], []⟩

/-- The slot's counters and its phase replaced. -/
def State.move (s : State) (slot : Slot) (v : EsCounters) (p : Phase) : State :=
  { s with
    counters := Function.update s.counters slot v
    phase := Function.update s.phase slot p }

/-- The call is past the point where it may get a record. -/
def State.decide (s : State) (c : ObserveCall) : State := { s with decided := s.decided ++ [c] }

/-- A call begins, unless one runs on its slot. -/
def enter (s : State) (c : ObserveCall) : Option State :=
  match s.phase c.slot with
  | .idle =>
      let v := s.counters c.slot
      some { s.move c.slot (v.add .packets 1) (.entered c (v .packets + 1)) with
        begun := s.begun ++ [c] }
  | _ => none

/-- The next atomic operation of the call that runs on a slot. -/
def proceed (cfg : Settings) (s : State) (slot : Slot) : Option State :=
  let v := s.counters slot
  match s.phase slot with
  | .idle => none
  | .entered c seq => some (s.move slot (v.add .bytes c.skb.len.toUInt64) (.measured c seq))
  | .measured c seq =>
      let v := if cfg.parses then countStatus v (esObserveParse cfg c).1 else v
      some (s.move slot v (.classified c seq))
  | .classified c seq =>
      if deselected cfg (esObserveParse cfg c) then some ((s.move slot v .idle).decide c)
      else some (s.move slot (v.add .selected 1) (.chosen c seq (v .selected + 1)))
  | .chosen c seq selected =>
      if ¬ sampled cfg selected then some ((s.move slot v .idle).decide c)
      else if c.ringReserved then
        some { (s.move slot v (.reserved c seq s.ring.length)).decide c with
          ring := s.ring ++ [none] }
      else some ((s.move slot v .refused).decide c)
  | .refused => some (s.move slot (v.add .ringLost 1) .idle)
  | .reserved c seq index =>
      let (e, v) := takeSnapshot cfg c (fillEvent c seq (esObserveParse cfg c)) v
      some (s.move slot v (.filled e index))
  | .filled e index =>
      some { s.move slot v .submitted with ring := s.ring.set index (some e) }
  | .submitted => some (s.move slot (v.add .events 1) .idle)

inductive Action where
  | enter (c : ObserveCall)
  | proceed (slot : Slot)

def act (cfg : Settings) (s : State) : Action → Option State
  | .enter c => enter s c
  | .proceed slot => Interleaved.proceed cfg s slot

/-- Any interleaving of the calls. -/
def system (cfg : Settings) : System State Action := .ofAct (· = .init) (act cfg)

/-- What the consumer gets: it stops at the first record that is not submitted. -/
def consumable : List (Option EsEvent) → List EsEvent
  | some e :: ring => e :: consumable ring
  | _ => []

/-- The same calls one after the other, in the order in which they were decided. -/
def State.serial (cfg : Settings) (s : State) : ObserverState := observeAll cfg s.decided .init

end Interleaved

end ElephantShrew.Bpf
