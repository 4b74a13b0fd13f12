import ElephantShrew.Telemetry.DrainLaw

/-!
# The lifecycle of the telemetry object

`EbpfTelemetry` from its construction to its destruction: `AddSource`,
`Start`, `FinishAfterDetach` and the destructor, serialised by their caller,
while the poller thread takes its steps and the kernel fills the rings.  The
steps of the two threads are those of `Drain.lean`.

A source is an allocation.  Its address is what the ring library is given and
what it hands to each callback, so the state keeps both: the sources by
address, and the addresses registered, one for each ring.
-/

namespace ElephantShrew.Telemetry.Lifecycle

open ElephantShrew.Verified
open ElephantShrew.Telemetry

/-- `ENOMEM`. -/
def eNomem : Int := 12

/-- How far the destructor is. -/
inductive Life where
  | alive
  | destroying
  /-- `ring_buffer__free` has returned -/
  | ringFreed
  | destroyed
  deriving DecidableEq, Repr

/-- The telemetry object. -/
structure State where
  core : Drain.State
  sources : List (Nat × Source)
  /-- the address registered for each ring; none while `ring` is null -/
  contexts : List Nat
  started : Bool
  finished : Bool
  life : Life
  deriving DecidableEq, Repr

/-- What allocation and the ring library answer to `AddSource`. -/
inductive Registration where
  /-- `push_back` throws -/
  | noMemory
  /-- `ring_buffer__new` returned a ring, or null and left `errno` -/
  | ringNew (ptr : Nat) (made : Bool) (errno : Int)
  | ringAdd (ptr : Nat) (rc : Int)
  deriving DecidableEq, Repr

inductive LifecycleError where
  | invalidArgument (what : String)
  | logicError (what : String)
  | systemError (code : Int) (what : String)
  | badAlloc
  deriving DecidableEq, Repr

/-- What a lifecycle call returns. -/
inductive Event where
  | added
  | started
  | finished (rc : Int)
  | threw (e : LifecycleError)
  deriving DecidableEq, Repr

inductive Action where
  | addSource (fd : Int) (source : Source) (answer : Registration)
  /-- `errno` is why the thread was not created, if it was not -/
  | start (errno : Option Int)
  | finishAfterDetach (ms : Int)
  /-- a step of the poller, of a `FinishAfterDetach` under way, or of the sink -/
  | step (a : Drain.Action)
  /-- the kernel adds a record to a ring -/
  | arrive (ring : Nat) (data : Option Bytes) (size : Nat)
  | destroy
  | freeRing
  | freeSources
  deriving DecidableEq, Repr

/-- No lifecycle call is under way. -/
def State.Idle (s : State) : Prop :=
  s.life = .alive ∧ (s.core.finisher = .notCalled ∨ s.core.finisher = .returned)

instance (s : State) : Decidable s.Idle := inferInstanceAs (Decidable (_ ∧ _))

/-- The addresses of the sources. -/
def State.pointers (s : State) : List Nat := s.sources.map Prod.fst

/-- `sources.push_back`. -/
def State.pushSource (s : State) (ptr : Nat) (source : Source) : State :=
  { s with sources := s.sources ++ [(ptr, source)] }

/-- `sources.pop_back`. -/
def State.popSource (s : State) : State := { s with sources := s.sources.dropLast }

/-- The ring library has one more ring, with its context. -/
def State.register (s : State) (ptr : Nat) : State :=
  { s with
    contexts := s.contexts ++ [ptr]
    core := { s.core with
      shared := { s.core.shared with rings := s.core.shared.rings ++ [[]] } } }

/-- The end of `AddSource`, once the library has answered. -/
def State.registered (s : State) (ptr : Nat) (rc : Int) : State × Option Event :=
  if rc ≠ 0 then (s.popSource, some (.threw (.systemError (-rc) "register ring source")))
  else (s.register ptr, some .added)

/-- `AddSource`. -/
def addSource (s : State) (fd : Int) (source : Source) (answer : Registration) :
    Option (State × Option Event) :=
  if s.started = true ∨ s.finished = true ∨ fd < 0 ∨ source.ifindex = 0 then
    some (s, some (.threw (.invalidArgument "invalid ring source/lifecycle")))
  else
    match answer with
    | .noMemory => some (s, some (.threw .badAlloc))
    | .ringNew ptr made errno =>
        if s.contexts = [] ∧ ptr ∉ s.pointers then
          let rc := if made then 0 else -(if errno ≠ 0 then errno else eNomem)
          some ((s.pushSource ptr source).registered ptr rc)
        else none
    | .ringAdd ptr rc =>
        if s.contexts ≠ [] ∧ ptr ∉ s.pointers then
          some ((s.pushSource ptr source).registered ptr rc)
        else none

/-- `Start`. -/
def start (s : State) : Option Int → State × Option Event
  | errno =>
      if s.contexts = [] ∨ s.started = true ∨ s.finished = true then
        (s, some (.threw (.logicError "cannot start ring poller")))
      else
        match errno with
        | some code => (s, some (.threw (.systemError code "thread")))
        | none =>
            ({ s with core := { s.core with poller := .top }, started := true }, some .started)

/-- `FinishAfterDetach`, to its first store. -/
def finishAfterDetach (capacity : Nat) (o : Codec.ByteOrder) (s : State) (ms : Int) :
    Option (State × Option Event) :=
  if s.finished = true then some (s, some (.finished s.core.pollError))
  else (Drain.next capacity o s.core (.finishAfterDetach ms)).map fun core =>
    ({ s with core := core }, none)

/-- A step of `Drain.lean`; the last one of `FinishAfterDetach` sets `finished`. -/
def step (capacity : Nat) (o : Codec.ByteOrder) (s : State) :
    Drain.Action → Option (State × Option Event)
  | .finishAfterDetach _ => none
  | .close =>
      (Drain.next capacity o s.core .close).map fun core =>
        ({ s with core := core, finished := true }, some (.finished core.pollError))
  | a => (Drain.next capacity o s.core a).map fun core => ({ s with core := core }, none)

/-- The source a registered address points to. -/
def State.deref (s : State) (ptr : Nat) : Option Source :=
  (s.sources.find? fun p => p.1 = ptr).map Prod.snd

/-- A record in a ring, with the source its callback will be given. -/
def arrive (s : State) (ring : Nat) (data : Option Bytes) (size : Nat) : Option State :=
  match s.core.shared.rings[ring]?, s.contexts[ring]? with
  | some records, some ptr =>
      (s.deref ptr).map fun source =>
        { s with core := { s.core with
            shared := { s.core.shared with
              rings := s.core.shared.rings.set ring (records ++ [⟨source, data, size⟩]) } } }
  | _, _ => none

/-- One step. -/
def next (capacity : Nat) (o : Codec.ByteOrder) (s : State) :
    Action → Option (State × Option Event)
  | .addSource fd source answer => if s.Idle then addSource s fd source answer else none
  | .start errno => if s.Idle then some (start s errno) else none
  | .finishAfterDetach ms => if s.Idle then finishAfterDetach capacity o s ms else none
  | .step a => if s.life = .destroyed then none else step capacity o s a
  | .arrive ring data size => (arrive s ring data size).map fun s => (s, none)
  | .destroy =>
      if s.Idle then
        (finishAfterDetach capacity o s 0).map fun p => ({ p.1 with life := .destroying }, p.2)
      else none
  | .freeRing =>
      if s.life = .destroying ∧ s.finished = true then
        some ({ s with
          contexts := []
          core := { s.core with shared := { s.core.shared with rings := [] } }
          life := .ringFreed }, none)
      else none
  | .freeSources =>
      if s.life = .ringFreed then some ({ s with sources := [], life := .destroyed }, none)
      else none

/-- A constructed object. -/
def initial : State :=
  ⟨⟨⟨[], false, 0, ⟨0, 0, 0⟩, [], []⟩, .absent, .notCalled, 0, []⟩, [], [], false, false, .alive⟩

/-- The object under every sequence of calls and every schedule. -/
def system (capacity : Nat) (o : Codec.ByteOrder) : System State (Action × Option Event) :=
  .ofNext (· = initial) (next capacity o)

end ElephantShrew.Telemetry.Lifecycle
