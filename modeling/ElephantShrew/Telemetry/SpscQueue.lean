import ElephantShrew.Verified.Fifo
import Mathlib.Data.Fintype.Basic
import Mathlib.Logic.Function.Basic

/-!
# The single-producer single-consumer queue

`SpscQueue.hpp`, one step for each access to shared memory.  The producer and
the consumer are two programs; an action is the next step of one of them, and
any order of actions is a schedule.  An element is copied one cell at a time,
in any order, so that a copy can be caught half done.

The indices are `size_t`: they wrap past `sizeMax`.
-/

namespace ElephantShrew.Telemetry

open ElephantShrew.Verified

/-- A capacity the constructor accepts, on a host with this `SIZE_MAX`. -/
structure Capacity where
  capacity : Nat
  sizeMax : Nat
  pos : 0 < capacity
  lt : capacity < sizeMax

/-- `slots_.size()`: one sentinel slot distinguishes full from empty. -/
def Capacity.slots (c : Capacity) : Nat := c.capacity + 1

/-- `Next(i)`. -/
def Capacity.next (c : Capacity) (i : Nat) : Nat :=
  if (i + 1) % (c.sizeMax + 1) = c.slots then 0 else (i + 1) % (c.sizeMax + 1)

namespace Spsc

variable {n : Nat} {Cell : Type}

/-- Where the producer is in `TryPush(value)`. -/
inductive Producer (n : Nat) (Cell : Type) where
  | idle
  | called (value : Fin n → Cell)
  | loadedHead (value : Fin n → Cell) (head next : Nat)
  | copying (value : Fin n → Cell) (head next : Nat) (done : Fin n → Bool)

/-- Where the consumer is in `TryPop(value)`; `value` is the caller's variable. -/
inductive Consumer (n : Nat) (Cell : Type) where
  | idle
  | called (value : Fin n → Cell)
  | loadedTail (value : Fin n → Cell) (tail : Nat)
  | copying (value : Fin n → Cell) (tail : Nat) (done : Fin n → Bool)

/-- The members of the queue and the two parties. -/
structure State (n : Nat) (Cell : Type) where
  slots : Nat → Fin n → Cell
  head : Nat
  tail : Nat
  producer : Producer n Cell
  consumer : Consumer n Cell

/-- The steps of the two parties. -/
inductive Action (n : Nat) (Cell : Type) where
  | tryPush (value : Fin n → Cell)
  | pushLoadHead
  | pushLoadTail
  | pushCopy (k : Fin n)
  | pushStoreHead
  | tryPop (value : Fin n → Cell)
  | popLoadTail
  | popLoadHead
  | popCopy (k : Fin n)
  | popStoreTail

/-- A constructed queue, with whatever its slots hold. -/
def Initial (s : State n Cell) : Prop :=
  s.head = 0 ∧ s.tail = 0 ∧ s.producer = .idle ∧ s.consumer = .idle

/-- One step.  A step that returns to the caller says what it returns. -/
def next (c : Capacity) (s : State n Cell) :
    Action n Cell → Option (State n Cell × Option (QueueEvent (Fin n → Cell)))
  | .tryPush value =>
      match s.producer with
      | .idle => some ({ s with producer := .called value }, none)
      | _ => none
  | .pushLoadHead =>
      match s.producer with
      | .called value =>
          some ({ s with producer := .loadedHead value s.head (c.next s.head) }, none)
      | _ => none
  | .pushLoadTail =>
      match s.producer with
      | .loadedHead value head next =>
          if next = s.tail then
            some ({ s with producer := .idle }, some (.push value false))
          else some ({ s with producer := .copying value head next fun _ => false }, none)
      | _ => none
  | .pushCopy k =>
      match s.producer with
      | .copying value head next done =>
          some ({ s with
            slots := Function.update s.slots head (Function.update (s.slots head) k (value k))
            producer := .copying value head next (Function.update done k true) }, none)
      | _ => none
  | .pushStoreHead =>
      match s.producer with
      | .copying value _ next done =>
          if ∀ k, done k = true then
            some ({ s with head := next, producer := .idle }, some (.push value true))
          else none
      | _ => none
  | .tryPop value =>
      match s.consumer with
      | .idle => some ({ s with consumer := .called value }, none)
      | _ => none
  | .popLoadTail =>
      match s.consumer with
      | .called value => some ({ s with consumer := .loadedTail value s.tail }, none)
      | _ => none
  | .popLoadHead =>
      match s.consumer with
      | .loadedTail value tail =>
          if tail = s.head then some ({ s with consumer := .idle }, some (.pop none))
          else some ({ s with consumer := .copying value tail fun _ => false }, none)
      | _ => none
  | .popCopy k =>
      match s.consumer with
      | .copying value tail done =>
          some ({ s with
            consumer := .copying (Function.update value k (s.slots tail k)) tail
              (Function.update done k true) }, none)
      | _ => none
  | .popStoreTail =>
      match s.consumer with
      | .copying value tail done =>
          if ∀ k, done k = true then
            some ({ s with tail := c.next tail, consumer := .idle }, some (.pop (some value)))
          else none
      | _ => none

/-- The queue under every schedule of its two parties. -/
def system (n : Nat) (Cell : Type) (c : Capacity) :
    System (State n Cell) (Action n Cell × Option (QueueEvent (Fin n → Cell))) :=
  System.ofNext Initial (next c)

end Spsc

end ElephantShrew.Telemetry
