import ElephantShrew.Telemetry.SpscQueue
import ElephantShrew.Verified.ReleaseAcquire

/-!
# The queue with its memory orders

`SpscQueue.hpp` once more, over a memory in which a load may return an old
store.  A party loads its own index relaxed and the other one's with acquire,
and stores its own with release; the slots are plain memory.  An action that
loads says which store it reads: the environment chooses it.

The programs of the two parties are those of `SpscQueue.lean`.
-/

namespace ElephantShrew.Telemetry.Spsc

open ElephantShrew.Verified
open ElephantShrew.Verified.ReleaseAcquire

namespace Orders

variable {n : Nat} {Cell : Type}

inductive Party where
  | producer
  | consumer
  deriving DecidableEq, Repr

instance : Fintype Party := ⟨{.producer, .consumer}, fun p => by cases p <;> decide⟩

/-- `head_` and `tail_`. -/
inductive Index where
  | head
  | tail
  deriving DecidableEq, Repr

/-- Exactly one producer and one consumer. -/
def Index.writer : Index → Party
  | .head => .producer
  | .tail => .consumer

/-- The indices, and the cells of the slots. -/
abbrev QueueMemory (n : Nat) (Cell : Type) := Memory Party Index Nat (Nat × Fin n) Cell

structure State (n : Nat) (Cell : Type) where
  memory : QueueMemory n Cell
  producer : Producer n Cell
  consumer : Consumer n Cell

/-- The steps of the two parties; a load has the store that it reads. -/
inductive Action (n : Nat) (Cell : Type) where
  | tryPush (value : Fin n → Cell)
  | pushLoadHead (i : Nat)
  | pushLoadTail (i : Nat)
  | pushCopy (k : Fin n)
  | pushStoreHead
  | tryPop (value : Fin n → Cell)
  | popLoadTail (i : Nat)
  | popLoadHead (i : Nat)
  | popCopy (k : Fin n)
  | popStoreTail

/-- A constructed queue that both parties have been given. -/
def Initial (s : State n Cell) : Prop :=
  s.memory.Fresh (fun _ => 0) ∧ s.producer = .idle ∧ s.consumer = .idle

/-- One step. -/
def next (c : Capacity) (s : State n Cell) :
    Action n Cell → Option (State n Cell × Option (QueueEvent (Fin n → Cell)))
  | .tryPush value =>
      match s.producer with
      | .idle => some ({ s with producer := .called value }, none)
      | _ => none
  | .pushLoadHead i =>
      match s.producer with
      | .called value =>
          (s.memory.load .producer .head .relaxed i).map fun (memory, head) =>
            ({ s with memory := memory, producer := .loadedHead value head (c.next head) }, none)
      | _ => none
  | .pushLoadTail i =>
      match s.producer with
      | .loadedHead value head next =>
          (s.memory.load .producer .tail .acquire i).map fun (memory, tail) =>
            if next = tail then
              ({ s with memory := memory, producer := .idle }, some (.push value false))
            else
              ({ s with memory := memory, producer := .copying value head next fun _ => false },
                none)
      | _ => none
  | .pushCopy k =>
      match s.producer with
      | .copying value head next done =>
          some ({ s with
            memory := s.memory.write .producer (head, k) (value k)
            producer := .copying value head next (Function.update done k true) }, none)
      | _ => none
  | .pushStoreHead =>
      match s.producer with
      | .copying value _ next done =>
          if ∀ k, done k = true then
            (s.memory.store Index.writer .producer .head next).map fun memory =>
              ({ s with memory := memory, producer := .idle }, some (.push value true))
          else none
      | _ => none
  | .tryPop value =>
      match s.consumer with
      | .idle => some ({ s with consumer := .called value }, none)
      | _ => none
  | .popLoadTail i =>
      match s.consumer with
      | .called value =>
          (s.memory.load .consumer .tail .relaxed i).map fun (memory, tail) =>
            ({ s with memory := memory, consumer := .loadedTail value tail }, none)
      | _ => none
  | .popLoadHead i =>
      match s.consumer with
      | .loadedTail value tail =>
          (s.memory.load .consumer .head .acquire i).map fun (memory, head) =>
            if tail = head then
              ({ s with memory := memory, consumer := .idle }, some (.pop none))
            else
              ({ s with memory := memory, consumer := .copying value tail fun _ => false }, none)
      | _ => none
  | .popCopy k =>
      match s.consumer with
      | .copying value tail done =>
          let (memory, cell) := s.memory.read .consumer (tail, k)
          some ({ s with
            memory := memory
            consumer := .copying (Function.update value k cell) tail
              (Function.update done k true) }, none)
      | _ => none
  | .popStoreTail =>
      match s.consumer with
      | .copying value tail done =>
          if ∀ k, done k = true then
            (s.memory.store Index.writer .consumer .tail (c.next tail)).map fun memory =>
              ({ s with memory := memory, consumer := .idle }, some (.pop (some value)))
          else none
      | _ => none

/-- The queue under every schedule and every choice of what the loads read. -/
def system (n : Nat) (Cell : Type) (c : Capacity) :
    System (State n Cell) (Action n Cell × Option (QueueEvent (Fin n → Cell))) :=
  System.ofNext Initial (next c)

/-- Everything a step can be. -/
inductive Steps (c : Capacity) (s : State n Cell) :
    Action n Cell → State n Cell → Option (QueueEvent (Fin n → Cell)) → Prop
  | tryPush (value : Fin n → Cell) (h : s.producer = .idle) :
      Steps c s (.tryPush value) { s with producer := .called value } none
  | pushLoadHead (value : Fin n → Cell) (i : Nat) (memory : QueueMemory n Cell) (head : Nat)
      (h : s.producer = .called value)
      (hload : s.memory.load .producer .head .relaxed i = some (memory, head)) :
      Steps c s (.pushLoadHead i)
        { s with memory := memory, producer := .loadedHead value head (c.next head) } none
  | pushFull (value : Fin n → Cell) (head nxt i : Nat) (memory : QueueMemory n Cell)
      (h : s.producer = .loadedHead value head nxt)
      (hload : s.memory.load .producer .tail .acquire i = some (memory, nxt)) :
      Steps c s (.pushLoadTail i) { s with memory := memory, producer := .idle }
        (some (.push value false))
  | pushRoom (value : Fin n → Cell) (head nxt i : Nat) (memory : QueueMemory n Cell) (tail : Nat)
      (h : s.producer = .loadedHead value head nxt)
      (hload : s.memory.load .producer .tail .acquire i = some (memory, tail))
      (hroom : nxt ≠ tail) :
      Steps c s (.pushLoadTail i)
        { s with memory := memory, producer := .copying value head nxt fun _ => false } none
  | pushCopy (value : Fin n → Cell) (head nxt : Nat) (done : Fin n → Bool) (k : Fin n)
      (h : s.producer = .copying value head nxt done) :
      Steps c s (.pushCopy k)
        { s with
          memory := s.memory.write .producer (head, k) (value k)
          producer := .copying value head nxt (Function.update done k true) } none
  | pushStoreHead (value : Fin n → Cell) (head nxt : Nat) (done : Fin n → Bool)
      (h : s.producer = .copying value head nxt done) (hall : ∀ k, done k = true) :
      Steps c s .pushStoreHead
        { s with memory := s.memory.stored .producer .head nxt, producer := .idle }
        (some (.push value true))
  | tryPop (value : Fin n → Cell) (h : s.consumer = .idle) :
      Steps c s (.tryPop value) { s with consumer := .called value } none
  | popLoadTail (value : Fin n → Cell) (i : Nat) (memory : QueueMemory n Cell) (tail : Nat)
      (h : s.consumer = .called value)
      (hload : s.memory.load .consumer .tail .relaxed i = some (memory, tail)) :
      Steps c s (.popLoadTail i)
        { s with memory := memory, consumer := .loadedTail value tail } none
  | popEmpty (value : Fin n → Cell) (tail i : Nat) (memory : QueueMemory n Cell)
      (h : s.consumer = .loadedTail value tail)
      (hload : s.memory.load .consumer .head .acquire i = some (memory, tail)) :
      Steps c s (.popLoadHead i) { s with memory := memory, consumer := .idle } (some (.pop none))
  | popSome (value : Fin n → Cell) (tail i : Nat) (memory : QueueMemory n Cell) (head : Nat)
      (h : s.consumer = .loadedTail value tail)
      (hload : s.memory.load .consumer .head .acquire i = some (memory, head))
      (hsome : tail ≠ head) :
      Steps c s (.popLoadHead i)
        { s with memory := memory, consumer := .copying value tail fun _ => false } none
  | popCopy (value : Fin n → Cell) (tail : Nat) (done : Fin n → Bool) (k : Fin n)
      (h : s.consumer = .copying value tail done) :
      Steps c s (.popCopy k)
        { s with
          memory := (s.memory.read .consumer (tail, k)).1
          consumer := .copying (Function.update value k (s.memory.plain (tail, k))) tail
            (Function.update done k true) } none
  | popStoreTail (value : Fin n → Cell) (tail : Nat) (done : Fin n → Bool)
      (h : s.consumer = .copying value tail done) (hall : ∀ k, done k = true) :
      Steps c s .popStoreTail
        { s with memory := s.memory.stored .consumer .tail (c.next tail), consumer := .idle }
        (some (.pop (some value)))

variable {c : Capacity} {s s' : State n Cell} {e : Option (QueueEvent (Fin n → Cell))}

theorem Steps.of_next {a : Action n Cell} (hs : next c s a = some (s', e)) :
    Steps c s a s' e := by
  cases a with
  | tryPush value =>
      cases hp : s.producer <;> simp only [next, hp, Option.some.injEq, Prod.mk.injEq,
        reduceCtorEq] at hs
      obtain ⟨rfl, rfl⟩ := hs
      exact .tryPush value hp
  | pushLoadHead i =>
      cases hp : s.producer <;> simp only [next, hp, reduceCtorEq] at hs
      obtain ⟨⟨memory, head⟩, hload, hs⟩ := Option.map_eq_some_iff.mp hs
      simp only [Prod.mk.injEq] at hs
      obtain ⟨rfl, rfl⟩ := hs
      exact .pushLoadHead _ i memory head hp hload
  | pushLoadTail i =>
      cases hp : s.producer <;> simp only [next, hp, reduceCtorEq] at hs
      obtain ⟨⟨memory, tail⟩, hload, hs⟩ := Option.map_eq_some_iff.mp hs
      dsimp only at hs
      split at hs <;> simp only [Prod.mk.injEq] at hs <;> obtain ⟨rfl, rfl⟩ := hs
      · next hfull =>
          subst hfull
          exact .pushFull _ _ _ i memory hp hload
      · next hroom => exact .pushRoom _ _ _ i memory tail hp hload hroom
  | pushCopy k =>
      cases hp : s.producer <;> simp only [next, hp, Option.some.injEq, Prod.mk.injEq,
        reduceCtorEq] at hs
      obtain ⟨rfl, rfl⟩ := hs
      exact .pushCopy _ _ _ _ k hp
  | pushStoreHead =>
      cases hp : s.producer <;> simp only [next, hp, reduceCtorEq] at hs
      split at hs
      · next hall =>
          obtain ⟨memory, hstore, hs⟩ := Option.map_eq_some_iff.mp hs
          simp only [Prod.mk.injEq] at hs
          obtain ⟨rfl, rfl⟩ := hs
          obtain ⟨-, rfl⟩ := Memory.store_eq_some_iff.mp hstore
          exact .pushStoreHead _ _ _ _ hp hall
      · cases hs
  | tryPop value =>
      cases hq : s.consumer <;> simp only [next, hq, Option.some.injEq, Prod.mk.injEq,
        reduceCtorEq] at hs
      obtain ⟨rfl, rfl⟩ := hs
      exact .tryPop value hq
  | popLoadTail i =>
      cases hq : s.consumer <;> simp only [next, hq, reduceCtorEq] at hs
      obtain ⟨⟨memory, tail⟩, hload, hs⟩ := Option.map_eq_some_iff.mp hs
      simp only [Prod.mk.injEq] at hs
      obtain ⟨rfl, rfl⟩ := hs
      exact .popLoadTail _ i memory tail hq hload
  | popLoadHead i =>
      cases hq : s.consumer <;> simp only [next, hq, reduceCtorEq] at hs
      obtain ⟨⟨memory, head⟩, hload, hs⟩ := Option.map_eq_some_iff.mp hs
      dsimp only at hs
      split at hs <;> simp only [Prod.mk.injEq] at hs <;> obtain ⟨rfl, rfl⟩ := hs
      · next hempty =>
          subst hempty
          exact .popEmpty _ _ i memory hq hload
      · next hsome => exact .popSome _ _ i memory head hq hload hsome
  | popCopy k =>
      cases hq : s.consumer <;> simp only [next, hq, Option.some.injEq, Prod.mk.injEq,
        reduceCtorEq] at hs
      obtain ⟨rfl, rfl⟩ := hs
      exact .popCopy _ _ _ k hq
  | popStoreTail =>
      cases hq : s.consumer <;> simp only [next, hq, reduceCtorEq] at hs
      split at hs
      · next hall =>
          obtain ⟨memory, hstore, hs⟩ := Option.map_eq_some_iff.mp hs
          simp only [Prod.mk.injEq] at hs
          obtain ⟨rfl, rfl⟩ := hs
          obtain ⟨-, rfl⟩ := Memory.store_eq_some_iff.mp hstore
          exact .popStoreTail _ _ _ hq hall
      · cases hs

end Orders

end ElephantShrew.Telemetry.Spsc
