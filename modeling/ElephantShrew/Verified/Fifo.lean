import ElephantShrew.Verified.StepSystem

/-!
# The bounded first-in first-out queue

What a bounded queue is for, as a system whose states are the stored values.
An attempt to push is refused only when the queue is full, an attempt to pop
only when it is empty, and over any run the values pushed are the values
popped followed by those still stored.
-/

namespace ElephantShrew.Verified

/-- An attempt on a queue, with its outcome. -/
inductive QueueEvent (α : Type) where
  | push (v : α) (accepted : Bool)
  | pop (r : Option α)
  deriving DecidableEq, Repr

namespace Fifo

variable {α : Type}

/-- The attempts and outcomes of a queue of a given capacity. -/
inductive Step (capacity : Nat) : List α → QueueEvent α → List α → Prop
  | push {l : List α} (v : α) (h : l.length < capacity) :
      Step capacity l (.push v true) (l ++ [v])
  | full {l : List α} (v : α) (h : l.length = capacity) : Step capacity l (.push v false) l
  | pop (v : α) (l : List α) : Step capacity (v :: l) (.pop (some v)) l
  | empty : Step capacity [] (.pop none) []

theorem Step.eq_of_push {capacity : Nat} {l l' : List α} {v : α}
    (h : Step capacity l (.push v true) l') : l' = l ++ [v] := by
  cases h with
  | push _ _ => rfl

theorem Step.eq_of_pop {capacity : Nat} {l l' : List α} {v : α}
    (h : Step capacity l (.pop (some v)) l') : l = v :: l' := by
  cases h with
  | pop _ _ => rfl

/-- The queue, empty at first. -/
def system (α : Type) (capacity : Nat) : System (List α) (QueueEvent α) where
  init l := l = []
  step := Step capacity

/-- The values of the accepted pushes. -/
def pushed (es : List (QueueEvent α)) : List α :=
  es.filterMap fun e => match e with
    | .push v true => some v
    | _ => none

/-- The values of the successful pops. -/
def popped (es : List (QueueEvent α)) : List α :=
  es.filterMap fun e => match e with
    | .pop r => r
    | _ => none

@[simp] theorem pushed_nil : pushed ([] : List (QueueEvent α)) = [] := rfl

@[simp] theorem popped_nil : popped ([] : List (QueueEvent α)) = [] := rfl

@[simp] theorem pushed_append (es es' : List (QueueEvent α)) :
    pushed (es ++ es') = pushed es ++ pushed es' := List.filterMap_append

@[simp] theorem popped_append (es es' : List (QueueEvent α)) :
    popped (es ++ es') = popped es ++ popped es' := List.filterMap_append

@[simp] theorem pushed_accepted (v : α) : pushed [.push v true] = [v] := rfl

@[simp] theorem pushed_refused (v : α) : pushed [.push v false] = [] := rfl

@[simp] theorem pushed_pop (r : Option α) : pushed [.pop r] = [] := rfl

@[simp] theorem popped_push (v : α) (accepted : Bool) : popped [.push v accepted] = [] := rfl

@[simp] theorem popped_some (v : α) : popped [.pop (some v)] = [v] := rfl

@[simp] theorem popped_none : popped [.pop (none : Option α)] = [] := rfl

/-- The attempts that change the queue. -/
def successes (es : List (QueueEvent α)) : List (QueueEvent α) :=
  es.filter fun e => match e with
    | .push _ accepted => accepted
    | .pop r => r.isSome

@[simp] theorem successes_append (es es' : List (QueueEvent α)) :
    successes (es ++ es') = successes es ++ successes es' := List.filter_append _ _

/-- An attempt that fails changes nothing. -/
theorem failure {e : QueueEvent α} (h : successes [e] ≠ [e]) :
    successes [e] = [] ∧ pushed [e] = [] ∧ popped [e] = [] := by
  cases e with
  | push v accepted =>
      cases accepted with
      | true => exact absurd rfl h
      | false => exact ⟨rfl, rfl, rfl⟩
  | pop r =>
      cases r with
      | none => exact ⟨rfl, rfl, rfl⟩
      | some v => exact absurd rfl h

/-- **Nothing is lost, duplicated or reordered.** -/
theorem pushed_eq {capacity : Nat} {es : List (QueueEvent α)} {l : List α}
    (h : (system α capacity).Run es l) : pushed es = popped es ++ l := by
  apply h.invariant (P := fun es l => pushed es = popped es ++ l)
  · rintro l rfl
    rfl
  · rintro es l e l' hl hstep
    rw [pushed_append, popped_append, hl]
    cases hstep with
    | push v h => simp
    | full v h => simp
    | pop v l => simp
    | empty => simp

theorem popped_prefix_pushed {capacity : Nat} {es : List (QueueEvent α)} {l : List α}
    (h : (system α capacity).Run es l) : popped es <+: pushed es :=
  ⟨l, (pushed_eq h).symm⟩

end Fifo

end ElephantShrew.Verified
