import ElephantShrew.Telemetry.SpscRefinement

/-!
# Calls that run to their end

Nothing in the queue waits: a `TryPush` or `TryPop` that is left alone returns
after one step for each cell and a few more.  With both parties at rest the
effect of a whole call is that of the bounded queue.
-/

namespace ElephantShrew.Telemetry.Spsc

open ElephantShrew.Verified

variable {n : Nat} {Cell : Type} {c : Capacity} {s s' : State n Cell}

/-- A step that returns nothing yet. -/
def quiet (c : Capacity) (s : State n Cell) (a : Action n Cell) : Option (State n Cell) :=
  match next c s a with
  | some (s', none) => some s'
  | _ => none

theorem quiet_eq_some {a : Action n Cell} (h : next c s a = some (s', none)) :
    quiet c s a = some s' := by
  rw [quiet, h]

theorem next_of_quiet {a : Action n Cell} (h : quiet c s a = some s') :
    next c s a = some (s', none) := by
  unfold quiet at h
  split at h
  · next s₁ hs =>
      injection h with h
      rw [hs, h]
  · cases h

/-- Nothing is stored or taken before a call returns. -/
theorem Inv.quietly (h : Inv c s) {as : List (Action n Cell)}
    (hs : as.foldlM (quiet c) s = some s') : Inv c s' ∧ s'.stored c = s.stored c := by
  induction as generalizing s with
  | nil =>
      injection hs with hs
      rw [← hs]
      exact ⟨h, rfl⟩
  | cons a as ih =>
      rw [List.foldlM_cons] at hs
      obtain ⟨s₁, ha, hs⟩ := Option.bind_eq_some_iff.mp hs
      obtain ⟨hinv, hstored⟩ := h.step (next_of_quiet ha)
      obtain ⟨hinv', hstored'⟩ := ih hinv hs
      exact ⟨hinv', hstored'.trans hstored⟩

/-- The producer copies cells. -/
theorem quietly_pushCopy {value : Fin n → Cell} {head nxt : Nat} {done : Fin n → Bool}
    (hp : s.producer = .copying value head nxt done) (ks : List (Fin n)) :
    ∃ s' done', (ks.map Action.pushCopy).foldlM (quiet c) s = some s' ∧
      s'.producer = .copying value head nxt done' ∧ s'.consumer = s.consumer ∧
      ∀ k, done k = true ∨ k ∈ ks → done' k = true := by
  induction ks generalizing s done with
  | nil => exact ⟨s, done, rfl, hp, rfl, fun k hk => by simpa using hk⟩
  | cons j ks ih =>
      have hstep : quiet c s (.pushCopy j) = some { s with
          slots := Function.update s.slots head (Function.update (s.slots head) j (value j))
          producer := .copying value head nxt (Function.update done j true) } := by
        apply quiet_eq_some
        simp [next, hp]
      obtain ⟨s', done', hs, hp', hq', hdone⟩ := ih (s := { s with
        slots := Function.update s.slots head (Function.update (s.slots head) j (value j))
        producer := .copying value head nxt (Function.update done j true) }) rfl
      refine ⟨s', done', ?_, hp', hq', fun k hk => hdone k ?_⟩
      · rw [List.map_cons, List.foldlM_cons, hstep]
        exact hs
      · by_cases hkj : k = j
        · rw [hkj, Function.update_self]
          exact Or.inl rfl
        · rw [Function.update_of_ne hkj]
          simpa [hkj] using hk

/-- The consumer copies cells. -/
theorem quietly_popCopy {value : Fin n → Cell} {tail : Nat} {done : Fin n → Bool}
    (hq : s.consumer = .copying value tail done) (ks : List (Fin n)) :
    ∃ s' value' done', (ks.map Action.popCopy).foldlM (quiet c) s = some s' ∧
      s'.consumer = .copying value' tail done' ∧ s'.producer = s.producer ∧
      ∀ k, done k = true ∨ k ∈ ks → done' k = true := by
  induction ks generalizing s value done with
  | nil => exact ⟨s, value, done, rfl, hq, rfl, fun k hk => by simpa using hk⟩
  | cons j ks ih =>
      have hstep : quiet c s (.popCopy j) = some { s with
          consumer := .copying (Function.update value j (s.slots tail j)) tail
            (Function.update done j true) } := by
        apply quiet_eq_some
        simp [next, hq]
      obtain ⟨s', value', done', hs, hq', hp', hdone⟩ := ih (s := { s with
        consumer := .copying (Function.update value j (s.slots tail j)) tail
          (Function.update done j true) }) rfl
      refine ⟨s', value', done', ?_, hq', hp', fun k hk => hdone k ?_⟩
      · rw [List.map_cons, List.foldlM_cons, hstep]
        exact hs
      · by_cases hkj : k = j
        · rw [hkj, Function.update_self]
          exact Or.inl rfl
        · rw [Function.update_of_ne hkj]
          simpa [hkj] using hk

/-! ## Whole calls -/

/-- Neither party is in a call, and these elements are stored. -/
structure Resting (c : Capacity) (s : State n Cell) (l : List (Fin n → Cell)) : Prop where
  inv : Inv c s
  producer : s.producer = .idle
  consumer : s.consumer = .idle
  stored : s.stored c = l

theorem Resting.init (h : Initial s) : Resting c s [] := by
  refine ⟨.init c h, h.2.2.1, h.2.2.2, ?_⟩
  rw [← List.length_eq_zero_iff, length_stored, h.1, h.2.1]
  rfl

/-- The call of an operation, its steps up to the last, and the last. -/
def Whole (c : Capacity) (s : State n Cell) (call : Action n Cell) (inside : List (Action n Cell))
    (last : Action n Cell) (s' : State n Cell) (e : QueueEvent (Fin n → Cell)) : Prop :=
  ∃ s₁ s₂, next c s call = some (s₁, none) ∧ inside.foldlM (quiet c) s₁ = some s₂ ∧
    next c s₂ last = some (s', some e)

/-- The abstract queue takes one step at the return of a call. -/
theorem Inv.whole (h : Inv c s) {call last : Action n Cell} {inside : List (Action n Cell)}
    {e : QueueEvent (Fin n → Cell)} (hw : Whole c s call inside last s' e) :
    Inv c s' ∧ Fifo.Step c.capacity (s.stored c) e (s'.stored c) := by
  obtain ⟨s₁, s₂, hcall, hinside, hlast⟩ := hw
  have hcalled := h.step hcall
  have hcopied := hcalled.1.quietly hinside
  obtain ⟨hinv, hstep⟩ := hcopied.1.step hlast
  rw [hcopied.2, hcalled.2] at hstep
  exact ⟨hinv, hstep⟩

/-- A `TryPush` into a queue with room. -/
theorem Resting.push {l : List (Fin n → Cell)} (h : Resting c s l) (hroom : l.length < c.capacity)
    (value : Fin n → Cell) :
    ∃ s', Whole c s (.tryPush value)
        (.pushLoadHead :: .pushLoadTail :: (List.finRange n).map .pushCopy) .pushStoreHead s'
        (.push value true) ∧
      Resting c s' (l ++ [value]) := by
  have hnext : c.next s.head ≠ s.tail := by
    rw [next_eq c h.inv.head]
    intro heq
    have hfull := distance_eq_capacity c h.inv.head h.inv.tail heq
    rw [← length_stored, h.stored] at hfull
    omega
  obtain ⟨s₂, done, hcopies, hp, hq, hdone⟩ := quietly_pushCopy (c := c)
    (s := { s with producer := .copying value s.head (c.next s.head) fun _ => false }) rfl
    (List.finRange n)
  have hcall : next c s (.tryPush value) = some ({ s with producer := .called value }, none) := by
    simp [next, h.producer]
  have hinside : (Action.pushLoadHead :: .pushLoadTail :: (List.finRange n).map .pushCopy).foldlM
      (quiet c) { s with producer := .called value } = some s₂ := by
    simp only [List.foldlM_cons, quiet, next, hnext, if_false, Option.bind_eq_bind,
      Option.bind_some]
    exact hcopies
  have hlast : next c s₂ .pushStoreHead =
      some ({ s₂ with head := c.next s.head, producer := .idle }, some (.push value true)) := by
    simp [next, hp, hdone]
  have hwhole : Whole c s (.tryPush value)
      (.pushLoadHead :: .pushLoadTail :: (List.finRange n).map .pushCopy) .pushStoreHead
      { s₂ with head := c.next s.head, producer := .idle } (.push value true) :=
    ⟨_, s₂, hcall, hinside, hlast⟩
  obtain ⟨hinv, hstep⟩ := h.inv.whole hwhole
  refine ⟨_, hwhole, hinv, rfl, hq.trans h.consumer, ?_⟩
  rw [hstep.eq_of_push, h.stored]

/-- A `TryPush` into a full queue. -/
theorem Resting.refuse {l : List (Fin n → Cell)} (h : Resting c s l) (hfull : l.length = c.capacity)
    (value : Fin n → Cell) :
    Whole c s (.tryPush value) [.pushLoadHead] .pushLoadTail s (.push value false) := by
  have hdist : distance c s.head s.tail = c.capacity := by
    rw [← length_stored, h.stored, hfull]
  have hnext : c.next s.head = s.tail := by
    rw [next_eq c h.inv.head]
    by_contra hne
    have hlt := (distance_next_head c h.inv.head h.inv.tail hne).2
    omega
  refine ⟨{ s with producer := .called value },
    { s with producer := .loadedHead value s.head (c.next s.head) }, ?_, rfl, ?_⟩
  · simp [next, h.producer]
  · obtain ⟨slots, head, tail, producer, consumer⟩ := s
    have hp : producer = .idle := h.producer
    subst hp
    simp only [next]
    rw [if_pos hnext]

/-- A `TryPop` that finds something. -/
theorem Resting.pop {v : Fin n → Cell} {l : List (Fin n → Cell)} (h : Resting c s (v :: l))
    (value : Fin n → Cell) :
    ∃ s', Whole c s (.tryPop value)
        (.popLoadTail :: .popLoadHead :: (List.finRange n).map .popCopy) .popStoreTail s'
        (.pop (some v)) ∧
      Resting c s' l := by
  have hne : s.tail ≠ s.head := by
    intro heq
    have hlen := congrArg List.length h.stored
    rw [length_stored, heq, distance, if_pos (le_refl _), Nat.sub_self] at hlen
    cases hlen
  obtain ⟨s₂, value', done, hcopies, hq, hp, hdone⟩ := quietly_popCopy (c := c)
    (s := { s with consumer := .copying value s.tail fun _ => false }) rfl (List.finRange n)
  have hcall : next c s (.tryPop value) = some ({ s with consumer := .called value }, none) := by
    simp [next, h.consumer]
  have hinside : (Action.popLoadTail :: .popLoadHead :: (List.finRange n).map .popCopy).foldlM
      (quiet c) { s with consumer := .called value } = some s₂ := by
    simp only [List.foldlM_cons, quiet, next, hne, if_false, Option.bind_eq_bind,
      Option.bind_some]
    exact hcopies
  have hlast : next c s₂ .popStoreTail =
      some ({ s₂ with tail := c.next s.tail, consumer := .idle }, some (.pop (some value'))) := by
    simp [next, hq, hdone]
  have hwhole : Whole c s (.tryPop value)
      (.popLoadTail :: .popLoadHead :: (List.finRange n).map .popCopy) .popStoreTail
      { s₂ with tail := c.next s.tail, consumer := .idle } (.pop (some value')) :=
    ⟨_, s₂, hcall, hinside, hlast⟩
  obtain ⟨hinv, hstep⟩ := h.inv.whole hwhole
  obtain ⟨hv, hl⟩ := List.cons.inj (h.stored.symm.trans hstep.eq_of_pop)
  rw [← hv] at hwhole
  exact ⟨_, hwhole, hinv, hp.trans h.producer, rfl, hl.symm⟩

end ElephantShrew.Telemetry.Spsc
