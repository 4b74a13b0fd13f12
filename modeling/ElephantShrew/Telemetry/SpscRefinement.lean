import ElephantShrew.Telemetry.SpscQueue

/-!
# The queue is a bounded queue

The slots between `tail` and `head`, read around the circle, are the stored
elements.  The invariant says what each party knows at each of its program
points; with it every step is either invisible in the stored elements or a
step of the bounded queue, so that every schedule refines the bounded queue.
-/

namespace ElephantShrew.Telemetry

open ElephantShrew.Verified

namespace Spsc

variable {n : Nat} {Cell : Type}

/-! ## The circle of slots -/

/-- The slot `i` places past a slot, `i` at most once around. -/
def wrap (c : Capacity) (i : Nat) : Nat := if i < c.slots then i else i - c.slots

/-- How many slots there are from `tail` to `head`. -/
def distance (c : Capacity) (head tail : Nat) : Nat :=
  if tail ≤ head then head - tail else head + c.slots - tail

/-- The stored elements, oldest first. -/
def State.stored (c : Capacity) (s : State n Cell) : List (Fin n → Cell) :=
  (List.range (distance c s.head s.tail)).map fun i => s.slots (wrap c (s.tail + i))

@[simp] theorem length_stored (c : Capacity) (s : State n Cell) :
    (s.stored c).length = distance c s.head s.tail := by
  simp [State.stored]

/-- Below the capacity `Next` never meets the end of `size_t`. -/
theorem next_eq (c : Capacity) {i : Nat} (h : i < c.slots) : c.next i = wrap c (i + 1) := by
  have hlt := c.lt
  unfold Capacity.slots at h
  have hmod : (i + 1) % (c.sizeMax + 1) = i + 1 := Nat.mod_eq_of_lt (by omega)
  rw [Capacity.next, hmod, wrap, Capacity.slots]
  split <;> split <;> omega

theorem wrap_lt (c : Capacity) {i : Nat} (h : i < 2 * c.slots) : wrap c i < c.slots := by
  unfold wrap
  split <;> omega

/-- One more slot is in use after `head` moves. -/
theorem distance_next_head (c : Capacity) {head tail : Nat} (hh : head < c.slots)
    (ht : tail < c.slots) (hne : wrap c (head + 1) ≠ tail) :
    distance c (wrap c (head + 1)) tail = distance c head tail + 1 ∧
      distance c head tail < c.capacity := by
  unfold distance wrap Capacity.slots at *
  split_ifs at * <;> omega

theorem distance_eq_capacity (c : Capacity) {head tail : Nat} (hh : head < c.slots)
    (ht : tail < c.slots) (h : wrap c (head + 1) = tail) : distance c head tail = c.capacity := by
  unfold distance wrap Capacity.slots at *
  split_ifs at * <;> omega

/-- One slot less is in use after `tail` moves. -/
theorem distance_next_tail (c : Capacity) {head tail : Nat} (hh : head < c.slots)
    (ht : tail < c.slots) (hne : tail ≠ head) :
    distance c head tail = distance c head (wrap c (tail + 1)) + 1 := by
  unfold distance wrap Capacity.slots at *
  split_ifs at * <;> omega

theorem wrap_tail_add_distance (c : Capacity) {head tail : Nat} (hh : head < c.slots)
    (ht : tail < c.slots) : wrap c (tail + distance c head tail) = head := by
  unfold distance wrap
  split_ifs <;> omega

/-- The slots in use are not the one at `head`. -/
theorem wrap_ne_head (c : Capacity) {head tail i : Nat} (ht : tail < c.slots)
    (hi : i < distance c head tail) : wrap c (tail + i) ≠ head := by
  unfold distance wrap at *
  split_ifs at * <;> omega

/-- Moving on from the next slot is moving on by one more. -/
theorem wrap_wrap_succ (c : Capacity) {tail i : Nat} (ht : tail < c.slots) (hi : i < c.capacity) :
    wrap c (wrap c (tail + 1) + i) = wrap c (tail + (i + 1)) := by
  unfold wrap Capacity.slots at *
  split_ifs <;> omega

theorem wrap_succ_inj (c : Capacity) {i j : Nat} (hi : i < c.slots) (hj : j < c.slots)
    (h : wrap c (i + 1) = wrap c (j + 1)) : i = j := by
  unfold wrap at h
  split_ifs at h <;> omega

/-! ## The invariant -/

/-- What the producer knows where it is. -/
def ProducerOk (c : Capacity) (s : State n Cell) : Prop :=
  match s.producer with
  | .idle => True
  | .called _ => True
  | .loadedHead _ head nxt => head = s.head ∧ nxt = wrap c (s.head + 1)
  | .copying value head nxt done =>
      head = s.head ∧ nxt = wrap c (s.head + 1) ∧ wrap c (s.head + 1) ≠ s.tail ∧
        ∀ k, done k = true → s.slots s.head k = value k

/-- What the consumer knows where it is. -/
def ConsumerOk (s : State n Cell) : Prop :=
  match s.consumer with
  | .idle => True
  | .called _ => True
  | .loadedTail _ tail => tail = s.tail
  | .copying value tail done =>
      tail = s.tail ∧ s.tail ≠ s.head ∧ ∀ k, done k = true → value k = s.slots s.tail k

/-- The invariant of the queue. -/
structure Inv (c : Capacity) (s : State n Cell) : Prop where
  head : s.head < c.slots
  tail : s.tail < c.slots
  producer : ProducerOk c s
  consumer : ConsumerOk s

theorem Inv.init (c : Capacity) {s : State n Cell} (h : Initial s) : Inv c s := by
  obtain ⟨hh, ht, hp, hc⟩ := h
  refine ⟨?_, ?_, ?_, ?_⟩
  · rw [hh]
    exact Nat.succ_pos _
  · rw [ht]
    exact Nat.succ_pos _
  · rw [ProducerOk, hp]
    trivial
  · rw [ConsumerOk, hc]
    trivial

/-! ## Steps -/

/-- What a step does to the stored elements: nothing, or what the abstract
queue does at the event it returns with. -/
def Follows (c : Capacity) (l : List (Fin n → Cell)) (l' : List (Fin n → Cell)) :
    Option (QueueEvent (Fin n → Cell)) → Prop
  | none => l' = l
  | some e => Fifo.Step c.capacity l e l'

variable {c : Capacity} {s s' : State n Cell} {e : Option (QueueEvent (Fin n → Cell))}

/-- A complete copy is the element. -/
theorem eq_of_done {u v : Fin n → Cell} {done : Fin n → Bool} (hall : ∀ k, done k = true)
    (h : ∀ k, done k = true → u k = v k) : u = v :=
  funext fun k => h k (hall k)

/-- One more cell copied. -/
theorem update_done {u v : Fin n → Cell} {done : Fin n → Bool}
    (h : ∀ k, done k = true → u k = v k) (j k : Fin n)
    (hk : Function.update done j true k = true) : Function.update u j (v j) k = v k := by
  by_cases hkj : k = j
  · subst hkj
    rw [Function.update_self]
  · rw [Function.update_of_ne hkj] at hk ⊢
    exact h k hk

/-- Writing the slot at `head` leaves the stored elements alone. -/
theorem stored_update_head (h : Inv c s) (v : Fin n → Cell) (p : Producer n Cell) :
    State.stored c { s with slots := Function.update s.slots s.head v, producer := p } =
      s.stored c := by
  refine List.map_congr_left fun i hi => ?_
  rw [List.mem_range] at hi
  exact Function.update_of_ne (wrap_ne_head c h.tail hi) _ _

/-- `head` moves past a complete element. -/
theorem stored_next_head (h : Inv c s) (hne : wrap c (s.head + 1) ≠ s.tail)
    (p : Producer n Cell) :
    State.stored c { s with head := wrap c (s.head + 1), producer := p } =
      s.stored c ++ [s.slots s.head] := by
  have hdist := (distance_next_head c h.head h.tail hne).1
  unfold State.stored
  rw [hdist, List.range_succ, List.map_append, List.map_singleton,
    wrap_tail_add_distance c h.head h.tail]

/-- `tail` moves past the oldest element. -/
theorem stored_next_tail (h : Inv c s) (hne : s.tail ≠ s.head) (q : Consumer n Cell) :
    s.stored c = s.slots s.tail ::
      State.stored c { s with tail := wrap c (s.tail + 1), consumer := q } := by
  have hdist := distance_next_tail c h.head h.tail hne
  have hle : distance c s.head s.tail ≤ c.capacity := by
    have hh := h.head
    have ht := h.tail
    unfold distance Capacity.slots at *
    split <;> omega
  unfold State.stored
  dsimp only
  rw [hdist, List.range_succ_eq_map, List.map_cons, List.map_map, Nat.add_zero, wrap,
    if_pos h.tail]
  congr 1
  refine List.map_congr_left fun i hi => ?_
  rw [List.mem_range] at hi
  rw [Function.comp_apply, wrap_wrap_succ c h.tail (by omega)]

/-- A step that moves no index and writes no slot keeps what the other party
knows. -/
theorem Inv.of_producer (h : Inv c s) {p : Producer n Cell}
    (hp : ProducerOk c { s with producer := p }) : Inv c { s with producer := p } :=
  ⟨h.head, h.tail, hp, h.consumer⟩

theorem Inv.of_consumer (h : Inv c s) {q : Consumer n Cell}
    (hq : ConsumerOk { s with consumer := q }) : Inv c { s with consumer := q } :=
  ⟨h.head, h.tail, h.producer, hq⟩

/-- Everything a step can be. -/
inductive Steps (c : Capacity) (s : State n Cell) :
    Action n Cell → State n Cell → Option (QueueEvent (Fin n → Cell)) → Prop
  | tryPush (value : Fin n → Cell) (h : s.producer = .idle) :
      Steps c s (.tryPush value) { s with producer := .called value } none
  | pushLoadHead (value : Fin n → Cell) (h : s.producer = .called value) :
      Steps c s .pushLoadHead
        { s with producer := .loadedHead value s.head (c.next s.head) } none
  | pushFull (value : Fin n → Cell) (head : Nat) (h : s.producer = .loadedHead value head s.tail) :
      Steps c s .pushLoadTail { s with producer := .idle } (some (.push value false))
  | pushRoom (value : Fin n → Cell) (head nxt : Nat) (h : s.producer = .loadedHead value head nxt)
      (hroom : nxt ≠ s.tail) :
      Steps c s .pushLoadTail { s with producer := .copying value head nxt fun _ => false } none
  | pushCopy (value : Fin n → Cell) (head nxt : Nat) (done : Fin n → Bool) (k : Fin n)
      (h : s.producer = .copying value head nxt done) :
      Steps c s (.pushCopy k)
        { s with
          slots := Function.update s.slots head (Function.update (s.slots head) k (value k))
          producer := .copying value head nxt (Function.update done k true) } none
  | pushStoreHead (value : Fin n → Cell) (head nxt : Nat) (done : Fin n → Bool)
      (h : s.producer = .copying value head nxt done) (hall : ∀ k, done k = true) :
      Steps c s .pushStoreHead { s with head := nxt, producer := .idle } (some (.push value true))
  | tryPop (value : Fin n → Cell) (h : s.consumer = .idle) :
      Steps c s (.tryPop value) { s with consumer := .called value } none
  | popLoadTail (value : Fin n → Cell) (h : s.consumer = .called value) :
      Steps c s .popLoadTail { s with consumer := .loadedTail value s.tail } none
  | popEmpty (value : Fin n → Cell) (h : s.consumer = .loadedTail value s.head) :
      Steps c s .popLoadHead { s with consumer := .idle } (some (.pop none))
  | popSome (value : Fin n → Cell) (tail : Nat) (h : s.consumer = .loadedTail value tail)
      (hsome : tail ≠ s.head) :
      Steps c s .popLoadHead { s with consumer := .copying value tail fun _ => false } none
  | popCopy (value : Fin n → Cell) (tail : Nat) (done : Fin n → Bool) (k : Fin n)
      (h : s.consumer = .copying value tail done) :
      Steps c s (.popCopy k)
        { s with
          consumer := .copying (Function.update value k (s.slots tail k)) tail
            (Function.update done k true) } none
  | popStoreTail (value : Fin n → Cell) (tail : Nat) (done : Fin n → Bool)
      (h : s.consumer = .copying value tail done) (hall : ∀ k, done k = true) :
      Steps c s .popStoreTail { s with tail := c.next tail, consumer := .idle }
        (some (.pop (some value)))

theorem Steps.of_next {a : Action n Cell} (hs : next c s a = some (s', e)) :
    Steps c s a s' e := by
  cases a with
  | tryPush value =>
      cases hp : s.producer <;> simp only [next, hp, Option.some.injEq, Prod.mk.injEq,
        reduceCtorEq] at hs
      obtain ⟨rfl, rfl⟩ := hs
      exact .tryPush value hp
  | pushLoadHead =>
      cases hp : s.producer <;> simp only [next, hp, Option.some.injEq, Prod.mk.injEq,
        reduceCtorEq] at hs
      obtain ⟨rfl, rfl⟩ := hs
      exact .pushLoadHead _ hp
  | pushLoadTail =>
      cases hp : s.producer <;> simp only [next, hp, reduceCtorEq] at hs
      split at hs <;> simp only [Option.some.injEq, Prod.mk.injEq] at hs
      · next hfull =>
          obtain ⟨rfl, rfl⟩ := hs
          rw [hfull] at hp
          exact .pushFull _ _ hp
      · next hroom =>
          obtain ⟨rfl, rfl⟩ := hs
          exact .pushRoom _ _ _ hp hroom
  | pushCopy k =>
      cases hp : s.producer <;> simp only [next, hp, Option.some.injEq, Prod.mk.injEq,
        reduceCtorEq] at hs
      obtain ⟨rfl, rfl⟩ := hs
      exact .pushCopy _ _ _ _ k hp
  | pushStoreHead =>
      cases hp : s.producer <;> simp only [next, hp, reduceCtorEq] at hs
      split at hs <;> simp only [Option.some.injEq, Prod.mk.injEq, reduceCtorEq] at hs
      next hall =>
        obtain ⟨rfl, rfl⟩ := hs
        exact .pushStoreHead _ _ _ _ hp hall
  | tryPop value =>
      cases hq : s.consumer <;> simp only [next, hq, Option.some.injEq, Prod.mk.injEq,
        reduceCtorEq] at hs
      obtain ⟨rfl, rfl⟩ := hs
      exact .tryPop value hq
  | popLoadTail =>
      cases hq : s.consumer <;> simp only [next, hq, Option.some.injEq, Prod.mk.injEq,
        reduceCtorEq] at hs
      obtain ⟨rfl, rfl⟩ := hs
      exact .popLoadTail _ hq
  | popLoadHead =>
      cases hq : s.consumer <;> simp only [next, hq, reduceCtorEq] at hs
      split at hs <;> simp only [Option.some.injEq, Prod.mk.injEq] at hs
      · next hempty =>
          obtain ⟨rfl, rfl⟩ := hs
          rw [hempty] at hq
          exact .popEmpty _ hq
      · next hsome =>
          obtain ⟨rfl, rfl⟩ := hs
          exact .popSome _ _ hq hsome
  | popCopy k =>
      cases hq : s.consumer <;> simp only [next, hq, Option.some.injEq, Prod.mk.injEq,
        reduceCtorEq] at hs
      obtain ⟨rfl, rfl⟩ := hs
      exact .popCopy _ _ _ k hq
  | popStoreTail =>
      cases hq : s.consumer <;> simp only [next, hq, reduceCtorEq] at hs
      split at hs <;> simp only [Option.some.injEq, Prod.mk.injEq, reduceCtorEq] at hs
      next hall =>
        obtain ⟨rfl, rfl⟩ := hs
        exact .popStoreTail _ _ _ hq hall

/-- A full queue refuses. -/
theorem Inv.pushFull (h : Inv c s) {value : Fin n → Cell} {head : Nat}
    (hp : s.producer = .loadedHead value head s.tail) :
    Fifo.Step c.capacity (s.stored c) (.push value false)
      (State.stored c { s with producer := .idle }) := by
  have hprod := h.producer
  simp only [ProducerOk, hp] at hprod
  apply Fifo.Step.full
  rw [length_stored]
  exact distance_eq_capacity c h.head h.tail hprod.2.symm

/-- A cell is copied in; the consumer never reads the slot it goes to. -/
theorem Inv.pushCopy (h : Inv c s) {value : Fin n → Cell} {head nxt : Nat} {done : Fin n → Bool}
    (hp : s.producer = .copying value head nxt done) (k : Fin n) {s' : State n Cell}
    (hs' : s' = { s with
      slots := Function.update s.slots head (Function.update (s.slots head) k (value k))
      producer := .copying value head nxt (Function.update done k true) }) :
    Inv c s' ∧ s'.stored c = s.stored c := by
  subst hs'
  have hprod := h.producer
  simp only [ProducerOk, hp] at hprod
  obtain ⟨rfl, rfl, hne, hdone⟩ := hprod
  refine ⟨⟨h.head, h.tail, ⟨rfl, rfl, hne, ?_⟩, ?_⟩, stored_update_head h _ _⟩
  · intro j hj
    dsimp only
    rw [Function.update_self]
    exact update_done hdone k j hj
  · have hcons := h.consumer
    unfold ConsumerOk at hcons ⊢
    dsimp only
    split at hcons
    · trivial
    · trivial
    · exact hcons
    · refine ⟨hcons.1, hcons.2.1, fun j hj => ?_⟩
      rw [Function.update_of_ne hcons.2.1]
      exact hcons.2.2 j hj

/-- The element is stored when `head` moves past it. -/
theorem Inv.pushStoreHead (h : Inv c s) {value : Fin n → Cell} {head nxt : Nat}
    {done : Fin n → Bool} (hp : s.producer = .copying value head nxt done)
    (hall : ∀ k, done k = true) {s' : State n Cell}
    (hs' : s' = { s with head := nxt, producer := .idle }) :
    Inv c s' ∧ Fifo.Step c.capacity (s.stored c) (.push value true) (s'.stored c) := by
  subst hs'
  have hprod := h.producer
  simp only [ProducerOk, hp] at hprod
  obtain ⟨rfl, rfl, hne, hdone⟩ := hprod
  have hdist := distance_next_head c h.head h.tail hne
  refine ⟨⟨wrap_lt c (by have := h.head; omega), h.tail, trivial, ?_⟩, ?_⟩
  · have hcons := h.consumer
    unfold ConsumerOk at hcons ⊢
    dsimp only
    split at hcons
    · trivial
    · trivial
    · exact hcons
    · exact ⟨hcons.1, fun he => hne he.symm, hcons.2.2⟩
  · rw [stored_next_head h hne, eq_of_done hall hdone]
    exact .push value (by rw [length_stored]; exact hdist.2)

/-- An empty queue has nothing to give. -/
theorem Inv.popEmpty (h : Inv c s) {value : Fin n → Cell}
    (hq : s.consumer = .loadedTail value s.head) :
    Fifo.Step c.capacity (s.stored c) (.pop none)
      (State.stored c { s with consumer := .idle }) := by
  have hcons := h.consumer
  simp only [ConsumerOk, hq] at hcons
  have hnil : s.stored c = [] := by
    rw [← List.length_eq_zero_iff, length_stored, hcons, distance]
    simp
  have hnil' : State.stored c { s with consumer := .idle } = [] := hnil
  rw [hnil, hnil']
  exact .empty

/-- The element leaves when `tail` moves past it, whole. -/
theorem Inv.popStoreTail (h : Inv c s) {value : Fin n → Cell} {tail : Nat} {done : Fin n → Bool}
    (hq : s.consumer = .copying value tail done) (hall : ∀ k, done k = true) {s' : State n Cell}
    (hs' : s' = { s with tail := c.next tail, consumer := .idle }) :
    Inv c s' ∧ Fifo.Step c.capacity (s.stored c) (.pop (some value)) (s'.stored c) := by
  subst hs'
  have hcons := h.consumer
  simp only [ConsumerOk, hq] at hcons
  obtain ⟨rfl, hne, hdone⟩ := hcons
  rw [next_eq c h.tail]
  refine ⟨⟨h.head, wrap_lt c (by have := h.tail; omega), ?_, trivial⟩, ?_⟩
  · -- room stays room when the consumer makes more of it
    have hprod := h.producer
    unfold ProducerOk at hprod ⊢
    dsimp only
    split at hprod
    · trivial
    · trivial
    · exact hprod
    · refine ⟨hprod.1, hprod.2.1, fun he => hne ?_, hprod.2.2.2⟩
      exact (wrap_succ_inj c h.head h.tail he).symm
  · rw [stored_next_tail h hne .idle, ← eq_of_done hall hdone]
    exact .pop value _

/-- **One step of either party** keeps the invariant and is a step of the
bounded queue. -/
theorem Inv.step (h : Inv c s) {a : Action n Cell} (hs : next c s a = some (s', e)) :
    Inv c s' ∧ Follows c (s.stored c) (s'.stored c) e := by
  cases Steps.of_next hs with
  | tryPush value hp => exact ⟨h.of_producer trivial, rfl⟩
  | pushLoadHead value hp => exact ⟨h.of_producer ⟨rfl, next_eq c h.head⟩, rfl⟩
  | pushFull value head hp => exact ⟨h.of_producer trivial, h.pushFull hp⟩
  | pushRoom value head nxt hp hroom =>
      have hprod := h.producer
      simp only [ProducerOk, hp] at hprod
      obtain ⟨rfl, rfl⟩ := hprod
      exact ⟨h.of_producer ⟨rfl, rfl, hroom, fun _ hk => absurd hk Bool.false_ne_true⟩, rfl⟩
  | pushCopy value head nxt done k hp => exact h.pushCopy hp k rfl
  | pushStoreHead value head nxt done hp hall => exact h.pushStoreHead hp hall rfl
  | tryPop value hq => exact ⟨h.of_consumer trivial, rfl⟩
  | popLoadTail value hq => exact ⟨h.of_consumer rfl, rfl⟩
  | popEmpty value hq => exact ⟨h.of_consumer trivial, h.popEmpty hq⟩
  | popSome value tail hq hsome =>
      have hcons := h.consumer
      simp only [ConsumerOk, hq] at hcons
      subst hcons
      exact ⟨h.of_consumer ⟨rfl, hsome, fun _ hk => absurd hk Bool.false_ne_true⟩, rfl⟩
  | popCopy value tail done k hq =>
      have hcons := h.consumer
      simp only [ConsumerOk, hq] at hcons
      obtain ⟨rfl, hne, hdone⟩ := hcons
      exact ⟨h.of_consumer ⟨rfl, hne, fun j hj => update_done hdone k j hj⟩, rfl⟩
  | popStoreTail value tail done hq hall => exact h.popStoreTail hq hall rfl

/-! ## Runs -/

/-- **The queue refines the bounded queue.** -/
theorem simulation (n : Nat) (Cell : Type) (c : Capacity) :
    System.Simulation (system n Cell c) (Fifo.system (Fin n → Cell) c.capacity) Prod.snd
      fun s l => Inv c s ∧ l = s.stored c where
  init s hs := by
    refine ⟨[], rfl, Inv.init c hs, ?_⟩
    rw [eq_comm, ← List.length_eq_zero_iff, length_stored, hs.1, hs.2.1]
    rfl
  silent := by
    rintro s l ⟨a, e⟩ s' ⟨hinv, rfl⟩ hstep rfl
    obtain ⟨hinv', hfollows⟩ := hinv.step hstep
    exact ⟨hinv', hfollows.symm⟩
  visible := by
    rintro s l ⟨a, e⟩ s' ev ⟨hinv, rfl⟩ hstep rfl
    obtain ⟨hinv', hfollows⟩ := hinv.step hstep
    exact ⟨s'.stored c, hfollows, hinv', rfl⟩

theorem run_inv {tr : List (Action n Cell × Option (QueueEvent (Fin n → Cell)))}
    (h : (system n Cell c).Run tr s) :
    Inv c s ∧ (Fifo.system (Fin n → Cell) c.capacity).Run (System.events tr) (s.stored c) := by
  obtain ⟨l, hrun, hinv, rfl⟩ := (simulation n Cell c).run h
  exact ⟨hinv, hrun⟩

/-- The two parties are copying into and out of one slot. -/
def State.Collides (s : State n Cell) : Prop :=
  ∃ value head nxt done value' tail done', s.producer = .copying value head nxt done ∧
    s.consumer = .copying value' tail done' ∧ head = tail

/-- A push refused, and a pop with nothing to give, each with the state it was
decided in. -/
theorem Inv.push_refused (h : Inv c s) {a : Action n Cell} {value : Fin n → Cell}
    (hs : next c s a = some (s', some (.push value false))) :
    (s.stored c).length = c.capacity := by
  have hstep : Fifo.Step c.capacity (s.stored c) (.push value false) (s'.stored c) :=
    (h.step hs).2
  generalize s.stored c = l at hstep
  generalize s'.stored c = l' at hstep
  cases hstep with
  | full _ hfull => exact hfull

theorem Inv.pop_refused (h : Inv c s) {a : Action n Cell}
    (hs : next c s a = some (s', some (.pop none))) : s.stored c = [] := by
  have hstep : Fifo.Step c.capacity (s.stored c) (.pop none) (s'.stored c) := (h.step hs).2
  generalize s.stored c = l at hstep
  generalize s'.stored c = l' at hstep
  cases hstep with
  | empty => rfl

theorem Inv.not_collides (h : Inv c s) : ¬ s.Collides := by
  rintro ⟨value, head, nxt, done, value', tail, done', hp, hq, heq⟩
  have hprod := h.producer
  have hcons := h.consumer
  simp only [ProducerOk, hp] at hprod
  simp only [ConsumerOk, hq] at hcons
  exact hcons.2.1 (by rw [← hcons.1, ← heq, hprod.1])

/-- A refusal is returned from the step that loads the other party's index. -/
theorem next_push_refused {a : Action n Cell} {value : Fin n → Cell}
    (hs : next c s a = some (s', some (.push value false))) : a = .pushLoadTail := by
  cases Steps.of_next hs with
  | pushFull _ _ _ => rfl

theorem next_pop_refused {a : Action n Cell} (hs : next c s a = some (s', some (.pop none))) :
    a = .popLoadHead := by
  cases Steps.of_next hs with
  | popEmpty _ _ => rfl

/-- The value the producer is pushing. -/
def Producer.value : Producer n Cell → Option (Fin n → Cell)
  | .idle => none
  | .called value => some value
  | .loadedHead value _ _ => some value
  | .copying value _ _ _ => some value

/-- A call of `TryPush` returns nothing yet. -/
theorem next_tryPush {value : Fin n → Cell} (hs : next c s (.tryPush value) = some (s', e)) :
    s.producer.value = none ∧ s'.producer.value = some value ∧ e = none := by
  cases Steps.of_next hs with
  | tryPush _ hp =>
      rw [hp]
      exact ⟨rfl, rfl, rfl⟩

/-- The two parties apart: a step is the producer's, who pushes the value it
was called with, or the consumer's, who leaves the producer alone. -/
inductive PartyStep (s s' : State n Cell) :
    Action n Cell → Option (QueueEvent (Fin n → Cell)) → Prop
  | tryPush (value : Fin n → Cell) (h : s.producer.value = none)
      (h' : s'.producer.value = some value) : PartyStep s s' (.tryPush value) none
  | pushing {a : Action n Cell} (value : Fin n → Cell) (h : s.producer.value = some value)
      (h' : s'.producer.value = some value) : PartyStep s s' a none
  | pushed {a : Action n Cell} (value : Fin n → Cell) (accepted : Bool)
      (h : s.producer.value = some value) (h' : s'.producer.value = none) :
      PartyStep s s' a (some (.push value accepted))
  | consumer {a : Action n Cell} (h : s'.producer = s.producer) : PartyStep s s' a none
  | popped {a : Action n Cell} (r : Option (Fin n → Cell)) (h : s'.producer = s.producer) :
      PartyStep s s' a (some (.pop r))

theorem next_party {a : Action n Cell} (hs : next c s a = some (s', e)) : PartyStep s s' a e := by
  cases Steps.of_next hs with
  | tryPush value hp => exact .tryPush value (by rw [hp]; rfl) rfl
  | pushLoadHead value hp => exact .pushing value (by rw [hp]; rfl) rfl
  | pushFull value _ hp => exact .pushed value false (by rw [hp]; rfl) rfl
  | pushRoom value _ _ hp _ => exact .pushing value (by rw [hp]; rfl) rfl
  | pushCopy value _ _ _ _ hp => exact .pushing value (by rw [hp]; rfl) rfl
  | pushStoreHead value _ _ _ hp _ => exact .pushed value true (by rw [hp]; rfl) rfl
  | popEmpty _ _ => exact .popped none rfl
  | popStoreTail value _ _ _ _ => exact .popped (some value) rfl
  | tryPop | popLoadTail | popSome | popCopy => exact .consumer rfl

/-- What it means for the queue, in state `s` after the schedule `tr`, to be a
linearizable bounded queue.  An operation takes effect in the step it returns
from, which lies between its call and its return. -/
structure Linearizable (c : Capacity)
    (tr : List (Action n Cell × Option (QueueEvent (Fin n → Cell)))) (s : State n Cell) :
    Prop where
  /-- the returns, in order, are those of a bounded queue that now stores what
  the slots store -/
  returns : (Fifo.system (Fin n → Cell) c.capacity).Run (System.events tr) (s.stored c)
  /-- the values popped are a first part of the values pushed -/
  order : Fifo.popped (System.events tr) <+: Fifo.pushed (System.events tr)
  /-- the rest is stored -/
  rest : Fifo.pushed (System.events tr) = Fifo.popped (System.events tr) ++ s.stored c
  /-- a push is refused only by a full queue, at the load of `tail_` -/
  full : ∀ a value s', next c s a = some (s', some (.push value false)) →
    a = .pushLoadTail ∧ (s.stored c).length = c.capacity
  /-- a pop is refused only by an empty queue, at the load of `head_` -/
  empty : ∀ a s', next c s a = some (s', some (.pop none)) → a = .popLoadHead ∧ s.stored c = []
  /-- no slot is written and read at once -/
  apart : ¬ s.Collides

/-- **The queue is a linearizable bounded queue**, for every capacity, element
type and schedule. -/
theorem spscQueue_linearizable (n : Nat) (Cell : Type) (c : Capacity)
    (tr : List (Action n Cell × Option (QueueEvent (Fin n → Cell)))) (s : State n Cell)
    (h : (system n Cell c).Run tr s) : Linearizable c tr s := by
  obtain ⟨hinv, hrun⟩ := run_inv h
  exact
    { returns := hrun
      order := Fifo.popped_prefix_pushed hrun
      rest := Fifo.pushed_eq hrun
      full := fun _ _ _ hs => ⟨next_push_refused hs, hinv.push_refused hs⟩
      empty := fun _ _ hs => ⟨next_pop_refused hs, hinv.pop_refused hs⟩
      apart := hinv.not_collides }

/-- A queue of one slot: a push, a push it has no room for, a pop, and a pop that
finds nothing. -/
theorem spscQueue_linearizable_oneSlot :
    ∃ tr, ∃ s : State 1 Nat, Linearizable ⟨1, 255, by decide, by decide⟩ tr s ∧
      System.events tr = [.push (fun _ => 7) true, .push (fun _ => 8) false,
        .pop (some fun _ => 7), .pop none] := by
  have start : (system 1 Nat ⟨1, 255, by decide, by decide⟩).Run []
      ⟨fun _ _ => 0, 0, 0, .idle, .idle⟩ := .init ⟨rfl, rfl, rfl, rfl⟩
  have pushed := ((((start.next (.tryPush fun _ => 7) rfl).next .pushLoadHead rfl).next
    .pushLoadTail rfl).next (.pushCopy 0) rfl).next .pushStoreHead rfl
  have refused := ((pushed.next (.tryPush fun _ => 8) rfl).next .pushLoadHead rfl).next
    .pushLoadTail rfl
  have popped := ((((refused.next (.tryPop fun _ => 0) rfl).next .popLoadTail rfl).next
    .popLoadHead rfl).next (.popCopy 0) rfl).next .popStoreTail rfl
  have run := ((popped.next (.tryPop fun _ => 0) rfl).next .popLoadTail rfl).next
    .popLoadHead rfl
  refine ⟨_, _, spscQueue_linearizable 1 Nat _ _ _ run, ?_⟩
  exact congrArg (fun v => [QueueEvent.push (fun _ => 7) true, .push (fun _ => 8) false,
    .pop (some v), .pop none]) (funext fun k => by rw [Subsingleton.elim k 0]; rfl)

end Spsc

end ElephantShrew.Telemetry
