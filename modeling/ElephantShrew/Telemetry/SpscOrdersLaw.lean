import ElephantShrew.Telemetry.SpscOrders

/-!
# The memory orders of the queue suffice

With the orders of `SpscQueue.hpp` no two accesses of a slot race, and the
attempts that succeed are a run of the bounded queue, whatever old values the
loads return.  An attempt may fail on an old value; it fails on nothing else.

Each party's accesses of a slot are released with its next index, and the other
party touches the slot only when it has acquired that index: `Released` says so
of one party, and is used once for the producer's writes and once for the
consumer's reads.
-/

namespace ElephantShrew.Telemetry.Spsc.Orders

open ElephantShrew.Verified
open ElephantShrew.Verified.ReleaseAcquire

variable {n : Nat} {Cell : Type} {c : Capacity}

/-! ## The circle -/

/-- Less than a circle apart is apart. -/
theorem mod_ne {S q p : Nat} (h : q < p) (h' : p < q + S) : q % S ≠ p % S := by
  intro heq
  have hdvd : S ∣ p - q := Nat.dvd_of_mod_eq_zero (Nat.sub_mod_eq_zero_of_mod_eq heq.symm)
  have hle := Nat.le_of_dvd (by omega) hdvd
  omega

theorem next_mod (c : Capacity) (q : Nat) : c.next (q % c.slots) = (q + 1) % c.slots := by
  have hlt := c.lt
  have hpos : 0 < c.slots := Nat.succ_pos _
  have hq : q % c.slots < c.slots := Nat.mod_lt _ hpos
  have hmod : (q % c.slots + 1) % (c.sizeMax + 1) = q % c.slots + 1 := by
    apply Nat.mod_eq_of_lt
    unfold Capacity.slots at *
    omega
  rw [Capacity.next, hmod, Nat.add_mod q 1]
  have hone : 1 % c.slots = 1 := Nat.mod_eq_of_lt (Nat.succ_lt_succ c.pos)
  rw [hone]
  split
  · next h => rw [h, Nat.mod_self]
  · next h => exact (Nat.mod_eq_of_lt (by omega)).symm

/-! ## Accesses that are released -/

/-- What `t` has accessed of a slot is known to who knows store `i` of `a`,
unless it is a slot from `i` up to `top`. -/
def Released (m : QueueMemory n Cell) (a : Index) (t : Party) (last : Nat × Fin n → Nat)
    (slots top : Nat) : Prop :=
  ∀ (i : Nat) st, (m.stores a)[i]? = some st → ∀ x, last x ≤ st.view.accesses t ∨
    ∃ q, i ≤ q ∧ q < top ∧ q % slots = x.1

variable {m : QueueMemory n Cell} {a : Index} {t : Party} {last : Nat × Fin n → Nat}
  {slots top : Nat}

theorem Released.mono (h : Released m a t last slots top) {top' : Nat} (hle : top ≤ top') :
    Released m a t last slots top' := by
  intro i st hst x
  rcases h i st hst x with hlast | ⟨q, hi, hq, hx⟩
  · exact Or.inl hlast
  · exact Or.inr ⟨q, hi, hq.trans_le hle, hx⟩

/-- Who is not told of an access is told of the slot. -/
theorem Released.known (h : Released m a t last slots top)
    {v : View Party Index} (hv : m.Valid v) {x : Nat × Fin n}
    (hx : ∀ q, v.stores a ≤ q → q < top → q % slots ≠ x.1) : last x ≤ v.accesses t := by
  have hst := List.getElem?_eq_getElem (hv.known a)
  rcases h _ _ hst x with hlast | ⟨q, hi, hq, heq⟩
  · exact hlast.trans ((hv.closed a _ _ hst (Nat.le_refl _)).accesses t)
  · exact absurd heq (hx q hi hq)

/-- `t` accesses the slot that is next to be released. -/
theorem Released.access (h : Released m a t last slots top) {q : Nat}
    (hq : (m.stores a).length ≤ q + 1) (htop : q < top) {last' : Nat × Fin n → Nat}
    (hlast : ∀ x, x.1 ≠ q % slots → last' x = last x) : Released m a t last' slots top := by
  intro i st hst x
  by_cases hx : x.1 = q % slots
  · have hi := (List.getElem?_eq_some_iff.mp hst).1
    exact Or.inr ⟨q, by omega, htop, hx.symm⟩
  · rw [hlast x hx]
    exact h i st hst x

/-- `t` releases all its accesses. -/
theorem Released.stored (h : Released m a t last slots top) (value : Nat)
    (hlast : ∀ x, last x ≤ (m.views t).accesses t) :
    Released (m.stored t a value) a t last slots top := by
  intro i st hst x
  rcases Memory.getElem?_stored hst with hold | ⟨-, -, rfl⟩
  · exact h i st hold x
  · exact Or.inl (hlast x)

/-! ## The memory of the queue -/

/-- How many pops the producer knows of. -/
def pops (m : QueueMemory n Cell) : Nat := (m.views .producer).stores .tail

/-- How many pushes the consumer knows of. -/
def pushes (m : QueueMemory n Cell) : Nat := (m.views .consumer).stores .head

/-- The memory after `ins` was pushed and `out` elements were popped. -/
structure MemoryOk (c : Capacity) (ins : List (Fin n → Cell)) (out : Nat)
    (m : QueueMemory n Cell) : Prop where
  wf : m.WellFormed Index.writer
  calm : m.raced = false
  heads : ∀ (i : Nat) st, (m.stores .head)[i]? = some st → st.value = i % c.slots
  tails : ∀ (i : Nat) st, (m.stores .tail)[i]? = some st → st.value = i % c.slots
  pushed : (m.stores .head).length = ins.length + 1
  popped : (m.stores .tail).length = out + 1
  /-- the producer pushed only what the consumer has made room for, as far as it knows -/
  room : ins.length ≤ pops m + c.capacity
  /-- the consumer popped only what it knows to be pushed -/
  seen : out ≤ pushes m
  cells : ∀ q v, out ≤ q → ins[q]? = some v → ∀ k, m.plain (q % c.slots, k) = v k
  reads : Released m .tail .consumer (fun x => m.reads x .consumer) c.slots ins.length
  writes : Released m .head .producer (fun x => m.writes x .producer) c.slots
    (pops m + c.capacity)
  noReads : ∀ x, m.reads x .producer = 0
  noWrites : ∀ x, m.writes x .consumer = 0

variable {ins : List (Fin n → Cell)} {out : Nat}

theorem MemoryOk.fresh (h : m.Fresh fun _ => 0) : MemoryOk c ([] : List (Fin n → Cell)) 0 m := by
  have hwf : m.WellFormed Index.writer := .fresh h
  obtain ⟨hstores, hviews, hreads, hwrites, hcalm⟩ := h
  have initial : ∀ (a : Index) (i : Nat) st, (m.stores a)[i]? = some st →
      st.value = i % c.slots := by
    intro a i st hst
    rw [hstores a, List.getElem?_singleton] at hst
    split at hst
    · next hi =>
        injection hst with hst
        rw [← hst, hi, Nat.zero_mod]
    · cases hst
  constructor
  case wf => exact hwf
  case calm => exact hcalm
  case heads => exact initial .head
  case tails => exact initial .tail
  case pushed => rw [hstores .head]; rfl
  case popped => rw [hstores .tail]; rfl
  case room => exact Nat.zero_le _
  case seen => exact Nat.zero_le _
  case cells =>
    intro q v _ hq
    rw [List.getElem?_nil] at hq
    cases hq
  case reads =>
    intro i st _ x
    exact Or.inl ((hreads x .consumer).le.trans (Nat.zero_le _))
  case writes =>
    intro i st _ x
    exact Or.inl ((hwrites x .producer).le.trans (Nat.zero_le _))
  case noReads => exact fun x => hreads x .producer
  case noWrites => exact fun x => hwrites x .consumer

theorem MemoryOk.pops_le (h : MemoryOk c ins out m) : pops m ≤ out := by
  have hknown := (h.wf.views .producer).known .tail
  rw [h.popped] at hknown
  exact Nat.le_of_lt_succ hknown

theorem MemoryOk.pushes_le (h : MemoryOk c ins out m) : pushes m ≤ ins.length := by
  have hknown := (h.wf.views .consumer).known .head
  rw [h.pushed] at hknown
  exact Nat.le_of_lt_succ hknown

/-! ### Loads -/

/-- The producer loads `head_`. -/
theorem MemoryOk.load_head (h : MemoryOk c ins out m) {i : Nat} {m' : QueueMemory n Cell}
    {head : Nat} (hload : m.load .producer .head .relaxed i = some (m', head)) :
    m' = m ∧ head = ins.length % c.slots := by
  obtain ⟨hm, hi, hvalue⟩ := h.wf.load_own hload rfl
  obtain ⟨st, hst, rfl⟩ := Option.map_eq_some_iff.mp hvalue
  rw [h.heads i st hst]
  rw [h.pushed] at hi
  exact ⟨hm, by rw [Nat.succ.inj hi]⟩

/-- The consumer loads `tail_`. -/
theorem MemoryOk.load_tail (h : MemoryOk c ins out m) {i : Nat} {m' : QueueMemory n Cell}
    {tail : Nat} (hload : m.load .consumer .tail .relaxed i = some (m', tail)) :
    m' = m ∧ tail = out % c.slots := by
  obtain ⟨hm, hi, hvalue⟩ := h.wf.load_own hload rfl
  obtain ⟨st, hst, rfl⟩ := Option.map_eq_some_iff.mp hvalue
  rw [h.tails i st hst]
  rw [h.popped] at hi
  exact ⟨hm, by rw [Nat.succ.inj hi]⟩

/-- What an acquire load of the producer changes. -/
structure Acquired (c : Capacity) (ins : List (Fin n → Cell)) (out i value : Nat)
    (m m' : QueueMemory n Cell) : Prop where
  ok : MemoryOk c ins out m'
  value : value = i % c.slots
  plain : m'.plain = m.plain

/-- The producer acquires `tail_`. -/
theorem MemoryOk.acquire_tail (h : MemoryOk c ins out m) {i : Nat} {m' : QueueMemory n Cell}
    {tail : Nat} (hload : m.load .producer .tail .acquire i = some (m', tail)) :
    Acquired c ins out i tail m m' ∧ pops m ≤ i ∧ pops m' = i ∧ i ≤ out ∧
      pushes m' = pushes m := by
  obtain ⟨st, hst, hvalue, hi, rfl⟩ := Memory.load_acquire h.wf hload
  have hplace := (h.wf.stores .tail i st hst).2
  have hpops : pops { m with
      views := Function.update m.views .producer ((m.views .producer).join st.view) } = i := by
    show (Function.update m.views Party.producer _ Party.producer).stores .tail = i
    rw [Function.update_self]
    show max ((m.views .producer).stores .tail) (st.view.stores .tail) = i
    rw [hplace]
    exact max_eq_right hi
  have hle : i ≤ out := by
    have hlt := (List.getElem?_eq_some_iff.mp hst).1
    rw [h.popped] at hlt
    exact Nat.le_of_lt_succ hlt
  have hpushes : pushes { m with
      views := Function.update m.views .producer ((m.views .producer).join st.view) } =
        pushes m := rfl
  refine ⟨⟨?_, by rw [← hvalue, h.tails i st hst], rfl⟩, hi, hpops, hle, hpushes⟩
  have hgrow : pops m ≤ i := hi
  exact
    { h with
      wf := h.wf.load_acquire hst
      room := by
        rw [hpops]
        exact h.room.trans (Nat.add_le_add_right hgrow _)
      seen := h.seen
      writes := by
        rw [hpops]
        exact Released.mono h.writes (Nat.add_le_add_right hgrow _) }

/-- The consumer acquires `head_`. -/
theorem MemoryOk.acquire_head (h : MemoryOk c ins out m) {i : Nat} {m' : QueueMemory n Cell}
    {head : Nat} (hload : m.load .consumer .head .acquire i = some (m', head)) :
    Acquired c ins out i head m m' ∧ out ≤ i ∧ pushes m' = i ∧ i ≤ ins.length ∧
      pops m' = pops m := by
  obtain ⟨st, hst, hvalue, hi, rfl⟩ := Memory.load_acquire h.wf hload
  have hplace := (h.wf.stores .head i st hst).2
  have hpushes : pushes { m with
      views := Function.update m.views .consumer ((m.views .consumer).join st.view) } = i := by
    show (Function.update m.views Party.consumer _ Party.consumer).stores .head = i
    rw [Function.update_self]
    show max ((m.views .consumer).stores .head) (st.view.stores .head) = i
    rw [hplace]
    exact max_eq_right hi
  have hle : i ≤ ins.length := by
    have hlt := (List.getElem?_eq_some_iff.mp hst).1
    rw [h.pushed] at hlt
    exact Nat.le_of_lt_succ hlt
  have hseen : out ≤ i := h.seen.trans hi
  refine ⟨⟨?_, by rw [← hvalue, h.heads i st hst], rfl⟩, hseen, hpushes, hle, rfl⟩
  exact
    { h with
      wf := h.wf.load_acquire hst
      room := h.room
      seen := by
        rw [hpushes]
        exact hseen
      writes := h.writes }

/-! ### Cells -/

/-- The producer writes a cell of the slot it has room for. -/
theorem MemoryOk.write (h : MemoryOk c ins out m) (hroom : ins.length < pops m + c.capacity)
    (k : Fin n) (d : Cell) :
    MemoryOk c ins out (m.write .producer (ins.length % c.slots, k) d) := by
  have hpops := h.pops_le
  -- every read of this slot was before a pop that the producer knows of
  have hreads : m.Knows .producer (m.reads (ins.length % c.slots, k)) := by
    intro u
    cases u with
    | producer =>
        rw [h.noReads]
        exact Nat.zero_le _
    | consumer =>
        apply Released.known h.reads (h.wf.views .producer)
        intro q hq hlt
        apply mod_ne hlt
        have hq' : pops m ≤ q := hq
        unfold Capacity.slots
        omega
  have hwrites : m.Knows .producer (m.writes (ins.length % c.slots, k)) := by
    intro u
    cases u with
    | producer => exact h.wf.writes _ _
    | consumer =>
        rw [h.noWrites]
        exact Nat.zero_le _
  have sameStores : ∀ u, ((m.write .producer (ins.length % c.slots, k) d).views u).stores =
      (m.views u).stores := by
    intro u
    cases u <;> rfl
  constructor
  case wf => exact h.wf.write _ _ _
  case calm => exact Memory.write_raced h.calm hreads hwrites
  case heads => exact h.heads
  case tails => exact h.tails
  case pushed => exact h.pushed
  case popped => exact h.popped
  case room => exact h.room
  case seen => exact h.seen
  case cells =>
    intro q v hq hv j
    have hlt := (List.getElem?_eq_some_iff.mp hv).1
    have hne : (q % c.slots, j) ≠ (ins.length % c.slots, k) := by
      intro heq
      apply mod_ne (S := c.slots) hlt
      · unfold Capacity.slots
        omega
      · exact congrArg Prod.fst heq
    show Function.update m.plain _ d (q % c.slots, j) = v j
    rw [Function.update_of_ne hne]
    exact h.cells q v hq hv j
  case reads => exact h.reads
  case writes =>
    apply Released.access h.writes (q := ins.length)
    · exact h.pushed.le
    · exact hroom
    · intro x hx
      apply Memory.noted_of_ne
      apply Or.inl
      intro heq
      rw [heq] at hx
      exact hx rfl
  case noReads => exact h.noReads
  case noWrites =>
    intro x
    show Memory.noted m.writes _ _ _ x .consumer = 0
    rw [Memory.noted_of_ne (Or.inr (by decide))]
    exact h.noWrites x

/-- The consumer reads a cell of the oldest slot. -/
theorem MemoryOk.read (h : MemoryOk c ins out m) (hseen : out < pushes m) (k : Fin n) :
    MemoryOk c ins out (m.read .consumer (out % c.slots, k)).1 := by
  have hpops := h.pops_le
  have hpushes := h.pushes_le
  -- every write of this slot was before a push that the consumer knows of
  have hwrites : m.Knows .consumer (m.writes (out % c.slots, k)) := by
    intro u
    cases u with
    | producer =>
        apply Released.known h.writes (h.wf.views .consumer)
        intro q hq hlt
        have hq' : pushes m ≤ q := hq
        apply Ne.symm
        apply mod_ne (by omega)
        unfold Capacity.slots
        omega
    | consumer =>
        rw [h.noWrites]
        exact Nat.zero_le _
  constructor
  case wf => exact h.wf.read _ _
  case calm => exact Memory.read_raced h.calm hwrites
  case heads => exact h.heads
  case tails => exact h.tails
  case pushed => exact h.pushed
  case popped => exact h.popped
  case room => exact h.room
  case seen => exact h.seen
  case cells => exact h.cells
  case reads =>
    apply Released.access h.reads (q := out)
    · exact h.popped.le
    · omega
    · intro x hx
      apply Memory.noted_of_ne
      apply Or.inl
      intro heq
      rw [heq] at hx
      exact hx rfl
  case writes => exact h.writes
  case noReads =>
    intro x
    show Memory.noted m.reads _ _ _ x .producer = 0
    rw [Memory.noted_of_ne (Or.inr (by decide))]
    exact h.noReads x
  case noWrites => exact h.noWrites

/-! ### Stores -/

/-- The producer releases the slot it has filled. -/
theorem MemoryOk.store_head (h : MemoryOk c ins out m)
    (hroom : ins.length < pops m + c.capacity) {value : Fin n → Cell}
    (hcells : ∀ k, m.plain (ins.length % c.slots, k) = value k) :
    MemoryOk c (ins ++ [value]) out
      (m.stored .producer .head ((ins.length + 1) % c.slots)) := by
  have hlength : (ins ++ [value]).length = ins.length + 1 := List.length_append
  constructor
  case wf => exact h.wf.stored _ rfl
  case calm => exact h.calm
  case heads =>
    intro i st hst
    rcases Memory.getElem?_stored hst with hold | ⟨-, rfl, rfl⟩
    · exact h.heads i st hold
    · rw [h.pushed]
  case tails => exact h.tails
  case pushed =>
    show (m.stores .head ++ [_]).length = _
    rw [List.length_append, h.pushed, hlength]
    rfl
  case popped => exact h.popped
  case room =>
    rw [hlength]
    exact hroom
  case seen => exact h.seen
  case cells =>
    intro q v hq hv k
    rw [List.getElem?_append] at hv
    split at hv
    · exact h.cells q v hq hv k
    · rw [List.getElem?_singleton] at hv
      split at hv
      · injection hv with hv
        have heq : q = ins.length := by omega
        rw [heq, ← hv]
        exact hcells k
      · cases hv
  case reads => exact Released.mono h.reads (by omega)
  case writes => exact Released.stored h.writes _ fun x => h.wf.writes x .producer
  case noReads => exact h.noReads
  case noWrites => exact h.noWrites

/-- The consumer releases the slot it has read. -/
theorem MemoryOk.store_tail (h : MemoryOk c ins out m) (hseen : out < pushes m) :
    MemoryOk c ins (out + 1) (m.stored .consumer .tail ((out + 1) % c.slots)) := by
  constructor
  case wf => exact h.wf.stored _ rfl
  case calm => exact h.calm
  case heads => exact h.heads
  case tails =>
    intro i st hst
    rcases Memory.getElem?_stored hst with hold | ⟨-, rfl, rfl⟩
    · exact h.tails i st hold
    · rw [h.popped]
  case pushed => exact h.pushed
  case popped =>
    show (m.stores .tail ++ [_]).length = _
    rw [List.length_append, h.popped]
    rfl
  case room => exact h.room
  case seen => exact hseen
  case cells => exact fun q v hq hv k => h.cells q v (Nat.le_of_succ_le hq) hv k
  case reads => exact Released.stored h.reads _ fun x => h.wf.reads x .consumer
  case writes => exact h.writes
  case noReads => exact h.noReads
  case noWrites => exact h.noWrites

/-! ## The parties -/

/-- What the producer knows where it is. -/
def ProducerOk (c : Capacity) (ins : List (Fin n → Cell)) (m : QueueMemory n Cell) :
    Producer n Cell → Prop
  | .idle => True
  | .called _ => True
  | .loadedHead _ head nxt =>
      head = ins.length % c.slots ∧ nxt = (ins.length + 1) % c.slots
  | .copying value head nxt done =>
      head = ins.length % c.slots ∧ nxt = (ins.length + 1) % c.slots ∧
        ins.length < pops m + c.capacity ∧
          ∀ k, done k = true → m.plain (ins.length % c.slots, k) = value k

/-- What the consumer knows where it is. -/
def ConsumerOk (c : Capacity) (ins : List (Fin n → Cell)) (out : Nat) (m : QueueMemory n Cell) :
    Consumer n Cell → Prop
  | .idle => True
  | .called _ => True
  | .loadedTail _ tail => tail = out % c.slots
  | .copying value tail done =>
      tail = out % c.slots ∧ out < pushes m ∧
        ∀ v, ins[out]? = some v → ∀ k, done k = true → value k = v k

/-- The invariant, after `ins` was pushed and `outs` was popped. -/
structure Inv (c : Capacity) (ins outs : List (Fin n → Cell)) (s : State n Cell) : Prop where
  memory : MemoryOk c ins outs.length s.memory
  popped : outs <+: ins
  producer : ProducerOk c ins s.memory s.producer
  consumer : ConsumerOk c ins outs.length s.memory s.consumer

theorem ProducerOk.mono {m' : QueueMemory n Cell} {p : Producer n Cell}
    (h : ProducerOk c ins m p) (hpops : pops m ≤ pops m') (hplain : m'.plain = m.plain) :
    ProducerOk c ins m' p := by
  cases p with
  | idle => trivial
  | called value => trivial
  | loadedHead value head nxt => exact h
  | copying value head nxt done =>
      obtain ⟨hhead, hnxt, hroom, hdone⟩ := h
      refine ⟨hhead, hnxt, by omega, ?_⟩
      rw [hplain]
      exact hdone

theorem ConsumerOk.mono {m' : QueueMemory n Cell} {q : Consumer n Cell}
    (h : ConsumerOk c ins out m q) (hpushes : pushes m ≤ pushes m') :
    ConsumerOk c ins out m' q := by
  cases q with
  | idle => trivial
  | called value => trivial
  | loadedTail value tail => exact h
  | copying value tail done => exact ⟨h.1, h.2.1.trans_le hpushes, h.2.2⟩

variable {outs : List (Fin n → Cell)} {s s' : State n Cell}

theorem Inv.init (h : Initial s) : Inv c [] [] s := by
  obtain ⟨hfresh, hp, hq⟩ := h
  constructor
  case memory => exact .fresh hfresh
  case popped => exact List.prefix_rfl
  case producer =>
    rw [hp]
    trivial
  case consumer =>
    rw [hq]
    trivial

/-- The producer has read the tail after `i` pops. -/
theorem MemoryOk.room_iff (h : MemoryOk c ins out m) {i : Nat} (hi : pops m ≤ i)
    (hout : i ≤ out) : (ins.length + 1) % c.slots ≠ i % c.slots ↔ ins.length < i + c.capacity := by
  have hroom := h.room
  have hseen := h.seen.trans h.pushes_le
  have hslots : c.slots = c.capacity + 1 := rfl
  constructor
  · intro hne
    by_contra hfull
    apply hne
    have heq : ins.length + 1 = i + c.slots := by omega
    rw [heq, Nat.add_mod_right]
  · intro hlt
    apply Ne.symm
    apply mod_ne <;> omega

/-- The consumer has read the head after `i` pushes. -/
theorem MemoryOk.some_iff (h : MemoryOk c ins out m) {i : Nat} (hi : out ≤ i)
    (hins : i ≤ ins.length) : out % c.slots ≠ i % c.slots ↔ out < i := by
  have hroom := h.room
  have hpops := h.pops_le
  have hslots : c.slots = c.capacity + 1 := rfl
  constructor
  · intro hne
    apply Nat.lt_of_le_of_ne hi
    rintro rfl
    exact hne rfl
  · intro hlt
    apply mod_ne hlt
    omega

/-! ## Steps -/

/-- A complete copy of the oldest element. -/
theorem ConsumerOk.value_eq {value : Fin n → Cell} {tail : Nat} {done : Fin n → Bool}
    (hm : MemoryOk c ins out m) (h : ConsumerOk c ins out m (.copying value tail done))
    (hall : ∀ k, done k = true) : ins[out]? = some value := by
  obtain ⟨-, hseen, hdone⟩ := h
  have hlt : out < ins.length := hseen.trans_le hm.pushes_le
  have hsome := List.getElem?_eq_getElem hlt
  rw [hsome]
  congr 1
  funext k
  exact (hdone _ hsome k (hall k)).symm

theorem Inv.pushCopy (h : Inv c ins outs s) {value : Fin n → Cell} {head nxt : Nat}
    {done : Fin n → Bool} (hp : s.producer = .copying value head nxt done) (k : Fin n) :
    Inv c ins outs
      { s with
        memory := s.memory.write .producer (head, k) (value k)
        producer := .copying value head nxt (Function.update done k true) } := by
  have hprod := h.producer
  rw [hp] at hprod
  obtain ⟨rfl, rfl, hroom, hdone⟩ := hprod
  constructor
  case memory => exact h.memory.write hroom k _
  case popped => exact h.popped
  case producer =>
    refine ⟨rfl, rfl, hroom, fun j hj => ?_⟩
    show Function.update s.memory.plain (_, k) (value k) (_, j) = value j
    by_cases hjk : j = k
    · rw [hjk, Function.update_self]
    · rw [Function.update_of_ne hjk] at hj
      rw [Function.update_of_ne (fun heq => hjk (congrArg Prod.snd heq))]
      exact hdone j hj
  case consumer => exact h.consumer.mono (Nat.le_refl _)

theorem Inv.popCopy (h : Inv c ins outs s) {value : Fin n → Cell} {tail : Nat}
    {done : Fin n → Bool} (hq : s.consumer = .copying value tail done) (k : Fin n) :
    Inv c ins outs
      { s with
        memory := (s.memory.read .consumer (tail, k)).1
        consumer := .copying (Function.update value k (s.memory.plain (tail, k))) tail
          (Function.update done k true) } := by
  have hcons := h.consumer
  rw [hq] at hcons
  obtain ⟨rfl, hseen, hdone⟩ := hcons
  constructor
  case memory => exact h.memory.read hseen k
  case popped => exact h.popped
  case producer => exact h.producer.mono (Nat.le_refl _) rfl
  case consumer =>
    refine ⟨rfl, hseen, fun v hv j hj => ?_⟩
    by_cases hjk : j = k
    · rw [hjk, Function.update_self]
      exact h.memory.cells _ v (Nat.le_refl _) hv k
    · rw [Function.update_of_ne hjk] at hj ⊢
      exact hdone v hv j hj

theorem Inv.pushStoreHead (h : Inv c ins outs s) {value : Fin n → Cell} {head nxt : Nat}
    {done : Fin n → Bool} (hp : s.producer = .copying value head nxt done)
    (hall : ∀ k, done k = true) :
    Inv c (ins ++ [value]) outs
      { s with memory := s.memory.stored .producer .head nxt, producer := .idle } := by
  have hprod := h.producer
  rw [hp] at hprod
  obtain ⟨-, rfl, hroom, hdone⟩ := hprod
  constructor
  case memory => exact h.memory.store_head hroom fun k => hdone k (hall k)
  case popped => exact h.popped.trans (List.prefix_append _ _)
  case producer => trivial
  case consumer =>
    have hcons := h.consumer
    have hpushes := h.memory.pushes_le
    cases hq : s.consumer with
    | idle => trivial
    | called value => trivial
    | loadedTail value tail =>
        rw [hq] at hcons
        exact hcons
    | copying value tail done =>
        rw [hq] at hcons
        obtain ⟨htail, hseen, hdone⟩ := hcons
        refine ⟨htail, hseen, fun v hv => hdone v ?_⟩
        rwa [List.getElem?_append_left (by omega)] at hv

theorem Inv.popStoreTail (h : Inv c ins outs s) {value : Fin n → Cell} {tail : Nat}
    {done : Fin n → Bool} (hq : s.consumer = .copying value tail done)
    (hall : ∀ k, done k = true) :
    Inv c ins (outs ++ [value])
      { s with memory := s.memory.stored .consumer .tail (c.next tail), consumer := .idle } := by
  have hcons := h.consumer
  rw [hq] at hcons
  have hvalue := hcons.value_eq h.memory hall
  obtain ⟨rfl, hseen, -⟩ := hcons
  have hlength : (outs ++ [value]).length = outs.length + 1 := List.length_append
  constructor
  case memory =>
    rw [next_mod, hlength]
    exact h.memory.store_tail hseen
  case popped =>
    obtain ⟨rest, rfl⟩ := h.popped
    rw [List.getElem?_append_right (Nat.le_refl _), Nat.sub_self] at hvalue
    cases rest with
    | nil => cases hvalue
    | cons v rest =>
        injection hvalue with hvalue
        rw [hvalue]
        exact ⟨rest, by simp⟩
  case producer => exact h.producer.mono (Nat.le_refl _) rfl
  case consumer => trivial

theorem Inv.step {a : Action n Cell} {e : Option (QueueEvent (Fin n → Cell))}
    (h : Inv c ins outs s) (hs : Steps c s a s' e) :
    Inv c (ins ++ Fifo.pushed e.toList) (outs ++ Fifo.popped e.toList) s' := by
  have hprod := h.producer
  have hcons := h.consumer
  cases hs <;> simp only [Option.toList_none, Option.toList_some, Fifo.pushed_accepted,
    Fifo.pushed_refused, Fifo.pushed_pop, Fifo.popped_push, Fifo.popped_some, Fifo.popped_none,
    Fifo.pushed_nil, Fifo.popped_nil, List.append_nil]
  case tryPush value hp => exact ⟨h.memory, h.popped, trivial, hcons⟩
  case tryPop value hq => exact ⟨h.memory, h.popped, hprod, trivial⟩
  case pushLoadHead value i memory head hp hload =>
    obtain ⟨rfl, rfl⟩ := h.memory.load_head hload
    exact ⟨h.memory, h.popped, ⟨rfl, next_mod c _⟩, hcons⟩
  case popLoadTail value i memory tail hq hload =>
    obtain ⟨rfl, rfl⟩ := h.memory.load_tail hload
    exact ⟨h.memory, h.popped, hprod, rfl⟩
  case pushFull value head nxt i memory hp hload =>
    obtain ⟨hacq, -, -, -, hpushes⟩ := h.memory.acquire_tail hload
    exact ⟨hacq.ok, h.popped, trivial, hcons.mono hpushes.ge⟩
  case pushRoom value head nxt i memory tail hp hload hroom =>
    obtain ⟨hacq, hi, hpops, hout, hpushes⟩ := h.memory.acquire_tail hload
    rw [hp] at hprod
    obtain ⟨rfl, rfl⟩ := hprod
    rw [hacq.value] at hroom
    have hlt := (h.memory.room_iff hi hout).mp hroom
    refine ⟨hacq.ok, h.popped, ⟨rfl, rfl, ?_, fun k hk => ?_⟩, hcons.mono hpushes.ge⟩
    · rw [hpops]
      exact hlt
    · cases hk
  case popEmpty value tail i memory hq hload =>
    obtain ⟨hacq, -, -, -, hpops⟩ := h.memory.acquire_head hload
    exact ⟨hacq.ok, h.popped, hprod.mono hpops.ge hacq.plain, trivial⟩
  case popSome value tail i memory head hq hload hsome =>
    obtain ⟨hacq, hi, hpushes, hins, hpops⟩ := h.memory.acquire_head hload
    rw [hq] at hcons
    have htail : tail = outs.length % c.slots := hcons
    rw [htail, hacq.value] at hsome
    have hlt := (h.memory.some_iff hi hins).mp hsome
    refine ⟨hacq.ok, h.popped, hprod.mono hpops.ge hacq.plain, htail, ?_, fun v _ k hk => ?_⟩
    · rw [hpushes]
      exact hlt
    · cases hk
  case pushCopy value head nxt done k hp => exact h.pushCopy hp k
  case popCopy value tail done k hq => exact h.popCopy hq k
  case pushStoreHead value head nxt done hp hall => exact h.pushStoreHead hp hall
  case popStoreTail value tail done hq hall => exact h.popStoreTail hq hall

/-- A step that succeeds is the bounded queue's. -/
theorem Inv.fifo {a : Action n Cell} {e : QueueEvent (Fin n → Cell)} (h : Inv c ins outs s)
    (hs : Steps c s a s' (some e)) (he : Fifo.successes [e] = [e]) :
    Fifo.Step c.capacity (ins.drop outs.length) e
      ((ins ++ Fifo.pushed [e]).drop (outs ++ Fifo.popped [e]).length) := by
  have hprod := h.producer
  have hcons := h.consumer
  have hpops := h.memory.pops_le
  have hle := h.memory.seen.trans h.memory.pushes_le
  cases hs with
  | pushFull value head nxt i memory hp hload => cases he
  | popEmpty value tail i memory hq hload => cases he
  | pushStoreHead value head nxt done hp hall =>
      rw [hp] at hprod
      obtain ⟨-, -, hroom, -⟩ := hprod
      rw [Fifo.pushed_accepted, Fifo.popped_push, List.append_nil,
        List.drop_append_of_le_length hle]
      apply Fifo.Step.push
      rw [List.length_drop]
      omega
  | popStoreTail value tail done hq hall =>
      rw [hq] at hcons
      have hvalue := hcons.value_eq h.memory hall
      obtain ⟨hlt, hget⟩ := List.getElem?_eq_some_iff.mp hvalue
      rw [Fifo.pushed_pop, Fifo.popped_some, List.append_nil, List.length_append,
        List.drop_eq_getElem_cons hlt, hget]
      exact .pop value _

/-! ## The law -/

/-- The newest attempt failed on what its load returned: the producer saw the
queue full after the pops it was shown, the consumer saw it empty. -/
def Honest (c : Capacity) (ins outs : List (Fin n → Cell)) :
    Action n Cell × Option (QueueEvent (Fin n → Cell)) → Prop
  | (.pushLoadTail i, some (.push _ false)) => i ≤ outs.length ∧ ins.length = i + c.capacity
  | (.popLoadHead i, some (.pop none)) => i ≤ ins.length ∧ i = outs.length
  | _ => True

theorem Inv.honest {a : Action n Cell} {e : Option (QueueEvent (Fin n → Cell))}
    (h : Inv c ins outs s) (hs : Steps c s a s' e) : Honest c ins outs (a, e) := by
  have hprod := h.producer
  have hcons := h.consumer
  cases hs <;> try trivial
  case pushFull value head nxt i memory hp hload =>
    obtain ⟨hacq, hi, -, hout, -⟩ := h.memory.acquire_tail hload
    rw [hp] at hprod
    have hnxt : nxt = (ins.length + 1) % c.slots := hprod.2
    have hiff := h.memory.room_iff hi hout
    have hroom := h.memory.room
    rw [← hnxt, hacq.value] at hiff
    refine ⟨hout, ?_⟩
    by_contra hne
    exact hiff.mpr (by omega) rfl
  case popEmpty value tail i memory hq hload =>
    obtain ⟨hacq, hi, -, hins, -⟩ := h.memory.acquire_head hload
    rw [hq] at hcons
    have htail : tail = outs.length % c.slots := hcons
    have hiff := h.memory.some_iff hi hins
    rw [← htail, hacq.value] at hiff
    refine ⟨hins, ?_⟩
    by_contra hne
    exact hiff.mpr (by omega) rfl

/-- What the orders guarantee of a run. -/
structure Ordered (c : Capacity) (tr : List (Action n Cell × Option (QueueEvent (Fin n → Cell))))
    (s : State n Cell) : Prop where
  /-- every two conflicting accesses of a cell are ordered -/
  raced : s.memory.raced = false
  /-- the attempts that succeed are those of a bounded queue -/
  fifo : ∃ l, (Fifo.system (Fin n → Cell) c.capacity).Run
    (Fifo.successes (System.events tr)) l
  /-- the others failed on what was loaded -/
  honest : ∀ before l, before ++ [l] <+: tr →
    Honest c (Fifo.pushed (System.events before)) (Fifo.popped (System.events before)) l

theorem run_inv {tr : List (Action n Cell × Option (QueueEvent (Fin n → Cell)))}
    (h : (system n Cell c).Run tr s) :
    Inv c (Fifo.pushed (System.events tr)) (Fifo.popped (System.events tr)) s ∧
      (Fifo.system (Fin n → Cell) c.capacity).Run (Fifo.successes (System.events tr))
        ((Fifo.pushed (System.events tr)).drop (Fifo.popped (System.events tr)).length) ∧
      ∀ before l, before ++ [l] <+: tr →
        Honest c (Fifo.pushed (System.events before)) (Fifo.popped (System.events before)) l := by
  apply h.invariant (P := fun tr s =>
    Inv c (Fifo.pushed (System.events tr)) (Fifo.popped (System.events tr)) s ∧
      (Fifo.system (Fin n → Cell) c.capacity).Run (Fifo.successes (System.events tr))
        ((Fifo.pushed (System.events tr)).drop (Fifo.popped (System.events tr)).length) ∧
      ∀ before l, before ++ [l] <+: tr →
        Honest c (Fifo.pushed (System.events before)) (Fifo.popped (System.events before)) l)
  · intro s hs
    refine ⟨.init hs, .init rfl, fun before l hl => ?_⟩
    have hnil := List.prefix_nil.mp hl
    simp at hnil
  · rintro tr s ⟨a, e⟩ s' ⟨hinv, hrun, hhonest⟩ hstep
    have hsteps := Steps.of_next hstep
    refine ⟨?_, ?_, ?_⟩
    · have hnext := hinv.step hsteps
      cases e with
      | none => simpa using hnext
      | some e => simpa using hnext
    · cases e with
      | none => simpa using hrun
      | some e =>
          rw [System.events_concat_some, Fifo.successes_append, Fifo.pushed_append,
            Fifo.popped_append]
          by_cases he : Fifo.successes [e] = [e]
          · rw [he]
            exact hrun.step (hinv.fifo hsteps he)
          · obtain ⟨hfail, hpushed, hpopped⟩ := Fifo.failure he
            rw [hfail, hpushed, hpopped, List.append_nil, List.append_nil, List.append_nil]
            exact hrun
    · intro before l hl
      rcases List.prefix_concat_iff.mp hl with heq | hold
      · obtain ⟨rfl, hlast⟩ := List.append_inj' heq rfl
        injection hlast with hlast
        rw [hlast]
        exact hinv.honest hsteps
      · exact hhonest before l hold

/-- **The memory orders suffice**: under every schedule, and whatever stores
the loads read, no cell is raced for and the queue is a bounded queue. -/
theorem spsc_orders (n : Nat) (Cell : Type) (c : Capacity)
    (tr : List (Action n Cell × Option (QueueEvent (Fin n → Cell)))) (s : State n Cell)
    (h : (system n Cell c).Run tr s) : Ordered c tr s := by
  obtain ⟨hinv, hrun, hhonest⟩ := run_inv h
  exact ⟨hinv.memory.calm, ⟨_, hrun⟩, hhonest⟩

/-- A push into the empty queue is refused, on a tail from before the pop. -/
theorem spsc_orders_stale : ∃ tr s,
    Ordered (n := 1) ⟨1, 255, by decide, by decide⟩ tr s ∧
      (Fifo.pushed (System.events tr)).length = (Fifo.popped (System.events tr)).length ∧
        (System.events tr).getLast? = some (.push (fun _ => 'b') false) := by
  have start : (system 1 Char ⟨1, 255, by decide, by decide⟩).Run []
      ⟨⟨fun _ => [⟨0, ⟨fun _ => 0, fun _ => 0⟩⟩], fun _ => ⟨fun _ => 0, fun _ => 0⟩, fun _ => '-',
        fun _ _ => 0, fun _ _ => 0, false⟩, .idle, .idle⟩ :=
    .init ⟨⟨fun _ => rfl, fun _ => rfl, fun _ _ => rfl, fun _ _ => rfl, rfl⟩, rfl, rfl⟩
  have pushed := ((((start.next (.tryPush fun _ => 'a') rfl).next (.pushLoadHead 0) rfl).next
    (.pushLoadTail 0) rfl).next (.pushCopy 0) rfl).next .pushStoreHead rfl
  have popped := ((((pushed.next (.tryPop fun _ => '-') rfl).next (.popLoadTail 0) rfl).next
    (.popLoadHead 1) rfl).next (.popCopy 0) rfl).next .popStoreTail rfl
  have refused := ((popped.next (.tryPush fun _ => 'b') rfl).next (.pushLoadHead 1) rfl).next
    (.pushLoadTail 0) rfl
  exact ⟨_, _, spsc_orders _ _ _ _ _ refused, rfl, rfl⟩

end ElephantShrew.Telemetry.Spsc.Orders
