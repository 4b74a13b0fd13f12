import Mathlib.Data.Fintype.Basic
import Mathlib.Logic.Function.Basic

/-!
# Release and acquire

A memory whose threads talk through atomics.  Each atomic has one writing
thread, and its stores are release stores: the modification order of an atomic
is then the order in which its writer stores, and a store is named by its place
in it.  A load may read any store that is not older than what its thread knows
of; an acquire load makes known all that was known to the storing thread.

What a thread knows is its `View`: of each atomic the newest store, of each
thread the number of plain accesses that happen before.  A plain access races
when an access it conflicts with is not known; `raced` records that one did.

The rules at the end keep `WellFormed`, under the discipline that a thread
loads what others store with acquire.
-/

namespace ElephantShrew.Verified.ReleaseAcquire

/-- The order of a load. -/
inductive Order where
  | relaxed
  | acquire
  deriving DecidableEq, Repr

/-- What a thread, or the thread that made a store, knows. -/
structure View (Thread Atomic : Type) where
  /-- the newest store of each atomic -/
  stores : Atomic → Nat
  /-- how many plain accesses of each thread -/
  accesses : Thread → Nat

/-- A store, with what its thread knew. -/
structure Store (Thread Atomic Value : Type) where
  value : Value
  view : View Thread Atomic

/-- The atomics, the plain variables and what happens before what. -/
structure Memory (Thread Atomic Value Var Datum : Type) where
  /-- the stores of each atomic, the initial value first -/
  stores : Atomic → List (Store Thread Atomic Value)
  views : Thread → View Thread Atomic
  plain : Var → Datum
  /-- each thread's last read of a variable, as the count of its accesses then -/
  reads : Var → Thread → Nat
  /-- each thread's last write -/
  writes : Var → Thread → Nat
  raced : Bool

variable {Thread Atomic Value Var Datum : Type}

/-! ## Views -/

namespace View

/-- Both together. -/
def join (v w : View Thread Atomic) : View Thread Atomic :=
  ⟨fun a => max (v.stores a) (w.stores a), fun t => max (v.accesses t) (w.accesses t)⟩

/-- All that one knows the other knows. -/
structure Le (v w : View Thread Atomic) : Prop where
  stores : ∀ a, v.stores a ≤ w.stores a
  accesses : ∀ t, v.accesses t ≤ w.accesses t

theorem Le.refl (v : View Thread Atomic) : v.Le v :=
  ⟨fun _ => Nat.le_refl _, fun _ => Nat.le_refl _⟩

theorem Le.trans {u v w : View Thread Atomic} (h : u.Le v) (h' : v.Le w) : u.Le w :=
  ⟨fun a => (h.stores a).trans (h'.stores a), fun t => (h.accesses t).trans (h'.accesses t)⟩

theorem le_join_left (v w : View Thread Atomic) : v.Le (v.join w) :=
  ⟨fun _ => Nat.le_max_left _ _, fun _ => Nat.le_max_left _ _⟩

theorem le_join_right (v w : View Thread Atomic) : w.Le (v.join w) :=
  ⟨fun _ => Nat.le_max_right _ _, fun _ => Nat.le_max_right _ _⟩

/-- A store of `a` is known. -/
def atStore [DecidableEq Atomic] (v : View Thread Atomic) (a : Atomic) (i : Nat) :
    View Thread Atomic := { v with stores := Function.update v.stores a i }

/-- One more access of the thread itself. -/
def tick [DecidableEq Thread] (v : View Thread Atomic) (t : Thread) : View Thread Atomic :=
  { v with accesses := Function.update v.accesses t (v.accesses t + 1) }

@[simp] theorem tick_stores [DecidableEq Thread] (v : View Thread Atomic) (t : Thread) :
    (v.tick t).stores = v.stores := rfl

@[simp] theorem tick_self [DecidableEq Thread] (v : View Thread Atomic) (t : Thread) :
    (v.tick t).accesses t = v.accesses t + 1 := Function.update_self _ _ _

theorem tick_ne [DecidableEq Thread] (v : View Thread Atomic) {t u : Thread} (h : u ≠ t) :
    (v.tick t).accesses u = v.accesses u := Function.update_of_ne h _ _

@[simp] theorem atStore_accesses [DecidableEq Atomic] (v : View Thread Atomic) (a : Atomic)
    (i : Nat) : (v.atStore a i).accesses = v.accesses := rfl

@[simp] theorem atStore_self [DecidableEq Atomic] (v : View Thread Atomic) (a : Atomic)
    (i : Nat) : (v.atStore a i).stores a = i := Function.update_self _ _ _

theorem atStore_ne [DecidableEq Atomic] (v : View Thread Atomic) {a b : Atomic} (h : b ≠ a)
    (i : Nat) : (v.atStore a i).stores b = v.stores b := Function.update_of_ne h _ _

theorem atStore_known [DecidableEq Atomic] (v : View Thread Atomic) (a : Atomic) :
    v.atStore a (v.stores a) = v := by
  unfold atStore
  rw [Function.update_eq_self]

theorem le_atStore [DecidableEq Atomic] (v : View Thread Atomic) {a : Atomic} {i : Nat}
    (h : v.stores a ≤ i) : v.Le (v.atStore a i) := by
  constructor
  · intro b
    by_cases hb : b = a
    · rw [hb, atStore_self]
      exact h
    · rw [atStore_ne v hb]
  · exact fun _ => Nat.le_refl _

theorem le_tick [DecidableEq Thread] (v : View Thread Atomic) (t : Thread) : v.Le (v.tick t) := by
  constructor
  · exact fun _ => Nat.le_refl _
  · intro u
    by_cases hu : u = t
    · rw [hu, tick_self]
      exact Nat.le_succ _
    · rw [tick_ne v hu]

end View

namespace Memory

/-! ## Well-formed memories -/

/-- What is known exists, and all that was known to the thread of a known store
is known. -/
structure Valid (m : Memory Thread Atomic Value Var Datum) (v : View Thread Atomic) : Prop where
  known : ∀ a, v.stores a < (m.stores a).length
  closed : ∀ a i st, (m.stores a)[i]? = some st → i ≤ v.stores a → st.view.Le v
  accesses : ∀ t, v.accesses t ≤ (m.views t).accesses t

structure WellFormed (writer : Atomic → Thread) (m : Memory Thread Atomic Value Var Datum) :
    Prop where
  views : ∀ t, m.Valid (m.views t)
  stores : ∀ a (i : Nat) st, (m.stores a)[i]? = some st →
    m.Valid st.view ∧ st.view.stores a = i
  /-- the writer knows all its stores -/
  writer : ∀ a, (m.stores a).length = (m.views (writer a)).stores a + 1
  reads : ∀ x t, m.reads x t ≤ (m.views t).accesses t
  writes : ∀ x t, m.writes x t ≤ (m.views t).accesses t

variable {writer : Atomic → Thread} {m : Memory Thread Atomic Value Var Datum}

/-- A memory whose variables hold what they hold, before any access. -/
def Fresh (initial : Atomic → Value) (m : Memory Thread Atomic Value Var Datum) : Prop :=
  (∀ a, m.stores a = [⟨initial a, ⟨fun _ => 0, fun _ => 0⟩⟩]) ∧
    (∀ t, m.views t = ⟨fun _ => 0, fun _ => 0⟩) ∧ (∀ x t, m.reads x t = 0) ∧
      (∀ x t, m.writes x t = 0) ∧ m.raced = false

theorem Valid.join {v w : View Thread Atomic} (hv : m.Valid v) (hw : m.Valid w) :
    m.Valid (v.join w) := by
  constructor
  · exact fun a => max_lt (hv.known a) (hw.known a)
  · intro a i st hst hi
    rcases le_max_iff.mp hi with hi | hi
    · exact (hv.closed a i st hst hi).trans (v.le_join_left w)
    · exact (hw.closed a i st hst hi).trans (v.le_join_right w)
  · exact fun t => max_le (hv.accesses t) (hw.accesses t)

theorem WellFormed.fresh {initial : Atomic → Value} (h : m.Fresh initial) :
    m.WellFormed writer := by
  obtain ⟨hstores, hviews, hreads, hwrites, -⟩ := h
  have valid : m.Valid ⟨fun _ => 0, fun _ => 0⟩ := by
    constructor
    · intro a
      rw [hstores a]
      exact Nat.one_pos
    · intro a i st hst _
      rw [hstores a, List.getElem?_singleton] at hst
      split at hst
      · injection hst with hst
        rw [← hst]
        exact .refl _
      · cases hst
    · exact fun t => Nat.zero_le _
  constructor
  · intro t
    rw [hviews t]
    exact valid
  · intro a i st hst
    rw [hstores a, List.getElem?_singleton] at hst
    split at hst
    · next hi =>
        injection hst with hst
        rw [← hst, hi]
        exact ⟨valid, rfl⟩
    · cases hst
  · intro a
    rw [hstores a, hviews (writer a)]
    rfl
  · intro x t
    rw [hreads x t]
    exact Nat.zero_le _
  · intro x t
    rw [hwrites x t]
    exact Nat.zero_le _

/-! ## Accesses -/

section

variable [DecidableEq Thread] [DecidableEq Atomic] [DecidableEq Var]

/-- These accesses happen before what the thread does next. -/
def Knows (m : Memory Thread Atomic Value Var Datum) (t : Thread) (last : Thread → Nat) : Prop :=
  ∀ u, last u ≤ (m.views t).accesses u

instance [Fintype Thread] (m : Memory Thread Atomic Value Var Datum) (t : Thread)
    (last : Thread → Nat) : Decidable (m.Knows t last) := inferInstanceAs (Decidable (∀ _, _))

/-- A load that reads store `i`. -/
def load (m : Memory Thread Atomic Value Var Datum) (t : Thread) (a : Atomic) (o : Order)
    (i : Nat) : Option (Memory Thread Atomic Value Var Datum × Value) :=
  if (m.views t).stores a ≤ i then
    match (m.stores a)[i]? with
    | none => none
    | some st =>
        let v := (m.views t).atStore a i
        let v' := if o = .acquire then v.join st.view else v
        some ({ m with views := Function.update m.views t v' }, st.value)
  else none

/-- A release store, by the thread that writes the atomic. -/
def store (writer : Atomic → Thread) (m : Memory Thread Atomic Value Var Datum) (t : Thread)
    (a : Atomic) (value : Value) : Option (Memory Thread Atomic Value Var Datum) :=
  if writer a = t then
    let v := (m.views t).atStore a (m.stores a).length
    some { m with
      stores := Function.update m.stores a (m.stores a ++ [⟨value, v⟩])
      views := Function.update m.views t v }
  else none

/-- A table of accesses with one more access. -/
def noted (last : Var → Thread → Nat) (x : Var) (t : Thread) (count : Nat) : Var → Thread → Nat :=
  Function.update last x (Function.update (last x) t count)

/-- A plain read; it conflicts with the writes. -/
def read [Fintype Thread] (m : Memory Thread Atomic Value Var Datum) (t : Thread) (x : Var) :
    Memory Thread Atomic Value Var Datum × Datum :=
  ({ m with
      views := Function.update m.views t ((m.views t).tick t)
      reads := noted m.reads x t ((m.views t).accesses t + 1)
      raced := m.raced || !decide (m.Knows t (m.writes x)) }, m.plain x)

/-- A plain write; it conflicts with the reads and the writes. -/
def write [Fintype Thread] (m : Memory Thread Atomic Value Var Datum) (t : Thread) (x : Var)
    (d : Datum) : Memory Thread Atomic Value Var Datum :=
  { m with
    views := Function.update m.views t ((m.views t).tick t)
    plain := Function.update m.plain x d
    writes := noted m.writes x t ((m.views t).accesses t + 1)
    raced := m.raced || !decide (m.Knows t (m.reads x) ∧ m.Knows t (m.writes x)) }

end

/-! ## Loads -/

section

variable [DecidableEq Thread]

/-- Only a view has grown, and is still valid. -/
theorem WellFormed.of_view (h : m.WellFormed writer) {t : Thread} {v : View Thread Atomic}
    (hv : m.Valid v) (hle : (m.views t).Le v) :
    WellFormed writer { m with views := Function.update m.views t v } := by
  have same : ∀ u, (Function.update m.views t v u).accesses u = (m.views u).accesses u := by
    intro u
    by_cases hu : u = t
    · rw [hu, Function.update_self]
      exact Nat.le_antisymm (hv.accesses t) (hle.accesses t)
    · rw [Function.update_of_ne hu]
  have valid : ∀ w, m.Valid w → Valid { m with views := Function.update m.views t v } w := by
    intro w hw
    refine ⟨hw.known, hw.closed, fun u => ?_⟩
    show w.accesses u ≤ (Function.update m.views t v u).accesses u
    rw [same u]
    exact hw.accesses u
  constructor
  · intro u
    apply valid
    show m.Valid (Function.update m.views t v u)
    by_cases hu : u = t
    · rw [hu, Function.update_self]
      exact hv
    · rw [Function.update_of_ne hu]
      exact h.views u
  · exact fun a i st hst => ⟨valid _ (h.stores a i st hst).1, (h.stores a i st hst).2⟩
  · intro a
    show (m.stores a).length = (Function.update m.views t v (writer a)).stores a + 1
    by_cases hu : writer a = t
    · -- the writer knew all its stores already
      have hknown := hv.known a
      have hold := hle.stores a
      have hlast := h.writer a
      rw [hu] at hlast ⊢
      rw [Function.update_self]
      omega
    · rw [Function.update_of_ne hu]
      exact h.writer a
  · intro x u
    show m.reads x u ≤ (Function.update m.views t v u).accesses u
    rw [same u]
    exact h.reads x u
  · intro x u
    show m.writes x u ≤ (Function.update m.views t v u).accesses u
    rw [same u]
    exact h.writes x u

theorem WellFormed.load_acquire (h : m.WellFormed writer) {t : Thread} {a : Atomic} {i : Nat}
    {st : Store Thread Atomic Value} (hst : (m.stores a)[i]? = some st) :
    WellFormed writer
      { m with views := Function.update m.views t ((m.views t).join st.view) } := by
  have hv : m.Valid ((m.views t).join st.view) := (h.views t).join (h.stores a i st hst).1
  exact h.of_view hv (View.le_join_left _ _)

variable [DecidableEq Atomic]

/-- A thread loads its own atomic: it reads its last store, and learns nothing. -/
theorem WellFormed.load_own (h : m.WellFormed writer) {t : Thread} {a : Atomic} {o : Order}
    {i : Nat} {m' : Memory Thread Atomic Value Var Datum} {value : Value}
    (hload : m.load t a o i = some (m', value)) (ht : writer a = t) :
    m' = m ∧ i + 1 = (m.stores a).length ∧ (m.stores a)[i]?.map (·.value) = some value := by
  unfold load at hload
  split at hload
  · next hi =>
      split at hload
      · cases hload
      · next st hst =>
          injection hload with hload
          injection hload with hm hvalue
          have hlt : i < (m.stores a).length := (List.getElem?_eq_some_iff.mp hst).1
          have hlast := h.writer a
          rw [ht] at hlast
          have hi' : i = (m.views t).stores a := by omega
          have hview : (if o = .acquire then ((m.views t).atStore a i).join st.view
              else (m.views t).atStore a i) = m.views t := by
            rw [hi', View.atStore_known]
            split
            · have hle := (h.views t).closed a i st hst (by omega)
              unfold View.join
              simp only [max_eq_left (hle.stores _), max_eq_left (hle.accesses _)]
            · rfl
          refine ⟨?_, by omega, by rw [hst, ← hvalue]; rfl⟩
          rw [← hm, hview, Function.update_eq_self]
  · cases hload

/-- What an acquire load learns. -/
theorem load_acquire {t : Thread} {a : Atomic} {i : Nat}
    {m' : Memory Thread Atomic Value Var Datum} {value : Value} (h : m.WellFormed writer)
    (hload : m.load t a .acquire i = some (m', value)) :
    ∃ st, (m.stores a)[i]? = some st ∧ st.value = value ∧ (m.views t).stores a ≤ i ∧
      m' = { m with views := Function.update m.views t ((m.views t).join st.view) } := by
  unfold load at hload
  split at hload
  · next hi =>
      split at hload
      · cases hload
      · next st hst =>
          injection hload with hload
          injection hload with hm hvalue
          refine ⟨st, hst, hvalue, hi, ?_⟩
          have hplace := (h.stores a i st hst).2
          have hjoin : ((m.views t).atStore a i).join st.view = (m.views t).join st.view := by
            unfold View.join
            congr 1
            funext b
            by_cases hb : b = a
            · rw [hb, View.atStore_self, hplace, max_self, max_eq_right hi]
            · rw [View.atStore_ne _ hb]
          rw [← hm, if_pos rfl, hjoin]
  · cases hload

/-! ## Stores -/

/-- The memory after a release store. -/
def stored (m : Memory Thread Atomic Value Var Datum) (t : Thread) (a : Atomic) (value : Value) :
    Memory Thread Atomic Value Var Datum :=
  { m with
    stores := Function.update m.stores a
      (m.stores a ++ [⟨value, (m.views t).atStore a (m.stores a).length⟩])
    views := Function.update m.views t ((m.views t).atStore a (m.stores a).length) }

theorem store_eq_some_iff {t : Thread} {a : Atomic} {value : Value}
    {m' : Memory Thread Atomic Value Var Datum} :
    m.store writer t a value = some m' ↔ writer a = t ∧ m' = m.stored t a value := by
  unfold store
  split
  · next h => simp only [Option.some.injEq, h, true_and, stored, eq_comm]
  · next h => simp [h]

/-- A store that is there afterwards was there before, or is the new one. -/
theorem getElem?_stored {t : Thread} {a b : Atomic} {value : Value} {i : Nat}
    {st : Store Thread Atomic Value} (hst : ((m.stored t a value).stores b)[i]? = some st) :
    (m.stores b)[i]? = some st ∨
      (b = a ∧ i = (m.stores a).length ∧
        st = ⟨value, (m.views t).atStore a (m.stores a).length⟩) := by
  replace hst : (Function.update m.stores a
    (m.stores a ++ [⟨value, (m.views t).atStore a (m.stores a).length⟩]) b)[i]? = some st := hst
  by_cases hb : b = a
  · rw [hb, Function.update_self] at hst
    rw [hb]
    rcases Nat.lt_trichotomy i (m.stores a).length with hi | hi | hi
    · rw [List.getElem?_append_left hi] at hst
      exact Or.inl hst
    · rw [hi, List.getElem?_concat_length] at hst
      injection hst with hst
      exact Or.inr ⟨rfl, hi, hst.symm⟩
    · rw [List.getElem?_eq_none (by simp; omega)] at hst
      cases hst
  · rw [Function.update_of_ne hb] at hst
    exact Or.inl hst

theorem WellFormed.stored (h : m.WellFormed writer) {t : Thread} {a : Atomic} (value : Value)
    (ht : writer a = t) : (m.stored t a value).WellFormed writer := by
  have hlast := h.writer a
  rw [ht] at hlast
  have hle : (m.views t).Le ((m.views t).atStore a (m.stores a).length) :=
    (m.views t).le_atStore (by omega)
  have same : ∀ u, (((m.stored t a value).views) u).accesses u = (m.views u).accesses u := by
    intro u
    show (Function.update m.views t _ u).accesses u = _
    by_cases hu : u = t
    · rw [hu, Function.update_self, View.atStore_accesses]
    · rw [Function.update_of_ne hu]
  have growth : ∀ b, (m.stores b).length ≤ ((m.stored t a value).stores b).length := by
    intro b
    show _ ≤ (Function.update m.stores a _ b).length
    by_cases hb : b = a
    · rw [hb, Function.update_self, List.length_append]
      exact Nat.le_add_right _ _
    · rw [Function.update_of_ne hb]
  have valid : ∀ w, m.Valid w → (m.stored t a value).Valid w := by
    intro w hw
    refine ⟨fun b => (hw.known b).trans_le (growth b), ?_, ?_⟩
    · intro b i st hst hi
      rcases getElem?_stored hst with hold | ⟨rfl, rfl, -⟩
      · exact hw.closed b i st hold hi
      · exact absurd (hw.known b) (by omega)
    · intro u
      rw [same u]
      exact hw.accesses u
  have validNew : (m.stored t a value).Valid ((m.views t).atStore a (m.stores a).length) := by
    have hold := valid _ (h.views t)
    constructor
    · intro b
      by_cases hb : b = a
      · rw [hb, View.atStore_self]
        show _ < (Function.update m.stores a _ a).length
        rw [Function.update_self, List.length_append]
        exact Nat.lt_succ_self _
      · rw [View.atStore_ne _ hb]
        exact hold.known b
    · intro b i st hst hi
      rcases getElem?_stored hst with hmem | ⟨-, -, rfl⟩
      · have hlt : i < (m.stores b).length := (List.getElem?_eq_some_iff.mp hmem).1
        have hi' : i ≤ (m.views t).stores b := by
          by_cases hb : b = a
          · rw [hb] at hlt ⊢
            omega
          · rwa [View.atStore_ne _ hb] at hi
        exact ((h.views t).closed b i st hmem hi').trans hle
      · exact .refl _
    · exact hold.accesses
  constructor
  · intro u
    show (m.stored t a value).Valid (Function.update m.views t _ u)
    by_cases hu : u = t
    · rw [hu, Function.update_self]
      exact validNew
    · rw [Function.update_of_ne hu]
      exact valid _ (h.views u)
  · intro b i st hst
    rcases getElem?_stored hst with hold | ⟨rfl, rfl, rfl⟩
    · exact ⟨valid _ (h.stores b i st hold).1, (h.stores b i st hold).2⟩
    · exact ⟨validNew, View.atStore_self _ _ _⟩
  · intro b
    show (Function.update m.stores a _ b).length =
      (Function.update m.views t _ (writer b)).stores b + 1
    by_cases hb : b = a
    · rw [hb, ht, Function.update_self, Function.update_self, View.atStore_self,
        List.length_append]
      rfl
    · rw [Function.update_of_ne hb]
      by_cases hu : writer b = t
      · rw [hu, Function.update_self, View.atStore_ne _ hb, ← hu]
        exact h.writer b
      · rw [Function.update_of_ne hu]
        exact h.writer b
  · intro x u
    rw [same u]
    exact h.reads x u
  · intro x u
    rw [same u]
    exact h.writes x u

end

/-! ## Plain accesses -/

section

variable [DecidableEq Thread]

/-- One more access of `t`, in tables that bound the accesses made. -/
theorem WellFormed.ticked (h : m.WellFormed writer) (t : Thread) {plain : Var → Datum}
    {reads writes : Var → Thread → Nat} {raced : Bool}
    (hreads : ∀ x u, reads x u = m.reads x u ∨ (u = t ∧ reads x u = (m.views t).accesses t + 1))
    (hwrites : ∀ x u, writes x u = m.writes x u ∨
      (u = t ∧ writes x u = (m.views t).accesses t + 1)) :
    WellFormed writer
      { m with
        views := Function.update m.views t ((m.views t).tick t)
        plain := plain, reads := reads, writes := writes, raced := raced } := by
  have grows : ∀ u, (m.views u).Le (Function.update m.views t ((m.views t).tick t) u) := by
    intro u
    by_cases hu : u = t
    · rw [hu, Function.update_self]
      exact View.le_tick _ _
    · rw [Function.update_of_ne hu]
      exact .refl _
  have counted : (Function.update m.views t ((m.views t).tick t) t).accesses t =
      (m.views t).accesses t + 1 := by
    rw [Function.update_self, View.tick_self]
  have sameStores : ∀ u, (Function.update m.views t ((m.views t).tick t) u).stores =
      (m.views u).stores := by
    intro u
    by_cases hu : u = t
    · rw [hu, Function.update_self, View.tick_stores]
    · rw [Function.update_of_ne hu]
  constructor
  · intro u
    show Valid _ (Function.update m.views t ((m.views t).tick t) u)
    constructor
    · intro a
      rw [sameStores u]
      exact (h.views u).known a
    · intro a i st hst hi
      rw [sameStores u] at hi
      exact ((h.views u).closed a i st hst hi).trans (grows u)
    · intro w
      by_cases hu : u = t
      · by_cases hw : w = t
        · rw [hu, hw]
        · rw [hu, Function.update_self, View.tick_ne _ hw]
          exact ((h.views t).accesses w).trans ((grows w).accesses w)
      · rw [Function.update_of_ne hu]
        exact ((h.views u).accesses w).trans ((grows w).accesses w)
  · intro a i st hst
    obtain ⟨hvalid, hplace⟩ := h.stores a i st hst
    exact ⟨⟨hvalid.known, hvalid.closed, fun u =>
      (hvalid.accesses u).trans ((grows u).accesses u)⟩, hplace⟩
  · intro a
    show _ = (Function.update m.views t _ (writer a)).stores a + 1
    rw [sameStores]
    exact h.writer a
  · intro x u
    rcases hreads x u with hsame | ⟨rfl, hnew⟩
    · show reads x u ≤ _
      rw [hsame]
      exact (h.reads x u).trans ((grows u).accesses u)
    · show reads x u ≤ _
      rw [hnew]
      exact counted.ge
  · intro x u
    rcases hwrites x u with hsame | ⟨rfl, hnew⟩
    · show writes x u ≤ _
      rw [hsame]
      exact (h.writes x u).trans ((grows u).accesses u)
    · show writes x u ≤ _
      rw [hnew]
      exact counted.ge

variable [DecidableEq Var]

theorem noted_self (last : Var → Thread → Nat) (x : Var) (t : Thread) (count : Nat) :
    noted last x t count x t = count := by
  unfold noted
  rw [Function.update_self, Function.update_self]

theorem noted_of_ne {last : Var → Thread → Nat} {x y : Var} {t u : Thread} {count : Nat}
    (h : y ≠ x ∨ u ≠ t) : noted last x t count y u = last y u := by
  unfold noted
  by_cases hy : y = x
  · rw [hy, Function.update_self, Function.update_of_ne (h.resolve_left (not_not_intro hy))]
  · rw [Function.update_of_ne hy]

theorem noted_cases (last : Var → Thread → Nat) (x y : Var) (t u : Thread) (count : Nat) :
    noted last x t count y u = last y u ∨ (u = t ∧ noted last x t count y u = count) := by
  by_cases hu : u = t
  · by_cases hy : y = x
    · rw [hu, hy, noted_self]
      exact Or.inr ⟨rfl, rfl⟩
    · exact Or.inl (noted_of_ne (Or.inl hy))
  · exact Or.inl (noted_of_ne (Or.inr hu))

variable [Fintype Thread]

theorem WellFormed.read (h : m.WellFormed writer) (t : Thread) (x : Var) :
    (m.read t x).1.WellFormed writer :=
  h.ticked t (fun y u => noted_cases _ x y t u _) fun _ _ => Or.inl rfl

theorem WellFormed.write (h : m.WellFormed writer) (t : Thread) (x : Var) (d : Datum) :
    (m.write t x d).WellFormed writer :=
  h.ticked t (fun _ _ => Or.inl rfl) fun y u => noted_cases _ x y t u _

/-- A read that knows all writes does not race. -/
theorem read_raced {t : Thread} {x : Var} (hm : m.raced = false) (hw : m.Knows t (m.writes x)) :
    (m.read t x).1.raced = false := by
  show (m.raced || !decide (m.Knows t (m.writes x))) = false
  rw [hm, decide_eq_true hw]
  rfl

/-- A write that knows all accesses does not race. -/
theorem write_raced {t : Thread} {x : Var} {d : Datum} (hm : m.raced = false)
    (hr : m.Knows t (m.reads x)) (hw : m.Knows t (m.writes x)) :
    (m.write t x d).raced = false := by
  show (m.raced || !decide (m.Knows t (m.reads x) ∧ m.Knows t (m.writes x))) = false
  rw [hm, decide_eq_true ⟨hr, hw⟩]
  rfl

/-- One thread writes and stores, the other loads the store and reads: did that race? -/
def passed (o : Order) : Option Bool :=
  let m : Memory Bool Unit Nat Unit Nat :=
    ⟨fun _ => [⟨0, ⟨fun _ => 0, fun _ => 0⟩⟩], fun _ => ⟨fun _ => 0, fun _ => 0⟩, fun _ => 0,
      fun _ _ => 0, fun _ _ => 0, false⟩
  ((m.write false () 7).store (fun _ => false) false () 1).bind fun m =>
    (m.load true () o 1).map fun (m, _) => (m.read true ()).1.raced

example : passed .acquire = some false ∧ passed .relaxed = some true := by decide

end

end Memory

end ElephantShrew.Verified.ReleaseAcquire
