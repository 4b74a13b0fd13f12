import Mathlib.Data.Fintype.Basic
import ElephantShrew.Verified.StepSystem

/-!
# ThreadPool

The workers of `ThreadPool`, the callers of `Post` and the destructor, one step
at a time.  A step is one access to `m_is_active`, one operation on `guard`,
`m_cv` or `m_pending_jobs`, or one call of a job; the workers, the callers and
the destructor take their steps in any order.

`m_cv.wait(lock, pred)` evaluates `pred` with `guard` held and, when it is
false, releases `guard` and goes to sleep in one step.  A sleeper wakes by a
notification or by itself, and takes `guard` again before the next evaluation.
-/

namespace ElephantShrew.ThreadPool

open ElephantShrew.Verified

variable {n : Nat} {α : Type}

/-- Where a worker is in `Run`. -/
inductive Phase (α : Type) where
  /-- at `while (m_is_active)` -/
  | checking
  /-- at `std::unique_lock lock(guard)` -/
  | locking
  /-- in `m_cv.wait`, before an evaluation of the predicate; holds `guard` -/
  | evaluating
  /-- the predicate was false, not asleep yet; holds `guard` -/
  | releasing
  /-- asleep in `m_cv.wait`, not notified -/
  | asleep
  /-- awake in `m_cv.wait`, without `guard` -/
  | woken
  /-- at `if (!m_is_active) break`; holds `guard` -/
  | deciding
  /-- at `job.swap(m_pending_jobs.front())`; holds `guard` -/
  | popping
  /-- after `m_pending_jobs.pop_front()`; holds `guard` -/
  | popped (job : α)
  /-- at `job()` -/
  | running (job : α)
  /-- after the `break`; holds `guard` -/
  | leaving
  /-- `Run` has returned -/
  | ended
  deriving DecidableEq, Repr

/-- Who holds `guard`; a caller of `Post` with the statement it is at. -/
inductive Holder (n : Nat) (α : Type) where
  | worker (i : Fin n)
  | emplacing (job : α)
  | notifying
  | unlocking
  deriving DecidableEq, Repr

/-- Where the destructor is. -/
inductive Destructor where
  | notCalled
  /-- `m_is_active` is stored, `m_cv.notify_all()` is next -/
  | stored
  /-- `m_cv.notify_all()` was issued, `k` threads are joined -/
  | joining (k : Nat)
  deriving DecidableEq, Repr

/-- The pool.  `posted` are the jobs in the order `emplace_back` took them,
`taken` and `executed` the jobs popped and called, with the worker. -/
structure State (n : Nat) (α : Type) where
  isActive : Bool
  guard : Option (Holder n α)
  pendingJobs : List α
  workers : Fin n → Phase α
  destructor : Destructor
  posted : List α
  taken : List (Fin n × α)
  executed : List (Fin n × α)

/-- A worker goes on to a phase. -/
def State.move (s : State n α) (i : Fin n) (p : Phase α) : State n α :=
  { s with workers := Function.update s.workers i p }

@[simp] theorem State.move_workers_self (s : State n α) (i : Fin n) (p : Phase α) :
    (s.move i p).workers i = p := by
  simp [State.move]

theorem State.move_workers_of_ne (s : State n α) {i j : Fin n} (p : Phase α) (h : j ≠ i) :
    (s.move i p).workers j = s.workers j := by
  simp [State.move, h]

/-- `guard` is taken. -/
def State.lock (s : State n α) (h : Holder n α) : Option (State n α) :=
  match s.guard with
  | none => some { s with guard := some h }
  | some _ => none

/-- `!m_pending_jobs.empty() || !m_is_active`. -/
def State.predicate (s : State n α) : Bool := !s.pendingJobs.isEmpty || !s.isActive

/-- The next step of a worker in `Run`. -/
def run (s : State n α) (i : Fin n) : Option (State n α) :=
  match s.workers i with
  | .checking => some (s.move i (if s.isActive then .locking else .ended))
  | .locking => (s.move i .evaluating).lock (.worker i)
  | .evaluating => some (s.move i (if s.predicate then .deciding else .releasing))
  | .releasing => some { s.move i .asleep with guard := none }
  | .asleep => none
  | .woken => (s.move i .evaluating).lock (.worker i)
  | .deciding => some (s.move i (if s.isActive then .popping else .leaving))
  | .popping =>
      match s.pendingJobs with
      | [] => none
      | job :: rest =>
          some { s.move i (.popped job) with
            pendingJobs := rest
            taken := s.taken ++ [(i, job)] }
  | .popped job => some { s.move i (.running job) with guard := none }
  | .running job => some { s.move i .checking with executed := s.executed ++ [(i, job)] }
  | .leaving => some { s.move i .ended with guard := none }
  | .ended => none

/-- A worker that only a notification wakes. -/
def Phase.isAsleep : Phase α → Bool
  | .asleep => true
  | _ => false

/-- What a notification does to a worker. -/
def Phase.notify : Phase α → Phase α
  | .asleep => .woken
  | p => p

/-- One sleeper wakes, by itself or notified. -/
def wake (s : State n α) (i : Fin n) : Option (State n α) :=
  if (s.workers i).isAsleep then some (s.move i .woken) else none

/-- `m_cv.notify_one()`: one of the sleepers, if there is one. -/
def notifyOne (s : State n α) : Option (Fin n) → Option (State n α)
  | some i => wake s i
  | none => if ∀ i, (s.workers i).isAsleep = false then some s else none

inductive Action (n : Nat) (α : Type) where
  /-- the next step of a worker -/
  | worker (i : Fin n)
  /-- a sleeper wakes without a notification -/
  | spurious (i : Fin n)
  /-- a call of `Post` takes `guard` -/
  | post (job : α)
  | emplaceBack
  /-- `notify_one` wakes this worker -/
  | notifyOne (i : Option (Fin n))
  /-- `Post` returns -/
  | unlock
  /-- the next step of the destructor -/
  | destroy
  deriving DecidableEq, Repr

/-- The next step of `~ThreadPool`. -/
def destroy (s : State n α) : Option (State n α) :=
  match s.destructor with
  | .notCalled => some { s with isActive := false, destructor := .stored }
  | .stored =>
      some { s with workers := fun i => (s.workers i).notify, destructor := .joining 0 }
  | .joining k =>
      if h : k < n then
        match s.workers ⟨k, h⟩ with
        | .ended => some { s with destructor := .joining (k + 1) }
        | _ => none
      else none

/-- The next statement of a call of `Post`. -/
def postStep (s : State n α) : Action n α → Option (State n α)
  -- there is no pool to post to after the last join
  | .post job => if s.destructor = .joining n then none else s.lock (.emplacing job)
  | .emplaceBack =>
      match s.guard with
      | some (.emplacing job) =>
          some { s with
            guard := some .notifying
            pendingJobs := s.pendingJobs ++ [job]
            posted := s.posted ++ [job] }
      | _ => none
  | .notifyOne i =>
      match s.guard with
      | some .notifying => (notifyOne s i).map fun s' => { s' with guard := some .unlocking }
      | _ => none
  | .unlock =>
      match s.guard with
      | some .unlocking => some { s with guard := none }
      | _ => none
  | _ => none

/-- One step of anybody. -/
def act (s : State n α) : Action n α → Option (State n α)
  | .worker i => run s i
  | .spurious i => wake s i
  | .destroy => destroy s
  | a => postStep s a

/-- A constructed pool: every worker is about to enter `Run`. -/
def initial (n : Nat) (α : Type) : State n α where
  isActive := true
  guard := none
  pendingJobs := []
  workers _ := .checking
  destructor := .notCalled
  posted := []
  taken := []
  executed := []

/-- The workers, the callers of `Post` and the destructor. -/
def system (n : Nat) (α : Type) : System (State n α) (Action n α) :=
  .ofAct (· = initial n α) act

/-! ## What a step can do -/

/-- The worker holds `guard`. -/
def Phase.holds : Phase α → Bool
  | .evaluating | .releasing | .deciding | .popping | .popped _ | .leaving => true
  | _ => false

/-- The phases in which a worker gives `guard` back, with the next one. -/
inductive Releases : Phase α → Phase α → Prop
  | sleep : Releases .releasing .asleep
  | call (job : α) : Releases (.popped job) (.running job)
  | leave : Releases .leaving .ended

/-- The phases in which a worker waits for `guard`. -/
inductive WantsGuard : Phase α → Prop
  | locking : WantsGuard .locking
  | woken : WantsGuard .woken

/-- **The steps.** -/
inductive Steps (s : State n α) : Action n α → State n α → Prop
  | check (i : Fin n) (hp : s.workers i = .checking) :
      Steps s (.worker i) (s.move i (if s.isActive then .locking else .ended))
  | lock (i : Fin n) (hp : WantsGuard (s.workers i)) (hfree : s.guard = none) :
      Steps s (.worker i) { s.move i .evaluating with guard := some (.worker i) }
  | evaluate (i : Fin n) (hp : s.workers i = .evaluating) :
      Steps s (.worker i) (s.move i (if s.predicate then .deciding else .releasing))
  | release (i : Fin n) {q : Phase α} (hp : Releases (s.workers i) q) :
      Steps s (.worker i) { s.move i q with guard := none }
  | decide (i : Fin n) (hp : s.workers i = .deciding) :
      Steps s (.worker i) (s.move i (if s.isActive then .popping else .leaving))
  | pop (i : Fin n) {job : α} {rest : List α} (hp : s.workers i = .popping)
      (hjobs : s.pendingJobs = job :: rest) :
      Steps s (.worker i)
        { s.move i (.popped job) with pendingJobs := rest, taken := s.taken ++ [(i, job)] }
  | execute (i : Fin n) {job : α} (hp : s.workers i = .running job) :
      Steps s (.worker i) { s.move i .checking with executed := s.executed ++ [(i, job)] }
  | spurious (i : Fin n) (hp : s.workers i = .asleep) : Steps s (.spurious i) (s.move i .woken)
  | post (job : α) (hfree : s.guard = none) :
      Steps s (.post job) { s with guard := some (.emplacing job) }
  | emplaceBack {job : α} (hg : s.guard = some (.emplacing job)) :
      Steps s .emplaceBack
        { s with
          guard := some .notifying
          pendingJobs := s.pendingJobs ++ [job]
          posted := s.posted ++ [job] }
  | notifyOne (i : Fin n) (hg : s.guard = some .notifying) (hp : s.workers i = .asleep) :
      Steps s (.notifyOne (some i)) { s.move i .woken with guard := some .unlocking }
  | notifyNone (hg : s.guard = some .notifying) :
      Steps s (.notifyOne none) { s with guard := some .unlocking }
  | unlock (hg : s.guard = some .unlocking) : Steps s .unlock { s with guard := none }
  | store (hd : s.destructor = .notCalled) :
      Steps s .destroy { s with isActive := false, destructor := .stored }
  | notifyAll (hd : s.destructor = .stored) :
      Steps s .destroy
        { s with workers := fun i => (s.workers i).notify, destructor := .joining 0 }
  | join {k : Nat} (hd : s.destructor = .joining k) (hk : k < n)
      (hended : s.workers ⟨k, hk⟩ = .ended) :
      Steps s .destroy { s with destructor := .joining (k + 1) }

theorem lock_eq_some {s s' : State n α} {h : Holder n α} (hl : s.lock h = some s') :
    s.guard = none ∧ s' = { s with guard := some h } := by
  unfold State.lock at hl
  split at hl
  · next hfree => exact ⟨hfree, (Option.some.inj hl).symm⟩
  · cases hl

theorem isAsleep_eq_true {p : Phase α} (h : p.isAsleep = true) : p = .asleep := by
  cases p <;> first | rfl | cases h

theorem wake_eq_some {s s' : State n α} {i : Fin n} (h : wake s i = some s') :
    s.workers i = .asleep ∧ s' = s.move i .woken := by
  unfold wake at h
  split_ifs at h with hp
  exact ⟨isAsleep_eq_true hp, (Option.some.inj h).symm⟩

theorem Steps.of_run {s s' : State n α} {i : Fin n} (h : run s i = some s') :
    Steps s (.worker i) s' := by
  have want : WantsGuard (s.workers i) → (s.move i .evaluating).lock (.worker i) = some s' →
      Steps s (.worker i) s' := by
    intro hp hl
    obtain ⟨hfree, heq⟩ := lock_eq_some hl
    rw [heq]
    exact .lock i hp hfree
  unfold run at h
  split at h
  case h_2 hp => exact want (hp ▸ .locking) h
  case h_6 hp => exact want (hp ▸ .woken) h
  case h_8 hp =>
    split at h
    · cases h
    · next hjobs =>
        rw [← Option.some.inj h]
        exact .pop i hp hjobs
  case h_1 hp => exact Option.some.inj h ▸ .check i hp
  case h_3 hp => exact Option.some.inj h ▸ .evaluate i hp
  case h_4 hp => exact Option.some.inj h ▸ .release i (hp ▸ .sleep)
  case h_7 hp => exact Option.some.inj h ▸ .decide i hp
  case h_9 job hp => exact Option.some.inj h ▸ .release i (hp ▸ .call job)
  case h_10 hp => exact Option.some.inj h ▸ .execute i hp
  case h_11 hp => exact Option.some.inj h ▸ .release i (hp ▸ .leave)
  all_goals cases h

theorem Steps.of_destroy {s s' : State n α} (h : destroy s = some s') :
    Steps s .destroy s' := by
  unfold destroy at h
  split at h
  · next hd => exact Option.some.inj h ▸ .store hd
  · next hd => exact Option.some.inj h ▸ .notifyAll hd
  · next k hd =>
      split_ifs at h with hk
      split at h
      · next hended => exact Option.some.inj h ▸ .join hd hk hended
      · cases h

theorem Steps.of_act {s s' : State n α} {a : Action n α} (h : act s a = some s') :
    Steps s a s' := by
  cases a with
  | worker i => exact .of_run h
  | destroy => exact .of_destroy h
  | spurious i =>
      obtain ⟨hp, heq⟩ := wake_eq_some h
      rw [heq]
      exact .spurious i hp
  | post job =>
      simp only [act, postStep] at h
      split_ifs at h
      obtain ⟨hfree, heq⟩ := lock_eq_some h
      rw [heq]
      exact .post job hfree
  | emplaceBack =>
      simp only [act, postStep] at h
      split at h
      · next hg => exact Option.some.inj h ▸ .emplaceBack hg
      · cases h
  | notifyOne i =>
      simp only [act, postStep] at h
      split at h
      · next hg =>
          obtain ⟨w, hw, heq⟩ := Option.map_eq_some_iff.mp h
          cases i with
          | none =>
              simp only [ThreadPool.notifyOne] at hw
              split_ifs at hw
              rw [← heq, ← Option.some.inj hw]
              exact .notifyNone hg
          | some i =>
              obtain ⟨hp, hmove⟩ := wake_eq_some hw
              rw [← heq, hmove]
              exact .notifyOne i hg hp
      · cases h
  | unlock =>
      simp only [act, postStep] at h
      split at h
      · next hg => exact Option.some.inj h ▸ .unlock hg
      · cases h

end ElephantShrew.ThreadPool
