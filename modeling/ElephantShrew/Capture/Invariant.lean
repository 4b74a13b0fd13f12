import Mathlib.Data.List.Nodup
import ElephantShrew.Capture.Init

/-!
# The invariant of the capture resources

One invariant ties the log of the operations to the state: the devices are what
the operations have made of them, an open device is in the tracking list, and
the captures started and not stopped are those of the receivers alive.  Each
operation on a device keeps it.
-/

namespace ElephantShrew.Capture

open ElephantShrew.Verified
open ElephantShrew.Verified.ExitM
open ElephantShrew.Config

variable {D : Type} [DecidableEq D]

/-! ## The law of the operations -/

/-- What an operation makes of the devices. -/
def Op.apply (status : D → Status) : Op D → D → Status
  | .openDevice device _ true => Function.update status device .opened
  | .closeDevice device => Function.update status device .closed
  | .startCapture _ device true => Function.update status device .capturing
  | .stopCapture _ device =>
      if status device = .capturing then Function.update status device .opened else status
  | _ => status

/-- The devices after the operations of the log. -/
def statusAfter (log : List (Op D)) : D → Status := log.foldl Op.apply fun _ => .closed

/-- The operation opens a device, or tries to. -/
def Op.opens : Op D → Bool
  | .openDevice _ _ _ => true
  | _ => false

/-- A device is closed when every capture started on it has been stopped, and the
first device of an `Init` is opened when all are closed. -/
def Allowed (before : List (Op D)) : Op D → Prop
  | .closeDevice device => ∀ id,
      before.count (.startCapture id device true) = before.count (.stopCapture id device)
  | .openDevice _ _ _ => ∀ earlier since, before = earlier ++ .init :: since →
      (∀ op ∈ since, op.opens = false) → ∀ device, statusAfter before device = .closed
  | _ => True

theorem statusAfter_concat (log : List (Op D)) (op : Op D) :
    statusAfter (log ++ [op]) = op.apply (statusAfter log) := by
  simp [statusAfter]

/-! ## The invariant -/

/-- Every device that is not closed is tracked, once. -/
structure Tracked (status : D → Status) (openedDevices : List D) : Prop where
  mem : ∀ d, status d ≠ .closed → d ∈ openedDevices
  nodup : openedDevices.Nodup

/-- The devices that capture are those of the receivers alive, one each. -/
structure Running (status : D → Status) (live : List (PcapReceiver D)) : Prop where
  receiver : ∀ d, status d = .capturing → ∃ r ∈ live, r.device = some d
  device : ∀ r ∈ live, r.capturing = true ∧ ∃ d, r.device = some d ∧ status d = .capturing
  distinct : (live.map PcapReceiver.device).Nodup

/-- The captures that the log starts and does not stop are those of the receivers
alive, and no receiver starts a second one. -/
structure Recorded (log : List (Op D)) (allocated : Nat) (live : List (PcapReceiver D)) :
    Prop where
  start : ∀ r ∈ live, ∀ d, r.device = some d → .startCapture r.id d true ∈ log
  fresh : ∀ id d, .startCapture id d true ∈ log → id < allocated
  unique : ∀ id d d', .startCapture id d true ∈ log → .startCapture id d' true ∈ log → d = d'
  once : ∀ id d, log.count (.startCapture id d true) ≤ 1
  balance : ∀ id d, log.count (.startCapture id d true) =
    log.count (.stopCapture id d) + live.countP fun r => r.id = id ∧ r.device = some d

/-- What the log, the devices, the tracking list, the number of receivers
allocated and the receivers alive have to do with one another. -/
structure Kept (log : List (Op D)) (status : D → Status) (openedDevices : List D)
    (allocated : Nat) (live : List (PcapReceiver D)) : Prop where
  lawful : Each Allowed log
  status_eq : status = statusAfter log
  tracked : Tracked status openedDevices
  running : Running status live
  recorded : Recorded log allocated live

variable {log : List (Op D)} {status : D → Status} {openedDevices : List D} {allocated : Nat}
  {live : List (PcapReceiver D)}

/-! ## The tracking list -/

/-- The list with a device that has just been opened. -/
def track (openedDevices : List D) (device : D) : List D :=
  if device ∈ openedDevices then openedDevices else openedDevices ++ [device]

theorem mem_track {d device : D} :
    d ∈ track openedDevices device ↔ d ∈ openedDevices ∨ d = device := by
  unfold track
  split
  · rename_i hmem
    constructor
    · exact Or.inl
    · rintro (h | rfl)
      · exact h
      · exact hmem
  · simp

theorem nodup_track {device : D} (h : openedDevices.Nodup) :
    (track openedDevices device).Nodup := by
  unfold track
  split
  · exact h
  · rename_i hmem
    rw [List.nodup_append]
    refine ⟨h, List.nodup_singleton _, ?_⟩
    intro a ha b hb
    rw [List.mem_singleton] at hb
    rw [hb]
    exact fun heq => hmem (heq ▸ ha)

/-- A device may become anything once it is tracked. -/
theorem Tracked.update (h : Tracked status openedDevices) (device : D) (st : Status) :
    Tracked (Function.update status device st) (track openedDevices device) where
  mem := by
    intro d hd
    rw [mem_track]
    by_cases hdevice : d = device
    · exact Or.inr hdevice
    · rw [Function.update_of_ne hdevice] at hd
      exact Or.inl (h.mem d hd)
  nodup := nodup_track h.nodup

theorem track_of_mem {device : D} (h : device ∈ openedDevices) :
    track openedDevices device = openedDevices :=
  if_pos h

/-- A device that is open may become anything. -/
theorem Tracked.update_of_open (h : Tracked status openedDevices) {device : D}
    (hopen : status device ≠ .closed) (st : Status) :
    Tracked (Function.update status device st) openedDevices := by
  have htracked := h.update device st
  rwa [track_of_mem (h.mem device hopen)] at htracked

/-! ## The receivers alive -/

/-- A device that no receiver captures from becomes open or closed. -/
theorem Running.update_idle (h : Running status live) {device : D} {st : Status}
    (hidle : status device ≠ .capturing) (hst : st ≠ .capturing) :
    Running (Function.update status device st) live where
  receiver := by
    intro d hd
    by_cases hdevice : d = device
    · rw [hdevice, Function.update_self] at hd
      exact absurd hd hst
    · rw [Function.update_of_ne hdevice] at hd
      exact h.receiver d hd
  device := by
    intro r hr
    obtain ⟨hcapturing, d, hdevice, hstatus⟩ := h.device r hr
    refine ⟨hcapturing, d, hdevice, ?_⟩
    rw [Function.update_of_ne]
    · exact hstatus
    · intro heq
      exact hidle (heq ▸ hstatus)
  distinct := h.distinct

/-- The receiver whose capture has just been started. -/
def started (id : Nat) (device : D) (routeDevice : Option D) : PcapReceiver D where
  id := id
  device := some device
  routeDevice := routeDevice
  capturing := true

omit [DecidableEq D] in
/-- No receiver alive has the device of a capture about to start. -/
theorem Running.device_ne (h : Running status live) {device : D}
    (hidle : status device ≠ .capturing) {r : PcapReceiver D} (hr : r ∈ live) :
    r.device ≠ some device := by
  intro hdevice
  obtain ⟨_, d, hd, hstatus⟩ := h.device r hr
  rw [hd, Option.some.injEq] at hdevice
  exact hidle (hdevice ▸ hstatus)

theorem Running.started (h : Running status live) {device : D} (id : Nat)
    (routeDevice : Option D) (hidle : status device ≠ .capturing) :
    Running (Function.update status device .capturing)
      (live ++ [Capture.started id device routeDevice]) where
  receiver := by
    intro d hd
    by_cases hdevice : d = device
    · exact ⟨_, List.mem_append_right _ (List.mem_singleton_self _), by rw [hdevice]; rfl⟩
    · rw [Function.update_of_ne hdevice] at hd
      obtain ⟨r, hr, hrd⟩ := h.receiver d hd
      exact ⟨r, List.mem_append_left _ hr, hrd⟩
  device := by
    intro r hr
    rcases List.mem_append.mp hr with hr | hr
    · obtain ⟨hcapturing, d, hdevice, hstatus⟩ := h.device r hr
      refine ⟨hcapturing, d, hdevice, ?_⟩
      rw [Function.update_of_ne]
      · exact hstatus
      · intro heq
        exact hidle (heq ▸ hstatus)
    · rw [List.mem_singleton.mp hr]
      exact ⟨rfl, device, rfl, Function.update_self ..⟩
  distinct := by
    rw [List.map_append, List.nodup_append]
    refine ⟨h.distinct, List.nodup_singleton _, ?_⟩
    intro a ha b hb
    obtain ⟨r, hr, rfl⟩ := List.mem_map.mp ha
    rw [List.mem_singleton.mp hb]
    exact h.device_ne hidle hr

theorem Running.stopped {r : PcapReceiver D} (h : Running status (r :: live)) {device : D}
    (hdevice : r.device = some device) : Running (Function.update status device .opened) live := by
  have hdistinct := h.distinct
  rw [List.map_cons, List.nodup_cons] at hdistinct
  constructor
  · intro d hd
    by_cases heq : d = device
    · rw [heq, Function.update_self] at hd
      cases hd
    · rw [Function.update_of_ne heq] at hd
      obtain ⟨r', hr', hrd⟩ := h.receiver d hd
      rcases List.mem_cons.mp hr' with rfl | hr'
      · rw [hdevice, Option.some.injEq] at hrd
        exact absurd hrd.symm heq
      · exact ⟨r', hr', hrd⟩
  · intro r' hr'
    obtain ⟨hcapturing, d, hd, hstatus⟩ := h.device r' (List.mem_cons_of_mem _ hr')
    refine ⟨hcapturing, d, hd, ?_⟩
    rw [Function.update_of_ne]
    · exact hstatus
    · intro heq
      apply hdistinct.1
      rw [hdevice, ← heq, ← hd]
      exact List.mem_map_of_mem hr'
  · exact hdistinct.2

/-! ## The log of captures -/

/-- The operation neither starts a capture nor stops one. -/
def Op.quiet : Op D → Prop
  | .startCapture _ _ ok => ok = false
  | .stopCapture _ _ => False
  | _ => True

/-- The record is read off three numbers, so an operation that leaves them alone
leaves it alone. -/
theorem Recorded.quiet (h : Recorded log allocated live) {op : Op D} (hquiet : op.quiet) :
    Recorded (log ++ [op]) allocated live := by
  have hmem : ∀ id d, .startCapture id d true ∈ log ++ [op] ↔ .startCapture id d true ∈ log := by
    intro id d
    cases op <;> simp_all [Op.quiet]
  have hstart : ∀ id d, (log ++ [op]).count (.startCapture id d true) =
      log.count (.startCapture id d true) := by
    intro id d
    cases op <;> simp_all [Op.quiet]
  have hstop : ∀ id d, (log ++ [op]).count (.stopCapture id d) =
      log.count (.stopCapture id d) := by
    intro id d
    cases op <;> simp_all [Op.quiet]
  constructor
  · intro r hr d hd
    exact (hmem r.id d).mpr (h.start r hr d hd)
  · intro id d hd
    exact h.fresh id d ((hmem id d).mp hd)
  · intro id d d' hd hd'
    exact h.unique id d d' ((hmem id d).mp hd) ((hmem id d').mp hd')
  · intro id d
    rw [hstart]
    exact h.once id d
  · intro id d
    rw [hstart, hstop]
    exact h.balance id d

/-- A number for a receiver that is not started yet. -/
theorem Recorded.allocate (h : Recorded log allocated live) : Recorded log (allocated + 1) live :=
  { h with fresh := fun id d hmem => Nat.lt_succ_of_lt (h.fresh id d hmem) }

theorem Recorded.started (h : Recorded log allocated live) (device : D)
    (routeDevice : Option D) :
    Recorded (log ++ [.startCapture allocated device true]) (allocated + 1)
      (live ++ [Capture.started allocated device routeDevice]) := by
  have hnew : ∀ d, .startCapture allocated d true ∉ log := fun d hmem =>
    Nat.lt_irrefl _ (h.fresh allocated d hmem)
  constructor
  · intro r hr d hd
    rcases List.mem_append.mp hr with hr | hr
    · exact List.mem_append_left _ (h.start r hr d hd)
    · cases List.mem_singleton.mp hr
      cases hd
      exact List.mem_append_right _ (List.mem_singleton_self _)
  · intro id d hmem
    rcases List.mem_append.mp hmem with hmem | hmem
    · exact Nat.lt_succ_of_lt (h.fresh id d hmem)
    · cases List.mem_singleton.mp hmem
      exact Nat.lt_succ_self _
  · intro id d d' hmem hmem'
    rcases List.mem_append.mp hmem with hmem | hmem <;>
      rcases List.mem_append.mp hmem' with hmem' | hmem'
    · exact h.unique id d d' hmem hmem'
    · cases List.mem_singleton.mp hmem'
      exact absurd hmem (hnew d)
    · cases List.mem_singleton.mp hmem
      exact absurd hmem' (hnew d')
    · cases List.mem_singleton.mp hmem
      cases List.mem_singleton.mp hmem'
      rfl
  · intro id d
    rw [List.count_append, List.count_singleton]
    split
    · rename_i heq
      cases eq_of_beq heq
      simp [List.count_eq_zero_of_not_mem (hnew device)]
    · exact h.once id d
  · intro id d
    have hbalance := h.balance id d
    by_cases hsame : allocated = id ∧ device = d
    · simp [Capture.started, hsame, hbalance, Nat.add_assoc]
    · simp [Capture.started, hsame, hbalance]

theorem Recorded.stopped {r : PcapReceiver D} (h : Recorded log allocated (r :: live))
    {device : D} (hdevice : r.device = some device) :
    Recorded (log ++ [.stopCapture r.id device]) allocated live where
  start := by
    intro r' hr' d hd
    exact List.mem_append_left _ (h.start r' (List.mem_cons_of_mem _ hr') d hd)
  fresh := by
    intro id d hmem
    exact h.fresh id d (by simpa using hmem)
  unique := by
    intro id d d' hmem hmem'
    exact h.unique id d d' (by simpa using hmem) (by simpa using hmem')
  once := by
    intro id d
    simpa using h.once id d
  balance := by
    intro id d
    have hbalance := h.balance id d
    rw [List.countP_cons] at hbalance
    by_cases hsame : r.id = id ∧ device = d
    · simp [hdevice, hsame] at hbalance ⊢
      omega
    · simp [hdevice, hsame] at hbalance ⊢
      omega

/-! ## What each operation keeps -/

/-- An operation that fails, and the beginning of a call, change nothing. -/
theorem Kept.idle (h : Kept log status openedDevices allocated live) {op : Op D}
    (hquiet : op.quiet) (hallowed : Allowed log op) (hidle : op.apply status = status) :
    Kept (log ++ [op]) status openedDevices allocated live where
  lawful := each_concat.mpr ⟨h.lawful, hallowed⟩
  status_eq := by rw [statusAfter_concat, ← h.status_eq, hidle]
  tracked := h.tracked
  running := h.running
  recorded := h.recorded.quiet hquiet

/-- Tracking a device does no harm. -/
theorem Kept.track (h : Kept log status openedDevices allocated live) (device : D) :
    Kept log status (Capture.track openedDevices device) allocated live := by
  have htracked := h.tracked.update device (status device)
  rw [Function.update_eq_self] at htracked
  exact { h with tracked := htracked }

/-- A device is opened and tracked. -/
theorem Kept.opened (h : Kept log status openedDevices allocated live) {device : D}
    {direction : Direction} (hclosed : status device = .closed)
    (hallowed : Allowed log (.openDevice device direction true)) :
    Kept (log ++ [.openDevice device direction true])
      (Function.update status device .opened) (Capture.track openedDevices device) allocated
      live where
  lawful := each_concat.mpr ⟨h.lawful, hallowed⟩
  status_eq := by
    rw [statusAfter_concat, ← h.status_eq]
    rfl
  tracked := h.tracked.update device .opened
  running := by
    apply h.running.update_idle
    · rw [hclosed]
      exact Status.noConfusion
    · exact Status.noConfusion
  recorded := h.recorded.quiet trivial

/-- With no receiver alive every capture has been stopped, and an open device may
be closed. -/
theorem Kept.closed (h : Kept log status openedDevices allocated []) {device : D}
    (hopen : status device ≠ .closed) :
    Kept (log ++ [.closeDevice device]) (Function.update status device .closed) openedDevices
      allocated [] where
  lawful := by
    refine each_concat.mpr ⟨h.lawful, ?_⟩
    intro id
    simpa using h.recorded.balance id device
  status_eq := by
    rw [statusAfter_concat, ← h.status_eq]
    rfl
  tracked := h.tracked.update_of_open hopen .closed
  running := by
    apply h.running.update_idle
    · intro hcapturing
      obtain ⟨r, hr, _⟩ := h.running.receiver device hcapturing
      cases hr
    · exact Status.noConfusion
  recorded := h.recorded.quiet trivial

/-- A capture is started, and its receiver joins those alive. -/
theorem Kept.started (h : Kept log status openedDevices allocated live) {device : D}
    (routeDevice : Option D) (hopened : status device = .opened) :
    Kept (log ++ [.startCapture allocated device true])
      (Function.update status device .capturing) openedDevices (allocated + 1)
      (live ++ [Capture.started allocated device routeDevice]) where
  lawful := each_concat.mpr ⟨h.lawful, trivial⟩
  status_eq := by
    rw [statusAfter_concat, ← h.status_eq]
    rfl
  tracked := by
    apply h.tracked.update_of_open
    rw [hopened]
    exact Status.noConfusion
  running := by
    apply h.running.started
    rw [hopened]
    exact Status.noConfusion
  recorded := h.recorded.started device routeDevice

/-- The first of the receivers alive stops its capture. -/
theorem Kept.stopped {r : PcapReceiver D}
    (h : Kept log status openedDevices allocated (r :: live)) {device : D}
    (hdevice : r.device = some device) (hcapturing : status device = .capturing) :
    Kept (log ++ [.stopCapture r.id device]) (Function.update status device .opened)
      openedDevices allocated live where
  lawful := each_concat.mpr ⟨h.lawful, trivial⟩
  status_eq := by
    rw [statusAfter_concat, ← h.status_eq, Op.apply, if_pos hcapturing]
  tracked := by
    apply h.tracked.update_of_open
    rw [hcapturing]
    exact Status.noConfusion
  running := h.running.stopped hdevice
  recorded := h.recorded.stopped hdevice

end ElephantShrew.Capture
