import ElephantShrew.Capture.Invariant

/-!
# Capture resources

Dropping what is there empties both lists and closes every device; bringing the
capture up keeps the invariant wherever it throws.  So the invariant holds
between two calls of `Init`, and at the end nothing is left.
-/

namespace ElephantShrew.Capture

open ElephantShrew.Verified
open ElephantShrew.Verified.ExitM
open ElephantShrew.Config

variable {D : Type} {log : List (Op D)} {s : State D}

/-- No device is open before the call under way has opened one. -/
def Opening (log : List (Op D)) (status : D → Status) : Prop :=
  ∀ earlier since, log = earlier ++ .init :: since → (∀ op ∈ since, op.opens = false) →
    ∀ d, status d = .closed

section

variable [DecidableEq D]

/-- The invariant between two calls: the receivers alive are those of the vector. -/
def Sound (log : List (Op D)) (s : State D) : Prop :=
  Kept log s.status s.openedDevices s.allocated s.receivers

/-- The invariant while the capture is brought up. -/
def Rising (log : List (Op D)) (s : State D) : Prop := Sound log s ∧ Opening log s.status

end

/-! ## Bringing up -/

/-- Once a device was opened, the call has opened one. -/
theorem opening_of_opens {op : Op D} (h : op.opens = true) (status : D → Status) :
    Opening (log ++ [op]) status := by
  intro earlier since hlog hnone
  rcases concat_eq_append_cons hlog with ⟨_, rfl, _⟩ | ⟨rest, rfl, _⟩
  · cases h
  · have hopens := hnone op (by simp)
    rw [h] at hopens
    cases hopens

/-- An operation that opens no closed device. -/
theorem Opening.concat {status status' : D → Status} (h : Opening log status) {op : Op D}
    (hop : op ≠ .init) (hstatus : ∀ d, status d = .closed → status' d = .closed) :
    Opening (log ++ [op]) status' := by
  intro earlier since hlog hnone d
  rcases concat_eq_append_cons hlog with ⟨_, heq, _⟩ | ⟨rest, rfl, hrest⟩
  · exact absurd heq hop
  · apply hstatus
    refine h earlier rest hrest ?_ d
    intro op hmem
    exact hnone op (by simp [hmem])

@[simp] theorem wpLog_ask {α : Type} {answer : Nat → α} {Q : α → List (Op D) → State D → Prop}
    {E : String → List (Op D) → State D → Prop} :
    WpLog (ask answer) Q E log s ↔ Q (answer s.clock) log { s with clock := s.clock + 1 } := by
  simp [ask]

section

variable [DecidableEq D] {env : Environment D}

theorem keeps_ask {α : Type} (answer : Nat → α) : Keeps Rising (ask answer : CaptureM D α) := by
  intro log s h
  rw [wpLog_ask]
  exact h

theorem keeps_resolveCaptureDevice (iface : String) :
    Keeps Rising (resolveCaptureDevice env iface) := by
  unfold resolveCaptureDevice
  apply Keeps.ite
  · apply (keeps_ask _).bind
    intro list
    cases list with
    | nil => exact Keeps.exit _
    | cons device rest => exact Keeps.pure device
  · apply (keeps_ask _).bind
    intro found
    cases found with
    | none => exact Keeps.exit _
    | some device => exact Keeps.pure device

theorem keeps_makeStore (config : RuntimeConfig) : Keeps Rising (makeStore env config) := by
  unfold makeStore newStore
  apply Keeps.ite
  · cases checkStoreOptions config.redis with
    | error what => exact Keeps.exit _
    | ok u =>
        apply (keeps_ask _).bind
        intro answer
        cases answer with
        | none => exact Keeps.pure _
        | some what => exact Keeps.exit _
  · exact Keeps.pure _

/-- A device is opened, unless it is open, and tracked before anything else is
done; a failure to open leaves nothing to track. -/
theorem keeps_open {α : Type} (device : D) (direction : Direction) {k : Unit → CaptureM D α}
    (hk : ∀ u, Keeps Rising (k u)) :
    Keeps Rising (openDevice env device direction >>= fun _ => trackOpenedDevice device >>= k) := by
  intro log s h
  obtain ⟨hsound, hopening⟩ := h
  simp only [openDevice, isOpened, wpLog_bind, wpLog_state, wpLog_pure, wpLog_ite, bne_iff_ne]
  constructor
  · intro hopen
    simp only [trackOpenedDevice, wpLog_update]
    exact hk () log _ ⟨hsound.track device, hopening⟩
  · intro hclosed
    rw [not_not] at hclosed
    have hallowed : ∀ ok, Allowed log (.openDevice device direction ok) := by
      intro ok earlier since hlog hnone d
      rw [← hsound.status_eq]
      exact hopening earlier since hlog hnone d
    simp only [openLive, trackOpenedDevice, wpLog_bind, wpLog_ask, wpLog_note, wpLog_update,
      wpLog_pure, wpLog_exitIf]
    cases hanswer : env.opens s.clock device with
    | true =>
        refine ⟨Bool.noConfusion, fun _ => ?_⟩
        exact hk () _ _ ⟨hsound.opened hclosed (hallowed true), opening_of_opens rfl _⟩
    | false =>
        refine ⟨fun _ => ?_, fun h => absurd rfl h⟩
        exact ⟨hsound.idle trivial (hallowed false) rfl, opening_of_opens rfl _⟩

/-- A capture is started on an open device only. -/
theorem wpLog_startCapture {id : Nat} {device : D} {Q : Bool → List (Op D) → State D → Prop}
    {E : String → List (Op D) → State D → Prop}
    (refused : ∀ n, Q false (log ++ [.startCapture id device false]) { s with clock := n })
    (started : ∀ n, s.status device = .opened →
      Q true (log ++ [.startCapture id device true])
        { s.setStatus device .capturing with clock := n }) :
    WpLog (startCapture env id device) Q E log s := by
  simp only [startCapture, wpLog_bind, wpLog_ask, wpLog_state, wpLog_note, wpLog_update,
    wpLog_pure]
  cases hok : env.starts s.clock device && s.status device == .opened with
  | true =>
      rw [Bool.and_eq_true, beq_iff_eq] at hok
      exact started _ hok.2
  | false => exact refused _

omit [DecidableEq D] in
theorem wpLog_requireOpened {what : String} {device : D}
    {Q : Unit → List (Op D) → State D → Prop} {E : String → List (Op D) → State D → Prop}
    (closed : ∀ what, E what log s) (opened : Q () log s) :
    WpLog (PcapReceiver.requireOpened env what device) Q E log s := by
  simp only [PcapReceiver.requireOpened, isOpened, wpLog_bind, wpLog_state, wpLog_pure,
    wpLog_exitIf]
  exact ⟨fun _ => closed _, fun _ => opened⟩

/-- `Receive` starts the capture, or throws with nothing started. -/
theorem wpLog_receive {r : PcapReceiver D} {device : D} (hdevice : r.device = some device)
    {Q : PcapReceiver D → List (Op D) → State D → Prop}
    {E : String → List (Op D) → State D → Prop} (early : ∀ what, E what log s)
    (refused : ∀ what n, E what (log ++ [.startCapture r.id device false]) { s with clock := n })
    (started : ∀ n, s.status device = .opened →
      Q { r with capturing := true } (log ++ [.startCapture r.id device true])
        { s.setStatus device .capturing with clock := n }) :
    WpLog (r.receive env) Q E log s := by
  obtain ⟨id, _, routeDevice, _⟩ := r
  cases hdevice
  have hstart : WpLog (startCapture env id device) (fun ok log' s' => WpLog (do
      exitIf (ok = false)
        ("PcapReceiver: failed to start capture on '" ++ env.name device ++ "'")
      return { id, device := some device, routeDevice, capturing := true }) Q E log' s')
      E log s := by
    apply wpLog_startCapture
    · intro n
      simpa using refused _ n
    · intro n hopened
      simpa using started n hopened
  unfold PcapReceiver.receive PcapReceiver.requireRoute
  simp only [wpLog_bind]
  apply wpLog_requireOpened early
  cases routeDevice with
  | none =>
      rw [wpLog_pure]
      simpa only [wpLog_bind] using hstart
  | some route =>
      apply wpLog_requireOpened early
      simpa only [wpLog_bind] using hstart

/-- A receiver that has not started is destroyed without a trace. -/
theorem wpLog_destroy_idle {r : PcapReceiver D} (hidle : r.capturing = false)
    {Q : Unit → List (Op D) → State D → Prop} {E : String → List (Op D) → State D → Prop}
    (h : Q () log s) : WpLog r.destroy Q E log s := by
  unfold PcapReceiver.destroy PcapReceiver.stop
  cases r.device with
  | none => simpa using h
  | some device => simpa [hidle] using h

/-- A capture is started and its receiver pushed, or nothing is left of either. -/
theorem keeps_addReceiver (device : D) (routeDevice : Option D) :
    Keeps Rising (addReceiver env device routeDevice) := by
  intro log s h
  obtain ⟨hsound, hopening⟩ := h
  have hallocated : Kept log s.status s.openedDevices (s.allocated + 1) s.receivers :=
    { hsound with recorded := hsound.recorded.allocate }
  simp only [addReceiver, wpLog_bind, wpLog_state, wpLog_update, wpLog_attempt]
  apply wpLog_receive rfl
  · intro what
    apply wpLog_destroy_idle rfl
    rw [wpLog_exit]
    exact ⟨hallocated, hopening⟩
  · intro what n
    apply wpLog_destroy_idle rfl
    rw [wpLog_exit]
    exact ⟨hallocated.idle rfl trivial rfl, hopening.concat (by simp) fun _ hd => hd⟩
  · intro n hopened
    refine ⟨hsound.started routeDevice hopened, hopening.concat (by simp) ?_⟩
    intro d hd
    have hne : d ≠ device := by
      intro heq
      rw [heq] at hd
      exact Status.noConfusion (hd.symm.trans hopened)
    exact (Function.update_of_ne hne _ _).trans hd

theorem keeps_initRouting (routing : RoutingOptions) :
    Keeps Rising (initRouting env routing) := by
  unfold initRouting
  apply (keeps_resolveCaptureDevice _).bind
  intro ingress
  apply (keeps_resolveCaptureDevice _).bind
  intro egress
  apply keeps_open
  intro _
  apply keeps_open
  intro _
  apply (keeps_addReceiver ingress (some egress)).bind
  intro _
  apply Keeps.ite
  · exact keeps_addReceiver egress (some ingress)
  · exact Keeps.pure ()

theorem keeps_initIface (iface : String) : Keeps Rising (initIface env iface) := by
  unfold initIface
  apply (keeps_resolveCaptureDevice _).bind
  intro device
  apply keeps_open
  intro _
  exact keeps_addReceiver device none

theorem keeps_initIfaces (ifaces : List String) : Keeps Rising (initIfaces env ifaces) := by
  induction ifaces with
  | nil => exact Keeps.pure ()
  | cons iface rest ih => exact (keeps_initIface iface).bind fun _ => ih

/-- **Bringing up keeps the invariant**, on every branch and wherever it throws. -/
theorem keeps_bringUp (config : RuntimeConfig) : Keeps Rising (bringUp env config) := by
  unfold bringUp
  apply (keeps_makeStore config).bind
  intro _
  apply Keeps.ite
  · exact keeps_initRouting config.routing
  · apply Keeps.ite
    · exact keeps_initIface ""
    · exact keeps_initIfaces config.capture.ifaces

/-! ## Dropping what is there -/

/-- The receivers alive are destroyed one after the other, and each stops its own
capture. -/
theorem wpLog_destroyReceivers (rs : List (PcapReceiver D)) {log : List (Op D)} {s : State D}
    (h : Kept log s.status s.openedDevices s.allocated rs)
    {Q : Unit → List (Op D) → State D → Prop} {E : String → List (Op D) → State D → Prop}
    (done : ∀ log' s', Kept log' s'.status s'.openedDevices s'.allocated [] → Q () log' s') :
    WpLog (destroyReceivers rs) Q E log s := by
  induction rs generalizing log s with
  | nil =>
      rw [destroyReceivers, wpLog_pure]
      exact done log s h
  | cons r rest ih =>
      obtain ⟨hcapturing, device, hdevice, hstatus⟩ := h.running.device r (List.mem_cons_self ..)
      have hstop : WpLog r.destroy (fun _ log' s' =>
          Kept log' s'.status s'.openedDevices s'.allocated rest) E log s := by
        unfold PcapReceiver.destroy PcapReceiver.stop
        rw [hdevice]
        simp only [hcapturing, if_true, stopCapture, wpLog_bind, wpLog_note, wpLog_update,
          wpLog_pure, hstatus]
        exact h.stopped hdevice hstatus
      rw [destroyReceivers, wpLog_bind]
      exact hstop.mono (fun _ _ _ h' => ih h') (fun _ _ _ h' => h')

theorem wpLog_clearReceivers (h : Sound log s) {Q : Unit → List (Op D) → State D → Prop}
    {E : String → List (Op D) → State D → Prop}
    (done : ∀ log' s', Sound log' s' → s'.receivers = [] → Q () log' s') :
    WpLog clearReceivers Q E log s := by
  simp only [clearReceivers, wpLog_bind, wpLog_state, wpLog_update]
  exact wpLog_destroyReceivers s.receivers h fun log' s' h' => done log' _ h' rfl

/-- A device of the list is closed, if it is not. -/
theorem wpLog_closeOpened (device : D) (h : Kept log s.status s.openedDevices s.allocated [])
    {Q : Unit → List (Op D) → State D → Prop} {E : String → List (Op D) → State D → Prop}
    (done : ∀ log', Kept log' (Function.update s.status device .closed) s.openedDevices
      s.allocated [] → Q () log' (s.setStatus device .closed)) :
    WpLog (closeOpened device) Q E log s := by
  simp only [closeOpened, isOpened, close, wpLog_bind, wpLog_state, wpLog_pure, wpLog_ite,
    wpLog_note, wpLog_update, bne_iff_ne]
  constructor
  · intro hopen
    exact done _ (h.closed hopen)
  · intro hclosed
    rw [not_not] at hclosed
    have hsame : Function.update s.status device .closed = s.status := by
      rw [← hclosed, Function.update_eq_self]
    have hstate : s.setStatus device .closed = s := by
      rw [State.setStatus, hsame]
    rw [← hstate]
    apply done
    rw [hsame]
    exact h

/-- Closing the devices of a list, with no receiver alive. -/
theorem wpLog_closeEach (devices : List D) {log : List (Op D)} {s : State D}
    (h : Kept log s.status s.openedDevices s.allocated [])
    {Q : Unit → List (Op D) → State D → Prop} {E : String → List (Op D) → State D → Prop}
    (done : ∀ log' s', Kept log' s'.status s'.openedDevices s'.allocated [] →
      s'.openedDevices = s.openedDevices → s'.receivers = s.receivers →
      (∀ d, d ∈ devices ∨ s.status d = .closed → s'.status d = .closed) → Q () log' s') :
    WpLog (closeEach devices) Q E log s := by
  induction devices generalizing log s with
  | nil =>
      rw [closeEach, wpLog_pure]
      apply done log s h rfl rfl
      intro d hd
      exact hd.resolve_left (List.not_mem_nil)
  | cons device rest ih =>
      rw [closeEach, wpLog_bind]
      apply wpLog_closeOpened device h
      intro log' h'
      apply ih h'
      intro log'' s'' h'' hopened hreceivers hclosed
      apply done log'' s'' h'' hopened hreceivers
      intro d hd
      apply hclosed
      by_cases hdevice : d = device
      · apply Or.inr
        rw [hdevice]
        exact Function.update_self ..
      · rcases hd with hd | hd
        · exact Or.inl ((List.mem_cons.mp hd).resolve_left hdevice)
        · exact Or.inr ((Function.update_of_ne hdevice _ _).trans hd)

/-- Nothing is left: no receiver, no device tracked, no device open. -/
structure Dropped (log : List (Op D)) (s : State D) : Prop where
  sound : Sound log s
  receivers : s.receivers = []
  closed : ∀ d, s.status d = .closed

theorem wpLog_closeDevices (h : Sound log s) (hreceivers : s.receivers = [])
    {Q : Unit → List (Op D) → State D → Prop} {E : String → List (Op D) → State D → Prop}
    (done : ∀ log' s', Dropped log' s' → Q () log' s') : WpLog closeDevices Q E log s := by
  rw [Sound, hreceivers] at h
  simp only [closeDevices, wpLog_bind, wpLog_state, wpLog_update]
  apply wpLog_closeEach _ h
  intro log' s' h' hopened hsame hclosed
  have hall : ∀ d, s'.status d = .closed := by
    intro d
    by_contra hd
    have hmem := h'.tracked.mem d hd
    rw [hopened, ← List.mem_reverse] at hmem
    exact hd (hclosed d (Or.inl hmem))
  apply done
  constructor
  · have htracked : Tracked s'.status [] := ⟨fun d hd => absurd (hall d) hd, List.nodup_nil⟩
    rw [Sound]
    dsimp only
    rw [hsame, hreceivers]
    exact { h' with tracked := htracked }
  · exact hsame.trans hreceivers
  · exact hall

/-- **`Init` keeps the invariant**, whether it returns or throws. -/
theorem keeps_init (config : RuntimeConfig) : Keeps Sound (init env config) := by
  intro log s h
  simp only [init, wpLog_bind, wpLog_note]
  have hbegun : Sound (log ++ [.init]) s := h.idle trivial trivial rfl
  apply wpLog_clearReceivers hbegun
  intro log₁ s₁ h₁ hreceivers
  apply wpLog_closeDevices h₁ hreceivers
  intro log₂ s₂ h₂
  have hrising : Rising log₂ s₂ := ⟨h₂.sound, fun _ _ _ _ => h₂.closed⟩
  exact (keeps_bringUp config log₂ s₂ hrising).mono (fun _ _ _ h' => h'.1) (fun _ _ _ h' => h'.1)

/-- What the calls throw is caught between them. -/
theorem wpLog_inits (configs : List RuntimeConfig) {log : List (Op D)} {s : State D}
    (h : Sound log s) :
    WpLog (inits env configs) (fun _ => Sound) (fun _ _ _ => False) log s := by
  induction configs generalizing log s with
  | nil =>
      rw [inits, wpLog_pure]
      exact h
  | cons config rest ih =>
      rw [inits, wpLog_bind, wpLog_attempt]
      exact (keeps_init config log s h).mono (fun _ _ _ h' => ih h') (fun _ _ _ h' => ih h')

theorem sound_initial : Sound ([] : List (Op D)) State.initial where
  lawful := each_nil
  status_eq := rfl
  tracked := ⟨fun _ hd => absurd rfl hd, List.nodup_nil⟩
  running := ⟨fun _ hd => Status.noConfusion hd, nofun, List.nodup_nil⟩
  recorded := by
    constructor
    · intro r hr
      cases hr
    · intro id d hmem
      cases hmem
    · intro id d d' hmem
      cases hmem
    · intro id d
      exact Nat.zero_le 1
    · intro id d
      rfl

/-- **The destructor leaves nothing.** -/
theorem wpLog_destroy (h : Sound log s) :
    WpLog destroy (fun _ => Dropped) (fun _ => Dropped) log s := by
  simp only [destroy, wpLog_bind]
  apply wpLog_clearReceivers h
  intro log₁ s₁ h₁ hreceivers
  exact wpLog_closeDevices h₁ hreceivers fun _ _ h₂ => h₂

/-! ## The law -/

/-- The object after the calls of `Init`, and what they have done. -/
def stateAfter (env : Environment D) (configs : List RuntimeConfig) : State D :=
  ((inits env configs).exec State.initial).1

def logAfter (env : Environment D) (configs : List RuntimeConfig) : List (Op D) :=
  (inits env configs).trace State.initial

/-- What is left when the object has been destroyed, and all that was done. -/
def finalState (env : Environment D) (configs : List RuntimeConfig) : State D :=
  ((lifetime env configs).exec State.initial).1

def lifeLog (env : Environment D) (configs : List RuntimeConfig) : List (Op D) :=
  (lifetime env configs).trace State.initial

/-- Between two calls an open device is tracked once and a capture has one
receiver; no device is closed under a capture, and none is still open when a
call opens its first; at the end all are closed and every capture was stopped. -/
structure Disciplined (env : Environment D) (configs : List RuntimeConfig) : Prop where
  tracked : ∀ d, (stateAfter env configs).status d ≠ .closed →
    (stateAfter env configs).openedDevices.count d = 1
  receiver : ∀ d, (stateAfter env configs).status d = .capturing →
    (stateAfter env configs).receivers.countP
      (fun r => .startCapture r.id d true ∈ logAfter env configs) = 1
  lawful : Each Allowed (lifeLog env configs)
  closed : ∀ d, (finalState env configs).status d = .closed
  stopped : ∀ id d, (lifeLog env configs).count (.startCapture id d true) ≤ 1 ∧
    (lifeLog env configs).count (.stopCapture id d) =
      (lifeLog env configs).count (.startCapture id d true)

/-- A capturing device was started by one of the receivers alive. -/
theorem Kept.countP_start {log : List (Op D)} {status : D → Status} {openedDevices : List D}
    {allocated : Nat} {live : List (PcapReceiver D)}
    (h : Kept log status openedDevices allocated live) {d : D} (hd : status d = .capturing) :
    live.countP (fun r => .startCapture r.id d true ∈ log) = 1 := by
  obtain ⟨r, hr, hdevice⟩ := h.running.receiver d hd
  have hstart : ∀ r' ∈ live, .startCapture r'.id d true ∈ log ↔ r'.device = some d := by
    intro r' hr'
    obtain ⟨_, d', hd', _⟩ := h.running.device r' hr'
    constructor
    · intro hmem
      rw [hd', h.recorded.unique r'.id d d' hmem (h.recorded.start r' hr' d' hd')]
    · exact h.recorded.start r' hr' d
  have hcount : live.countP (fun r => .startCapture r.id d true ∈ log) =
      (live.map PcapReceiver.device).count (some d) := by
    rw [List.count, List.countP_map]
    apply List.countP_congr
    intro r' hr'
    simpa using hstart r' hr'
  rw [hcount]
  exact List.count_eq_one_of_mem h.running.distinct (List.mem_map.mpr ⟨r, hr, hdevice⟩)

/-- Between two calls the invariant holds. -/
theorem sound_stateAfter (env : Environment D) (configs : List RuntimeConfig) :
    Sound (logAfter env configs) (stateAfter env configs) :=
  (wpLog_inits configs sound_initial).outcome_of_returns

/-- **Capture resources never leak or outlive their users**, over every sequence
of calls and whatever fails in them. -/
theorem elephantShrew_disciplined (env : Environment D) (configs : List RuntimeConfig) :
    Disciplined env configs := by
  have hbetween := sound_stateAfter env configs
  have hend : Dropped (lifeLog env configs) (finalState env configs) := by
    have hlife : WpLog (lifetime env configs) (fun _ => Dropped) (fun _ => Dropped) []
        State.initial := by
      rw [lifetime, wpLog_bind]
      exact (wpLog_inits configs sound_initial).mono (fun _ _ _ h => wpLog_destroy h)
        (fun _ _ _ h => h.elim)
    exact hlife.outcome
  constructor
  · intro d hd
    exact List.count_eq_one_of_mem hbetween.tracked.nodup (hbetween.tracked.mem d hd)
  · intro d hd
    exact hbetween.countP_start hd
  · exact hend.sound.lawful
  · exact hend.closed
  · intro id d
    have hbalance := hend.sound.recorded.balance id d
    rw [hend.receivers] at hbalance
    exact ⟨hend.sound.recorded.once id d, hbalance.symm⟩

end

/-- Two interfaces, the second of which refuses to capture. -/
def secondRefuses : Environment Nat where
  name := toString
  devicesList := fun _ => [0, 1]
  deviceByName := fun _ iface => if iface = "eth0" then some 0 else some 1
  opens := fun _ _ => true
  starts := fun _ device => device == 0
  store := fun _ => none

-- the failed call leaves the first capture running, and the destructor ends it
example : lifeLog secondRefuses [{ capture := { ifaces := ["eth0", "eth1"] } }] =
    [ .init, .openDevice 0 .pcppInOut true, .startCapture 0 0 true
    , .openDevice 1 .pcppInOut true, .startCapture 1 1 false
    , .stopCapture 0 0, .closeDevice 1, .closeDevice 0 ] := by
  decide

end ElephantShrew.Capture
