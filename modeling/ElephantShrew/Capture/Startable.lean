import ElephantShrew.Capture.CaptureLaw
import ElephantShrew.Config.ConfigValidity

/-!
# Starting a valid configuration

Opening a device twice does no harm, and nor does tracking it twice; capturing
from it twice is refused.  With interfaces that exist, devices that open and a
store that can be built, `Init` therefore comes to its end exactly when no device
is on its list for a second time.
-/

namespace ElephantShrew.Capture

open ElephantShrew.Verified
open ElephantShrew.Verified.ExitM
open ElephantShrew.Config

variable {D : Type} {env : Environment D} {device : String → D} {since : Nat}
  {opened devices : List D} {log : List (Op D)} {s : State D}

/-! ## What `Init` needs -/

/-- The ends of a route that are captured from. -/
def routeIfaces (routing : RoutingOptions) : List String :=
  if routing.bidirectional then [routing.ingressIface, routing.egressIface]
  else [routing.ingressIface]

/-- The interfaces a receiver is started for, in the order of the starts. -/
def captureIfaces (config : RuntimeConfig) : List String :=
  if config.routing.enabled then routeIfaces config.routing
  else if config.capture.ifaces = [] then [""]
  else config.capture.ifaces

/-- The interfaces looked up: both ends of a route, one-way or not. -/
def namedIfaces (config : RuntimeConfig) : List String :=
  if config.routing.enabled then [config.routing.ingressIface, config.routing.egressIface]
  else captureIfaces config

/-- The library finds this device for the interface, at time `t`. -/
def Finds (env : Environment D) (t : Nat) (iface : String) (d : D) : Prop :=
  if iface = "" then (env.devicesList t).head? = some d else env.deviceByName t iface = some d

/-- From the time `since` on every device opens and can be captured from, and the
store is built. -/
structure Grants (env : Environment D) (since : Nat) : Prop where
  opens : ∀ t d, since ≤ t → env.opens t d = true
  starts : ∀ t d, since ≤ t → env.starts t d = true
  store : ∀ t, since ≤ t → env.store t = none

/-- And every interface looked up exists. -/
structure Provided (env : Environment D) (config : RuntimeConfig) (device : String → D)
    (since : Nat) : Prop extends Grants env since where
  exist : ∀ iface ∈ namedIfaces config, ∀ t, since ≤ t → Finds env t iface (device iface)

/-- One capture runs on each device of the list, and none on another. -/
structure OneEach [DecidableEq D] (devices : List D) (s : State D) : Prop where
  capturing : ∀ d, s.status d = .capturing ↔ d ∈ devices
  receiver : ∀ d ∈ devices,
    s.receivers.countP (fun r => r.device = some d ∧ r.capturing = true) = 1
  other : ∀ r ∈ s.receivers, ∃ d ∈ devices, r.device = some d

/-- `Init` returns, with one capture running on each device it was to capture from. -/
def Started [DecidableEq D] (env : Environment D) (config : RuntimeConfig) (device : String → D)
    (s : State D) : Prop :=
  ∃ s', (init env config).exec s = (s', .ok ()) ∧
    OneEach ((captureIfaces config).map device) s'

/-! ## While the capture is brought up -/

/-- The devices of one list are open, and a receiver captures from each of the
other, in its order. -/
structure Up (since : Nat) (opened devices : List D) (s : State D) : Prop where
  opened : ∀ d ∈ opened, s.status d ≠ .closed
  capturing : ∀ d, s.status d = .capturing ↔ d ∈ devices
  receivers : s.receivers.map (fun r => (r.device, r.capturing)) =
    devices.map fun d => (some d, true)
  clock : since ≤ s.clock

theorem Up.weaken (h : Up since opened devices s) {fewer : List D} (hsub : fewer ⊆ opened) :
    Up since fewer devices s :=
  { h with opened := fun d hd => h.opened d (hsub hd) }

theorem Up.tick (h : Up since opened devices s) :
    Up since opened devices { s with clock := s.clock + 1 } :=
  { h with clock := Nat.le_succ_of_le h.clock }

@[simp] theorem wp_ask {α : Type} {answer : Nat → α} {Q : α → State D → Prop}
    {E : String → State D → Prop} :
    Wp (ask answer) Q E s ↔ Q (answer s.clock) { s with clock := s.clock + 1 } := by
  simp [ask]

/-- An interface that exists is found, and nothing is changed but the clock. -/
theorem wp_resolveCaptureDevice {iface : String} {d : D}
    (hfinds : ∀ t, since ≤ t → Finds env t iface d) (h : Up since opened devices s) :
    Wp (resolveCaptureDevice env iface) (fun found s' => found = d ∧ Up since opened devices s')
      (fun _ _ => False) s := by
  have hfound := hfinds s.clock h.clock
  unfold Finds at hfound
  unfold resolveCaptureDevice
  rw [wp_ite]
  constructor
  · intro hempty
    rw [if_pos hempty] at hfound
    rw [wp_bind, wp_ask]
    cases hlist : env.devicesList s.clock with
    | nil =>
        rw [hlist] at hfound
        cases hfound
    | cons first rest =>
        rw [hlist] at hfound
        cases hfound
        exact ⟨rfl, h.tick⟩
  · intro hempty
    rw [if_neg hempty] at hfound
    rw [wp_bind, wp_ask, hfound]
    exact ⟨rfl, h.tick⟩

section

variable [DecidableEq D]

/-- A closed device is opened, and captures nothing. -/
theorem Up.setOpened (h : Up since opened devices s) {d : D} (hclosed : s.status d = .closed) :
    Up since (d :: opened) devices (s.setStatus d .opened) where
  opened := by
    intro d' hd'
    by_cases heq : d' = d
    · simp [State.setStatus, heq]
    · have hmem : d' ∈ opened := (List.mem_cons.mp hd').resolve_left heq
      simpa [State.setStatus, heq] using h.opened d' hmem
  capturing := by
    intro d'
    rw [← h.capturing]
    by_cases heq : d' = d
    · simp [State.setStatus, heq, hclosed]
    · simp [State.setStatus, heq]
  receivers := h.receivers
  clock := h.clock

/-- A receiver joins those alive. -/
theorem Up.setCapturing (h : Up since opened devices s) {d : D} (id : Nat)
    (routeDevice : Option D) :
    Up since opened (devices ++ [d])
      { s.setStatus d .capturing with
        receivers := s.receivers ++ [Capture.started id d routeDevice] } where
  opened := by
    intro d' hd'
    by_cases heq : d' = d
    · simp [State.setStatus, heq]
    · simpa [State.setStatus, heq] using h.opened d' hd'
  capturing := by
    intro d'
    rw [List.mem_append, ← h.capturing, List.mem_singleton]
    by_cases heq : d' = d
    · simp [State.setStatus, heq]
    · simp [State.setStatus, heq]
  receivers := by
    simp [h.receivers, Capture.started]
  clock := h.clock

/-- A device that is open, or that opens, is open, and captures no more than before. -/
theorem wp_openDevice (hgrants : Grants env since) {d : D} (direction : Direction)
    (h : Up since opened devices s) :
    Wp (openDevice env d direction) (fun _ s' => Up since (d :: opened) devices s')
      (fun _ _ => False) s := by
  simp only [openDevice, isOpened, wp_bind, wp_state, wp_pure, wp_ite, bne_iff_ne]
  constructor
  · intro hopen
    exact { h with opened := List.forall_mem_cons.mpr ⟨hopen, h.opened⟩ }
  · intro hclosed
    rw [not_not] at hclosed
    simp only [openLive, wp_bind, wp_ask, wp_note, wp_update, wp_pure, wp_exitIf,
      hgrants.opens s.clock d h.clock, if_true]
    refine ⟨Bool.noConfusion, fun _ => ?_⟩
    exact h.tick.setOpened hclosed

/-- A device is opened and tracked before anything else is done. -/
theorem wp_openDevice_trackOpenedDevice {α : Type} (hgrants : Grants env since) {d : D}
    (direction : Direction) {k : Unit → CaptureM D α} {Q : α → State D → Prop}
    {E : String → State D → Prop} (h : Up since opened devices s)
    (hk : ∀ s', Up since (d :: opened) devices s' → Wp (k ()) Q E s') :
    Wp (openDevice env d direction >>= fun _ => trackOpenedDevice d >>= k) Q E s := by
  apply (wp_openDevice hgrants direction h).andThen
  intro _ s' h'
  rw [trackOpenedDevice, wp_bind, wp_update]
  exact hk _ { h' with }

omit [DecidableEq D] in
theorem wp_requireOpened {what : String} {d : D} (hopen : s.status d ≠ .closed)
    {Q : Unit → State D → Prop} {E : String → State D → Prop} (h : Q () s) :
    Wp (PcapReceiver.requireOpened env what d) Q E s := by
  simp only [PcapReceiver.requireOpened, isOpened, wp_bind, wp_state, wp_pure, wp_exitIf]
  exact ⟨fun hshut => absurd hshut (by simpa using hopen), fun _ => h⟩

/-- A capture is started on an open device, unless one runs on it. -/
theorem wp_startCapture (hgrants : Grants env since) {id : Nat} {d : D}
    (hd : d ∈ opened) (h : Up since opened devices s) :
    Wp (startCapture env id d)
      (fun ok s' => (ok = true ∧ d ∉ devices ∧ s' =
        { s.setStatus d .capturing with clock := s.clock + 1 }) ∨ (ok = false ∧ d ∈ devices))
      (fun _ _ => False) s := by
  simp only [startCapture, wp_bind, wp_ask, wp_state, wp_note, wp_update, wp_pure,
    hgrants.starts s.clock d h.clock, Bool.true_and]
  cases hstatus : s.status d with
  | closed => exact absurd hstatus (h.opened d hd)
  | opened =>
      refine Or.inl ⟨rfl, ?_, rfl⟩
      rw [← h.capturing, hstatus]
      exact Status.noConfusion
  | capturing => exact Or.inr ⟨rfl, (h.capturing d).mp hstatus⟩

omit [DecidableEq D] in
theorem wp_requireRoute {r : PcapReceiver D}
    (hroute : ∀ route, r.routeDevice = some route → s.status route ≠ .closed)
    {Q : Unit → State D → Prop} {E : String → State D → Prop} (h : Q () s) :
    Wp (r.requireRoute env) Q E s := by
  unfold PcapReceiver.requireRoute
  cases hr : r.routeDevice with
  | none => exact h
  | some route => exact wp_requireOpened (hroute route hr) h

/-- `Receive` on an open device throws exactly when a capture runs on it. -/
theorem wp_receive (hgrants : Grants env since) {r : PcapReceiver D} {d : D}
    (hdevice : r.device = some d) (hd : d ∈ opened)
    (hroute : ∀ route, r.routeDevice = some route → route ∈ opened)
    (h : Up since opened devices s) :
    Wp (r.receive env)
      (fun r' s' => r' = { r with capturing := true } ∧ d ∉ devices ∧
        s' = { s.setStatus d .capturing with clock := s.clock + 1 })
      (fun _ _ => d ∈ devices) s := by
  unfold PcapReceiver.receive
  rw [hdevice]
  simp only [wp_bind]
  apply wp_requireOpened (h.opened d hd)
  apply wp_requireRoute fun route hr => h.opened route (hroute route hr)
  rw [← wp_bind]
  apply (wp_startCapture hgrants hd h).andThen
  intro ok s' hstart
  rw [wp_exitIf]
  rcases hstart with ⟨rfl, hnew, rfl⟩ | ⟨rfl, hmem⟩
  · exact ⟨Bool.noConfusion, fun _ => ⟨rfl, hnew, rfl⟩⟩
  · exact ⟨fun _ => hmem, fun hne => absurd rfl hne⟩

/-- A receiver is started on an open device, unless one captures from it. -/
theorem wp_addReceiver (hgrants : Grants env since) {d : D} {routeDevice : Option D}
    (hd : d ∈ opened) (hroute : ∀ r, routeDevice = some r → r ∈ opened)
    (h : Up since opened devices s) :
    Wp (addReceiver env d routeDevice)
      (fun _ s' => d ∉ devices ∧ Up since opened (devices ++ [d]) s')
      (fun _ _ => d ∈ devices) s := by
  have hallocated : Up since opened devices { s with allocated := s.allocated + 1 } := { h with }
  simp only [addReceiver, wp_bind, wp_state, wp_update, wp_attempt]
  apply (wp_receive hgrants rfl hd hroute hallocated).mono
  · intro r' s' hreceived
    obtain ⟨rfl, hnew, rfl⟩ := hreceived
    exact ⟨hnew, hallocated.tick.setCapturing s.allocated routeDevice⟩
  · intro what s' hmem
    have hidle : PcapReceiver.destroy { id := s.allocated, device := some d, routeDevice } =
      (pure () : CaptureM D Unit) := rfl
    rw [hidle]
    exact hmem

/-! ## Bringing up -/

/-- One interface more is captured from, unless its device is. -/
theorem wp_initIface (hgrants : Grants env since) {iface : String}
    (hfinds : ∀ t, since ≤ t → Finds env t iface (device iface))
    (h : Up since [] devices s) :
    Wp (initIface env iface)
      (fun _ s' => device iface ∉ devices ∧ Up since [] (devices ++ [device iface]) s')
      (fun _ _ => device iface ∈ devices) s := by
  unfold initIface
  apply (wp_resolveCaptureDevice hfinds h).andThen
  intro found s₁ hfound
  obtain ⟨rfl, h₁⟩ := hfound
  apply wp_openDevice_trackOpenedDevice hgrants .pcppInOut h₁
  intro s₂ h₂
  have hroute : ∀ r, none = some r → r ∈ [device iface] := by
    intro r hr
    cases hr
  refine (wp_addReceiver hgrants (List.mem_cons_self ..) hroute h₂).mono ?_ (fun _ _ hmem => hmem)
  intro _ s₃ h₃
  exact ⟨h₃.1, h₃.2.weaken (List.nil_subset _)⟩

/-- The list is captured from to its end, unless a device comes twice. -/
theorem wp_initIfaces (hgrants : Grants env since) (ifaces : List String)
    (hfinds : ∀ iface ∈ ifaces, ∀ t, since ≤ t → Finds env t iface (device iface))
    {devices : List D} {s : State D} (h : Up since [] devices s) (hnodup : devices.Nodup) :
    Wp (initIfaces env ifaces)
      (fun _ s' => (devices ++ ifaces.map device).Nodup ∧
        Up since [] (devices ++ ifaces.map device) s')
      (fun _ _ => ¬(devices ++ ifaces.map device).Nodup) s := by
  induction ifaces generalizing devices s with
  | nil => simpa [initIfaces] using ⟨hnodup, h⟩
  | cons iface rest ih =>
      rw [List.forall_mem_cons] at hfinds
      have hsplit : devices ++ (iface :: rest).map device =
          (devices ++ [device iface]) ++ rest.map device := by simp
      rw [initIfaces, wp_bind, hsplit]
      apply (wp_initIface hgrants hfinds.1 h).mono
      · intro _ s₁ h₁
        apply ih hfinds.2 h₁.2
        rw [← List.concat_eq_append]
        exact hnodup.concat h₁.1
      · intro _ _ hmem hnodup'
        have hleft := (List.nodup_append.mp hnodup').1
        rw [List.nodup_append] at hleft
        exact hleft.2.2 _ hmem _ (List.mem_singleton_self _) rfl

/-- A route is captured from at its ingress, and at its egress when it runs both
ways and the two are different. -/
theorem wp_initRouting (hgrants : Grants env since) (routing : RoutingOptions)
    (hfinds : ∀ iface ∈ [routing.ingressIface, routing.egressIface], ∀ t, since ≤ t →
      Finds env t iface (device iface)) (h : Up since [] [] s) :
    Wp (initRouting env routing)
      (fun _ s' => ((routeIfaces routing).map device).Nodup ∧
        Up since [] ((routeIfaces routing).map device) s')
      (fun _ _ => ¬((routeIfaces routing).map device).Nodup) s := by
  simp only [List.forall_mem_cons] at hfinds
  unfold initRouting
  apply (wp_resolveCaptureDevice hfinds.1 h).andThen
  intro ingress s₁ hingress
  obtain ⟨rfl, h₁⟩ := hingress
  apply (wp_resolveCaptureDevice hfinds.2.1 h₁).andThen
  intro egress s₂ hegress
  obtain ⟨rfl, h₂⟩ := hegress
  apply wp_openDevice_trackOpenedDevice hgrants .pcppIn h₂
  intro s₃ h₃
  apply wp_openDevice_trackOpenedDevice hgrants .pcppIn h₃
  intro s₄ h₄
  rw [wp_bind]
  apply (wp_addReceiver hgrants (by simp) (by simp) h₄).mono
  · intro _ s₅ h₅
    unfold routeIfaces
    rw [wp_ite]
    constructor
    · intro hboth
      simp only [hboth, if_true, List.map_cons, List.map_nil, List.nodup_cons]
      apply (wp_addReceiver hgrants (by simp) (by simp) h₅.2).mono
      · intro _ s₆ h₆
        refine ⟨?_, h₆.2.weaken (List.nil_subset _)⟩
        simpa [eq_comm] using h₆.1
      · intro _ _ hmem
        simpa [eq_comm] using hmem
    · intro hboth
      simp only [hboth, if_false, Bool.false_eq_true]
      exact ⟨List.nodup_singleton _, h₅.2.weaken (List.nil_subset _)⟩
  · intro _ _ hmem
    cases hmem

omit [DecidableEq D] in
/-- The store is built when its options are in order. -/
theorem wp_makeStore (hgrants : Grants env since) {config : RuntimeConfig}
    (hoptions : checkStoreOptions config.redis = .ok ()) (h : Up since opened devices s) :
    Wp (makeStore env config) (fun _ s' => Up since opened devices s') (fun _ _ => False) s := by
  unfold makeStore newStore
  rw [wp_ite, hoptions]
  constructor
  · intro _
    rw [wp_bind, wp_ask, hgrants.store s.clock h.clock]
    exact h.tick
  · intro _
    exact h

/-- **Bringing up comes to its end** exactly when no device is captured from twice. -/
theorem wp_bringUp {config : RuntimeConfig} (hprovided : Provided env config device since)
    (hoptions : checkStoreOptions config.redis = .ok ()) (h : Up since [] [] s) :
    Wp (bringUp env config)
      (fun _ s' => ((captureIfaces config).map device).Nodup ∧
        Up since [] ((captureIfaces config).map device) s')
      (fun _ _ => ¬((captureIfaces config).map device).Nodup) s := by
  have hgrants := hprovided.toGrants
  have hexist := hprovided.exist
  unfold namedIfaces at hexist
  unfold captureIfaces at hexist ⊢
  unfold bringUp
  apply (wp_makeStore hgrants hoptions h).andThen
  intro _ s₁ h₁
  by_cases hrouting : config.routing.enabled = true
  · simp only [hrouting, if_true] at hexist ⊢
    exact wp_initRouting hgrants config.routing hexist h₁
  · by_cases hifaces : config.capture.ifaces = []
    · simp only [hrouting, hifaces, if_true, if_false, Bool.false_eq_true] at hexist ⊢
      apply (wp_initIface hgrants (hexist "" (by simp)) h₁).mono
      · intro _ s₂ h₂
        exact ⟨List.nodup_singleton _, h₂.2⟩
      · intro _ _ hmem
        cases hmem
    · simp only [hrouting, hifaces, if_false, Bool.false_eq_true] at hexist ⊢
      exact wp_initIfaces hgrants config.capture.ifaces hexist h₁ List.nodup_nil

/-! ## The whole call -/

theorem wp_clock_destroyReceivers (rs : List (PcapReceiver D)) {s : State D}
    (h : since ≤ s.clock) :
    Wp (destroyReceivers rs) (fun _ s' => since ≤ s'.clock) (fun _ _ => True) s := by
  induction rs generalizing s with
  | nil => exact h
  | cons r rest ih =>
      have hdestroy : Wp r.destroy (fun _ s' => since ≤ s'.clock) (fun _ _ => True) s := by
        unfold PcapReceiver.destroy PcapReceiver.stop
        cases r.device with
        | none => exact h
        | some d =>
            cases r.capturing with
            | false => exact h
            | true =>
                simp only [if_true, stopCapture, wp_bind, wp_note, wp_update, wp_pure]
                split <;> exact h
      rw [destroyReceivers, wp_bind]
      exact hdestroy.mono (fun _ _ h' => ih h') (fun _ _ h' => h')

theorem wp_clock_closeEach (ds : List D) {s : State D} (h : since ≤ s.clock) :
    Wp (closeEach ds) (fun _ s' => since ≤ s'.clock) (fun _ _ => True) s := by
  induction ds generalizing s with
  | nil => exact h
  | cons d rest ih =>
      have hclose : Wp (closeOpened d) (fun _ s' => since ≤ s'.clock) (fun _ _ => True) s := by
        simp only [closeOpened, isOpened, close, wp_bind, wp_state, wp_pure, wp_ite, wp_note,
          wp_update]
        exact ⟨fun _ => h, fun _ => h⟩
      rw [closeEach, wp_bind]
      exact hclose.mono (fun _ _ h' => ih h') (fun _ _ h' => h')

/-- What is left by an earlier call is dropped, without a question to the library. -/
theorem wpLog_clearReceivers_closeDevices {k : Unit → CaptureM D Unit} (hsound : Sound log s)
    (h : since ≤ s.clock) {Q : Unit → List (Op D) → State D → Prop}
    {E : String → List (Op D) → State D → Prop}
    (hk : ∀ log' s', Dropped log' s' → since ≤ s'.clock → WpLog (k ()) Q E log' s') :
    WpLog (clearReceivers >>= fun _ => closeDevices >>= k) Q E log s := by
  have hclear : WpLog clearReceivers
      (fun _ log' s' => (Sound log' s' ∧ s'.receivers = []) ∧ since ≤ s'.clock)
      (fun _ _ _ => False ∧ True) log s := by
    apply (wpLog_clearReceivers hsound fun _ _ h₁ hreceivers => ⟨h₁, hreceivers⟩).and
    apply wpLog_of_wp
    simp only [clearReceivers, wp_bind, wp_state, wp_update]
    exact wp_clock_destroyReceivers s.receivers h
  rw [wpLog_bind]
  apply hclear.mono _ (fun _ _ _ hfalse => hfalse.1.elim)
  intro _ log₁ s₁ hcleared
  obtain ⟨⟨h₁, hreceivers⟩, hclock⟩ := hcleared
  have hclose : WpLog closeDevices
      (fun _ log' s' => Dropped log' s' ∧ since ≤ s'.clock)
      (fun _ _ _ => False ∧ True) log₁ s₁ := by
    apply (wpLog_closeDevices h₁ hreceivers fun _ _ hdropped => hdropped).and
    apply wpLog_of_wp
    simp only [closeDevices, wp_bind, wp_state, wp_update]
    exact wp_clock_closeEach s₁.openedDevices.reverse hclock
  rw [wpLog_bind]
  apply hclose.mono _ (fun _ _ _ hfalse => hfalse.1.elim)
  intro _ log₂ s₂ hclosed
  exact hk log₂ s₂ hclosed.1 hclosed.2

theorem Dropped.up (h : Dropped log s) (hclock : since ≤ s.clock) : Up since [] [] s where
  opened := by
    intro d hd
    cases hd
  capturing := by
    intro d
    simp [h.closed d]
  receivers := by
    rw [h.receivers]
    rfl
  clock := hclock

/-- Between two calls, `Init` returns with its list captured from, or throws for a
device that is on it twice. -/
theorem wpLog_init {config : RuntimeConfig} (hprovided : Provided env config device since)
    (hoptions : checkStoreOptions config.redis = .ok ()) (hsound : Sound log s)
    (hclock : since ≤ s.clock) :
    WpLog (init env config)
      (fun _ _ s' => ((captureIfaces config).map device).Nodup ∧
        Up since [] ((captureIfaces config).map device) s')
      (fun _ _ _ => ¬((captureIfaces config).map device).Nodup) log s := by
  have hbegun : Sound (log ++ [.init]) s := hsound.idle trivial trivial rfl
  rw [init, wpLog_bind, wpLog_note]
  apply wpLog_clearReceivers_closeDevices hbegun hclock
  intro log' s' hdropped hclock'
  exact wp_bringUp hprovided hoptions (hdropped.up hclock')

theorem Up.oneEach (h : Up since opened devices s) (hnodup : devices.Nodup) :
    OneEach devices s where
  capturing := h.capturing
  receiver := by
    intro d hd
    have hcount : s.receivers.countP (fun r => r.device = some d ∧ r.capturing = true) =
        (s.receivers.map fun r => (r.device, r.capturing)).count (some d, true) := by
      rw [List.count, List.countP_map]
      apply List.countP_congr
      intro r _
      simp
    have hinjective : Function.Injective fun d : D => (some d, true) := by
      intro d d' heq
      simpa using heq
    rw [hcount, h.receivers]
    exact List.count_eq_one_of_mem (hnodup.map hinjective) (List.mem_map_of_mem hd)
  other := by
    intro r hr
    have hmem : (r.device, r.capturing) ∈ devices.map fun d => (some d, true) := by
      rw [← h.receivers]
      exact List.mem_map_of_mem hr
    obtain ⟨d, hd, heq⟩ := List.mem_map.mp hmem
    rw [Prod.mk.injEq] at heq
    exact ⟨d, hd, heq.1.symm⟩

/-! ## The law -/

/-- The options of the store in effect pass its own checks. -/
theorem checkStoreOptions_of_effective {J : Type} {lib : JsonLibrary J} {files : Files J}
    {options : CliOptions} {config : RuntimeConfig}
    (h : loadEffectiveConfig lib files options = .ok config) :
    checkStoreOptions config.redis = .ok () := by
  obtain ⟨file, hfile, hredis, _⟩ := loadEffectiveConfig_frame h
  rw [checkStoreOptions_eq_ok, hredis]
  exact (loadFile_valid hfile).redis

theorem nodup_of_started {config : RuntimeConfig} (hprovided : Provided env config device since)
    (hoptions : checkStoreOptions config.redis = .ok ()) (hsound : Sound log s)
    (hclock : since ≤ s.clock) (h : Started env config device s) :
    ((captureIfaces config).map device).Nodup := by
  obtain ⟨s', hexec, _⟩ := h
  have hinit := wpLog_init hprovided hoptions hsound hclock
  unfold WpLog Wp at hinit
  rw [hexec] at hinit
  exact hinit.1

theorem started_of_nodup {config : RuntimeConfig} (hprovided : Provided env config device since)
    (hoptions : checkStoreOptions config.redis = .ok ()) (hsound : Sound log s)
    (hclock : since ≤ s.clock) (h : ((captureIfaces config).map device).Nodup) :
    Started env config device s := by
  have hinit := wpLog_init hprovided hoptions hsound hclock
  unfold WpLog Wp at hinit
  cases hexec : (init env config).exec s with
  | mk s' result =>
      rw [hexec] at hinit
      cases result with
      | error what => exact absurd h hinit
      | ok u => exact ⟨s', hexec, hinit.2.oneEach h⟩

omit [DecidableEq D] in
/-- When the devices found have the names asked for, two of them are one exactly
when a name comes twice. -/
theorem nodup_devices_iff_nodup {ifaces : List String}
    (hname : ∀ iface ∈ ifaces, env.name (device iface) = iface) :
    (ifaces.map device).Nodup ↔ ifaces.Nodup := by
  constructor
  · exact List.Nodup.of_map device
  · intro h
    apply h.map_on
    intro iface hiface iface' hiface' heq
    rw [← hname iface hiface, heq, hname iface' hiface']

/-- **A configuration in effect can be started exactly when** no two of the
interfaces on its list are one device: not on the list of interfaces, and not the
two ends of a route that runs both ways. -/
theorem init_started_iff_nodup {J : Type} (lib : JsonLibrary J) (files : Files J)
    (options : CliOptions) (config : RuntimeConfig)
    (hconfig : loadEffectiveConfig lib files options = .ok config) (env : Environment D)
    (earlier : List RuntimeConfig) (device : String → D)
    (hprovided : Provided env config device (stateAfter env earlier).clock) :
    Started env config device (stateAfter env earlier) ↔
      ((captureIfaces config).map device).Nodup := by
  have hoptions := checkStoreOptions_of_effective hconfig
  have hsound := sound_stateAfter env earlier
  constructor
  · exact nodup_of_started hprovided hoptions hsound (Nat.le_refl _)
  · exact started_of_nodup hprovided hoptions hsound (Nat.le_refl _)

end

/-- Two interfaces that open and can be captured from. -/
def twoInterfaces : Environment String where
  name := id
  devicesList := fun _ => ["eth0", "eth1"]
  deviceByName := fun _ iface => if iface ∈ ["eth0", "eth1"] then some iface else none
  opens := fun _ _ => true
  starts := fun _ _ => true
  store := fun _ => none

theorem provided_twoInterfaces {config : RuntimeConfig}
    (h : ∀ iface ∈ namedIfaces config, iface ∈ ["eth0", "eth1"]) :
    Provided twoInterfaces config id 0 where
  exist := by
    intro iface hiface t _
    have hmem := h iface hiface
    have hempty : iface ≠ "" := by
      rintro rfl
      revert hmem
      decide
    rw [Finds, if_neg hempty]
    exact if_pos hmem
  opens := fun _ _ _ => rfl
  starts := fun _ _ _ => rfl
  store := fun _ _ => rfl

theorem init_started_twoInterfaces :
    Started twoInterfaces { capture := { ifaces := ["eth0", "eth1"] } } id
      (stateAfter twoInterfaces []) := by
  apply (init_started_iff_nodup Json.library shippedFiles { ifaces := ["eth0", "eth1"] }
    { capture := { ifaces := ["eth0", "eth1"] } } rfl twoInterfaces [] id
    (provided_twoInterfaces (by decide))).mpr
  decide

/-- The command line is accepted, everything it needs is there, and the service
does not start. -/
def AcceptedNotStarted (argv : List String) : Prop :=
  ∃ options config, parseArguments argv = .ok options ∧
    loadEffectiveConfig Json.library shippedFiles options = .ok config ∧
      Provided twoInterfaces config id 0 ∧ ¬Started twoInterfaces config id State.initial

theorem not_started_twoInterfaces {config : RuntimeConfig}
    (hoptions : checkStoreOptions config.redis = .ok ())
    (hnames : ∀ iface ∈ namedIfaces config, iface ∈ ["eth0", "eth1"])
    (htwice : ¬((captureIfaces config).map id).Nodup) :
    Provided twoInterfaces config id 0 ∧ ¬Started twoInterfaces config id State.initial := by
  have hprovided := provided_twoInterfaces hnames
  refine ⟨hprovided, ?_⟩
  intro h
  exact htwice (nodup_of_started hprovided hoptions sound_initial (Nat.zero_le _) h)

/-- One interface named twice, and a route from an interface to itself that runs
both ways, are accepted and never start. -/
theorem repeated_interface_not_started :
    AcceptedNotStarted ["elephantshrew", "-i", "eth0", "-i", "eth0"] ∧
      AcceptedNotStarted ["elephantshrew", "--route", "eth0:eth0", "--bidirectional"] := by
  constructor
  · exact ⟨_, _, rfl, rfl, not_started_twoInterfaces rfl (by decide) (by decide)⟩
  · exact ⟨_, _, rfl, rfl, not_started_twoInterfaces rfl (by decide) (by decide)⟩

end ElephantShrew.Capture
