import Mathlib.Data.List.Induction
import ElephantShrew.Capture.Startable
import ElephantShrew.Capture.Recording
import ElephantShrew.Capture.TrafficLaw

/-!
# The bridge

`Init` opens the devices of a route for packets that come in only.  So a packet
that the program has put on a device is not captured again, and every packet that
comes in on one end of the route is offered to the other end once.
-/

namespace ElephantShrew.Capture

open ElephantShrew.Verified
open ElephantShrew.Verified.ExitM
open ElephantShrew.Config

variable {D : Type} [DecidableEq D] {env : Environment D} {log : List (Op D)} {s : State D}
  {dir : Direction}

/-! ## The directions of the devices -/

/-- What an operation makes of the directions. -/
def Op.direct (directions : D → Option Direction) : Op D → D → Option Direction
  | .openDevice device direction true => Function.update directions device (some direction)
  | .closeDevice device => Function.update directions device none
  | _ => directions

/-- The direction each device was opened with, after the operations of the log. -/
def directionAfter (log : List (Op D)) : D → Option Direction := log.foldl Op.direct fun _ => none

theorem directionAfter_concat (log : List (Op D)) (op : Op D) :
    directionAfter (log ++ [op]) = op.direct (directionAfter log) := by
  simp [directionAfter]

/-- The direction a device captures in. -/
def capturesOf (log : List (Op D)) (s : State D) (device : D) : Option Direction :=
  if s.status device = .capturing then directionAfter log device else none

/-- A device that is closed has no direction. -/
theorem directionAfter_of_closed (log : List (Op D)) (d : D) (h : statusAfter log d = .closed) :
    directionAfter log d = none := by
  induction log using List.reverseRecOn with
  | nil => rfl
  | append_singleton log op ih =>
      rw [statusAfter_concat] at h
      rw [directionAfter_concat]
      have keep : (∀ dirs : D → Option Direction, op.direct dirs = dirs) →
          (op.apply (statusAfter log) d = .closed → statusAfter log d = .closed) →
          op.direct (directionAfter log) d = none := by
        intro hdirect happly
        rw [hdirect]
        exact ih (happly h)
      cases op with
      | init => exact keep (fun _ => rfl) id
      | openDevice device direction ok =>
          cases ok with
          | true =>
              by_cases hd : d = device
              · simp [Op.apply, hd] at h
              · simp only [Op.apply, Function.update_of_ne hd] at h
                simpa [Op.direct, hd] using ih h
          | false => exact keep (fun _ => rfl) id
      | closeDevice device =>
          by_cases hd : d = device
          · simp [Op.direct, hd]
          · simp only [Op.apply, Function.update_of_ne hd] at h
            simpa [Op.direct, hd] using ih h
      | startCapture id device ok =>
          cases ok with
          | true =>
              apply keep (fun _ => rfl)
              by_cases hd : d = device
              · simp [Op.apply, hd]
              · simp [Op.apply, hd]
          | false => exact keep (fun _ => rfl) (fun h => h)
      | stopCapture id device =>
          apply keep (fun _ => rfl)
          by_cases hd : d = device
          · subst hd
            by_cases hcapturing : statusAfter log d = .capturing <;>
              simp [Op.apply, hcapturing]
          · by_cases hcapturing : statusAfter log device = .capturing <;>
              simp [Op.apply, hcapturing, hd]

/-- Whatever is open was opened in one direction. -/
def Facing (dir : Direction) (log : List (Op D)) (s : State D) : Prop :=
  ∀ d, directionAfter log d = if s.status d = .closed then none else some dir

theorem Dropped.facing (h : Dropped log s) (dir : Direction) : Facing dir log s := by
  intro d
  have hclosed := h.closed d
  rw [if_pos hclosed]
  apply directionAfter_of_closed
  rw [← h.sound.status_eq]
  exact hclosed

/-- An operation that opens and closes nothing. -/
theorem Facing.concat (h : Facing dir log s) {op : Op D} {s' : State D}
    (hop : ∀ dirs : D → Option Direction, op.direct dirs = dirs)
    (hstatus : ∀ d, s'.status d = .closed ↔ s.status d = .closed) :
    Facing dir (log ++ [op]) s' := by
  intro d
  rw [directionAfter_concat, hop, h d]
  simp only [hstatus]

theorem Facing.opened (h : Facing dir log s) (device : D) {s' : State D}
    (hstatus : s'.status = Function.update s.status device .opened) :
    Facing dir (log ++ [.openDevice device dir true]) s' := by
  intro d
  rw [directionAfter_concat, hstatus]
  by_cases hd : d = device
  · simp [Op.direct, hd]
  · simpa [Op.direct, hd] using h d

/-! ## What `Init` makes -/

/-- Bringing up so far: what is open faces one way, and these receivers run. -/
def Made (dir : Direction) (ends : List (D × Option D)) (log : List (Op D))
    (s : State D) : Prop :=
  Facing dir log s ∧
    s.receivers.map (fun r => (r.device, r.routeDevice)) = ends.map fun e => (some e.1, e.2)

variable {ends : List (D × Option D)}

/-- The computation, if it returns, has made so much. -/
def Makes {α : Type} (x : CaptureM D α) (Q : α → List (Op D) → State D → Prop)
    (log : List (Op D)) (s : State D) : Prop :=
  WpLog x Q (fun _ _ _ => True) log s

theorem made_resolveCaptureDevice (iface : String) (h : Made dir ends log s) :
    Makes (resolveCaptureDevice env iface)
      (fun device log' s' => (∃ t, Finds env t iface device) ∧ Made dir ends log' s') log s := by
  unfold Makes resolveCaptureDevice
  rw [wpLog_ite]
  constructor
  · intro hempty
    rw [wpLog_bind, wpLog_ask]
    cases hlist : env.devicesList s.clock with
    | nil => simp
    | cons device rest =>
        rw [wpLog_pure]
        refine ⟨⟨s.clock, ?_⟩, h⟩
        rw [Finds, if_pos hempty, hlist]
        rfl
  · intro hempty
    rw [wpLog_bind, wpLog_ask]
    cases hfound : env.deviceByName s.clock iface with
    | none => simp
    | some device =>
        rw [wpLog_pure]
        refine ⟨⟨s.clock, ?_⟩, h⟩
        rw [Finds, if_neg hempty]
        exact hfound

/-- A device is opened, unless it is open, and tracked. -/
theorem made_open {α : Type} (device : D) {k : Unit → CaptureM D α}
    {Q : α → List (Op D) → State D → Prop} (h : Made dir ends log s)
    (hk : ∀ log' s', Made dir ends log' s' → Makes (k ()) Q log' s') :
    Makes (openDevice env device dir >>= fun _ => trackOpenedDevice device >>= k) Q log s := by
  unfold Makes at hk ⊢
  simp only [openDevice, isOpened, wpLog_bind, wpLog_state, wpLog_pure, wpLog_ite]
  constructor
  · intro _
    simp only [trackOpenedDevice, wpLog_update]
    exact hk _ _ h
  · intro _
    simp only [openLive, trackOpenedDevice, wpLog_bind, wpLog_ask, wpLog_note, wpLog_update,
      wpLog_pure, wpLog_exitIf]
    refine ⟨fun _ => trivial, fun hok => ?_⟩
    rw [Bool.not_eq_false] at hok
    rw [hok]
    exact hk _ _ ⟨h.1.opened device rfl, h.2⟩

theorem made_addReceiver (device : D) (routeDevice : Option D) (h : Made dir ends log s) :
    Makes (addReceiver env device routeDevice)
      (fun _ => Made dir (ends ++ [(device, routeDevice)])) log s := by
  unfold Makes
  simp only [addReceiver, wpLog_bind, wpLog_state, wpLog_update, wpLog_attempt]
  apply wpLog_receive rfl
  · intro what
    apply wpLog_destroy_idle rfl
    rw [wpLog_exit]
    trivial
  · intro what n
    apply wpLog_destroy_idle rfl
    rw [wpLog_exit]
    trivial
  · intro n hopened
    refine ⟨h.1.concat (fun _ => rfl) ?_, by simp [h.2, State.setStatus]⟩
    intro d
    by_cases hd : d = device
    · have hnot : s.status device ≠ .closed := by
        rw [show s.status device = .opened from hopened]
        simp
      simp [State.setStatus, hd, hnot]
    · simp [State.setStatus, hd]

/-- The receivers of a route, with the devices they capture from and forward to. -/
def routeOf (routing : RoutingOptions) (ingress egress : D) : List (D × Option D) :=
  if routing.bidirectional then [(ingress, some egress), (egress, some ingress)]
  else [(ingress, some egress)]

/-- The receivers that `Init` has made for the ends of a route. -/
def MadeRoute (env : Environment D) (routing : RoutingOptions) (log : List (Op D))
    (s : State D) : Prop :=
  ∃ ingress egress, (∃ t, Finds env t routing.ingressIface ingress) ∧
    (∃ t, Finds env t routing.egressIface egress) ∧
      Made .pcppIn (routeOf routing ingress egress) log s

theorem made_initRouting (routing : RoutingOptions) (h : Made .pcppIn [] log s) :
    Makes (initRouting env routing) (fun _ => MadeRoute env routing) log s := by
  unfold Makes initRouting
  rw [wpLog_bind]
  apply (made_resolveCaptureDevice _ h).mono _ (fun _ _ _ h => h)
  intro ingress log₁ s₁ h₁
  rw [wpLog_bind]
  apply (made_resolveCaptureDevice _ h₁.2).mono _ (fun _ _ _ h => h)
  intro egress log₂ s₂ h₂
  apply made_open ingress h₂.2
  intro log₃ s₃ h₃
  apply made_open egress h₃
  intro log₄ s₄ h₄
  unfold Makes
  rw [wpLog_bind]
  apply (made_addReceiver ingress (some egress) h₄).mono _ (fun _ _ _ h => h)
  intro _ log₅ s₅ h₅
  rw [wpLog_ite]
  constructor
  · intro hboth
    apply (made_addReceiver egress (some ingress) h₅).mono _ (fun _ _ _ h => h)
    intro _ log₆ s₆ h₆
    refine ⟨ingress, egress, h₁.1, h₂.1, ?_⟩
    rw [routeOf, if_pos hboth]
    exact h₆
  · intro hone
    rw [wpLog_pure]
    refine ⟨ingress, egress, h₁.1, h₂.1, ?_⟩
    rw [routeOf, if_neg hone]
    exact h₅

/-- The receivers that `Init` has made for a list of interfaces. -/
def MadeIfaces (log : List (Op D)) (s : State D) : Prop :=
  ∃ devices : List D, Made .pcppInOut (devices.map fun d => (d, none)) log s

theorem made_initIface (iface : String) (h : MadeIfaces log s) :
    Makes (initIface env iface) (fun _ => MadeIfaces) log s := by
  obtain ⟨devices, h⟩ := h
  unfold Makes initIface
  rw [wpLog_bind]
  apply (made_resolveCaptureDevice _ h).mono _ (fun _ _ _ h => h)
  intro device log₁ s₁ h₁
  apply made_open device h₁.2
  intro log₂ s₂ h₂
  apply (made_addReceiver device none h₂).mono _ (fun _ _ _ h => h)
  intro _ log₃ s₃ h₃
  refine ⟨devices ++ [device], ?_⟩
  rw [List.map_append]
  exact h₃

theorem made_initIfaces (ifaces : List String) (h : MadeIfaces log s) :
    Makes (initIfaces env ifaces) (fun _ => MadeIfaces) log s := by
  induction ifaces generalizing log s with
  | nil =>
      unfold Makes initIfaces
      rw [wpLog_pure]
      exact h
  | cons iface rest ih =>
      unfold Makes initIfaces
      rw [wpLog_bind]
      exact (made_initIface iface h).mono (fun _ _ _ h => ih h) (fun _ _ _ h => h)

omit [DecidableEq D] in
/-- The store does not touch the devices. -/
theorem made_makeStore (config : RuntimeConfig) {P : List (Op D) → State D → Prop}
    (hP : ∀ n, P log { s with clock := n }) :
    Makes (makeStore env config) (fun _ => P) log s := by
  have hnow := hP s.clock
  unfold Makes makeStore newStore
  rw [wpLog_ite]
  constructor
  · intro _
    cases checkStoreOptions config.redis with
    | error what => simp
    | ok u =>
        dsimp only
        rw [wpLog_bind, wpLog_ask]
        cases env.store s.clock with
        | none => simpa using hP _
        | some what => simp
  · intro _
    rw [wpLog_pure]
    exact hnow

/-- **What `Init` makes**: both ends of a route for packets that come in, or the
interfaces of a list for all packets and no route. -/
theorem made_init (config : RuntimeConfig) (h : Sound log s) :
    Makes (init env config) (fun _ log' s' => Sound log' s' ∧
      if config.routing.enabled then MadeRoute env config.routing log' s' else MadeIfaces log' s')
      log s := by
  have hsound : WpLog (init env config) (fun _ => Sound) (fun _ => Sound) log s :=
    keeps_init config log s h
  have hmade : Makes (init env config) (fun _ log' s' =>
      if config.routing.enabled then MadeRoute env config.routing log' s' else MadeIfaces log' s')
      log s := by
    unfold Makes
    simp only [init, wpLog_bind, wpLog_note]
    have hbegun : Sound (log ++ [.init]) s := h.idle trivial trivial rfl
    apply wpLog_clearReceivers hbegun
    intro log₁ s₁ h₁ hreceivers
    apply wpLog_closeDevices h₁ hreceivers
    intro log₂ s₂ h₂
    have hfresh : ∀ n dir, Made dir [] log₂ { s₂ with clock := n } := by
      intro n dir
      refine ⟨h₂.facing dir, ?_⟩
      show s₂.receivers.map _ = []
      rw [h₂.receivers]
      rfl
    unfold bringUp
    rw [wpLog_bind]
    apply (made_makeStore (P := fun log s => ∀ dir, Made dir [] log s) config hfresh).mono _
      (fun _ _ _ h => h)
    intro _ log₃ s₃ h₃
    rw [wpLog_ite]
    constructor
    · intro henabled
      apply (made_initRouting config.routing (h₃ .pcppIn)).mono _ (fun _ _ _ h => h)
      intro _ log₄ s₄ h₄
      rw [if_pos henabled]
      exact h₄
    · intro hdisabled
      have hnone : MadeIfaces log₃ s₃ := ⟨[], h₃ .pcppInOut⟩
      rw [wpLog_ite]
      constructor
      · intro _
        apply (made_initIface "" hnone).mono _ (fun _ _ _ h => h)
        intro _ log₄ s₄ h₄
        rw [if_neg hdisabled]
        exact h₄
      · intro _
        apply (made_initIfaces config.capture.ifaces hnone).mono _ (fun _ _ _ h => h)
        intro _ log₄ s₄ h₄
        rw [if_neg hdisabled]
        exact h₄
  exact (hsound.and hmade).mono (fun _ _ _ h => h) (fun _ _ _ _ => trivial)

/-! ## The receivers that run -/

/-- The receivers of `Init`, as they run. -/
def runningOf (config : RuntimeConfig) (s : State D) : List (RunningReceiver D) :=
  s.receivers.filterMap (PcapReceiver.running config)

omit [DecidableEq D] in
theorem runningOf_map {config : RuntimeConfig}
    (h : s.receivers.map (fun r => (r.device, r.routeDevice)) =
      ends.map fun e => (some e.1, e.2)) :
    (runningOf config s).map (fun r => (r.device, r.routeDevice)) = ends := by
  unfold runningOf
  generalize s.receivers = receivers at h
  induction receivers generalizing ends with
  | nil =>
      rw [List.map_nil, eq_comm, List.map_eq_nil_iff] at h
      rw [h]
      rfl
  | cons r rest ih =>
      cases ends with
      | nil => cases h
      | cons e ends =>
          rw [List.map_cons, List.map_cons, List.cons.injEq, Prod.mk.injEq] at h
          obtain ⟨⟨hdevice, hroute⟩, hrest⟩ := h
          simp [PcapReceiver.running, hdevice, hroute, ih hrest]

/-- The device a receiver captures from does so in the direction it was opened. -/
theorem Made.captures (h : Made dir ends log s) (hsound : Sound log s) {a : D}
    {route : Option D} (ha : (a, route) ∈ ends) : capturesOf log s a = some dir := by
  have hmem : (some a, route) ∈ s.receivers.map fun r => (r.device, r.routeDevice) := by
    rw [h.2]
    exact List.mem_map_of_mem (f := fun e => (some e.1, e.2)) ha
  obtain ⟨r, hr, heq⟩ := List.mem_map.mp hmem
  rw [Prod.mk.injEq] at heq
  obtain ⟨-, d, hd, hcapturing⟩ := hsound.running.device r hr
  have hsame : d = a := Option.some.inj (hd.symm.trans heq.1)
  rw [hsame] at hcapturing
  rw [capturesOf, if_pos hcapturing, h.1 a, hcapturing]
  rfl

/-- No device has two receivers. -/
theorem Made.nodup (h : Made dir ends log s) (hsound : Sound log s) :
    (ends.map Prod.fst).Nodup := by
  have hnodup : (s.receivers.map PcapReceiver.device).Nodup := hsound.running.distinct
  have hdevices : s.receivers.map PcapReceiver.device = (ends.map Prod.fst).map some := by
    have hfirst := congrArg (List.map Prod.fst) h.2
    rw [List.map_map, List.map_map] at hfirst
    rw [List.map_map]
    exact hfirst
  rw [hdevices] at hnodup
  exact hnodup.of_map some

/-- A route that runs both ways joins two devices. -/
theorem Made.ends_ne {routing : RoutingOptions} {a b : D}
    (h : Made dir (routeOf routing a b) log s) (hsound : Sound log s)
    (hboth : routing.bidirectional = true) : a ≠ b := by
  have hnodup := h.nodup hsound
  rw [routeOf, if_pos hboth] at hnodup
  simpa using hnodup

/-! ## The law -/

variable {Buffer : Type} {lib : CaptureLibrary Buffer}
  {pending : Buffer → List (Origin × RawPacket)}

/-- What is captured on one device came in there, and is offered to the other, once
each and in order, or waits; the program puts there what was sent of it and nothing
else. -/
structure Bridges (lib : CaptureLibrary Buffer) (pending : Buffer → List (Origin × RawPacket))
    (a b : D) (t : Traffic D Buffer) : Prop where
  captured : List.Sublist (t.handled a ++ pending (t.buffers a))
    ((t.wire a).filter fun e => e.1 = .outside)
  lossless : lib.Lossless pending →
    t.handled a ++ pending (t.buffers a) = (t.wire a).filter fun e => e.1 = .outside
  offered : (offers b t.log).map Prod.fst = (t.handled a).map Prod.snd
  sent : ofOrigin .program (t.wire b) = accepted (offers b t.log)

/-- The program puts nothing on the device. -/
structure Spared (d : D) (t : Traffic D Buffer) : Prop where
  offered : offers d t.log = []
  sent : ofOrigin .program (t.wire d) = []

/-- The receiver of the device is handed what passes, in order. -/
structure Watched (lib : CaptureLibrary Buffer) (pending : Buffer → List (Origin × RawPacket))
    (d : D) (t : Traffic D Buffer) : Prop where
  captured : List.Sublist (t.handled d ++ pending (t.buffers d)) (t.wire d)
  lossless : lib.Lossless pending → t.handled d ++ pending (t.buffers d) = t.wire d

section Ends

variable {config : RuntimeConfig} {penv : PacketEnvironment D} {t : Traffic D Buffer}

/-- Routes that lead from different devices to different devices. -/
def Apart (ends : List (D × Option D)) : Prop :=
  ∀ e ∈ ends, ∀ e' ∈ ends, ∀ d, e'.2 = some d → (e.2 = some d ↔ e.1 = e'.1)

omit [DecidableEq D] in
theorem apart_unrouted (devices : List D) : Apart (devices.map fun d => (d, none)) := by
  simp [Apart]

omit [DecidableEq D] in
theorem apart_routeOf {routing : RoutingOptions} {a b : D}
    (h : routing.bidirectional = true → a ≠ b) : Apart (routeOf routing a b) := by
  unfold routeOf
  split
  · next hboth => simp [Apart, h hboth, (h hboth).symm]
  · simp [Apart]

/-- The receivers of such ends keep to them. -/
theorem Made.separate (h : Made dir ends log s) (hends : Apart ends) :
    Separate (runningOf config s) := by
  have hmem : ∀ r ∈ runningOf config s, (r.device, r.routeDevice) ∈ ends := by
    intro r hr
    rw [← runningOf_map h.2]
    exact List.mem_map_of_mem (f := fun r => (r.device, r.routeDevice)) hr
  intro r hr r' hr' d hroute
  exact hends _ (hmem r hr) _ (hmem r' hr') d hroute

theorem Made.bridges (h : Made .pcppIn ends log s) (hsound : Sound log s)
    (hcaptured : Captured lib pending (capturesOf log s) t)
    (hcarried : Carried (runningOf config s) t) {a b : D} (hab : (a, some b) ∈ ends) :
    Bridges lib pending a b t := by
  have htakes := hcaptured a
  rw [h.captures hsound hab] at htakes
  rw [← runningOf_map h.2] at hab
  obtain ⟨r, hr, hre⟩ := List.mem_map.mp hab
  injection hre with hdevice hroute
  subst hdevice
  constructor
  case captured =>
    have hincoming := htakes.sublist.filter fun e => e.1 = .outside
    rwa [List.filter_eq_self.mpr fun e he => decide_eq_true (htakes.incoming rfl e he)]
      at hincoming
  case lossless => exact fun hl => (htakes.lossless hl).1 rfl
  case offered => exact hcarried.offered r hr b hroute
  case sent => exact hcarried.sent b

theorem Made.spared (h : Made dir ends log s) (hcarried : Carried (runningOf config s) t) {d : D}
    (hd : ∀ e ∈ ends, e.2 ≠ some d) : Spared d t := by
  have hnone : offers d t.log = [] := by
    apply hcarried.unrouted
    intro r hr
    have hmem := List.mem_map_of_mem (f := fun r => (r.device, r.routeDevice)) hr
    rw [runningOf_map h.2] at hmem
    exact hd _ hmem
  constructor
  · exact hnone
  · rw [hcarried.sent d, hnone]
    rfl

end Ends

/-- What the receivers of a configuration make of the traffic. -/
structure Carries (env : Environment D) (config : RuntimeConfig) (log : List (Op D))
    (s : State D) (penv : PacketEnvironment D) (lib : CaptureLibrary Buffer)
    (pending : Buffer → List (Origin × RawPacket)) : Prop where
  routed : config.routing.enabled = true → ∃ ingress egress,
    (∃ t, Finds env t config.routing.ingressIface ingress) ∧
    (∃ t, Finds env t config.routing.egressIface egress) ∧
    ∀ tr t, (Traffic.system lib penv (capturesOf log s) (runningOf config s)).Run tr t →
      Bridges lib pending ingress egress t ∧
      (config.routing.bidirectional = true →
        ingress ≠ egress ∧ Bridges lib pending egress ingress t) ∧
      ∀ d, d ≠ egress → (config.routing.bidirectional = true → d ≠ ingress) → Spared d t
  unrouted : config.routing.enabled = false →
    ∀ tr t, (Traffic.system lib penv (capturesOf log s) (runningOf config s)).Run tr t →
      ∀ d, Spared d t ∧ (s.status d = .capturing → Watched lib pending d t)

/-- **The bridge.**  When `Init` has returned, every packet that is captured on an end
of the route came in there and crosses it once, in its turn, and none that the
program has sent comes back; without a route the program sends nothing. -/
theorem bridge_carries (env : Environment D) (earlier : List RuntimeConfig)
    (config : RuntimeConfig) (s : State D)
    (hinit : (init env config).exec (stateAfter env earlier) = (s, .ok ()))
    (penv : PacketEnvironment D) (lib : CaptureLibrary Buffer)
    (pending : Buffer → List (Origin × RawPacket)) (hdoc : lib.Documented pending) :
    Carries env config
      (logAfter env earlier ++ (init env config).trace (stateAfter env earlier)) s penv lib
      pending := by
  have hmade : Makes (init env config) _ _ _ := made_init config (sound_stateAfter env earlier)
  unfold Makes WpLog Wp at hmade
  rw [hinit] at hmade
  generalize logAfter env earlier ++ (init env config).trace (stateAfter env earlier) = log
    at hmade
  obtain ⟨hsound, hmade⟩ := hmade
  constructor
  case routed =>
    intro henabled
    rw [if_pos henabled] at hmade
    obtain ⟨a, b, ha, hb, hmade⟩ := hmade
    refine ⟨a, b, ha, hb, ?_⟩
    intro tr t hrun
    have hne := hmade.ends_ne hsound
    obtain ⟨hcaptured, hcarried⟩ := carried_run hdoc (hmade.separate (apart_routeOf hne)) hrun
    cases hboth : config.routing.bidirectional with
    | true =>
        rw [routeOf, if_pos hboth] at hmade
        refine ⟨hmade.bridges hsound hcaptured hcarried (by simp),
          fun _ => ⟨hne hboth, hmade.bridges hsound hcaptured hcarried (by simp)⟩, ?_⟩
        intro d hdb hda
        apply hmade.spared hcarried
        simpa using ⟨Ne.symm hdb, Ne.symm (hda rfl)⟩
    | false =>
        rw [routeOf, if_neg (by simp [hboth])] at hmade
        refine ⟨hmade.bridges hsound hcaptured hcarried (by simp), nofun, ?_⟩
        intro d hdb _
        apply hmade.spared hcarried
        simpa using Ne.symm hdb
  case unrouted =>
    intro hdisabled tr t hrun d
    rw [if_neg (by simp [hdisabled])] at hmade
    obtain ⟨devices, hmade⟩ := hmade
    obtain ⟨hcaptured, hcarried⟩ := carried_run hdoc (hmade.separate (apart_unrouted devices)) hrun
    refine ⟨hmade.spared hcarried (by simp), ?_⟩
    intro hcapturing
    have htakes := hcaptured d
    have hdir : capturesOf log s d = some .pcppInOut := by
      rw [capturesOf, if_pos hcapturing, hmade.1 d, hcapturing]
      rfl
    rw [hdir] at htakes
    exact ⟨htakes.sublist, fun hl => (htakes.lossless hl).2 rfl⟩

/-- A library whose buffers hold so many packets. -/
def boundedLibrary (limit : Nat) : CaptureLibrary (List (Origin × RawPacket)) where
  empty := []
  passes dir e b :=
    if (dir = .pcppIn ∧ e.1 ≠ .outside) ∨ limit ≤ b.length then b else b ++ [e]
  handOver
    | [] => none
    | e :: b => some (e, b)

theorem boundedLibrary_documented (limit : Nat) : (boundedLibrary limit).Documented id where
  empty := rfl
  passes := by
    intro dir e b
    simp only [boundedLibrary, id]
    split
    · exact Or.inl rfl
    · exact Or.inr rfl
  incoming := by
    intro e b he
    simp only [boundedLibrary, id]
    exact if_pos (Or.inl ⟨trivial, he⟩)
  handOver := by
    intro b e b' h
    cases b with
    | nil => cases h
    | cons e' rest =>
        injection h with h
        injection h with he hrest
        rw [id, id, he, hrest]

/-- A packet of one byte. -/
def framed (byte : UInt8) : RawPacket where
  data := [byte]
  sec := 1
  nsec := 0
  length_lt := by simp

/-- A route that runs both ways between two interfaces, with room for two packets in
a capture: of three that come in on `eth0` the third is lost, and the other two
cross, as does one that comes in on `eth1`. -/
theorem bridge_carries_twoInterfaces : ∃ s log t,
    Carries twoInterfaces { routing := ⟨true, "eth0", "eth1", true⟩ } log s (link fun _ => true)
      (boundedLibrary 2) id ∧
    (∃ tr, (Traffic.system (boundedLibrary 2) (link fun _ => true) (capturesOf log s)
      (runningOf { routing := ⟨true, "eth0", "eth1", true⟩ } s)).Run tr t) ∧
    offers "eth1" t.log = [(framed 1, true), (framed 2, true)] ∧
    offers "eth0" t.log = [(framed 4, true)] ∧
    t.wire "eth0" = [(.outside, framed 1), (.outside, framed 2), (.outside, framed 3),
      (.program, framed 4)] := by
  have start : (Traffic.system (boundedLibrary 2) (link fun _ => true)
      (capturesOf (logAfter twoInterfaces [] ++
          (init twoInterfaces { routing := ⟨true, "eth0", "eth1", true⟩ }).trace
            (stateAfter twoInterfaces []))
        ((init twoInterfaces { routing := ⟨true, "eth0", "eth1", true⟩ }).exec
          (stateAfter twoInterfaces [])).1)
      (runningOf { routing := ⟨true, "eth0", "eth1", true⟩ }
        ((init twoInterfaces { routing := ⟨true, "eth0", "eth1", true⟩ }).exec
          (stateAfter twoInterfaces [])).1)).Run [] (.initial (boundedLibrary 2)) := .init rfl
  have captured := ((start.act (.arrives "eth0" (framed 1)) rfl).act
    (.arrives "eth0" (framed 2)) rfl).act (.arrives "eth0" (framed 3)) rfl
  have crossed := (captured.act (.handles 0) rfl).act (.handles 0) rfl
  have run := (crossed.act (.arrives "eth1" (framed 4)) rfl).act (.handles 1) rfl
  exact ⟨_, _, _, bridge_carries twoInterfaces [] { routing := ⟨true, "eth0", "eth1", true⟩ } _
    rfl (link fun _ => true) (boundedLibrary 2) id (boundedLibrary_documented 2), ⟨_, run⟩,
    rfl, rfl, rfl⟩

end ElephantShrew.Capture
