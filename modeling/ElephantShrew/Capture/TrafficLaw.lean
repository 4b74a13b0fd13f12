import ElephantShrew.Capture.Traffic

/-!
# What becomes of a packet

What a capture takes in is handed to its receiver once, in its turn; a receiver
with a route offers to it what it is handed, and what is accepted has passed the
route's device, put there by the program.
-/

namespace ElephantShrew.Capture

open ElephantShrew.Verified
open ElephantShrew.Verified.ExitM

variable {D Buffer : Type} [DecidableEq D] {lib : CaptureLibrary Buffer}
  {pending : Buffer → List (Origin × RawPacket)} {env : PacketEnvironment D}
  {captures : D → Option Direction} {receivers : List (RunningReceiver D)}
  {t t' : Traffic D Buffer}

/-- The packets of an origin among those that passed. -/
def ofOrigin (origin : Origin) (entries : List (Origin × RawPacket)) : List RawPacket :=
  (entries.filter fun e => e.1 = origin).map Prod.snd

/-- What was sent of what was offered. -/
def accepted (offers : List (RawPacket × Bool)) : List RawPacket :=
  (offers.filter Prod.snd).map Prod.fst

/-- No two receivers share a route without sharing the device. -/
def Separate (receivers : List (RunningReceiver D)) : Prop :=
  ∀ r ∈ receivers, ∀ r' ∈ receivers, ∀ d, r'.routeDevice = some d →
    (r.routeDevice = some d ↔ r.device = r'.device)

/-! ## What a capture takes in -/

/-- `taken` is what a capture in a direction may take in of what has passed. -/
structure Takes (lib : CaptureLibrary Buffer) (pending : Buffer → List (Origin × RawPacket))
    (dir : Option Direction) (passed taken : List (Origin × RawPacket)) : Prop where
  sublist : List.Sublist taken passed
  incoming : dir = some .pcppIn → ∀ e ∈ taken, e.1 = .outside
  /-- all of it, in a library that loses nothing -/
  lossless : lib.Lossless pending →
    (dir = some .pcppIn → taken = passed.filter fun e => e.1 = .outside) ∧
      (dir = some .pcppInOut → taken = passed)

theorem Takes.nil (dir : Option Direction) : Takes lib pending dir [] [] :=
  ⟨.slnil, fun _ _ he => absurd he List.not_mem_nil, fun _ => ⟨fun _ => rfl, fun _ => rfl⟩⟩

theorem Takes.append {dir : Option Direction}
    {passed passed' taken taken' : List (Origin × RawPacket)}
    (h : Takes lib pending dir passed taken) (h' : Takes lib pending dir passed' taken') :
    Takes lib pending dir (passed ++ passed') (taken ++ taken') where
  sublist := h.sublist.append h'.sublist
  incoming := by
    intro hdir e he
    rcases List.mem_append.mp he with he | he
    · exact h.incoming hdir e he
    · exact h'.incoming hdir e he
  lossless := by
    intro hl
    constructor
    · intro hdir
      rw [List.filter_append, (h.lossless hl).1 hdir, (h'.lossless hl).1 hdir]
    · intro hdir
      rw [(h.lossless hl).2 hdir, (h'.lossless hl).2 hdir]

/-- One packet that passes. -/
theorem takes_passes (hdoc : lib.Documented pending) (dir : Direction) (e : Origin × RawPacket)
    (b : Buffer) :
    ∃ taken, Takes lib pending (some dir) [e] taken ∧
      pending (lib.passes dir e b) = pending b ++ taken := by
  have hlossless : ∀ taken, pending (lib.passes dir e b) = pending b ++ taken →
      lib.Lossless pending →
        (some dir = some .pcppIn → taken = [e].filter fun e => e.1 = .outside) ∧
          (some dir = some .pcppInOut → taken = [e]) := by
    intro taken htaken hl
    constructor
    · intro hdir
      rw [Option.some.inj hdir] at htaken
      by_cases he : e.1 = .outside
      · rw [hl.incoming e b he] at htaken
        simp [he, List.append_cancel_left htaken.symm]
      · rw [hdoc.incoming e b he] at htaken
        simp [he, List.self_eq_append_right.mp htaken]
    · intro hdir
      rw [Option.some.inj hdir, hl.all e b] at htaken
      exact (List.append_cancel_left htaken).symm
  rcases hdoc.passes dir e b with hsame | hmore
  · have hnone : pending (lib.passes dir e b) = pending b ++ [] := by
      rw [hsame, List.append_nil]
    exact ⟨[], ⟨List.nil_sublist _, fun _ _ he => absurd he List.not_mem_nil,
      hlossless [] hnone⟩, hnone⟩
  · refine ⟨[e], ⟨List.Sublist.refl _, ?_, hlossless [e] hmore⟩, hmore⟩
    intro hdir e' he'
    rw [List.mem_singleton.mp he']
    by_contra he
    rw [Option.some.inj hdir, hdoc.incoming e b he] at hmore
    simp at hmore

/-- What a capture has handed over or has in its buffer it has taken in. -/
def Captured (lib : CaptureLibrary Buffer) (pending : Buffer → List (Origin × RawPacket))
    (captures : D → Option Direction) (t : Traffic D Buffer) : Prop :=
  ∀ d, Takes lib pending (captures d) (t.wire d) (t.handled d ++ pending (t.buffers d))

/-- Where the packets are that a receiver was handed. -/
structure Carried (receivers : List (RunningReceiver D)) (t : Traffic D Buffer) : Prop where
  /-- the program puts on a device what was offered and sent -/
  sent : ∀ d, ofOrigin .program (t.wire d) = accepted (offers d t.log)
  /-- a receiver offers what it is handed -/
  offered : ∀ r ∈ receivers, ∀ d, r.routeDevice = some d →
    (offers d t.log).map Prod.fst = (t.handled r.device).map Prod.snd
  /-- nothing is offered to a device that is no route -/
  unrouted : ∀ d, (∀ r ∈ receivers, r.routeDevice ≠ some d) → offers d t.log = []

namespace Traffic

/-! ## A packet passes -/

theorem put_wire (device : D) (entry : Origin × RawPacket) (d : D) :
    (t.put lib captures device entry).wire d =
      t.wire d ++ if d = device then [entry] else [] := by
  by_cases hd : d = device
  · subst hd
    simp [put]
  · simp [put, hd]

theorem put_buffers (hdoc : lib.Documented pending) (device : D) (entry : Origin × RawPacket)
    (d : D) :
    ∃ taken, Takes lib pending (captures d) (if d = device then [entry] else []) taken ∧
      pending ((t.put lib captures device entry).buffers d) = pending (t.buffers d) ++ taken := by
  by_cases hd : d = device
  · subst hd
    rw [if_pos rfl]
    cases hdir : captures d with
    | none =>
        refine ⟨[], ⟨List.nil_sublist _, nofun, fun _ => ⟨nofun, nofun⟩⟩, ?_⟩
        simp [put, hdir]
    | some dir =>
        obtain ⟨taken, htakes, hpending⟩ := takes_passes hdoc dir entry (t.buffers d)
        refine ⟨taken, htakes, ?_⟩
        simpa [put, hdir] using hpending
  · rw [if_neg hd]
    refine ⟨[], .nil _, ?_⟩
    cases hdir : captures device <;> simp [put, hdir, hd]

end Traffic

theorem Captured.put (h : Captured lib pending captures t) (hdoc : lib.Documented pending)
    (device : D) (entry : Origin × RawPacket) :
    Captured lib pending captures (t.put lib captures device entry) := by
  intro d
  obtain ⟨taken, htakes, hpending⟩ := Traffic.put_buffers (t := t) hdoc device entry d
  rw [Traffic.put_wire, hpending, ← List.append_assoc]
  exact (h d).append htakes

theorem Carried.put (h : Carried receivers t) (device : D) {entry : Origin × RawPacket}
    (horigin : entry.1 ≠ .program) : Carried receivers (t.put lib captures device entry) where
  sent := by
    intro d
    show _ = accepted (offers d t.log)
    rw [Traffic.put_wire, ← h.sent d]
    by_cases hd : d = device <;> simp [ofOrigin, hd, horigin]
  offered := h.offered
  unrouted := h.unrouted

namespace Traffic

/-- What the accepted offers leave on the devices. -/
theorem putSent_spec (lib : CaptureLibrary Buffer) (captures : D → Option Direction)
    (ops : List (PacketOp D)) (t : Traffic D Buffer) :
    (∀ d, (putSent lib captures t ops).wire d =
        t.wire d ++ (accepted (offers d ops)).map fun p => (.program, p)) ∧
      (putSent lib captures t ops).handled = t.handled ∧
        (putSent lib captures t ops).log = t.log := by
  induction ops generalizing t with
  | nil => exact ⟨fun d => by simp [putSent, offers, accepted], rfl, rfl⟩
  | cons op ops ih =>
      have skip : (∀ d, op.offered d = none ∨ ∃ p, op.offered d = some (p, false)) →
          ∀ d, accepted (offers d (op :: ops)) = accepted (offers d ops) := by
        intro hop d
        rcases hop d with hnone | ⟨p, hrefused⟩
        · simp [offers, hnone]
        · simp [offers, hrefused, accepted]
      cases op with
      | sendPacket device packet ok =>
          cases ok with
          | true =>
              obtain ⟨hwire, hhandled, hlog⟩ := ih (t.put lib captures device (.program, packet))
              have hmore : ∀ d, accepted (offers d (.sendPacket device packet true :: ops)) =
                  (if d = device then [packet] else []) ++ accepted (offers d ops) := by
                intro d
                by_cases hd : d = device
                · simp [offers, PacketOp.offered, accepted, hd]
                · simp [offers, PacketOp.offered, accepted, hd, Ne.symm hd]
              refine ⟨?_, hhandled, hlog⟩
              intro d
              rw [putSent, hwire, put_wire, hmore]
              by_cases hd : d = device <;> simp [hd]
          | false =>
              have hskip := skip fun d => by
                by_cases hd : device = d <;> simp [PacketOp.offered, hd]
              simpa only [putSent, hskip] using ih t
      | debug text => simpa only [putSent, skip fun d => Or.inl rfl] using ih t
      | store info => simpa only [putSent, skip fun d => Or.inl rfl] using ih t
      | error text => simpa only [putSent, skip fun d => Or.inl rfl] using ih t

end Traffic

/-- What the program sends passes as everything does. -/
theorem Captured.putSent (hdoc : lib.Documented pending) (ops : List (PacketOp D))
    (h : Captured lib pending captures t) :
    Captured lib pending captures (Traffic.putSent lib captures t ops) := by
  induction ops generalizing t with
  | nil => exact h
  | cons op ops ih =>
      cases op with
      | sendPacket device packet ok =>
          cases ok with
          | true => exact ih (h.put hdoc device _)
          | false => exact ih h
      | debug text => exact ih h
      | store info => exact ih h
      | error text => exact ih h

/-! ## A packet is handled -/

/-- The packet leaves the buffer and is handed over. -/
theorem Captured.handle (h : Captured lib pending captures t) (hdoc : lib.Documented pending)
    {r : RunningReceiver D} (hstep : Traffic.handle lib env captures r t = some t') :
    Captured lib pending captures t' := by
  unfold Traffic.handle at hstep
  split at hstep
  · cases hstep
  next entry rest hnext =>
    injection hstep with hstep
    rw [← hstep]
    apply Captured.putSent hdoc
    intro d
    have hd := h d
    by_cases hr : d = r.device
    · subst hr
      rw [hdoc.handOver _ _ _ hnext] at hd
      simpa using hd
    · simpa [hr] using hd

theorem Carried.handle (h : Carried receivers t) (hseparate : Separate receivers)
    {r : RunningReceiver D} (hr : r ∈ receivers)
    (hstep : Traffic.handle lib env captures r t = some t') : Carried receivers t' := by
  unfold Traffic.handle at hstep
  split at hstep
  · cases hstep
  next entry rest hnext =>
    injection hstep with hstep
    obtain ⟨hwire, hhandled, hlog⟩ := Traffic.putSent_spec lib captures
      ((onPacketArrives env r entry.2).trace t.calls) _
    rw [hstep] at hwire hhandled hlog
    have hoffers : ∀ d, offers d t'.log = offers d t.log ++ offersOf env r entry.2 t.calls d := by
      intro d
      rw [hlog, offers_append, offers_onPacketArrives]
    simp only [offers_onPacketArrives] at hwire
    constructor
    case sent =>
      intro d
      rw [hwire, hoffers]
      have hold := h.sent d
      unfold ofOrigin accepted at hold ⊢
      simp only [List.filter_append, List.map_append, hold]
      congr 1
      rw [List.filter_eq_self.mpr]
      · simp
      · simp
    case offered =>
      intro r' hr' d hroute
      have hsame := hseparate r hr r' hr' d hroute
      rw [hoffers, hhandled, List.map_append, h.offered r' hr' d hroute]
      dsimp only
      by_cases hd : r'.device = r.device
      · have hmine := hsame.mpr hd.symm
        simp [hd, offersOf, hmine]
      · have hother := (not_congr hsame).mpr (Ne.symm hd)
        simp [hd, offersOf, hother]
    case unrouted =>
      intro d hd
      rw [hoffers, h.unrouted d hd, offersOf, if_neg (hd r hr)]
      rfl

theorem Carried.initial : Carried receivers (.initial lib) :=
  ⟨fun _ => rfl, fun _ _ _ _ => rfl, fun _ _ => rfl⟩

/-- **Every packet is captured or lost, and carried on**, under every schedule. -/
theorem carried_run (hdoc : lib.Documented pending) (hseparate : Separate receivers)
    {tr : List (Traffic.Action D)} (h : (Traffic.system lib env captures receivers).Run tr t) :
    Captured lib pending captures t ∧ Carried receivers t := by
  apply h.invariant (P := fun _ t => Captured lib pending captures t ∧ Carried receivers t)
  · intro t ht
    rw [show t = Traffic.initial lib from ht]
    refine ⟨fun d => ?_, .initial⟩
    show Takes lib pending (captures d) [] ([] ++ pending lib.empty)
    rw [hdoc.empty]
    exact .nil _
  · rintro tr t a t' ⟨hcaptured, hcarried⟩ hstep
    have hact : Traffic.act lib env captures receivers t a = some t' := hstep
    cases a with
    | arrives device packet =>
        injection hact with hact
        rw [← hact]
        exact ⟨hcaptured.put hdoc device _, hcarried.put device (by simp)⟩
    | hostSends device packet =>
        injection hact with hact
        rw [← hact]
        exact ⟨hcaptured.put hdoc device _, hcarried.put device (by simp)⟩
    | handles i =>
        simp only [Traffic.act] at hact
        split at hact
        · cases hact
        · next r hr =>
            exact ⟨hcaptured.handle hdoc hact,
              hcarried.handle hseparate (List.mem_of_getElem? hr) hact⟩

end ElephantShrew.Capture
