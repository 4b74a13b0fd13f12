import ElephantShrew.Capture.ProcessPacket
import ElephantShrew.Verified.Hex

/-!
# Recording and forwarding

A packet is forwarded before it is recorded, and a forward that fails leaves
`processPacket` by an exception.  So what a run of packets hands to the store is
the packets whose forward did not fail, each as it was captured: all of them
exactly when none failed.
-/

namespace ElephantShrew.Capture

open ElephantShrew.Verified
open ElephantShrew.Verified.ExitM
open ElephantShrew.Config
open ElephantShrew.Store (PacketInfo)

variable {D : Type} {env : PacketEnvironment D} {r : RunningReceiver D} {log : List (PacketOp D)}
  {calls : Calls}

/-! ## The record of a packet -/

/-- A byte is two digits. -/
theorem hexField_byte (b : UInt8) : hexField b.toNat = Hex.encodeByte b := by
  have hb := b.toNat_lt
  unfold hexField Hex.encodeByte
  by_cases hsmall : b.toNat < 16
  · have hhigh : b.toNat / 16 = 0 := by omega
    have hlow : b.toNat % 16 = b.toNat := Nat.mod_eq_of_lt hsmall
    rw [Nat.toDigits_of_lt_base hsmall, hhigh, hlow]
    rfl
  · have hhigh : b.toNat / 16 < 16 := by omega
    rw [Nat.toDigits_of_base_le (by decide) (by omega), Nat.toDigits_of_lt_base hhigh]
    rfl

theorem map_get_range (data : Bytes) : (List.range data.length).map data.get = data := by
  apply List.ext_getElem
  · simp
  · intro i hi hi'
    simp [Bytes.get, List.getD_eq_getElem?_getD, List.getElem?_eq_getElem hi']

/-- The length of a packet fits its field. -/
theorem RawPacket.toNat_length (packet : RawPacket) :
    (UInt32.ofNat packet.data.length).toNat = packet.data.length := by
  have hlength := packet.length_lt
  rw [UInt32.toNat_ofNat']
  omega

/-- The text of a packet is its bytes in hexadecimal. -/
theorem RawPacket.hexEncode_eq (packet : RawPacket) :
    hexEncode packet.data (UInt32.ofNat packet.data.length) =
      String.ofList (Hex.encode packet.data) := by
  have hbytes : ((List.range packet.data.length).flatMap fun i =>
      hexField (packet.data.get i).toNat) =
      ((List.range packet.data.length).map packet.data.get).flatMap Hex.encodeByte := by
    rw [List.flatMap_map]
    simp only [hexField_byte]
  rw [hexEncode, packet.toNat_length, hbytes, map_get_range]
  rfl

/-- The record of a packet. -/
def recordOf (env : PacketEnvironment D) (r : RunningReceiver D) (packet : RawPacket) :
    PacketInfo :=
  { packetInfo env r packet with
    dataHex := hexEncode packet.data (packetInfo env r packet).length }

/-- The record has the length of the packet, and its text is read back as the
packet's bytes. -/
structure Records (packet : RawPacket) (info : PacketInfo) : Prop where
  length : info.length.toNat = packet.data.length
  data : Hex.decode info.dataHex.toList = some packet.data

theorem records_recordOf (packet : RawPacket) : Records packet (recordOf env r packet) where
  length := packet.toNat_length
  data := by
    rw [recordOf, packetInfo, packet.hexEncode_eq, String.toList_ofList]
    exact Hex.decode_encode packet.data

/-! ## What a run hands to the store -/

def PacketOp.stored : PacketOp D → Option PacketInfo
  | .store info => some info
  | _ => none

/-- The records of a log, in their order. -/
def storedOf (log : List (PacketOp D)) : List PacketInfo := log.filterMap PacketOp.stored

/-- The records that the packets hand to the store. -/
def handed (env : PacketEnvironment D) (r : RunningReceiver D) (packets : List RawPacket)
    (calls : Calls) : List PacketInfo :=
  storedOf ((onPackets env r packets).trace calls)

@[simp] theorem storedOf_store (log : List (PacketOp D)) (info : PacketInfo) :
    storedOf (log ++ [.store info]) = storedOf log ++ [info] := by
  simp [storedOf, PacketOp.stored]

@[simp] theorem storedOf_debug (log : List (PacketOp D)) (text : String) :
    storedOf (log ++ [.debug text]) = storedOf log := by
  simp [storedOf, PacketOp.stored]

@[simp] theorem storedOf_sendPacket (log : List (PacketOp D)) (device : D) (packet : RawPacket)
    (ok : Bool) : storedOf (log ++ [.sendPacket device packet ok]) = storedOf log := by
  simp [storedOf, PacketOp.stored]

@[simp] theorem storedOf_error (log : List (PacketOp D)) (text : String) :
    storedOf (log ++ [.error text]) = storedOf log := by
  simp [storedOf, PacketOp.stored]

/-- The forward of a packet does not fail when the next call of `sendPacket` is the
`n`-th. -/
def forwards (env : PacketEnvironment D) (r : RunningReceiver D) (n : Nat) : Bool :=
  r.routeDevice.isNone || env.sends n

/-- The number of the next call after it. -/
def nextSent (r : RunningReceiver D) (n : Nat) : Nat := if r.routeDevice.isNone then n else n + 1

/-- The packets whose forward does not fail. -/
def unrefused (env : PacketEnvironment D) (r : RunningReceiver D) :
    List RawPacket → Nat → List RawPacket
  | [], _ => []
  | packet :: rest, n =>
      if forwards env r n then packet :: unrefused env r rest (nextSent r n)
      else unrefused env r rest (nextSent r n)

/-- What one packet adds to the log and to the calls. -/
structure Handles (env : PacketEnvironment D) (r : RunningReceiver D) (packet : RawPacket)
    (log log' : List (PacketOp D)) (calls calls' : Calls) : Prop where
  stored : storedOf log' = storedOf log ++
    if r.recordPackets && forwards env r calls.sent then [recordOf env r packet] else []
  sent : calls'.sent = nextSent r calls.sent

section Run

-- as `Init` makes a receiver
variable (hstore : r.recordPackets = true → r.store = true)

include hstore

/-- A packet to record is handed to the store, whatever the store throws. -/
theorem wpLog_recordPacket (packet : RawPacket) {P : List (PacketOp D) → Calls → Prop}
    (on : r.recordPackets = true → P (log ++ [.store (recordOf env r packet)])
      { calls with stored := calls.stored + 1 })
    (off : r.recordPackets = false → P log calls) :
    WpLog (recordPacket env r packet (packetInfo env r packet)) (fun _ => P) (fun _ => P)
      log calls := by
  unfold recordPacket
  cases hrecord : r.recordPackets with
  | false =>
      rw [if_neg Bool.false_ne_true, wpLog_pure]
      exact off hrecord
  | true =>
      rw [if_pos rfl]
      simp only [storePacket, wpLog_bind, wpLog_exitIf, wpLog_state, wpLog_note, wpLog_update]
      constructor
      · intro hnone
        rw [hstore hrecord] at hnone
        cases hnone
      · intro _
        cases env.storeThrows calls.stored with
        | none =>
            rw [wpLog_pure]
            exact on hrecord
        | some what =>
            rw [wpLog_exit]
            exact on hrecord

/-- A packet is handed to the store after its forward, and is not when that fails. -/
theorem wpLog_forwardPacket_recordPacket (packet : RawPacket) :
    WpLog (forwardPacket env r packet >>= fun _ =>
        recordPacket env r packet (packetInfo env r packet))
      (fun _ log' => Handles env r packet log log' calls)
      (fun _ log' => Handles env r packet log log' calls) log calls := by
  unfold forwardPacket
  rw [wpLog_bind]
  cases hroute : r.routeDevice with
  | none =>
      have hforwards : forwards env r calls.sent = true := by simp [forwards, hroute]
      have hsent : nextSent r calls.sent = calls.sent := by simp [nextSent, hroute]
      rw [wpLog_pure]
      apply wpLog_recordPacket hstore packet
      · intro hrecord
        exact ⟨by simp [hrecord, hforwards], hsent.symm⟩
      · intro hrecord
        exact ⟨by simp [hrecord], hsent.symm⟩
  | some routeDevice =>
      have hforwards : forwards env r calls.sent = env.sends calls.sent := by
        simp [forwards, hroute]
      have hsent : nextSent r calls.sent = calls.sent + 1 := by simp [nextSent, hroute]
      simp only [sendPacket, wpLog_bind, wpLog_state, wpLog_note, wpLog_update, wpLog_pure,
        wpLog_exitIf]
      cases hsends : env.sends calls.sent with
      | false =>
          refine ⟨fun _ => ?_, fun hne => absurd rfl hne⟩
          exact ⟨by simp [hforwards, hsends], hsent.symm⟩
      | true =>
          refine ⟨Bool.noConfusion, fun _ => ?_⟩
          apply wpLog_recordPacket hstore packet
          · intro hrecord
            refine ⟨?_, hsent.symm⟩
            rw [storedOf_store, storedOf_sendPacket]
            simp [hrecord, hforwards, hsends]
          · intro hrecord
            exact ⟨by simp [hrecord], hsent.symm⟩

/-- **One packet.**  It is handed to the store unless its forward fails; what is
thrown is caught and reported. -/
theorem wpLog_onPacketArrives (packet : RawPacket) :
    WpLog (onPacketArrives env r packet) (fun _ log' => Handles env r packet log log' calls)
      (fun _ _ _ => False) log calls := by
  have hcaught : ∀ log₁, storedOf log₁ = storedOf log →
      WpLog (attempt (forwardPacket env r packet >>= fun _ =>
          recordPacket env r packet (packetInfo env r packet)) >>= reportPacket env r)
        (fun _ log' => Handles env r packet log log' calls) (fun _ _ _ => False) log₁ calls := by
    intro log₁ hlog₁
    rw [wpLog_bind, wpLog_attempt]
    apply (wpLog_forwardPacket_recordPacket hstore packet).mono
    · intro _ log' calls' h
      simp only [reportPacket, wpLog_pure]
      exact ⟨hlog₁ ▸ h.stored, h.sent⟩
    · intro what log' calls' h
      simp only [reportPacket, wpLog_note]
      refine ⟨?_, h.sent⟩
      rw [storedOf_error, h.stored, hlog₁]
  simp only [onPacketArrives, processPacket, wpLog_bind, wpLog_attempt] at hcaught ⊢
  rw [wpLog_ite]
  constructor
  · intro _
    simp only [wpLog_bind, wpLog_note]
    exact hcaught _ (storedOf_debug log _)
  · intro _
    simp only [wpLog_bind]
    exact hcaught log rfl

/-- **A run of packets.**  When packets are recorded, those whose forward does not
fail are handed to the store, in their order; otherwise none is. -/
theorem wpLog_onPackets (packets : List RawPacket) {log : List (PacketOp D)} {calls : Calls} :
    WpLog (onPackets env r packets)
      (fun _ log' _ => storedOf log' = storedOf log ++
        if r.recordPackets then (unrefused env r packets calls.sent).map (recordOf env r) else [])
      (fun _ _ _ => False) log calls := by
  induction packets generalizing log calls with
  | nil => simp [onPackets, unrefused]
  | cons packet rest ih =>
      rw [onPackets, wpLog_bind]
      apply (wpLog_onPacketArrives hstore packet).mono _ (fun _ _ _ hfalse => hfalse)
      intro _ log₁ calls₁ hpacket
      apply (@ih log₁ calls₁).mono _ (fun _ _ _ hfalse => hfalse)
      intro _ log₂ _ hrest
      rw [hrest, hpacket.stored, hpacket.sent, unrefused]
      cases r.recordPackets with
      | false => simp
      | true => cases forwards env r calls.sent <;> simp

theorem handed_eq (packets : List RawPacket) (calls : Calls) :
    handed env r packets calls =
      if r.recordPackets then (unrefused env r packets calls.sent).map (recordOf env r)
      else [] :=
  (@wpLog_onPackets D env r hstore packets [] calls).outcome_of_returns

end Run

/-- **The receivers of `Init`** hand to the store, when packets are recorded, those
whose forward does not fail. -/
theorem handed_running {config : RuntimeConfig} {receiver : PcapReceiver D}
    (h : receiver.running config = some r) (packets : List RawPacket) (calls : Calls) :
    handed env r packets calls =
      if config.capture.recordPackets then
        (unrefused env r packets calls.sent).map (recordOf env r)
      else [] := by
  obtain ⟨device, _, rfl⟩ := Option.map_eq_some_iff.mp h
  exact handed_eq (fun hrecord => hrecord) packets calls

/-! ## The law -/

/-- The packets handed to the store are the packets captured, once each and in
their order, with their lengths and their bytes. -/
def AllRecorded (env : PacketEnvironment D) (r : RunningReceiver D) (packets : List RawPacket)
    (calls : Calls) : Prop :=
  List.Forall₂ Records packets (handed env r packets calls)

/-- No packet of the run fails to be forwarded. -/
def AllForwarded (env : PacketEnvironment D) (r : RunningReceiver D) (packets : List RawPacket)
    (calls : Calls) : Prop :=
  r.routeDevice = none ∨ ∀ i < packets.length, env.sends (calls.sent + i) = true

theorem unrefused_sublist (packets : List RawPacket) (n : Nat) :
    (unrefused env r packets n).Sublist packets := by
  induction packets generalizing n with
  | nil => exact List.Sublist.refl _
  | cons packet rest ih =>
      rw [unrefused]
      split
      · exact (ih _).cons_cons packet
      · exact (ih _).cons packet

/-- A first packet is missing exactly when its forward fails. -/
theorem unrefused_cons_eq_self_iff (packet : RawPacket) (rest : List RawPacket) (n : Nat) :
    unrefused env r (packet :: rest) n = packet :: rest ↔
      forwards env r n = true ∧ unrefused env r rest (nextSent r n) = rest := by
  rw [unrefused]
  split
  · rename_i hforwards
    simp [hforwards]
  · rename_i hforwards
    have hsub : (unrefused env r rest (nextSent r n)).Sublist rest := unrefused_sublist rest _
    have hshort := hsub.length_le
    constructor
    · intro heq
      rw [heq, List.length_cons] at hshort
      omega
    · intro h
      exact absurd h.1 hforwards

/-- Nothing is missing exactly when no forward fails. -/
theorem unrefused_eq_self_iff (packets : List RawPacket) (n : Nat) :
    unrefused env r packets n = packets ↔
      r.routeDevice = none ∨ ∀ i < packets.length, env.sends (n + i) = true := by
  cases hroute : r.routeDevice with
  | none =>
      simp only [true_or, iff_true]
      induction packets generalizing n with
      | nil => rfl
      | cons packet rest ih =>
          rw [unrefused_cons_eq_self_iff]
          exact ⟨by simp [forwards, hroute], ih _⟩
  | some routeDevice =>
      simp only [reduceCtorEq, false_or]
      induction packets generalizing n with
      | nil => simp [unrefused]
      | cons packet rest ih =>
          have hnext : nextSent r n = n + 1 := by simp [nextSent, hroute]
          rw [unrefused_cons_eq_self_iff, hnext, ih]
          simp only [forwards, hroute, Option.isNone_some, Bool.false_or, List.length_cons]
          constructor
          · intro hall i hi
            cases i with
            | zero => exact hall.1
            | succ i =>
                have hlater := hall.2 i (by omega)
                rwa [Nat.add_right_comm] at hlater
          · intro hall
            refine ⟨hall 0 (by omega), ?_⟩
            intro i hi
            have hlater := hall (i + 1) (by omega)
            rwa [Nat.add_right_comm n 1 i]

/-- **A run is recorded exactly when** no packet of it fails to be forwarded. -/
theorem onPackets_recorded_iff (env : PacketEnvironment D) (r : RunningReceiver D)
    (hrecord : r.recordPackets = true) (hstore : r.store = true) (packets : List RawPacket)
    (calls : Calls) : AllRecorded env r packets calls ↔ AllForwarded env r packets calls := by
  rw [AllRecorded, handed_eq (fun _ => hstore), if_pos hrecord, AllForwarded,
    ← unrefused_eq_self_iff]
  constructor
  · intro h
    have hlength := h.length_eq
    rw [List.length_map] at hlength
    exact (unrefused_sublist packets calls.sent).eq_of_length hlength.symm
  · intro h
    rw [h, List.forall₂_map_right_iff, List.forall₂_same]
    intro packet _
    exact records_recordOf packet

/-- A link on which the calls of `sendPacket` go as given. -/
def link (sends : Nat → Bool) : PacketEnvironment String where
  name := id
  parse := fun _ => {}
  sends := sends
  storeThrows := fun _ => none

/-- A recording receiver that forwards from `eth0` to `eth1`. -/
def bridge : RunningReceiver String where
  device := "eth0"
  routeDevice := some "eth1"
  store := true
  recordPackets := true
  debugPackets := false

def frame : RawPacket where
  data := [0x0a, 0xff, 0x00]
  sec := 1
  nsec := 2000
  length_lt := by decide

theorem onPackets_recorded_iff_linkUp : AllRecorded (link fun _ => true) bridge [frame, frame] {} :=
  (onPackets_recorded_iff (link fun _ => true) bridge rfl rfl [frame, frame] {}).mpr
    (Or.inr fun _ _ => rfl)

/-- A packet that cannot be sent is not recorded either. -/
theorem unsent_packet_not_recorded : ¬AllRecorded (link fun _ => false) bridge [frame] {} := by
  intro h
  have hlength := h.length_eq
  have hhanded : handed (link fun _ => false) bridge [frame] {} = [] := rfl
  rw [hhanded] at hlength
  cases hlength

end ElephantShrew.Capture
