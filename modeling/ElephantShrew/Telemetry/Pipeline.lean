import ElephantShrew.Bpf.Observer
import ElephantShrew.Telemetry.DeliveryLaw

/-!
# From the packet to the sink

The kernel programs and the telemetry object together.  Each interface has an
observer of its own, loaded with its own settings, and a ring that is
registered as one source; all rings are read by the one poller, and the sink
pops from the one queue.  A record stays in its ring until the ring library
runs the callback on it; whatever the callback does, the record is consumed.

The observer is `esObserve`, the rest is the system of `Delivery.lean`; this
file adds the rings between them.
-/

namespace ElephantShrew.Telemetry.Pipeline

open ElephantShrew.Verified
open ElephantShrew.Bpf

/-- An interface that is observed: `AddSource` refuses the interface 0. -/
structure Interface where
  settings : Settings
  source : Source
  ifindex_ne : source.ifindex ≠ 0

variable {k : Nat}

/-- The observers, their rings and the telemetry object; `calls` and `handed`
are the packets seen and the records given to the callback so far. -/
structure State (k : Nat) where
  observers : Fin k → ObserverState
  /-- the records of each ring, oldest first -/
  rings : Fin k → List EsEvent
  telemetry : Delivery.State
  calls : Fin k → List ObserveCall
  handed : List (Fin k × EsEvent)

inductive Action (k : Nat) where
  /-- the observer of an interface sees a packet -/
  | observe (i : Fin k) (c : ObserveCall)
  /-- the ring library runs the callback on the oldest record of a ring -/
  | callback (i : Fin k) (e : EsEvent)
  /-- a step of the callback, of the queue or of the sink -/
  | telemetry (a : Delivery.Action)

/-- The callback on a record. -/
def callbackOf (o : Codec.ByteOrder) (ifaces : Fin k → Interface) (p : Fin k × EsEvent) :
    Callback :=
  ⟨(ifaces p.1).source, some ((eventCodec o).encode p.2), esEventSize⟩

/-- The sources registered, in the order of the rings. -/
def sources (ifaces : Fin k → Interface) : List Source := List.ofFn fun i => (ifaces i).source

/-- The observer of interface `i` sees a packet, and submits what it does. -/
def observe (ifaces : Fin k → Interface) (s : State k) (i : Fin k) (c : ObserveCall) : State k :=
  let st := s.observers i
  let st' := (esObserve (ifaces i).settings c st).2
  { s with
    observers := Function.update s.observers i st'
    rings := Function.update s.rings i (s.rings i ++ st'.submitted.drop st.submitted.length)
    calls := Function.update s.calls i (s.calls i ++ [c]) }

/-- One step. -/
def next (cap : Capacity) (o : Codec.ByteOrder) (ifaces : Fin k → Interface) (s : State k) :
    Action k → Option (State k)
  | .observe i c =>
      -- the program is attached to this interface
      if c.skb.ifindex = (ifaces i).source.ifindex then some (observe ifaces s i c) else none
  | .callback i e =>
      match s.rings i with
      | [] => none
      | oldest :: rest =>
          if e = oldest then
            (Delivery.next cap o (sources ifaces) s.telemetry
              (.callback (callbackOf o ifaces (i, e)))).map fun telemetry =>
                { s with
                  rings := Function.update s.rings i rest
                  telemetry := telemetry
                  handed := s.handed ++ [(i, e)] }
          else none
  | .telemetry (.callback _) => none
  | .telemetry a =>
      (Delivery.next cap o (sources ifaces) s.telemetry a).map fun telemetry =>
        { s with telemetry := telemetry }

/-- Freshly loaded maps, empty rings and a telemetry object with nothing in it. -/
def Initial (s : State k) : Prop :=
  (∀ i, s.observers i = .init) ∧ (∀ i, s.rings i = []) ∧ Delivery.Initial s.telemetry ∧
    (∀ i, s.calls i = []) ∧ s.handed = []

/-- The packets, the poller and the sink under every schedule. -/
def system (cap : Capacity) (o : Codec.ByteOrder) (ifaces : Fin k → Interface) :
    System (State k) (Action k) := .ofAct Initial (next cap o ifaces)

/-- Everything a step can be. -/
inductive Steps (cap : Capacity) (o : Codec.ByteOrder) (ifaces : Fin k → Interface)
    (s : State k) : Action k → State k → Prop
  | observe (i : Fin k) (c : ObserveCall) (h : c.skb.ifindex = (ifaces i).source.ifindex) :
      Steps cap o ifaces s (.observe i c) (observe ifaces s i c)
  | callback (i : Fin k) (e : EsEvent) (rest : List EsEvent) (telemetry : Delivery.State)
      (hring : s.rings i = e :: rest)
      (h : Delivery.next cap o (sources ifaces) s.telemetry
        (.callback (callbackOf o ifaces (i, e))) = some telemetry) :
      Steps cap o ifaces s (.callback i e)
        { s with
          rings := Function.update s.rings i rest
          telemetry := telemetry
          handed := s.handed ++ [(i, e)] }
  | telemetry (a : Delivery.Action) (telemetry : Delivery.State)
      (hcb : ∀ cb, a ≠ .callback cb)
      (h : Delivery.next cap o (sources ifaces) s.telemetry a = some telemetry) :
      Steps cap o ifaces s (.telemetry a) { s with telemetry := telemetry }

theorem Steps.of_next {cap : Capacity} {o : Codec.ByteOrder} {ifaces : Fin k → Interface}
    {s s' : State k} {a : Action k} (h : next cap o ifaces s a = some s') :
    Steps cap o ifaces s a s' := by
  cases a with
  | observe i c =>
      simp only [next] at h
      split at h
      · next hif =>
          injection h with h
          rw [← h]
          exact .observe i c hif
      · cases h
  | callback i e =>
      simp only [next] at h
      split at h
      · cases h
      · next oldest rest hring =>
          split at h
          · next heq =>
              subst heq
              obtain ⟨telemetry, htelemetry, h⟩ := Option.map_eq_some_iff.mp h
              rw [← h]
              exact .callback i e rest telemetry hring htelemetry
          · cases h
  | telemetry a =>
      have hcb : ∀ cb, a ≠ .callback cb := by
        intro cb heq
        subst heq
        simp only [next] at h
        cases h
      have hmap : (Delivery.next cap o (sources ifaces) s.telemetry a).map
          (fun telemetry => { s with telemetry := telemetry }) = some s' := by
        cases a with
        | callback cb => exact absurd rfl (hcb cb)
        | decide view => exact h
        | countDrop => exact h
        | queue b => exact h
      obtain ⟨telemetry, htelemetry, hs'⟩ := Option.map_eq_some_iff.mp hmap
      rw [← hs']
      exact .telemetry a telemetry hcb htelemetry

/-! ## Going on from a run -/

section Going

variable {cap : Capacity} {o : Codec.ByteOrder} {ifaces : Fin k → Interface} {s : State k}

/-- A packet is seen. -/
theorem run_observe (h : ∃ tr, (system cap o ifaces).Run tr s) {i : Fin k} {c : ObserveCall}
    (hif : c.skb.ifindex = (ifaces i).source.ifindex) :
    ∃ tr, (system cap o ifaces).Run tr (observe ifaces s i c) := by
  obtain ⟨tr, h⟩ := h
  exact ⟨_, h.act (.observe i c) (if_pos hif)⟩

/-- The telemetry object goes on alone. -/
theorem run_alone (h : ∃ tr, (system cap o ifaces).Run tr s) {telemetry : Delivery.State}
    (halone : Delivery.Alone cap o (sources ifaces) s.telemetry telemetry) :
    ∃ tr, (system cap o ifaces).Run tr { s with telemetry := telemetry } := by
  obtain ⟨tr, h⟩ := h
  obtain ⟨as, has, hs⟩ := halone
  refine ⟨tr ++ as.map .telemetry, h.acts _ ?_⟩
  have lift : ∀ t, (as.foldlM (Delivery.next cap o (sources ifaces)) t = some telemetry) →
      (as.map Action.telemetry).foldlM (next cap o ifaces) { s with telemetry := t } =
        some { s with telemetry := telemetry } := by
    clear hs
    induction as with
    | nil =>
        intro t ht
        injection ht with ht
        rw [ht]
        rfl
    | cons a as ih =>
        intro t ht
        rw [List.foldlM_cons] at ht
        obtain ⟨t', ha, ht⟩ := Option.bind_eq_some_iff.mp ht
        have hstep : next cap o ifaces { s with telemetry := t } (.telemetry a) =
            some { s with telemetry := t' } := by
          cases a with
          | callback cb => exact absurd rfl (has _ List.mem_cons_self cb)
          | decide view => simp only [next, ha, Option.map_some]
          | countDrop => simp only [next, ha, Option.map_some]
          | queue b => simp only [next, ha, Option.map_some]
        rw [List.map_cons, List.foldlM_cons, hstep]
        exact ih (fun b hb => has b (List.mem_cons_of_mem _ hb)) t' ht
  exact lift s.telemetry hs

/-- The oldest record of a ring is handed to the callback, which runs to its end. -/
theorem run_callback (h : ∃ tr, (system cap o ifaces).Run tr s) {i : Fin k} {e : EsEvent}
    {rest : List EsEvent} (hring : s.rings i = e :: rest) (hpc : s.telemetry.pc = .idle)
    {telemetry : Delivery.State}
    (halone : Delivery.Alone cap o (sources ifaces)
      (Delivery.entered s.telemetry (callbackOf o ifaces (i, e))) telemetry) :
    ∃ tr, (system cap o ifaces).Run tr
      { s with
        rings := Function.update s.rings i rest
        telemetry := telemetry
        handed := s.handed ++ [(i, e)] } := by
  obtain ⟨tr, h⟩ := h
  have hsource : (callbackOf o ifaces (i, e)).source ∈ sources ifaces :=
    List.mem_ofFn.mpr ⟨i, rfl⟩
  have hstep : next cap o ifaces s (.callback i e) = some
      { s with
        rings := Function.update s.rings i rest
        telemetry := Delivery.entered s.telemetry (callbackOf o ifaces (i, e))
        handed := s.handed ++ [(i, e)] } := by
    simp only [next, hring, if_true, Delivery.next_entered hpc hsource, Option.map_some]
  exact run_alone ⟨_, h.act _ hstep⟩ halone

end Going

end ElephantShrew.Telemetry.Pipeline
