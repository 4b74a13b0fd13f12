import ElephantShrew.Tc.Ownership

/-!
# A slot that others use

The kernel keeps one filter for each slot, and anybody may remove it, install
one, or replace it between two kernel calls of the object.  `Detach` asks which
program runs at its slot and then removes whatever stands there: the answer
protects the filter of another owner only as long as nobody moves in between.
-/

namespace ElephantShrew.Tc.SharedSlot

open ElephantShrew.Verified

/-- A filter removed by the object: the program it ran, and `program_id_`. -/
structure Removal where
  running : UInt32
  programId : UInt32
  deriving DecidableEq, Repr

/-- The object, the program of the filter at each slot, and the filters that
`bpf_tc_detach` removed for the object. -/
structure World where
  object : State
  slots : Slot → Option UInt32
  removed : List Removal

inductive Act where
  /-- the object's call, or the kernel's answer to it -/
  | object (a : Action)
  /-- somebody else removes, installs or replaces a filter -/
  | thirdParty (slot : Slot) (program : Option UInt32)
  deriving DecidableEq, Repr

/-- `program` stands at the slot from now on. -/
def World.put (w : World) (slot : Slot) (program : Option UInt32) : World :=
  { w with slots := Function.update w.slots slot program }

@[simp] theorem World.put_object (w : World) (slot : Slot) (program : Option UInt32) :
    (w.put slot program).object = w.object := rfl

@[simp] theorem World.put_removed (w : World) (slot : Slot) (program : Option UInt32) :
    (w.put slot program).removed = w.removed := rfl

@[simp] theorem World.put_slots_self (w : World) (slot : Slot) (program : Option UInt32) :
    (w.put slot program).slots slot = program := by
  simp [World.put]

theorem World.put_slots_of_ne (w : World) {slot slot' : Slot} (program : Option UInt32)
    (h : slot' ≠ slot) : (w.put slot program).slots slot' = w.slots slot' := by
  simp [World.put, h]

/-- What an answer does in the kernel, and whether the kernel can give it.  An
error is always possible.  `progs` says which program a descriptor refers to. -/
def kernel (progs : Int → Option UInt32) (w : World) : Action → Option World
  | .infoAnswer rc _ id =>
      match w.object.call with
      | .readingInfo args => if rc < 0 ∨ progs args.progFd = some id then some w else none
      | _ => none
  | .attachAnswer rc handle priority =>
      match w.object.call with
      | .attaching args _ =>
          let slot : Slot := ⟨w.object.obj.hook, args.handle, args.priority⟩
          if rc ≠ 0 then some w
          -- an occupied identity is an error
          else if handle = args.handle ∧ priority = args.priority ∧ w.slots slot = none then
            (progs args.progFd).map fun id => w.put slot (some id)
          else none
      | _ => none
  | .queryAnswer rc progId =>
      if rc ≠ 0 ∨ w.slots w.object.obj.slot = some progId then some w else none
  | .detachAnswer rc =>
      if rc ≠ 0 then some w
      else
        (w.slots w.object.obj.slot).map fun running =>
          { w.put w.object.obj.slot none with
            removed := w.removed ++ [⟨running, w.object.obj.programId⟩] }
  | _ => some w

/-- One step of anybody. -/
def act (progs : Int → Option UInt32) (w : World) : Act → Option World
  | .object a =>
      (kernel progs w a).bind fun w' =>
        (next w.object a).map fun p => { w' with object := p.1 }
  | .thirdParty slot program => some (w.put slot program)

/-- A constructed object, whatever is attached already. -/
def Initial (w : World) : Prop := Tc.Initial w.object ∧ w.removed = []

/-- The object, the kernel and everybody else. -/
def system (progs : Int → Option UInt32) : System World Act := .ofAct Initial (act progs)

/-- Between the answer of `bpf_tc_query` and `bpf_tc_detach`, nobody puts
another program at the object's slot. -/
def Unraced (w : World) : Act → Prop
  | .thirdParty slot (some id) =>
      (∃ dtor, w.object.call = .detaching dtor) → slot = w.object.obj.slot →
        id = w.object.obj.programId
  | _ => True

/-! ## What a removal removes -/

/-- The object removed its own filters only, and will do so again. -/
structure RemovesOwn (w : World) : Prop where
  removed : ∀ r ∈ w.removed, r.running = r.programId
  checked : ∀ dtor, w.object.call = .detaching dtor →
    ∀ running, w.slots w.object.obj.slot = some running → running = w.object.obj.programId

/-- Only the answer to a query takes the object to `bpf_tc_detach`. -/
theorem Steps.detaching {s s' : State} {a : Action} {e : Option Event} {dtor : Bool}
    (h : Steps s a s' e) (hc : s'.call = .detaching dtor) :
    a = .queryAnswer 0 s.obj.programId ∧ s'.obj = s.obj := by
  have notEnded : ∀ d, ended d ≠ .detaching dtor := by
    intro d
    cases d <;> simp [ended]
  cases h
  case findOwn d hc' => exact ⟨rfl, rfl⟩
  case refuse args hidle => exact absurd (hidle.symm.trans hc) (by simp)
  all_goals simp [notEnded] at hc

theorem RemovesOwn.thirdParty {w : World} (h : RemovesOwn w) (slot : Slot)
    (program : Option UInt32) (hu : Unraced w (.thirdParty slot program)) :
    RemovesOwn (w.put slot program) := by
  constructor
  · exact h.removed
  · intro dtor hc running hrun
    rw [World.put_object] at hc hrun ⊢
    by_cases hslot : w.object.obj.slot = slot
    · rw [hslot, World.put_slots_self] at hrun
      rw [hrun] at hu
      exact hu ⟨dtor, hc⟩ hslot.symm
    · rw [World.put_slots_of_ne w program hslot] at hrun
      exact h.checked dtor hc running hrun

/-- What the kernel does for the object. -/
theorem kernel_removed {progs : Int → Option UInt32} {w w' : World} {a : Action}
    (h : kernel progs w a = some w') :
    w'.removed = w.removed ∨
      ∃ running, a = .detachAnswer 0 ∧ w.slots w.object.obj.slot = some running ∧
        w'.removed = w.removed ++ [⟨running, w.object.obj.programId⟩] := by
  cases a with
  | detachAnswer rc =>
      simp only [kernel] at h
      split at h
      · injection h with h
        exact Or.inl (by rw [← h])
      · next hrc =>
          obtain ⟨running, hrun, hw⟩ := Option.map_eq_some_iff.mp h
          rw [not_not.mp hrc]
          exact Or.inr ⟨running, rfl, hrun, by rw [← hw]⟩
  | attachAnswer rc handle priority =>
      simp only [kernel] at h
      left
      split at h
      · split_ifs at h
        · injection h with h
          rw [← h]
        · obtain ⟨id, -, hw⟩ := Option.map_eq_some_iff.mp h
          rw [← hw, World.put_removed]
      · cases h
  | infoAnswer rc errno id =>
      simp only [kernel] at h
      left
      split at h
      · split_ifs at h
        injection h with h
        rw [← h]
      · cases h
  | queryAnswer rc progId =>
      simp only [kernel] at h
      split_ifs at h
      injection h with h
      exact Or.inl (by rw [← h])
  | attach | hookAnswer | detach | destroy =>
      injection h with h
      exact Or.inl (by rw [← h])

/-- A successful query reports what stands at the slot. -/
theorem kernel_query {progs : Int → Option UInt32} {w w' : World} {id : UInt32}
    (h : kernel progs w (.queryAnswer 0 id) = some w') :
    w' = w ∧ w.slots w.object.obj.slot = some id := by
  simp only [kernel] at h
  split_ifs at h with hrc
  injection h with h
  exact ⟨h.symm, hrc.resolve_left (fun hne => hne rfl)⟩

theorem RemovesOwn.object {progs : Int → Option UInt32} {w w' : World} {a : Action}
    {p : State × Option Event} (h : RemovesOwn w) (hk : kernel progs w a = some w')
    (hnext : next w.object a = some p) : RemovesOwn { w' with object := p.1 } := by
  have hsteps := Tc.Steps.of_next hnext
  constructor
  · intro r hr
    rcases kernel_removed hk with heq | ⟨running, ha, hrun, heq⟩
    · exact h.removed r (heq ▸ hr)
    · have hr' : r ∈ w.removed ++ [⟨running, w.object.obj.programId⟩] := heq ▸ hr
      rcases List.mem_append.mp hr' with hold | hnew
      · exact h.removed r hold
      · rw [List.mem_singleton.mp hnew]
        -- the object waits for `bpf_tc_detach`
        cases hc : w.object.call <;> simp [ha, next, hc] at hnext
        exact h.checked _ hc running hrun
  · intro dtor hc running hrun
    obtain ⟨ha, hobj⟩ := Steps.detaching hsteps hc
    rw [ha] at hk
    obtain ⟨hw, hslot⟩ := kernel_query hk
    simp only [hobj, hw, hslot, Option.some.injEq] at hrun
    simp only [hobj]
    exact hrun.symm

theorem RemovesOwn.act {progs : Int → Option UInt32} {w w' : World} {a : Act}
    (h : RemovesOwn w) (hu : Unraced w a) (hact : act progs w a = some w') : RemovesOwn w' := by
  cases a with
  | object a =>
      obtain ⟨w₁, hk, hmap⟩ := Option.bind_eq_some_iff.mp hact
      obtain ⟨p, hnext, hw⟩ := Option.map_eq_some_iff.mp hmap
      rw [← hw]
      exact h.object hk hnext
  | thirdParty slot program =>
      injection hact with hact
      rw [← hact]
      exact h.thirdParty slot program hu

theorem RemovesOwn.run {progs : Int → Option UInt32} {tr : List Act} {w : World}
    (h : ((system progs).guard Unraced).Run tr w) : RemovesOwn w := by
  apply h.invariant (P := fun _ w => RemovesOwn w)
  · intro w hw
    obtain ⟨⟨-, hcall, -⟩, hremoved⟩ := hw
    constructor
    · intro r hr
      rw [hremoved] at hr
      cases hr
    · intro dtor hc
      rw [hcall] at hc
      cases hc
  · intro tr w a w' hw hstep
    exact hw.act hstep.2 hstep.1

/-- A program that moves in after the query is removed by the detach. -/
theorem raced_removes {progs : Int → Option UInt32} {w w' : World} {a : Act}
    (hu : ¬ Unraced w a) (hact : act progs w a = some w') :
    ∃ w'', act progs w' (.object (.detachAnswer 0)) = some w'' ∧
      ∃ r ∈ w''.removed, r.running ≠ r.programId := by
  cases a with
  | object a => exact absurd trivial hu
  | thirdParty slot program =>
      cases program with
      | none => exact absurd trivial hu
      | some id =>
          simp only [Unraced, not_forall] at hu
          obtain ⟨⟨dtor, hc⟩, hslot, hid⟩ := hu
          injection hact with hact
          have hstands : w'.slots w'.object.obj.slot = some id := by
            rw [← hact, World.put_object, hslot, World.put_slots_self]
          have hc' : w'.object.call = .detaching dtor := by
            rw [← hact]
            exact hc
          have hprog : w'.object.obj.programId = w.object.obj.programId := by rw [← hact]; rfl
          simp only [SharedSlot.act, kernel, hstands, next, hc']
          refine ⟨_, rfl, ⟨id, w'.object.obj.programId⟩, by simp, ?_⟩
          rw [hprog]
          exact hid

/-- **Whose filter is removed.**  As long as nobody puts another program at the
slot between the query and the detach, the object removes its own filters only;
and after such a step the detach removes the other owner's filter. -/
theorem detach_removesOwn_unraced (progs : Int → Option UInt32) :
    (∀ tr w, ((system progs).guard Unraced).Run tr w →
      ∀ r ∈ w.removed, r.running = r.programId) ∧
    ∀ tr w a w', (system progs).Run tr w → act progs w a = some w' → ¬ Unraced w a →
      ∃ w'', (system progs).Run (tr ++ [a] ++ [.object (.detachAnswer 0)]) w'' ∧
        ∃ r ∈ w''.removed, r.running ≠ r.programId := by
  constructor
  · intro tr w h
    exact (RemovesOwn.run h).removed
  · intro tr w a w' h hact hu
    obtain ⟨w'', hdetach, hr⟩ := raced_removes hu hact
    exact ⟨w'', (h.act a hact).act _ hdetach, hr⟩

/-- Somebody replaces the filter after the query has found the object's own. -/
theorem detach_removes_foreign : ¬ ∀ tr w,
    (system fun fd => if fd = 3 then some 7 else none).Run tr w →
      ∀ r ∈ w.removed, r.running = r.programId := by
  intro h
  let obj : TcAttachment := ⟨⟨0, 0⟩, 0, 0, 0, false⟩
  have begun : (system fun fd => if fd = 3 then some 7 else none).Run []
      ⟨⟨obj, .idle, [], obj, []⟩, fun _ => none, []⟩ :=
    .init ⟨⟨rfl, rfl, rfl, rfl, rfl⟩, rfl⟩
  have attached := (((begun.act (.object (.attach ⟨2, 1, 3, 1, 50⟩)) rfl).act
    (.object (.infoAnswer 0 0 7)) rfl).act (.object (.hookAnswer 0)) rfl).act
    (.object (.attachAnswer 0 1 50)) rfl
  have queried := (attached.act (.object .detach) rfl).act (.object (.queryAnswer 0 7)) rfl
  have replaced := queried.act (.thirdParty ⟨⟨2, 1⟩, 1, 50⟩ (some 9)) rfl
  have detached := replaced.act (.object (.detachAnswer 0)) rfl
  exact absurd (h _ _ detached ⟨9, 7⟩ (by decide)) (by decide)

end ElephantShrew.Tc.SharedSlot
