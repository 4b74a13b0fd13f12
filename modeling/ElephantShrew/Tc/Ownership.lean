import ElephantShrew.Tc.TcAttachment

/-!
# What an attachment owns

`attached_` answers for one filter.  While it is set, the members name the
filter installed last, and nothing the kernel has said since settles it; while
it is not, everything the object ever installed has been settled: removed,
reported gone, or found replaced.
-/

namespace ElephantShrew.Tc

open ElephantShrew.Verified

/-! ## What the kernel has said about a filter -/

/-- The filter a call installed. -/
def KernelCall.installs : KernelCall → Option Filter
  | .tcAttach f rc => if rc = 0 then some f else none
  | _ => none

/-- The call removed `f`, or its answer says that `f` is gone or replaced. -/
def KernelCall.Settles (c : KernelCall) (f : Filter) : Prop :=
  match c with
  | .tcDetach slot rc => slot = f.slot ∧ (rc = 0 ∨ Gone rc)
  | .tcQuery slot rc progId => slot = f.slot ∧ (Gone rc ∨ (rc = 0 ∧ progId ≠ f.programId))
  | _ => False

/-- Every filter the log installs is settled later in the log. -/
def Settled (log : List KernelCall) : Prop :=
  ∀ before c after f, log = before ++ c :: after → c.installs = some f →
    ∃ d ∈ after, d.Settles f

/-- Calls that install nothing. -/
def Quiet (log : List KernelCall) : Prop := ∀ c ∈ log, c.installs = none

theorem Settled.nil : Settled [] := by
  intro before c after f h
  simp at h

theorem Quiet.nil : Quiet [] := by
  intro c hc
  cases hc

theorem Quiet.concat {log : List KernelCall} {c : KernelCall} (h : Quiet log)
    (hc : c.installs = none) : Quiet (log ++ [c]) := by
  intro d hd
  rcases List.mem_append.mp hd with hd | hd
  · exact h d hd
  · rw [List.mem_singleton.mp hd]
    exact hc

/-- What an object that owns nothing asks leaves everything settled. -/
theorem Settled.concat {log : List KernelCall} {c : KernelCall} (h : Settled log)
    (hc : c.installs = none) : Settled (log ++ [c]) := by
  intro before d after f heq hd
  rcases List.eq_nil_or_concat after with hnil | ⟨after', last, hlast⟩
  · rw [hnil] at heq
    obtain ⟨-, hcd⟩ := List.append_inj' heq rfl
    injection hcd with hcd
    rw [← hcd, hc] at hd
    cases hd
  · rw [hlast, List.concat_eq_append, ← List.cons_append, ← List.append_assoc] at heq
    obtain ⟨hlog, -⟩ := List.append_inj' heq rfl
    obtain ⟨x, hx, hset⟩ := h before d after' f hlog hd
    exact ⟨x, by rw [hlast]; simp [hx], hset⟩

/-- An installed filter that is settled at last. -/
theorem Settled.install {before after : List KernelCall} {f : Filter} (hb : Settled before)
    (ha : Quiet after) (hset : ∃ d ∈ after, d.Settles f) :
    Settled (before ++ .tcAttach f 0 :: after) := by
  intro pre c post g heq hc
  rcases List.append_eq_append_iff.mp heq with ⟨mid, hpre, hmid⟩ | ⟨mid, hbefore, hmid⟩
  · cases mid with
    | nil =>
        -- the filter itself
        injection hmid with hcf hpost
        rw [← hcf] at hc
        injection hc with hfg
        rw [← hpost, ← hfg]
        exact hset
    | cons m mid =>
        injection hmid with _ hafter
        have hquiet := ha c (by rw [hafter]; simp)
        rw [hquiet] at hc
        cases hc
  · cases mid with
    | nil =>
        injection hmid with hcf hpost
        rw [hcf] at hc
        injection hc with hfg
        rw [hpost, ← hfg]
        exact hset
    | cons m mid =>
        injection hmid with hcm hpost
        rw [← hcm] at hbefore
        obtain ⟨d, hd, hdset⟩ := hb pre c mid g hbefore hc
        exact ⟨d, by rw [hpost]; simp [hd], hdset⟩

/-- `f` was installed last, everything before it is settled, and nothing since
settles `f`. -/
def Holds (log : List KernelCall) (f : Filter) : Prop :=
  ∃ before after, log = before ++ .tcAttach f 0 :: after ∧ Settled before ∧ Quiet after ∧
    ∀ c ∈ after, ¬ c.Settles f

theorem Settled.attach {log : List KernelCall} (h : Settled log) (f : Filter) :
    Holds (log ++ [.tcAttach f 0]) f := by
  refine ⟨log, [], rfl, h, Quiet.nil, ?_⟩
  intro c hc
  cases hc

theorem Holds.concat {log : List KernelCall} {f : Filter} {c : KernelCall} (h : Holds log f)
    (hc : c.installs = none) (hset : ¬ c.Settles f) : Holds (log ++ [c]) f := by
  obtain ⟨before, after, hlog, hb, ha, hno⟩ := h
  refine ⟨before, after ++ [c], ?_, hb, ha.concat hc, ?_⟩
  · rw [hlog, List.append_assoc, List.cons_append]
  · intro d hd
    rcases List.mem_append.mp hd with hd | hd
    · exact hno d hd
    · rw [List.mem_singleton.mp hd]
      exact hset

theorem Holds.settle {log : List KernelCall} {f : Filter} {c : KernelCall} (h : Holds log f)
    (hc : c.installs = none) (hset : c.Settles f) : Settled (log ++ [c]) := by
  obtain ⟨before, after, hlog, hb, ha, -⟩ := h
  rw [hlog, List.append_assoc, List.cons_append]
  exact hb.install (ha.concat hc) ⟨c, by simp, hset⟩

/-! ## One step of the object -/

/-- Where the object stands after `Detach`. -/
def ended (dtor : Bool) : Call := if dtor then .destroyed else .idle

/-- What `Detach` ends with. -/
def reports (dtor : Bool) (rc : Int) : Event := if dtor then .destroyed rc else .detached rc

/-- The call that `Detach` is part of. -/
def detaches (dtor : Bool) : Action := if dtor then .destroy else .detach

@[simp] theorem reports_ne_attached (dtor : Bool) (rc : Int) : reports dtor rc ≠ .attached := by
  cases dtor <;> simp [reports]

@[simp] theorem reports_ne_threw (dtor : Bool) (rc : Int) (err : AttachError) :
    reports dtor rc ≠ .threw err := by
  cases dtor <;> simp [reports]

@[simp] theorem attached_ne_reports (dtor : Bool) (rc : Int) : .attached ≠ reports dtor rc :=
  (reports_ne_attached dtor rc).symm

@[simp] theorem threw_ne_reports (dtor : Bool) (rc : Int) (err : AttachError) :
    .threw err ≠ reports dtor rc :=
  (reports_ne_threw dtor rc err).symm

@[simp] theorem reports_inj {d d' : Bool} {rc rc' : Int} :
    reports d rc = reports d' rc' ↔ d = d' ∧ rc = rc' := by
  cases d <;> cases d' <;> simp [reports]

theorem State.returns_eq (s : State) (dtor : Bool) (rc : Int) :
    s.returns dtor rc = ({ s with call := ended dtor }, some (reports dtor rc)) := by
  cases dtor <;> rfl

/-- Everything a step can be. -/
inductive Steps (s : State) : Action → State → Option Event → Prop
  | refuse (args : AttachArgs) (e : AttachError) (hc : s.call = .idle) :
      Steps s (.attach args) s.enter (some (.threw e))
  | beginAttach (args : AttachArgs) (hc : s.call = .idle) (hno : s.obj.attached = false)
      (hargs : ¬ args.Invalid) :
      Steps s (.attach args) { s.enter with call := .readingInfo args } none
  | infoFails (args : AttachArgs) (rc errno : Int) (id : UInt32)
      (hc : s.call = .readingInfo args) (hrc : rc < 0) :
      Steps s (.infoAnswer rc errno id)
        { s.asked (.objGetInfo args.progFd rc id) with call := .idle }
        (some (.threw (.systemError errno "read program ID")))
  | readInfo (args : AttachArgs) (rc errno : Int) (id : UInt32)
      (hc : s.call = .readingInfo args) (hrc : 0 ≤ rc) :
      Steps s (.infoAnswer rc errno id)
        { s.asked (.objGetInfo args.progFd rc id) with
          obj := { s.obj with hook := ⟨args.ifindex, args.direction⟩ }
          call := .creatingHook args id } none
  | hookFails (args : AttachArgs) (info : UInt32) (rc : Int)
      (hc : s.call = .creatingHook args info) :
      Steps s (.hookAnswer rc) { s.asked (.hookCreate s.obj.hook rc) with call := .idle }
        (some (.threw (.systemError (-rc) "create clsact")))
  | createHook (args : AttachArgs) (info : UInt32) (rc : Int)
      (hc : s.call = .creatingHook args info) :
      Steps s (.hookAnswer rc)
        { s.asked (.hookCreate s.obj.hook rc) with call := .attaching args info } none
  | attachFails (args : AttachArgs) (info handle priority : UInt32) (rc : Int)
      (hc : s.call = .attaching args info) (hrc : rc ≠ 0) :
      Steps s (.attachAnswer rc handle priority)
        { s.asked (.tcAttach ⟨⟨s.obj.hook, handle, priority⟩, info⟩ rc) with call := .idle }
        (some (.threw (.systemError (-rc) "attach TC filter")))
  | attach (args : AttachArgs) (info handle priority : UInt32)
      (hc : s.call = .attaching args info) :
      Steps s (.attachAnswer 0 handle priority)
        { s.asked (.tcAttach ⟨⟨s.obj.hook, handle, priority⟩, info⟩ 0) with
          obj := ⟨s.obj.hook, handle, priority, info, true⟩
          call := .idle } (some .attached)
  | nothingToDetach (dtor : Bool) (hc : s.call = .idle) (hno : s.obj.attached = false) :
      Steps s (detaches dtor) { s.enter with call := ended dtor } (some (reports dtor 0))
  | beginDetach (dtor : Bool) (hc : s.call = .idle) (hown : s.obj.attached = true) :
      Steps s (detaches dtor) { s.enter with call := .querying dtor } none
  | findGone (dtor : Bool) (rc : Int) (progId : UInt32) (hc : s.call = .querying dtor)
      (hrc : Gone rc) :
      Steps s (.queryAnswer rc progId)
        { (s.asked (.tcQuery s.obj.slot rc progId)).release with call := ended dtor }
        (some (reports dtor 0))
  | queryFails (dtor : Bool) (rc : Int) (progId : UInt32) (hc : s.call = .querying dtor)
      (hgone : ¬ Gone rc) (hrc : rc ≠ 0) :
      Steps s (.queryAnswer rc progId)
        { s.asked (.tcQuery s.obj.slot rc progId) with call := ended dtor }
        (some (reports dtor rc))
  | findReplaced (dtor : Bool) (progId : UInt32) (hc : s.call = .querying dtor)
      (hid : progId ≠ s.obj.programId) :
      Steps s (.queryAnswer 0 progId)
        { (s.asked (.tcQuery s.obj.slot 0 progId)).release with call := ended dtor }
        (some (reports dtor eStale))
  | findOwn (dtor : Bool) (hc : s.call = .querying dtor) :
      Steps s (.queryAnswer 0 s.obj.programId)
        { s.asked (.tcQuery s.obj.slot 0 s.obj.programId) with call := .detaching dtor } none
  | detach (dtor : Bool) (rc : Int) (hc : s.call = .detaching dtor) (hrc : rc = 0 ∨ Gone rc) :
      Steps s (.detachAnswer rc)
        { (s.asked (.tcDetach s.obj.slot rc)).release with call := ended dtor }
        (some (reports dtor 0))
  | detachFails (dtor : Bool) (rc : Int) (hc : s.call = .detaching dtor) (hgone : ¬ Gone rc)
      (hrc : rc ≠ 0) :
      Steps s (.detachAnswer rc) { s.asked (.tcDetach s.obj.slot rc) with call := ended dtor }
        (some (reports dtor rc))

/-- `Attach` throws before it has asked anything. -/
theorem Steps.of_refuse {s : State} {args : AttachArgs} {e : AttachError} {p : State × Option Event}
    (hc : s.call = .idle) (h : s.enter.throws e = p) : Steps s (.attach args) p.1 p.2 := by
  rw [← h]
  have hidle : { s.enter with call := .idle } = s.enter := by
    rw [← hc]
    rfl
  rw [State.throws, hidle]
  exact .refuse args e hc

/-- The two callers of `Detach` begin alike. -/
theorem Steps.of_detaches {s : State} (dtor : Bool) {p : State × Option Event}
    (hc : s.call = .idle)
    (h : (if s.enter.obj.attached = false then some (s.enter.returns dtor 0)
      else some ({ s.enter with call := .querying dtor }, none)) = some p) :
    Steps s (detaches dtor) p.1 p.2 := by
  split_ifs at h with hno
  · injection h with h
    rw [← h, State.returns_eq]
    exact .nothingToDetach dtor hc hno
  · injection h with h
    rw [← h]
    exact .beginDetach dtor hc (eq_true_of_ne_false hno)

theorem Steps.of_next {s : State} {a : Action} {p : State × Option Event}
    (h : next s a = some p) : Steps s a p.1 p.2 := by
  cases a with
  | attach args =>
      cases hc : s.call <;> simp only [next, hc, reduceCtorEq] at h
      split_ifs at h with hown hargs
      · injection h with h
        exact .of_refuse hc h
      · injection h with h
        exact .of_refuse hc h
      · injection h with h
        rw [← h]
        exact .beginAttach args hc (eq_false_of_ne_true hown) hargs
  | infoAnswer rc errno id =>
      cases hc : s.call <;> simp only [next, hc, reduceCtorEq] at h
      split_ifs at h with hrc
      · injection h with h
        rw [← h]
        exact .infoFails _ rc errno id hc hrc
      · injection h with h
        rw [← h]
        exact .readInfo _ rc errno id hc (Int.not_lt.mp hrc)
  | hookAnswer rc =>
      cases hc : s.call <;> simp only [next, hc, reduceCtorEq] at h
      split_ifs at h with hrc
      · injection h with h
        rw [← h]
        exact .hookFails _ _ rc hc
      · injection h with h
        rw [← h]
        exact .createHook _ _ rc hc
  | attachAnswer rc handle priority =>
      cases hc : s.call <;> simp only [next, hc, reduceCtorEq] at h
      split_ifs at h with hrc
      · injection h with h
        rw [← h]
        exact .attachFails _ _ handle priority rc hc hrc
      · injection h with h
        rw [← h, not_not.mp hrc]
        exact .attach _ _ handle priority hc
  | detach =>
      cases hc : s.call <;> simp only [next, hc, reduceCtorEq] at h
      exact .of_detaches false hc h
  | destroy =>
      cases hc : s.call <;> simp only [next, hc, reduceCtorEq] at h
      exact .of_detaches true hc h
  | queryAnswer rc progId =>
      cases hc : s.call <;> simp only [next, hc, reduceCtorEq] at h
      split_ifs at h with hgone hrc hid
      all_goals injection h with h
      · rw [← h, State.returns_eq]
        exact .findGone _ rc progId hc hgone
      · rw [← h, State.returns_eq]
        exact .queryFails _ rc progId hc hgone hrc
      · rw [← h, State.returns_eq, not_not.mp hrc]
        exact .findReplaced _ progId hc hid
      · rw [← h, not_not.mp hrc, not_not.mp hid]
        exact .findOwn _ hc
  | detachAnswer rc =>
      cases hc : s.call <;> simp only [next, hc, reduceCtorEq] at h
      split_ifs at h with hrc
      · injection h with h
        rw [← h, State.returns_eq]
        exact .detach _ rc hc hrc
      · injection h with h
        rw [← h, State.returns_eq]
        exact .detachFails _ rc hc (fun hg => hrc (Or.inr hg)) (fun h0 => hrc (Or.inl h0))

/-! ## During a call -/

/-- The call has installed nothing so far. -/
def State.NothingInstalled (s : State) : Prop :=
  ∃ more, s.log = s.entryLog ++ more ∧ Quiet more

theorem State.NothingInstalled.enter (s : State) : s.enter.NothingInstalled := by
  refine ⟨[], ?_, Quiet.nil⟩
  simp [State.enter]

theorem State.NothingInstalled.asked {s : State} {c : KernelCall} (h : s.NothingInstalled)
    (hc : c.installs = none) : (s.asked c).NothingInstalled := by
  obtain ⟨more, hlog, hq⟩ := h
  refine ⟨more ++ [c], ?_, hq.concat hc⟩
  simp [State.asked, hlog]

/-- The hook is the one `Attach` was asked for, and `info` is what the kernel
said of the program. -/
def State.Identified (s : State) (args : AttachArgs) (info : UInt32) : Prop :=
  s.obj.hook = ⟨args.ifindex, args.direction⟩ ∧
    ∃ rc, 0 ≤ rc ∧ .objGetInfo args.progFd rc info ∈ s.log

/-- Between the begin of a call and its end. -/
def InCall (s : State) : Prop :=
  match s.call with
  | .idle => True
  | .readingInfo _ =>
      s.obj.attached = false ∧ s.entryObj.attached = false ∧ s.NothingInstalled
  | .creatingHook args info =>
      s.obj.attached = false ∧ s.entryObj.attached = false ∧ s.NothingInstalled ∧
        s.Identified args info
  | .attaching args info =>
      s.obj.attached = false ∧ s.entryObj.attached = false ∧ s.NothingInstalled ∧
        s.Identified args info
  | .querying _ => s.obj.attached = true ∧ s.obj = s.entryObj ∧ s.log = s.entryLog
  | .detaching _ =>
      s.obj.attached = true ∧ s.obj = s.entryObj ∧
        s.log = s.entryLog ++ [.tcQuery s.obj.slot 0 s.obj.programId]
  | .destroyed => True

theorem InCall.of_ended {s : State} {dtor : Bool} (h : s.call = ended dtor) : InCall s := by
  cases dtor <;> simp [InCall, h, ended]

theorem InCall.step {s s' : State} {a : Action} {e : Option Event} (hin : InCall s)
    (h : Steps s a s' e) : InCall s' := by
  cases h with
  | refuse args err hc =>
      simp only [InCall, State.enter, hc]
  | beginAttach args hc hno hargs => exact ⟨hno, hno, .enter s⟩
  | infoFails args rc errno id hc hrc => trivial
  | readInfo args rc errno id hc hrc =>
      rw [InCall, hc] at hin
      obtain ⟨hno, hentry, hquiet⟩ := hin
      refine ⟨hno, hentry, hquiet.asked rfl, rfl, rc, hrc, ?_⟩
      simp [State.asked]
  | hookFails args info rc hc => trivial
  | createHook args info rc hc =>
      rw [InCall, hc] at hin
      obtain ⟨hno, hentry, hquiet, hhook, rc', hrc', hmem⟩ := hin
      refine ⟨hno, hentry, hquiet.asked rfl, hhook, rc', hrc', ?_⟩
      simp [State.asked, hmem]
  | attachFails args info handle priority rc hc hrc => trivial
  | attach args info handle priority hc => trivial
  | nothingToDetach dtor hc hno => exact .of_ended rfl
  | beginDetach dtor hc hown => exact ⟨hown, rfl, rfl⟩
  | findGone dtor rc progId hc hrc => exact .of_ended rfl
  | queryFails dtor rc progId hc hgone hrc => exact .of_ended rfl
  | findReplaced dtor progId hc hid => exact .of_ended rfl
  | findOwn dtor hc =>
      rw [InCall, hc] at hin
      obtain ⟨hown, hentry, hlog⟩ := hin
      refine ⟨hown, hentry, ?_⟩
      simp [State.asked, hlog]
  | detach dtor rc hc hrc => exact .of_ended rfl
  | detachFails dtor rc hc hgone hrc => exact .of_ended rfl

/-! ## In every state -/

/-- `attached_` answers for everything the object has installed. -/
structure Owns (s : State) : Prop where
  active : s.obj.attached = true → Holds s.log s.obj.filter
  inactive : s.obj.attached = false → Settled s.log

/-- An answer about a filter the object does not lose. -/
theorem Owns.asked {s : State} {c : KernelCall} (h : Owns s) (hc : c.installs = none)
    (hset : s.obj.attached = true → ¬ c.Settles s.obj.filter) : Owns (s.asked c) := by
  constructor
  · intro hown
    exact (h.active hown).concat hc (hset hown)
  · intro hno
    exact (h.inactive hno).concat hc

/-- An answer that settles the filter. -/
theorem Owns.lose {s : State} {c : KernelCall} (h : Owns s) (hown : s.obj.attached = true)
    (hc : c.installs = none) (hset : c.Settles s.obj.filter) : Owns (s.asked c).release := by
  constructor
  · intro hno
    cases hno
  · intro _
    exact (h.active hown).settle hc hset

/-- Where the call stands is not part of it. -/
theorem Owns.withCall {s : State} (h : Owns s) (call : Call) : Owns { s with call := call } :=
  ⟨h.active, h.inactive⟩

theorem Owns.step {s s' : State} {a : Action} {e : Option Event} (hown : Owns s)
    (hin : InCall s) (h : Steps s a s' e) : Owns s' := by
  cases h with
  | refuse args err hc => exact ⟨hown.active, hown.inactive⟩
  | beginAttach args hc hno hargs => exact ⟨hown.active, hown.inactive⟩
  | infoFails args rc errno id hc hrc =>
      apply Owns.withCall
      exact hown.asked rfl fun _ hset => hset
  | readInfo args rc errno id hc hrc =>
      rw [InCall, hc] at hin
      constructor
      · intro hyes
        exact absurd hyes (by simp [hin.1])
      · intro hno
        exact (hown.inactive hno).concat rfl
  | hookFails args info rc hc =>
      apply Owns.withCall
      exact hown.asked rfl fun _ hset => hset
  | createHook args info rc hc =>
      apply Owns.withCall
      exact hown.asked rfl fun _ hset => hset
  | attachFails args info handle priority rc hc hrc =>
      apply Owns.withCall
      exact hown.asked (if_neg hrc) fun _ hset => hset
  | attach args info handle priority hc =>
      rw [InCall, hc] at hin
      constructor
      · intro _
        exact (hown.inactive hin.1).attach _
      · intro hno
        cases hno
  | nothingToDetach dtor hc hno => exact ⟨hown.active, hown.inactive⟩
  | beginDetach dtor hc hyes => exact ⟨hown.active, hown.inactive⟩
  | findGone dtor rc progId hc hrc =>
      rw [InCall, hc] at hin
      apply Owns.withCall
      exact hown.lose hin.1 rfl ⟨rfl, Or.inl hrc⟩
  | queryFails dtor rc progId hc hgone hrc =>
      have hkeeps : ¬ (KernelCall.tcQuery s.obj.slot rc progId).Settles s.obj.filter := fun hset =>
        hset.2.elim hgone fun h => hrc h.1
      apply Owns.withCall
      exact hown.asked rfl fun _ => hkeeps
  | findReplaced dtor progId hc hid =>
      rw [InCall, hc] at hin
      apply Owns.withCall
      exact hown.lose hin.1 rfl ⟨rfl, Or.inr ⟨rfl, hid⟩⟩
  | findOwn dtor hc =>
      have hkeeps : ¬ (KernelCall.tcQuery s.obj.slot 0 s.obj.programId).Settles s.obj.filter :=
        fun hset => hset.2.elim (by decide) fun h => h.2 rfl
      apply Owns.withCall
      exact hown.asked rfl fun _ => hkeeps
  | detach dtor rc hc hrc =>
      rw [InCall, hc] at hin
      apply Owns.withCall
      exact hown.lose hin.1 rfl ⟨rfl, hrc⟩
  | detachFails dtor rc hc hgone hrc =>
      have hkeeps : ¬ (KernelCall.tcDetach s.obj.slot rc).Settles s.obj.filter := fun hset =>
        hset.2.elim hrc hgone
      apply Owns.withCall
      exact hown.asked rfl fun _ => hkeeps

/-- Both invariants, on every run. -/
theorem Owns.run {tr : List (Action × Option Event)} {s : State} (h : system.Run tr s) :
    Owns s ∧ InCall s := by
  apply h.invariant (P := fun _ s => Owns s ∧ InCall s)
  · intro s hs
    obtain ⟨hobj, hcall, hlog, -, -⟩ := hs
    refine ⟨⟨?_, ?_⟩, ?_⟩
    · intro hyes
      rw [hobj] at hyes
      cases hyes
    · intro _
      rw [hlog]
      exact .nil
    · rw [InCall, hcall]
      trivial
  · intro tr s l s' hinv hstep
    have hsteps := Steps.of_next hstep
    exact ⟨hinv.1.step hinv.2 hsteps, hinv.2.step hsteps⟩

/-! ## What a call leaves behind -/

/-- What the end of a call says about the object it leaves. -/
structure Leaves (s s' : State) (e : Option Event) : Prop where
  /-- the new identity is the one that was asked for -/
  attached : e = some .attached → ∃ args, s'.Identified args s'.obj.programId
  /-- nothing of its own is left installed, and an active attachment is as it was -/
  threw : ∀ err, e = some (.threw err) →
    s'.NothingInstalled ∧ s'.obj.attached = s'.entryObj.attached ∧
      (s'.entryObj.attached = true → s'.obj = s'.entryObj)
  /-- the object is as it was, unless its filter was found replaced -/
  failed : ∀ dtor rc, e = some (reports dtor rc) → rc ≠ 0 →
    s'.obj = s'.entryObj ∨
      (rc = eStale ∧ ∃ progId, progId ≠ s'.entryObj.programId ∧
        s'.log = s'.entryLog ++ [.tcQuery s'.entryObj.slot 0 progId])
  /-- only an active attachment is removed from the kernel -/
  detaches : ∀ slot rc, s'.log = s.log ++ [.tcDetach slot rc] →
    s.obj.attached = true ∧ slot = s.obj.slot

theorem Steps.attached {s s' : State} {a : Action} {e : Option Event} (hin : InCall s)
    (h : Steps s a s' e) (he : e = some .attached) :
    ∃ args, s'.Identified args s'.obj.programId := by
  cases h
  case attach args info handle priority hc =>
    rw [InCall, hc] at hin
    obtain ⟨-, -, -, hhook, rc, hrc, hmem⟩ := hin
    refine ⟨args, hhook, rc, hrc, ?_⟩
    simp [State.asked, hmem]
  all_goals simp at he

theorem Steps.threw {s s' : State} {a : Action} {e : Option Event} {err : AttachError}
    (hin : InCall s) (h : Steps s a s' e) (he : e = some (.threw err)) :
    s'.NothingInstalled ∧ s'.obj.attached = s'.entryObj.attached ∧
      (s'.entryObj.attached = true → s'.obj = s'.entryObj) := by
  have unattached : s'.obj.attached = false → s'.entryObj.attached = false →
      s'.obj.attached = s'.entryObj.attached ∧
        (s'.entryObj.attached = true → s'.obj = s'.entryObj) := by
    intro hobj hentry
    rw [hobj, hentry]
    exact ⟨rfl, fun h => nomatch h⟩
  cases h
  case refuse args hc => exact ⟨.enter s, rfl, fun _ => rfl⟩
  case infoFails args rc errno id hc hrc =>
    rw [InCall, hc] at hin
    obtain ⟨hno, hentry, hquiet⟩ := hin
    exact ⟨hquiet.asked rfl, unattached hno hentry⟩
  case hookFails args info rc hc =>
    rw [InCall, hc] at hin
    obtain ⟨hno, hentry, hquiet, -⟩ := hin
    exact ⟨hquiet.asked rfl, unattached hno hentry⟩
  case attachFails args info handle priority rc hc hrc =>
    rw [InCall, hc] at hin
    obtain ⟨hno, hentry, hquiet, -⟩ := hin
    exact ⟨hquiet.asked (if_neg hrc), unattached hno hentry⟩
  all_goals simp at he

theorem Steps.failed {s s' : State} {a : Action} {e : Option Event} {dtor : Bool} {rc : Int}
    (hin : InCall s) (h : Steps s a s' e) (he : e = some (reports dtor rc)) (hrc : rc ≠ 0) :
    s'.obj = s'.entryObj ∨
      (rc = eStale ∧ ∃ progId, progId ≠ s'.entryObj.programId ∧
        s'.log = s'.entryLog ++ [.tcQuery s'.entryObj.slot 0 progId]) := by
  cases h
  case queryFails d rc' progId hc hgone hrc' =>
    rw [InCall, hc] at hin
    exact Or.inl hin.2.1
  case findReplaced d progId hc hid =>
    rw [InCall, hc] at hin
    obtain ⟨-, hentry, hlog⟩ := hin
    simp only [Option.some.injEq, reports_inj] at he
    refine Or.inr ⟨he.2.symm, progId, ?_, ?_⟩
    · exact hentry ▸ hid
    · simp [State.asked, State.release, hlog, hentry]
  case detachFails d rc' hc hgone hrc' =>
    rw [InCall, hc] at hin
    exact Or.inl hin.2.1
  all_goals simp at he
  all_goals exact absurd he.2.symm hrc

theorem Steps.detaches {s s' : State} {a : Action} {e : Option Event} {slot : Slot} {rc : Int}
    (hin : InCall s) (h : Steps s a s' e) (hlog : s'.log = s.log ++ [.tcDetach slot rc]) :
    s.obj.attached = true ∧ slot = s.obj.slot := by
  cases h
  case detach d rc' hc hrc =>
    rw [InCall, hc] at hin
    simp only [State.asked, State.release, List.append_cancel_left_eq, List.cons.injEq,
      KernelCall.tcDetach.injEq, and_true] at hlog
    exact ⟨hin.1, hlog.1.symm⟩
  case detachFails d rc' hc hgone hrc =>
    rw [InCall, hc] at hin
    simp only [State.asked, List.append_cancel_left_eq, List.cons.injEq,
      KernelCall.tcDetach.injEq, and_true] at hlog
    exact ⟨hin.1, hlog.1.symm⟩
  all_goals simp [State.asked, State.enter, State.release] at hlog

theorem Leaves.of_steps {s s' : State} {a : Action} {e : Option Event} (hin : InCall s)
    (h : Steps s a s' e) : Leaves s s' e where
  attached he := h.attached hin he
  threw _ he := h.threw hin he
  failed _ _ he hrc := h.failed hin he hrc
  detaches _ _ hlog := h.detaches hin hlog

/-- **Ownership.**  Whatever is called and whatever the kernel answers:
`attached_` answers for every filter the object has installed, and every step
leaves the object as its callers may rely on. -/
theorem tcAttachment_owns {tr : List (Action × Option Event)} {s : State}
    (h : system.Run tr s) :
    (s.obj.attached = true →
      ∃ before after, s.log = before ++ .tcAttach s.obj.filter 0 :: after ∧ Settled before ∧
        Quiet after ∧ ∀ c ∈ after, ¬ c.Settles s.obj.filter) ∧
    (s.obj.attached = false → Settled s.log) ∧
    ∀ a s' e, next s a = some (s', e) → Leaves s s' e := by
  obtain ⟨hown, hin⟩ := Owns.run h
  refine ⟨hown.active, hown.inactive, ?_⟩
  intro a s' e hnext
  exact .of_steps hin (Steps.of_next hnext)

/-- Attach, a detach that the kernel refuses, and a detach that succeeds. -/
theorem tcAttachment_owns_retry :
    Settled [.objGetInfo 3 0 7, .hookCreate ⟨2, 1⟩ eExist, .tcAttach ⟨⟨⟨2, 1⟩, 1, 50⟩, 7⟩ 0,
      .tcQuery ⟨⟨2, 1⟩, 1, 50⟩ 0 7, .tcDetach ⟨⟨2, 1⟩, 1, 50⟩ (-16),
      .tcQuery ⟨⟨2, 1⟩, 1, 50⟩ 0 7, .tcDetach ⟨⟨2, 1⟩, 1, 50⟩ 0] := by
  have begun : system.Run [] ⟨⟨⟨0, 0⟩, 0, 0, 0, false⟩, .idle, [], ⟨⟨0, 0⟩, 0, 0, 0, false⟩, []⟩ :=
    .init ⟨rfl, rfl, rfl, rfl, rfl⟩
  have attached := (((begun.next (.attach ⟨2, 1, 3, 1, 50⟩) rfl).next (.infoAnswer 0 0 7) rfl).next
    (.hookAnswer eExist) rfl).next (.attachAnswer 0 1 50) rfl
  have refused := ((attached.next .detach rfl).next (.queryAnswer 0 7) rfl).next
    (.detachAnswer (-16)) rfl
  have detached := ((refused.next .detach rfl).next (.queryAnswer 0 7) rfl).next
    (.detachAnswer 0) rfl
  exact (tcAttachment_owns detached).2.1 rfl

end ElephantShrew.Tc
