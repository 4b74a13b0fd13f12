import ElephantShrew.Verified.StepSystem

/-!
# One owned TC filter

`TcAttachment.hpp`, one step for each answer of the kernel.  An object calls
the kernel up to three times in `Attach` and twice in `Detach`; between a call
and its answer anybody else may act, so the place where the object waits is
part of the state.  What the kernel answers is an input of the step.

The state also keeps what the object asked the kernel and what it was told,
and the object as it was when the current call began.
-/

namespace ElephantShrew.Tc

open ElephantShrew.Verified

/-- `-ENOENT`, `-EEXIST`, `-ENODEV` and `-ESTALE`. -/
def eNoent : Int := -2
def eExist : Int := -17
def eNodev : Int := -19
def eStale : Int := -116

/-- `bpf_tc_hook`. -/
structure TcHook where
  ifindex : Int
  attachPoint : UInt32
  deriving DecidableEq, Repr

/-- Where a filter stands: the identity of its hook, handle and priority. -/
structure Slot where
  hook : TcHook
  handle : UInt32
  priority : UInt32
  deriving DecidableEq, Repr

/-- A filter: where it stands and the program it runs. -/
structure Filter where
  slot : Slot
  programId : UInt32
  deriving DecidableEq, Repr

/-- The members of `TcAttachment`. -/
structure TcAttachment where
  hook : TcHook
  handle : UInt32
  priority : UInt32
  programId : UInt32
  attached : Bool
  deriving DecidableEq, Repr

/-- The slot `Detach` asks for. -/
def TcAttachment.slot (t : TcAttachment) : Slot := ⟨t.hook, t.handle, t.priority⟩

/-- `hook_`, `handle_`, `priority_` and `program_id_`. -/
def TcAttachment.filter (t : TcAttachment) : Filter := ⟨t.slot, t.programId⟩

/-- The arguments of `Attach`. -/
structure AttachArgs where
  ifindex : Int
  direction : UInt32
  progFd : Int
  handle : UInt32
  priority : UInt32
  deriving DecidableEq, Repr

/-- The kernel call the object waits for; `dtor` is whether `Detach` was called
by the destructor. -/
inductive Call where
  | idle
  | readingInfo (args : AttachArgs)
  | creatingHook (args : AttachArgs) (info : UInt32)
  | attaching (args : AttachArgs) (info : UInt32)
  | querying (dtor : Bool)
  | detaching (dtor : Bool)
  | destroyed
  deriving DecidableEq, Repr

/-- A kernel call that was answered, with its answer. -/
inductive KernelCall where
  | objGetInfo (progFd : Int) (rc : Int) (id : UInt32)
  | hookCreate (hook : TcHook) (rc : Int)
  /-- the filter is the one in `opts` after the call, running the program that
  `prog_fd` was reported to be -/
  | tcAttach (filter : Filter) (rc : Int)
  | tcQuery (slot : Slot) (rc : Int) (progId : UInt32)
  | tcDetach (slot : Slot) (rc : Int)
  deriving DecidableEq, Repr

/-- What `Attach` throws. -/
inductive AttachError where
  | logicError (what : String)
  | invalidArgument (what : String)
  | systemError (code : Int) (what : String)
  deriving DecidableEq, Repr

/-- What a call returns to its caller. -/
inductive Event where
  | attached
  | threw (e : AttachError)
  | detached (rc : Int)
  /-- the destructor has run; a nonzero code was printed -/
  | destroyed (rc : Int)
  deriving DecidableEq, Repr

inductive Action where
  | attach (args : AttachArgs)
  | infoAnswer (rc errno : Int) (id : UInt32)
  | hookAnswer (rc : Int)
  | attachAnswer (rc : Int) (handle priority : UInt32)
  | detach
  | destroy
  | queryAnswer (rc : Int) (progId : UInt32)
  | detachAnswer (rc : Int)
  deriving DecidableEq, Repr

/-- The object, and what was asked of the kernel so far. -/
structure State where
  obj : TcAttachment
  call : Call
  log : List KernelCall
  /-- the object, and the log, when the current call began -/
  entryObj : TcAttachment
  entryLog : List KernelCall
  deriving DecidableEq, Repr

/-- The checks of `Attach` on its arguments. -/
def AttachArgs.Invalid (a : AttachArgs) : Prop :=
  a.ifindex ≤ 0 ∨ a.progFd < 0 ∨ a.handle = 0 ∨ a.priority = 0 ∨ a.priority > 65535

instance (a : AttachArgs) : Decidable a.Invalid :=
  inferInstanceAs (Decidable (_ ∨ _ ∨ _ ∨ _ ∨ _))

/-- The filter is known to be gone. -/
def Gone (rc : Int) : Prop := rc = eNoent ∨ rc = eNodev

instance (rc : Int) : Decidable (Gone rc) := inferInstanceAs (Decidable (_ ∨ _))

/-- A call begins. -/
def State.enter (s : State) : State := { s with entryObj := s.obj, entryLog := s.log }

/-- The kernel has answered. -/
def State.asked (s : State) (c : KernelCall) : State := { s with log := s.log ++ [c] }

/-- `Attach` throws. -/
def State.throws (s : State) (e : AttachError) : State × Option Event :=
  ({ s with call := .idle }, some (.threw e))

/-- `Detach` returns to its caller. -/
def State.returns (s : State) (dtor : Bool) (rc : Int) : State × Option Event :=
  if dtor then ({ s with call := .destroyed }, some (.destroyed rc))
  else ({ s with call := .idle }, some (.detached rc))

/-- `attached_ = false`. -/
def State.release (s : State) : State := { s with obj := { s.obj with attached := false } }

/-- One step.  A step that ends a call says what it returns. -/
def next (s : State) : Action → Option (State × Option Event)
  | .attach args =>
      match s.call with
      | .idle =>
          let s := s.enter
          if s.obj.attached then some (s.throws (.logicError "TC attachment already active"))
          else if args.Invalid then
            some (s.throws (.invalidArgument "invalid TC attachment identity"))
          else some ({ s with call := .readingInfo args }, none)
      | _ => none
  | .infoAnswer rc errno id =>
      match s.call with
      | .readingInfo args =>
          let s := s.asked (.objGetInfo args.progFd rc id)
          if rc < 0 then some (s.throws (.systemError errno "read program ID"))
          else
            some ({ s with
              obj := { s.obj with hook := ⟨args.ifindex, args.direction⟩ }
              call := .creatingHook args id }, none)
      | _ => none
  | .hookAnswer rc =>
      match s.call with
      | .creatingHook args info =>
          let s := s.asked (.hookCreate s.obj.hook rc)
          if rc ≠ 0 ∧ rc ≠ eExist then some (s.throws (.systemError (-rc) "create clsact"))
          else some ({ s with call := .attaching args info }, none)
      | _ => none
  | .attachAnswer rc handle priority =>
      match s.call with
      | .attaching _ info =>
          let filter : Filter := ⟨⟨s.obj.hook, handle, priority⟩, info⟩
          let s := s.asked (.tcAttach filter rc)
          if rc ≠ 0 then some (s.throws (.systemError (-rc) "attach TC filter"))
          else
            some ({ s with
              obj := ⟨s.obj.hook, handle, priority, info, true⟩
              call := .idle }, some .attached)
      | _ => none
  | .detach =>
      match s.call with
      | .idle =>
          let s := s.enter
          if s.obj.attached = false then some (s.returns false 0)
          else some ({ s with call := .querying false }, none)
      | _ => none
  | .destroy =>
      match s.call with
      | .idle =>
          let s := s.enter
          if s.obj.attached = false then some (s.returns true 0)
          else some ({ s with call := .querying true }, none)
      | _ => none
  | .queryAnswer rc progId =>
      match s.call with
      | .querying dtor =>
          let s := s.asked (.tcQuery s.obj.slot rc progId)
          if Gone rc then some (s.release.returns dtor 0)
          else if rc ≠ 0 then some (s.returns dtor rc)
          -- the old program is no longer at our slot
          else if progId ≠ s.obj.programId then some (s.release.returns dtor eStale)
          else some ({ s with call := .detaching dtor }, none)
      | _ => none
  | .detachAnswer rc =>
      match s.call with
      | .detaching dtor =>
          let s := s.asked (.tcDetach s.obj.slot rc)
          if rc = 0 ∨ Gone rc then some (s.release.returns dtor 0)
          else some (s.returns dtor rc)
      | _ => none

/-- A constructed object. -/
def Initial (s : State) : Prop :=
  s.obj = ⟨⟨0, 0⟩, 0, 0, 0, false⟩ ∧ s.call = .idle ∧ s.log = [] ∧ s.entryObj = s.obj ∧
    s.entryLog = []

/-- The object under any calls and any answers. -/
def system : System State (Action × Option Event) := .ofNext Initial next

end ElephantShrew.Tc
