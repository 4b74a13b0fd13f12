import ElephantShrew.Telemetry.Delivery
import ElephantShrew.Telemetry.SpscCalls

/-!
# Callbacks and pops that run to their end

What a callback does with its record when nobody else takes a step before it is
over, and what a pop does: the whole calls of the queue, seen from the telemetry
object.
-/

namespace ElephantShrew.Telemetry.Delivery

open ElephantShrew.Verified

variable {c : Capacity} {o : Codec.ByteOrder} {sources : List Source} {s s' s'' : State}

/-- The object comes from one state to another and no callback starts on the way. -/
def Alone (c : Capacity) (o : Codec.ByteOrder) (sources : List Source) (s s' : State) : Prop :=
  ∃ as : List Action, (∀ a ∈ as, ∀ cb, a ≠ .callback cb) ∧
    as.foldlM (next c o sources) s = some s'

theorem Alone.step {a : Action} (ha : ∀ cb, a ≠ .callback cb) (h : next c o sources s a = some s') :
    Alone c o sources s s' := by
  refine ⟨[a], fun b hb => ?_, ?_⟩
  · rw [List.mem_singleton.mp hb]
    exact ha
  · rw [List.foldlM_cons, h]
    rfl

theorem Alone.trans (h : Alone c o sources s s') (h' : Alone c o sources s' s'') :
    Alone c o sources s s'' := by
  obtain ⟨as, has, hs⟩ := h
  obtain ⟨as', has', hs'⟩ := h'
  refine ⟨as ++ as', fun a ha => ?_, ?_⟩
  · rcases List.mem_append.mp ha with ha | ha
    · exact has a ha
    · exact has' a ha
  · rw [List.foldlM_append, hs]
    exact hs'

/-- A step of the queue. -/
theorem Alone.queue {a : Spsc.Action recordSize UInt8} (ha : insideQueue a = true)
    {queue : Spsc.State recordSize UInt8} {e : Option (QueueEvent (Fin recordSize → UInt8))}
    (h : Spsc.next c s.queue a = some (queue, e))
    (hs : afterQueue o { s with queue := queue } e = s') : Alone c o sources s s' := by
  apply Alone.step (a := .queue a) (fun cb => Action.noConfusion)
  simp only [next, ha, if_true, h, hs]

/-- Steps of the queue that return nothing. -/
theorem Alone.quietly {as : List (Spsc.Action recordSize UInt8)}
    (has : ∀ a ∈ as, insideQueue a = true) {queue : Spsc.State recordSize UInt8}
    (h : as.foldlM (Spsc.quiet c) s.queue = some queue) :
    Alone c o sources s { s with queue := queue } := by
  induction as generalizing s with
  | nil =>
      injection h with h
      rw [← h]
      exact ⟨[], fun _ ha => absurd ha List.not_mem_nil, rfl⟩
  | cons a as ih =>
      rw [List.foldlM_cons] at h
      obtain ⟨queue₁, ha, h⟩ := Option.bind_eq_some_iff.mp h
      have hhead : Alone c o sources s { s with queue := queue₁ } :=
        Alone.queue (has a List.mem_cons_self) (Spsc.next_of_quiet ha) rfl
      exact hhead.trans (ih (s := { s with queue := queue₁ })
        (fun b hb => has b (List.mem_cons_of_mem _ hb)) h)

/-- The steps of a call that copies. -/
theorem inside_of_mem {a b x : Spsc.Action recordSize UInt8}
    {copy : Fin recordSize → Spsc.Action recordSize UInt8} (ha : insideQueue a = true)
    (hb : insideQueue b = true) (hcopy : ∀ k, insideQueue (copy k) = true)
    (h : x ∈ a :: b :: (List.finRange recordSize).map copy) : insideQueue x = true := by
  rcases List.mem_cons.mp h with rfl | h
  · exact ha
  · rcases List.mem_cons.mp h with rfl | h
    · exact hb
    · obtain ⟨k, -, rfl⟩ := List.mem_map.mp h
      exact hcopy k

theorem Alone.run (h : Alone c o sources s s') (hrun : ∃ tr, (system c o sources).Run tr s) :
    ∃ tr, (system c o sources).Run tr s' := by
  obtain ⟨as, -, has⟩ := h
  obtain ⟨tr, hrun⟩ := hrun
  exact ⟨tr ++ as, hrun.acts as has⟩

/-! ## Callbacks -/

/-- A callback has been called. -/
def entered (s : State) (cb : Callback) : State :=
  { s with pc := .entered cb, made := s.made ++ [cb] }

/-- It has ended. -/
def left (s : State) (cb : Callback) (out : Outcome) (queue : Spsc.State recordSize UInt8) :
    State where
  queue := queue
  pc := .idle
  loss := s.loss.count out
  made := s.made ++ [cb]
  ended := s.ended ++ [(cb, out)]
  popped := s.popped

theorem next_entered {cb : Callback} (hpc : s.pc = .idle) (hsource : cb.source ∈ sources) :
    next c o sources s (.callback cb) = some (entered s cb) := by
  simp only [next, hpc, hsource, if_true]
  rfl

theorem run_callback {cb : Callback} (hrun : ∃ tr, (system c o sources).Run tr s)
    (hpc : s.pc = .idle) (hsource : cb.source ∈ sources)
    (h : Alone c o sources (entered s cb) s') : ∃ tr, (system c o sources).Run tr s' := by
  obtain ⟨tr, hrun⟩ := hrun
  exact h.run ⟨_, hrun.act (.callback cb) (next_entered hpc hsource)⟩

/-- The callback decides to push. -/
theorem Alone.pushing {cb : Callback} {record : TelemetryRecord} {view : ShutdownView}
    (hview : ¬view.cancels) (hdecodes : decodeRecord o cb.source cb.data cb.size = some record)
    {queue : Spsc.State recordSize UInt8}
    (hcall : Spsc.next c s.queue (.tryPush (toCells o record)) = some (queue, none)) :
    Alone c o sources (entered s cb)
      { entered s cb with queue := queue, pc := .pushing cb record } := by
  apply Alone.step (a := .decide view) (fun cb => Action.noConfusion)
  have hverdict : onEvent o cb.source view cb.data cb.size = .push record := by
    rw [onEvent, if_neg hview, hdecodes]
  simp only [next, entered, decideEvent, hverdict, hcall]

/-- **With room in the queue a record that decodes is queued.** -/
theorem callback_queued {l : List (Fin recordSize → UInt8)} (h : Spsc.Resting c s.queue l)
    (hroom : l.length < c.capacity) {cb : Callback} {record : TelemetryRecord}
    {view : ShutdownView} (hview : ¬view.cancels)
    (hdecodes : decodeRecord o cb.source cb.data cb.size = some record) :
    ∃ queue, Alone c o sources (entered s cb) (left s cb (.queued record) queue) ∧
      Spsc.Resting c queue (l ++ [toCells o record]) := by
  obtain ⟨queue, ⟨queue₁, queue₂, hcall, hinside, hlast⟩, hresting⟩ :=
    h.push hroom (toCells o record)
  refine ⟨queue, ?_, hresting⟩
  have hpushing : Alone c o sources (entered s cb)
      { entered s cb with queue := queue₁, pc := .pushing cb record } :=
    Alone.pushing hview hdecodes hcall
  have hcopied : Alone c o sources { entered s cb with queue := queue₁, pc := .pushing cb record }
      { entered s cb with queue := queue₂, pc := .pushing cb record } :=
    Alone.quietly (fun _ ha => inside_of_mem rfl rfl (fun _ => rfl) ha) hinside
  have hpushed : Alone c o sources { entered s cb with queue := queue₂, pc := .pushing cb record }
      (left s cb (.queued record) queue) := Alone.queue rfl hlast rfl
  exact hpushing.trans (hcopied.trans hpushed)

/-- **With none it is dropped**, and counted. -/
theorem callback_dropped {l : List (Fin recordSize → UInt8)} (h : Spsc.Resting c s.queue l)
    (hfull : l.length = c.capacity) {cb : Callback} {record : TelemetryRecord}
    {view : ShutdownView} (hview : ¬view.cancels)
    (hdecodes : decodeRecord o cb.source cb.data cb.size = some record) :
    Alone c o sources (entered s cb) (left s cb .dropped s.queue) := by
  obtain ⟨queue₁, queue₂, hcall, hinside, hlast⟩ := h.refuse hfull (toCells o record)
  have hpushing : Alone c o sources (entered s cb)
      { entered s cb with queue := queue₁, pc := .pushing cb record } :=
    Alone.pushing hview hdecodes hcall
  have hloaded : Alone c o sources { entered s cb with queue := queue₁, pc := .pushing cb record }
      { entered s cb with queue := queue₂, pc := .pushing cb record } :=
    Alone.quietly (fun a ha => by rw [List.mem_singleton.mp ha]; rfl) hinside
  have hrefused : Alone c o sources { entered s cb with queue := queue₂, pc := .pushing cb record }
      { entered s cb with queue := s.queue, pc := .refused cb } := Alone.queue rfl hlast rfl
  have hcounted : Alone c o sources { entered s cb with queue := s.queue, pc := .refused cb }
      (left s cb .dropped s.queue) :=
    Alone.step (a := .countDrop) (fun cb => Action.noConfusion) rfl
  exact hpushing.trans (hloaded.trans (hrefused.trans hcounted))

/-- With the time over it is discarded. -/
theorem callback_discarded {cb : Callback} (view : ShutdownView) (hview : view.cancels) :
    Alone c o sources (entered s cb) (left s cb .discarded s.queue) := by
  apply Alone.step (a := .decide view) (fun cb => Action.noConfusion)
  have hverdict : onEvent o cb.source view cb.data cb.size = .discard := by
    rw [onEvent, if_pos hview]
  simp only [next, entered, decideEvent, hverdict]
  rfl

/-- A record that does not decode is counted as such. -/
theorem callback_decodeError (cb : Callback) {view : ShutdownView} (hview : ¬view.cancels)
    (hnone : decodeRecord o cb.source cb.data cb.size = none) :
    Alone c o sources (entered s cb) (left s cb .decodeError s.queue) := by
  apply Alone.step (a := .decide view) (fun cb => Action.noConfusion)
  have hverdict : onEvent o cb.source view cb.data cb.size = .decodeError := by
    rw [onEvent, if_neg hview, hnone]
  simp only [next, entered, decideEvent, hverdict]
  rfl

/-! ## Pops -/

/-- **A pop gives the sink the oldest record.** -/
theorem pop_oldest {v : Fin recordSize → UInt8} {l : List (Fin recordSize → UInt8)}
    (h : Spsc.Resting c s.queue (v :: l)) :
    ∃ queue, Alone c o sources s { s with queue := queue, popped := s.popped ++ [ofCells o v] } ∧
      Spsc.Resting c queue l := by
  obtain ⟨queue, ⟨queue₁, queue₂, hcall, hinside, hlast⟩, hresting⟩ := h.pop v
  refine ⟨queue, ?_, hresting⟩
  have hcalled : Alone c o sources s { s with queue := queue₁ } := Alone.queue rfl hcall rfl
  have hcopied : Alone c o sources { s with queue := queue₁ } { s with queue := queue₂ } :=
    Alone.quietly (fun _ ha => inside_of_mem rfl rfl (fun _ => rfl) ha) hinside
  have hpopped : Alone c o sources { s with queue := queue₂ }
      { s with queue := queue, popped := s.popped ++ [ofCells o v] } := Alone.queue rfl hlast rfl
  exact hcalled.trans (hcopied.trans hpopped)

end ElephantShrew.Telemetry.Delivery
