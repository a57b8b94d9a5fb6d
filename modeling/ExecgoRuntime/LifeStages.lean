import ExecgoRuntime.Supervising
import ExecgoRuntime.Tracking

/-!
The life of a task that nobody kills and whose server is not restarted, as a
sequence of stages. A stage fixes what the event stream says after the opening,
whether a reservation is held and which statuses the row can have. The writes
of such a life lead from one stage to another, and a shim, from the point it
has reached, knows the stage of its task.
-/
namespace ExecgoRuntime

/-- The stored plan is degraded. -/
def TaskRecord.planDegraded (row : TaskRecord) : Bool :=
  row.executionPlan.any ExecutionPlan.degraded

/-- The events that a row is inserted with. -/
def TaskRecord.opening (row : TaskRecord) : List EventType :=
  [.submitted, .accepted, .planned] ++ if row.planDegraded then [.degraded] else []

/-- What follows the opening in the stream of a task that has ended. -/
inductive LifeWord : List EventType → Prop
  | unstarted : LifeWord [.resourceReserved, .resourceReleased, .failed]
  | started (late success : Bool) :
      LifeWord ([.resourceReserved, .started] ++ (if late then [.timeoutTriggered] else []) ++
        [.resourceReleased, if success then .finished else .failed])

/-- The stream is a prefix of a complete one, and complete exactly when the row is
terminal. -/
structure TaskRecord.FollowsGrammar (row : TaskRecord) (stream : List EventType) : Prop where
  opened : row.opening <+: stream
  allowed : ∃ word, LifeWord word ∧ stream <+: row.opening ++ word
  degraded : .degraded ∈ stream ↔ row.planDegraded = true
  complete : row.status.isTerminal = true ↔ ∃ word, LifeWord word ∧ stream = row.opening ++ word

/-- Accepted, running, terminal, in this order. -/
def TaskStatus.MovesTo (old new : TaskStatus) : Prop :=
  old = new ∨ (old = .accepted ∧ new = .running) ∨
    (old.isTerminal = false ∧ new.isTerminal = true)

inductive Stage
  | waiting
  | reserved
  | started
  | timedOut
  | unstarted
  | ended (late success : Bool)

namespace Stage

/-- The events of the stream after the opening. -/
def events : Stage → List EventType
  | waiting => []
  | reserved => [.resourceReserved]
  | started => [.resourceReserved, .started]
  | timedOut => [.resourceReserved, .started, .timeoutTriggered]
  | unstarted => [.resourceReserved, .resourceReleased, .failed]
  | ended late success =>
    [.resourceReserved, .started] ++ (if late then [.timeoutTriggered] else []) ++
      [.resourceReleased, if success then .finished else .failed]

/-- The reservation of the task is active. -/
def holds : Stage → Bool
  | reserved | started | timedOut => true
  | _ => false

def isOver : Stage → Bool
  | unstarted | ended _ _ => true
  | _ => false

/-- The statuses of the row. A late `mark_dispatched` can make a waiting row running. -/
def Allows : Stage → TaskStatus → Prop
  | waiting, status | reserved, status => status = .accepted ∨ status = .running
  | started, status | timedOut, status => status = .running
  | unstarted, status => status = .failed
  | ended _ success, status => status = if success then .success else .failed

theorem events_inj {s t : Stage} (h : s.events = t.events) : s = t := by
  cases s with
  | ended late success =>
    cases t with
    | ended late' success' =>
      cases late <;> cases late' <;> cases success <;> cases success' <;>
        first | rfl | simp [events] at h
    | _ => cases late <;> simp [events] at h
  | _ =>
    cases t with
    | ended late' success' => cases late' <;> simp [events] at h
    | _ => first | rfl | simp [events] at h

/-- The events of a stage can be continued to those of an ended task. -/
theorem exists_word (stage : Stage) : ∃ word, LifeWord word ∧ stage.events <+: word := by
  cases stage with
  | waiting => exact ⟨_, .unstarted, List.nil_prefix⟩
  | reserved => exact ⟨_, .unstarted, by decide⟩
  | started => exact ⟨_, .started false true, by decide⟩
  | timedOut => exact ⟨_, .started true true, by decide⟩
  | unstarted => exact ⟨_, .unstarted, List.prefix_rfl⟩
  | ended late success => exact ⟨_, .started late success, List.prefix_rfl⟩

theorem isOver_iff (stage : Stage) : stage.isOver = true ↔ LifeWord stage.events := by
  constructor
  · intro hover
    cases stage with
    | unstarted => exact .unstarted
    | ended late success => exact .started late success
    | _ => cases hover
  · intro hword
    generalize hevents : stage.events = word at hword
    cases hword with
    | unstarted =>
      have hstage : stage = .unstarted := events_inj hevents
      rw [hstage]
      rfl
    | started late success =>
      have hstage : stage = .ended late success := events_inj hevents
      rw [hstage]
      rfl

theorem isTerminal_iff {stage : Stage} {status : TaskStatus} (h : stage.Allows status) :
    status.isTerminal = true ↔ stage.isOver = true := by
  cases stage with
  | waiting => rcases h with rfl | rfl <;> simp [isOver, TaskStatus.isTerminal]
  | reserved => rcases h with rfl | rfl <;> simp [isOver, TaskStatus.isTerminal]
  | ended late success =>
    subst h
    cases success <;> simp [isOver, TaskStatus.isTerminal]
  | _ =>
    subst h
    simp [isOver, TaskStatus.isTerminal]

theorem not_over_of_holds {stage : Stage} (h : stage.holds = true) : stage.isOver = false := by
  cases stage <;> first | rfl | cases h

theorem eq_waiting {stage : Stage} (h : stage.Allows .accepted) (hidle : stage.holds = false) :
    stage = .waiting := by
  cases stage with
  | waiting => rfl
  | ended late success => cases success <;> cases h
  | reserved => cases hidle
  | _ => cases h

theorem Allows.dispatched {stage : Stage} (h : stage.Allows .accepted) :
    stage.Allows .running := by
  cases stage with
  | waiting => exact .inr rfl
  | reserved => exact .inr rfl
  | ended late success => cases success <;> cases h
  | _ => cases h

theorem degraded_notMem (stage : Stage) : .degraded ∉ stage.events := by
  cases stage with
  | ended late success => cases late <;> cases success <;> decide
  | _ => decide

end Stage

/-- The row and its stream are those of a task in the stage. -/
structure InStage (stage : Stage) (row : TaskRecord) (stream : List EventType) : Prop where
  stream : stream = row.opening ++ stage.events
  status : stage.Allows row.status
  active : row.hasActiveReservation = stage.holds
  unkilled : row.killRequested = false

namespace InStage

variable {stage stage' : Stage} {row : TaskRecord} {stream : List EventType}

theorem unique (h : InStage stage row stream) (h' : InStage stage' row stream) :
    stage = stage' := by
  have hevents : row.opening ++ stage.events = row.opening ++ stage'.events :=
    h.stream.symm.trans h'.stream
  exact Stage.events_inj (List.append_cancel_left hevents)

theorem insert (new : NewTaskRecord) (now : Timestamp) :
    InStage .waiting (new.toRow now) (Db.insertEvents new) where
  stream := by
    rw [Stage.events, List.append_nil]
    rfl
  status := .inl rfl
  active := rfl
  unkilled := rfl

theorem followsGrammar (h : InStage stage row stream) : row.FollowsGrammar stream where
  opened := ⟨stage.events, h.stream.symm⟩
  allowed := by
    obtain ⟨word, hword, hprefix⟩ := stage.exists_word
    refine ⟨word, hword, ?_⟩
    rw [h.stream]
    exact (List.prefix_append_right_inj _).mpr hprefix
  degraded := by
    rw [h.stream, List.mem_append, or_iff_left stage.degraded_notMem, TaskRecord.opening]
    cases row.planDegraded <;> simp
  complete := by
    rw [Stage.isTerminal_iff h.status, stage.isOver_iff]
    constructor
    · intro hword
      exact ⟨stage.events, hword, h.stream⟩
    · rintro ⟨word, hword, heq⟩
      have hevents : row.opening ++ stage.events = row.opening ++ word := h.stream.symm.trans heq
      rw [List.append_cancel_left hevents]
      exact hword

end InStage

/-- The stage after a write that a task in the stage can meet. -/
inductive StageStep : Stage → TaskWrite → Stage → Prop
  | dispatched (stage : Stage) (shimPid : ℕ) : StageStep stage (.markDispatched shimPid) stage
  | reserved (reservation : TaskResourceReservation) (message : String) :
      StageStep .waiting (.reserveResources reservation message) .reserved
  | started (pid pgid : ℕ) (scriptPath : Option String) :
      StageStep .reserved (.markStarted pid pgid scriptPath) .started
  | timedOut : StageStep .started .markTimeoutTriggered .timedOut
  | unstarted (update : CompletionUpdate) : update.status = .failed →
      StageStep .reserved (.completeTask update) .unstarted
  | ended (late : Bool) (update : CompletionUpdate) : update.status ≠ .cancelled →
      StageStep (if late then .timedOut else .started) (.completeTask update)
        (.ended late (decide (update.status = .success)))

theorem TaskWrite.effect_opening (write : TaskWrite) (now : Timestamp) (row : TaskRecord) :
    (write.effect now row).opening = row.opening := by
  unfold TaskRecord.opening TaskRecord.planDegraded
  rw [(write.effect_sameOrigin now row).executionPlan]

/-- A terminal status that is not cancelled is success or failed. -/
theorem TaskStatus.eq_failed {status : TaskStatus} (hterminal : status.isTerminal = true)
    (hcancelled : status ≠ .cancelled) (hsuccess : status ≠ .success) : status = .failed := by
  cases status <;> first | rfl | contradiction

namespace StageStep

variable {stage stage' : Stage} {write : TaskWrite} {row : TaskRecord} {stream : List EventType}

/-- The write leads from one stage to the other. -/
theorem effect (h : StageStep stage write stage') (hstage : InStage stage row stream)
    (now : Timestamp) :
    InStage stage' (write.effect now row) (stream ++ write.emits row) := by
  have hstream : stage'.events = stage.events ++ write.emits row →
      stream ++ write.emits row = (write.effect now row).opening ++ stage'.events := by
    intro hevents
    rw [write.effect_opening, hstage.stream, hevents, List.append_assoc]
  have hrelease : stage.holds = true → TaskWrite.releaseEvents row = [.resourceReleased] := by
    intro hholds
    rw [TaskWrite.releaseEvents, if_pos (hstage.active.trans hholds)]
  have hstatus := hstage.status
  cases h with
  | dispatched _ shimPid =>
    have hevents : stage.events = stage.events ++ [] := (List.append_nil _).symm
    by_cases haccepted : row.status = .accepted
    · have hrow : (TaskWrite.markDispatched shimPid).effect now row =
          { row with status := .running, shimPid := some shimPid, updatedAt := now } :=
        if_pos haccepted
      refine ⟨hstream hevents, ?_, by rw [hrow]; exact hstage.active, by
        rw [hrow]; exact hstage.unkilled⟩
      rw [hrow]
      exact Stage.Allows.dispatched (haccepted ▸ hstatus)
    · have hrow : (TaskWrite.markDispatched shimPid).effect now row = row := if_neg haccepted
      refine ⟨hstream hevents, ?_, ?_, ?_⟩
      · rw [hrow]; exact hstatus
      · rw [hrow]; exact hstage.active
      · rw [hrow]; exact hstage.unkilled
  | reserved reservation message =>
    exact ⟨hstream rfl, hstatus, rfl, hstage.unkilled⟩
  | started pid pgid scriptPath =>
    exact ⟨hstream rfl, rfl, hstage.active, hstage.unkilled⟩
  | timedOut => exact ⟨hstream rfl, hstatus, hstage.active, hstage.unkilled⟩
  | unstarted update hfailed =>
    refine ⟨hstream ?_, hfailed, TaskWrite.setCompleted_idle update row, hstage.unkilled⟩
    rw [TaskWrite.emits, hrelease rfl, hfailed]
    rfl
  | ended late update hcancelled =>
    have hholds : (if late then Stage.timedOut else Stage.started).holds = true := by
      cases late <;> rfl
    have hevent : Db.completionEvent update.status =
        if decide (update.status = .success) then .finished else .failed := by
      by_cases hsuccess : update.status = .success
      · simp [hsuccess, Db.completionEvent]
      · rw [TaskStatus.eq_failed update.terminal hcancelled hsuccess]
        rfl
    have hended : update.status =
        if decide (update.status = .success) then .success else .failed := by
      by_cases hsuccess : update.status = .success
      · simp [hsuccess]
      · simpa [hsuccess] using TaskStatus.eq_failed update.terminal hcancelled hsuccess
    refine ⟨hstream ?_, hended, TaskWrite.setCompleted_idle update row, hstage.unkilled⟩
    rw [TaskWrite.emits, hrelease hholds, hevent]
    cases late <;> rfl

theorem movesTo (h : StageStep stage write stage') (hstage : InStage stage row stream)
    (now : Timestamp) : row.status.MovesTo (write.effect now row).status := by
  have hstatus := hstage.status
  have hlive : stage.isOver = false → row.status.isTerminal = false := by
    intro hover
    by_contra hterminal
    rw [(Stage.isTerminal_iff hstatus).mp (by simpa using hterminal)] at hover
    cases hover
  cases h with
  | dispatched _ shimPid =>
    by_cases haccepted : row.status = .accepted
    · simp only [TaskWrite.effect, TaskRecord.setDispatched, if_pos haccepted]
      exact .inr (.inl ⟨haccepted, rfl⟩)
    · simp only [TaskWrite.effect, TaskRecord.setDispatched, if_neg haccepted]
      exact .inl rfl
  | reserved reservation message => exact .inl rfl
  | started pid pgid scriptPath =>
    rcases hstatus with haccepted | hrunning
    · exact .inr (.inl ⟨haccepted, rfl⟩)
    · exact .inl hrunning
  | timedOut => exact .inl rfl
  | unstarted update _ => exact .inr (.inr ⟨hlive rfl, update.terminal⟩)
  | ended late update _ => exact .inr (.inr ⟨hlive (by cases late <;> rfl), update.terminal⟩)

end StageStep

namespace ShimState

def Expects : ShimState → Stage → Prop
  | starting, stage | launching _ _, stage | confining _ _, stage | launched _ _, stage =>
    stage = .reserved
  | reloading _, stage | timingOut _ _ _, stage => stage = .started
  | supervising s, stage => stage = if s.timeoutStarted.isSome then .timedOut else .started
  | completing update, stage =>
    (stage = .reserved ∧ update.status = .failed) ∨ stage = .started ∨ stage = .timedOut
  | persisting, _ | exited _, _ => True

theorem Expects.holds {state : ShimState} {stage : Stage} (h : state.Expects stage)
    (hlive : state.isOver = false) : stage.holds = true := by
  cases state with
  | persisting => cases hlive
  | exited result => cases hlive
  | supervising s =>
    have hstage : stage = if s.timeoutStarted.isSome then .timedOut else .started := h
    rw [hstage]
    split <;> rfl
  | completing update =>
    rcases h with ⟨rfl, _⟩ | rfl | rfl <;> rfl
  | _ =>
    cases h
    rfl

/-- The shim polls for the end of its workload. -/
def isPolling : ShimState → Bool
  | supervising _ | timingOut _ _ _ => true
  | _ => false

theorem hasNotes_of_isPolling {state : ShimState} (h : state.isPolling = true) :
    state.hasNotes = true := by
  cases state with
  | supervising s => rfl
  | timingOut s elapsed cancelRequested => rfl
  | _ => cases h

end ShimState

section ShimSteps

variable {graceMs : ℕ} {now : Timestamp} {failure : Option AppError} {choice : ShimChoice}
  {db db' : Db} {committed : Option StoreCall} {shim shim' : Shim} {stage : Stage}

/-- A shim that polls records the timeout once. -/
theorem NoteStep.polling (h : NoteStep graceMs now db shim committed shim')
    (hexpects : shim.state.Expects stage) (hpolls : shim.state.isPolling = true)
    (hpolls' : shim'.state.isPolling = true) :
    (Move.Quiet committed ∧ shim'.state.Expects stage) ∨
      (committed = some (.write shim.taskId .markTimeoutTriggered) ∧ stage = .started ∧
        shim'.state.Expects .timedOut) := by
  cases h with
  | none hstate =>
    have hpolls : shim'.state.hasNotes = true := ShimState.hasNotes_of_isPolling hpolls'
    rw [hstate] at hpolls
    cases hpolls
  | cancelledEarly _ _ _ _ => cases hpolls'
  | launchFailed _ _ _ => cases hpolls'
  | collected _ _ _ _ _ _ _ _ => cases hpolls'
  | entered _ hstate =>
    rw [hstate] at hpolls
    cases hpolls
  | polled elapsed hquiet hstate _ _ =>
    rw [hstate] at hexpects
    exact .inl ⟨hquiet, hexpects⟩
  | @timeoutDue _ s _ elapsed hquiet hstate _ hdue =>
    have hnone : s.timeoutStarted = .none := by
      simpa using (Bool.and_eq_true_iff.mp hdue).1
    rw [hstate, ShimState.Expects, hnone] at hexpects
    exact .inl ⟨hquiet, hexpects⟩
  | timedOut hstate =>
    rw [hstate] at hexpects
    exact .inr ⟨rfl, hexpects, rfl⟩
  | reaped usage hquiet => exact .inl ⟨hquiet, hexpects⟩

/-- A step of a shim keeps the stage or takes it to the next, as the shim then expects. -/
theorem ShimStep.stageStep (h : ShimStep now failure choice db shim committed db' shim')
    (hnotes : NoteStep graceMs now db shim committed shim') (hexpects : shim.state.Expects stage)
    (hlive : shim.state.isOver = false) (hnoted : shim.notedCancel = false)
    (hunkilled : ∀ row, db.tasks.find shim.taskId = some row → row.killRequested = false) :
    (Move.Quiet committed ∧ shim'.state.Expects stage) ∨
      ∃ write stage', committed = some (.write shim.taskId write) ∧
        StageStep stage write stage' ∧ shim'.state.Expects stage' := by
  have hpolling : shim.state.isPolling = true → shim'.state.isPolling = true →
      (Move.Quiet committed ∧ shim'.state.Expects stage) ∨
        ∃ write stage', committed = some (.write shim.taskId write) ∧
          StageStep stage write stage' ∧ shim'.state.Expects stage' := by
    intro hpolls hpolls'
    rcases hnotes.polling hexpects hpolls hpolls' with hquiet | ⟨hcommitted, rfl, hexpects'⟩
    · exact .inl hquiet
    · exact .inr ⟨_, _, hcommitted, .timedOut, hexpects'⟩
  cases h with
  | failed e hquiet _ _ _ => exact .inl ⟨hquiet, trivial⟩
  | @loaded _ task hquiet hstate hrow =>
    rw [hstate] at hexpects
    refine .inl ⟨hquiet, ?_⟩
    unfold Shim.load
    split
    · trivial
    · rw [hunkilled task hrow, Bool.false_and]
      exact hexpects
  | notSpawned e hquiet hstate =>
    rw [hstate] at hexpects
    exact .inl ⟨hquiet, .inl ⟨hexpects, rfl⟩⟩
  | spawned hquiet hstate _ =>
    rw [hstate] at hexpects
    refine .inl ⟨hquiet, ?_⟩
    unfold Shim.spawn
    dsimp only
    split <;> exact hexpects
  | confined hquiet hstate _ =>
    rw [hstate] at hexpects
    exact .inl ⟨hquiet, hexpects⟩
  | notConfined e hquiet hstate _ =>
    rw [hstate] at hexpects
    exact .inl ⟨hquiet, .inl ⟨hexpects, rfl⟩⟩
  | @started plan scriptPath workload db' _ hstate _ _ =>
    rw [hstate] at hexpects
    have hstage : stage = .reserved := hexpects
    subst hstage
    exact .inr ⟨_, _, rfl, .started _ _ _, rfl⟩
  | reloaded hquiet _ hstate =>
    rw [hstate] at hexpects
    exact .inl ⟨hquiet, hexpects⟩
  | polled s' _ _ hstate => exact hpolling (by rw [hstate]; rfl) rfl
  | timeoutDue _ _ _ _ hstate => exact hpolling (by rw [hstate]; rfl) rfl
  | timedOut s' _ hstate _ => exact hpolling (by rw [hstate]; rfl) rfl
  | reaped usage hquiet _ _ => exact .inl ⟨hquiet, hexpects⟩
  | @collected _ s update hquiet hstate _ =>
    rw [hstate] at hexpects
    have hstage : stage = if s.timeoutStarted.isSome then .timedOut else .started := hexpects
    refine .inl ⟨hquiet, .inr ?_⟩
    rw [hstage]
    split
    · exact .inr rfl
    · exact .inl rfl
  | @completed update db' hstate _ =>
    have hcancelled : update.status ≠ .cancelled := by
      simpa [Shim.notedCancel, hstate] using hnoted
    rw [hstate] at hexpects
    rcases hexpects with ⟨rfl, hfailed⟩ | rfl | rfl
    · exact .inr ⟨_, _, rfl, .unstarted update hfailed, trivial⟩
    · exact .inr ⟨_, _, rfl, .ended false update hcancelled, trivial⟩
    · exact .inr ⟨_, _, rfl, .ended true update hcancelled, trivial⟩
  | persisted _ hstate =>
    rw [hstate] at hlive
    cases hlive

end ShimSteps

end ExecgoRuntime
