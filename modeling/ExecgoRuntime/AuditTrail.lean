import ExecgoRuntime.EventContents
import ExecgoRuntime.Lifecycle

/-!
The event stream as an audit trail. Folding the events of a task, types and data,
gives the columns of its row that record what was planned and reserved, whether
the workload was started, and whether a kill or the timeout came. The two are
written by the same transactions, so they agree in every state of every run, and
a row that has ended has the event of its end.
-/
namespace ExecgoRuntime

/-- What the events of a task tell about it. -/
structure Audit where
  executionPlan : Option ExecutionPlan := none
  degradation : Option (List String × SandboxPolicy) := none
  reservation : Option TaskResourceReservation := none
  started : Bool := false
  killRequested : Bool := false
  timeoutTriggered : Bool := false

namespace Audit

def apply (audit : Audit) (eventType : EventType) (data : Option EventData) : Audit :=
  match eventType, data with
  | .planned, some (.plan executionPlan) => { audit with executionPlan := some executionPlan }
  | .degraded, some (.degradation fallbackReasons effectiveSandbox) =>
    { audit with degradation := some (fallbackReasons, effectiveSandbox) }
  | .resourceReserved, some (.reservation reserved) => { audit with reservation := some reserved }
  | .started, _ => { audit with started := true }
  | .killRequested, _ => { audit with killRequested := true }
  | .timeoutTriggered, _ => { audit with timeoutTriggered := true }
  | _, _ => audit

def ofEvents (events : List EventRecord) : Audit :=
  events.foldl (fun audit event => audit.apply event.eventType event.data) {}

end Audit

/-- The same, from the columns of the row. -/
def TaskRecord.audit (row : TaskRecord) : Audit where
  executionPlan := row.executionPlan
  degradation := row.executionPlan.bind (fun plan =>
    if plan.degraded then some (plan.fallbackReasons, plan.effectiveSandbox) else none)
  reservation := row.reservation
  started := row.startedAt.isSome
  killRequested := row.killRequested
  timeoutTriggered := row.timeoutTriggered

namespace Audit

theorem apply_releaseBodies (row : TaskRecord) (now : Timestamp) (message : String)
    (audit : Audit) :
    (row.releaseBodies now message).foldl (fun audit body => audit.apply body.eventType body.data)
      audit = audit := by
  unfold TaskRecord.releaseBodies
  split
  · cases row.reservation <;> rfl
  · rfl

theorem apply_completionEvent (status : TaskStatus) (audit : Audit) :
    audit.apply (Db.completionEvent status) none = audit := by
  cases status <;> rfl

/-- The audit is one reading of the events. -/
def telling : Telling Audit where
  start := {}
  apply audit body := audit.apply body.eventType body.data
  column := TaskRecord.audit
  inserted new now := by
    unfold NewTaskRecord.bodies
    split
    · rename_i hdegraded
      simp [apply, TaskRecord.audit, NewTaskRecord.toRow, hdegraded]
    · rename_i hplain
      simp [apply, TaskRecord.audit, NewTaskRecord.toRow, hplain]
  written w now row := by
    cases w with
    | markDispatched shimPid =>
      simp only [TaskWrite.effect, TaskRecord.setDispatched]
      split <;> rfl
    | releaseResources message =>
      simp only [TaskWrite.bodies, apply_releaseBodies, TaskWrite.effect]
      split <;> rfl
    | cancelAcceptedTask error =>
      simp only [TaskWrite.bodies, List.foldl_append, apply_releaseBodies, TaskWrite.effect,
        TaskRecord.setCancelled]
      split <;> rfl
    | completeTask update =>
      simp only [TaskWrite.bodies, List.foldl_append, apply_releaseBodies, TaskWrite.effect]
      exact apply_completionEvent update.status row.audit
    | markRecovered =>
      simp only [TaskWrite.effect, TaskRecord.setRecovered]
      split <;> rfl
    | _ => rfl

theorem ofEvents_eq (events : List EventRecord) :
    ofEvents events = telling.ofContents (events.map EventRecord.body) := by
  rw [ofEvents, Telling.ofContents, List.foldl_map]
  rfl

end Audit

namespace World

variable {svc : RuntimeService} {w w' : World} {e : Event}

/-- A row that has ended has the event of its end. -/
def EndsTold (w : World) : Prop :=
  ∀ taskId row, w.db.tasks.find taskId = some row →
    ∀ eventType ∈ terminalEvent row.status, eventType ∈ w.db.stream taskId

/-- A write that ends the row, or changes its end, stores the event. -/
theorem endsTold_write (write : TaskWrite) (now : Timestamp) (row : TaskRecord)
    {eventType : EventType} (h : eventType ∈ terminalEvent (write.effect now row).status) :
    eventType ∈ terminalEvent row.status ∨ eventType ∈ write.emits row := by
  cases write with
  | markDispatched shimPid =>
    simp only [TaskWrite.effect, TaskRecord.setDispatched] at h
    split at h
    · cases h
    · exact .inl h
  | markStarted pid pgid scriptPath => cases h
  | reserveResources reservation message => exact .inl h
  | releaseResources message =>
    simp only [TaskWrite.effect] at h
    split at h <;> exact .inl h
  | setCancelRequested => exact .inl h
  | markTimeoutTriggered => exact .inl h
  | cancelAcceptedTask error =>
    simp only [TaskWrite.effect, TaskRecord.setCancelled] at h
    split at h
    · cases h
      exact .inr (by simp [TaskWrite.emits])
    · exact .inl h
  | completeTask update =>
    right
    have hcompleted : eventType ∈ terminalEvent update.status := h
    cases hstatus : update.status <;> rw [hstatus] at hcompleted <;> cases hcompleted <;>
      simp [TaskWrite.emits, Db.completionEvent, hstatus]
  | markRecovered =>
    simp only [TaskWrite.effect, TaskRecord.setRecovered] at h
    split at h <;> exact .inl h

theorem EndsTold.step (hinv : w.EndsTold) (h : w.step svc e = some w') : w'.EndsTold := by
  intro taskId row hrow eventType htype
  cases step_origin h hrow with
  | inserted new _ _ _ hnew _ =>
    rw [hnew] at htype
    cases htype
  | kept hold hstream _ =>
    rw [hstream]
    exact hinv taskId row hold eventType htype
  | written write old _ hold heffect hstream =>
    rw [hstream]
    rw [heffect] at htype
    rcases endsTold_write write e.now old htype with hbefore | hnow
    · exact List.mem_append_left _ (hinv taskId old hold eventType hbefore)
    · exact List.mem_append_right _ hnow

/-- In every state of a run the row of a task agrees with what its events tell, and
a row that has ended has the event of its end. -/
theorem events_tell_row {trace : List (World × Event)} {last : World}
    (hrun : Run svc init trace last) {taskId : TaskId} {row : TaskRecord}
    (hrow : last.db.tasks.find taskId = some row) :
    row.audit = Audit.ofEvents (last.db.listEvents taskId) ∧
      ∀ eventType ∈ terminalEvent row.status,
        ∃ event ∈ last.db.listEvents taskId, event.eventType = eventType := by
  have htold : last.EndsTold :=
    hrun.invariant (G := fun _ _ => True) (fun _ _ hnone => by cases hnone)
      (fun _ _ _ hinv _ hstep => hinv.step hstep) (fun _ _ => trivial)
  refine ⟨?_, fun eventType htype => ?_⟩
  · rw [Audit.ofEvents_eq]
    exact (Audit.telling.told_of_run hrun taskId row hrow).symm
  · exact List.mem_map.mp (htold taskId row hrow eventType htype)

/-- A task that ran to its end. -/
theorem events_tell_row_of_success :
    ∃ trace last row, Run (smallService ⟨1, none, none⟩) init trace last ∧
      last.db.tasks.find "a" = some row ∧ row.status = .success ∧
      row.audit = Audit.ofEvents (last.db.listEvents "a") ∧
      ∀ eventType ∈ terminalEvent row.status,
        ∃ event ∈ last.db.listEvents "a", event.eventType = eventType := by
  have hexec : (execute (smallService ⟨1, none, none⟩) (fun _ _ => true)
      (events (submitActions 0 (commandRequest "a") ++ dispatchActions 7 ++ shimActions 0 8))).any
      (fun w => (w.db.tasks.find "a").any (fun row => decide (row.status = .success))) = true := by
    decide +kernel
  obtain ⟨trace, last, hrun, _, _, htest⟩ := Runs.exists_run_of_exec hexec
  obtain ⟨row, hrow, hstatus⟩ := (Option.any_eq_true _ _).mp htest
  obtain ⟨haudit, htold⟩ := events_tell_row hrun hrow
  exact ⟨trace, last, row, hrun, hrow, of_decide_eq_true hstatus, haudit, htold⟩

end World

end ExecgoRuntime
