import ExecgoRuntime.Lib.KeyedTable
import ExecgoRuntime.Types
import Mathlib.Data.List.Sort

/-!
The SQLite repository (`repo.rs`): the task table, the event table and the
methods that read and write them. A row is kept decoded. A method that writes
is a transaction, so it returns the whole next database or an error and then
the database is as before. The foreign key of the event table is part of the
database: an event of an absent task cannot be stored, and deleting a task
takes its events along.
-/
namespace ExecgoRuntime

open KeyedTable

/-- The JSON that `cancel_accepted_task` stores in `result_json`. -/
structure CancelResult where
  taskId : TaskId
  handleId : TaskId
  status : TaskStatus
  finishedAt : Timestamp
  error : RuntimeErrorInfo

structure TaskRecord where
  taskId : TaskId
  handleId : TaskId
  status : TaskStatus
  execution : ExecutionSpec
  limits : ResourceLimits
  sandbox : SandboxPolicy
  metadata : List (String × String)
  createdAt : Timestamp
  updatedAt : Timestamp
  startedAt : Option Timestamp := none
  finishedAt : Option Timestamp := none
  durationMs : Option ℕ := none
  shimPid : Option ℕ := none
  pid : Option ℕ := none
  pgid : Option ℕ := none
  exitCode : Option ℤ := none
  exitSignal : Option ℤ := none
  errorCode : Option ErrorCode := none
  error : Option RuntimeErrorInfo := none
  usage : Option ResourceUsage := none
  taskDir : String
  workspaceDir : String
  requestPath : String
  resultPath : String
  stdoutPath : String
  stderrPath : String
  scriptPath : Option String := none
  stdoutMaxBytes : ℕ
  stderrMaxBytes : ℕ
  killRequested : Bool := false
  killRequestedAt : Option Timestamp := none
  timeoutTriggered : Bool := false
  resultJson : Option CancelResult := none
  executionPlan : Option ExecutionPlan := none
  controlContext : Option ControlContext := none
  reservation : Option TaskResourceReservation := none
  reservedAt : Option Timestamp := none
  releasedAt : Option Timestamp := none

structure NewTaskRecord where
  taskId : TaskId
  request : SubmitTaskRequest
  taskDir : String
  workspaceDir : String
  requestPath : String
  resultPath : String
  stdoutPath : String
  stderrPath : String
  scriptPath : Option String
  executionPlan : ExecutionPlan
  controlContext : Option ControlContext

/-- Every update the runtime builds ends its task. -/
structure CompletionUpdate where
  status : TaskStatus
  terminal : status.isTerminal = true := by rfl
  finishedAt : Timestamp
  durationMs : Option ℕ
  exitCode : Option ℤ := none
  exitSignal : Option ℤ := none
  error : Option RuntimeErrorInfo
  usage : Option ResourceUsage := none

inductive EventData
  | plan (plan : ExecutionPlan)
  | degradation (fallbackReasons : List String) (effectiveSandbox : SandboxPolicy)
  | reservation (reservation : TaskResourceReservation)

structure EventRecord where
  seq : ℕ
  taskId : TaskId
  eventType : EventType
  timestamp : Timestamp
  message : Option String
  data : Option EventData

namespace NewTaskRecord

/-- The row of the `INSERT`; the columns it does not name take their defaults. -/
def toRow (new : NewTaskRecord) (now : Timestamp) : TaskRecord where
  taskId := new.taskId
  handleId := new.taskId
  status := .accepted
  execution := new.request.execution
  limits := new.request.limits
  sandbox := new.request.sandbox
  metadata := new.request.metadata
  createdAt := now
  updatedAt := now
  taskDir := new.taskDir
  workspaceDir := new.workspaceDir
  requestPath := new.requestPath
  resultPath := new.resultPath
  stdoutPath := new.stdoutPath
  stderrPath := new.stderrPath
  scriptPath := new.scriptPath
  stdoutMaxBytes := new.request.limits.stdoutMaxBytes
  stderrMaxBytes := new.request.limits.stderrMaxBytes
  executionPlan := some new.executionPlan
  controlContext := new.controlContext

end NewTaskRecord

namespace TaskRecord

def hasActiveReservation (row : TaskRecord) : Bool :=
  row.reservation.isSome && row.releasedAt.isNone

def tenant (row : TaskRecord) : Option String := row.controlContext.bind ControlContext.tenant

/-- `CASE WHEN released_at_ms IS NULL AND reservation_json IS NOT NULL THEN ? ...`. -/
def releasedAtOr (row : TaskRecord) (now : Timestamp) : Option Timestamp :=
  if row.hasActiveReservation then some now else row.releasedAt

def setDispatched (shimPid : ℕ) (now : Timestamp) (row : TaskRecord) : TaskRecord :=
  if row.status = .accepted then
    { row with status := .running, shimPid := some shimPid, updatedAt := now }
  else row

def setStarted (pid pgid : ℕ) (scriptPath : Option String) (now : Timestamp) (row : TaskRecord) :
    TaskRecord :=
  { row with status := .running, pid := some pid, pgid := some pgid, startedAt := some now,
             updatedAt := now, scriptPath := scriptPath.or row.scriptPath }

def setReserved (reservation : TaskResourceReservation) (now : Timestamp) (row : TaskRecord) :
    TaskRecord :=
  { row with reservation := some reservation, reservedAt := some now, releasedAt := none,
             updatedAt := now }

def setReleased (now : Timestamp) (row : TaskRecord) : TaskRecord :=
  { row with releasedAt := some now, updatedAt := now }

def setCancelRequested (now : Timestamp) (row : TaskRecord) : TaskRecord :=
  { row with killRequested := true, killRequestedAt := some now, updatedAt := now }

def setTimeoutTriggered (now : Timestamp) (row : TaskRecord) : TaskRecord :=
  { row with timeoutTriggered := true, updatedAt := now }

def setCancelled (error : RuntimeErrorInfo) (now : Timestamp) (row : TaskRecord) : TaskRecord :=
  if row.status = .accepted then
    { row with
      status := .cancelled
      updatedAt := now
      finishedAt := some now
      releasedAt := row.releasedAtOr now
      errorCode := some error.code
      error := some error
      durationMs := some 0
      resultJson := some ⟨row.taskId, row.taskId, .cancelled, now, error⟩ }
  else row

def setCompleted (update : CompletionUpdate) (row : TaskRecord) : TaskRecord :=
  { row with
    status := update.status
    updatedAt := update.finishedAt
    finishedAt := some update.finishedAt
    releasedAt := row.releasedAtOr update.finishedAt
    durationMs := update.durationMs
    exitCode := update.exitCode
    exitSignal := update.exitSignal
    errorCode := update.error.map RuntimeErrorInfo.code
    error := update.error
    usage := update.usage
    resultJson := none }

def setRecovered (now : Timestamp) (row : TaskRecord) : TaskRecord :=
  if row.status = .running then { row with updatedAt := now } else row

end TaskRecord

abbrev TaskTable := Table TaskRecord.taskId

structure Db where
  tasks : TaskTable
  taskEvents : List EventRecord
  lastSeq : ℕ
  ownedEvents : ∀ event ∈ taskEvents, (tasks.find event.taskId).isSome = true

namespace Db

def empty : Db := ⟨Table.empty, [], 0, by simp⟩

/-- `UPDATE tasks SET .. WHERE task_id = ?`. -/
def updateTask (db : Db) (taskId : TaskId) (set : TaskRecord → TaskRecord)
    (hset : KeepsKey TaskRecord.taskId set) : Db where
  tasks := db.tasks.update taskId set hset
  taskEvents := db.taskEvents
  lastSeq := db.lastSeq
  ownedEvents := by
    intro event hevent
    have hold := db.ownedEvents event hevent
    rw [Table.find_update]
    split
    · rename_i heq
      rw [heq] at hold
      simpa using hold
    · exact hold

/-- `INSERT INTO tasks`; the primary key is free. -/
def insertRow (db : Db) (row : TaskRecord) (h : db.tasks.find row.taskId = none) : Db where
  tasks := db.tasks.insert row h
  taskEvents := db.taskEvents
  lastSeq := db.lastSeq
  ownedEvents := by
    intro event hevent
    rw [Table.find_insert]
    split
    · rfl
    · exact db.ownedEvents event hevent

/-- `insert_event_tx`; the foreign key rejects an event of an absent task. -/
def insertEvent (db : Db) (now : Timestamp) (taskId : TaskId) (eventType : EventType)
    (message : Option String) (data : Option EventData) : AppResult Db :=
  if h : (db.tasks.find taskId).isSome = true then
    .ok {
      tasks := db.tasks
      taskEvents := db.taskEvents ++ [⟨db.lastSeq + 1, taskId, eventType, now, message, data⟩]
      lastSeq := db.lastSeq + 1
      ownedEvents := by
        intro event hevent
        rcases List.mem_append.mp hevent with hold | hnew
        · exact db.ownedEvents event hold
        · rw [List.mem_singleton.mp hnew]
          exact h }
  else .error (.sqlite "FOREIGN KEY constraint failed")

def getTask (db : Db) (taskId : TaskId) : AppResult TaskRecord :=
  match db.tasks.find taskId with
  | some row => .ok row
  | none => .error (.notFound taskId)

def listEvents (db : Db) (taskId : TaskId) : List EventRecord :=
  db.taskEvents.filter (fun event => decide (event.taskId = taskId))

def countByStatus (db : Db) (status : TaskStatus) : ℕ :=
  (db.tasks.select (fun row => decide (row.status = status))).length

def countAccepted (db : Db) : ℕ := db.countByStatus .accepted

/-- `ORDER BY created_at_ms ASC`, ties in insertion order. -/
def byCreation (rows : List TaskRecord) : List TaskRecord :=
  rows.insertionSort (fun a b => a.createdAt ≤ b.createdAt)

/-- `LIMIT ?` with the limit cast to `i64`: a negative limit is none. -/
def limitRows (limit : ℕ) (rows : List TaskRecord) : List TaskRecord :=
  if limit ≤ i64Max then rows.take limit else rows

def listAccepted (db : Db) (limit : ℕ) : List TaskRecord :=
  limitRows limit (byCreation (db.tasks.select (fun row => decide (row.status = .accepted))))

def listNonTerminal (db : Db) : List TaskRecord :=
  byCreation (db.tasks.select (fun row => !row.status.isTerminal))

/-- `reserved_at_ms ASC` with `NULL` first. -/
def reservedBefore (a b : TaskRecord) : Bool :=
  match a.reservedAt, b.reservedAt with
  | none, _ => true
  | some _, none => false
  | some x, some y => decide (x ≤ y)

def listActiveReservations (db : Db) : List TaskRecord :=
  (byCreation (db.tasks.select TaskRecord.hasActiveReservation)).insertionSort
    (fun a b => reservedBefore a b = true)

def isCancelRequested (db : Db) (taskId : TaskId) : AppResult Bool :=
  match db.tasks.find taskId with
  | some row => .ok row.killRequested
  | none => .error (.sqlite "Query returned no rows")

/-- `ORDER BY finished_at_ms ASC`, for rows that have the column. -/
def byFinish (rows : List TaskRecord) : List TaskRecord :=
  rows.insertionSort (fun a b => a.finishedAt.getD 0 ≤ b.finishedAt.getD 0)

def listGcCandidates (db : Db) (finishedBefore : Timestamp) : List TaskRecord :=
  byFinish (db.tasks.select (fun row =>
    row.status.isTerminal &&
      row.finishedAt.any (fun finished => decide (finished ≤ finishedBefore))))

/-- The `SELECT` with which a method finds the reservation it is about to release. -/
def activeReservation (db : Db) (taskId : TaskId) : Option TaskResourceReservation :=
  (db.tasks.find taskId).bind (fun row =>
    if row.hasActiveReservation then row.reservation else none)

def insertTask (db : Db) (now : Timestamp) (new : NewTaskRecord) : AppResult Db := do
  if i64Max < new.request.limits.stdoutMaxBytes then
    throw (.invalidInput "stdout_max_bytes is too large")
  if i64Max < new.request.limits.stderrMaxBytes then
    throw (.invalidInput "stderr_max_bytes is too large")
  if h : db.tasks.find (new.toRow now).taskId = none then
    let plan := new.executionPlan
    let db ← (db.insertRow (new.toRow now) h).insertEvent
      now new.taskId .submitted (some "task submitted") none
    let db ← db.insertEvent now new.taskId .accepted (some "task accepted") none
    let db ← db.insertEvent now new.taskId .planned (some "execution plan resolved")
      (some (.plan plan))
    if plan.degraded then
      db.insertEvent now new.taskId .degraded (some "execution plan degraded")
        (some (.degradation plan.fallbackReasons plan.effectiveSandbox))
    else pure db
  else throw (.conflict ("task " ++ new.taskId ++ " already exists"))

theorem keeps_setDispatched (shimPid : ℕ) (now : Timestamp) :
    KeepsKey TaskRecord.taskId (TaskRecord.setDispatched shimPid now) := by
  intro row
  unfold TaskRecord.setDispatched
  split <;> rfl

theorem keeps_setCancelled (error : RuntimeErrorInfo) (now : Timestamp) :
    KeepsKey TaskRecord.taskId (TaskRecord.setCancelled error now) := by
  intro row
  unfold TaskRecord.setCancelled
  split <;> rfl

theorem keeps_setRecovered (now : Timestamp) :
    KeepsKey TaskRecord.taskId (TaskRecord.setRecovered now) := by
  intro row
  unfold TaskRecord.setRecovered
  split <;> rfl

def markDispatched (db : Db) (now : Timestamp) (taskId : TaskId) (shimPid : ℕ) : AppResult Db :=
  .ok (db.updateTask taskId (.setDispatched shimPid now) (keeps_setDispatched shimPid now))

def markStarted (db : Db) (now : Timestamp) (taskId : TaskId) (pid pgid : ℕ)
    (scriptPath : Option String) : AppResult Db :=
  (db.updateTask taskId (.setStarted pid pgid scriptPath now) (fun _ => rfl)).insertEvent
    now taskId .started (some "task started") none

def reserveResources (db : Db) (now : Timestamp) (taskId : TaskId)
    (reservation : TaskResourceReservation) (message : String) : AppResult Db :=
  (db.updateTask taskId (.setReserved reservation now) (fun _ => rfl)).insertEvent
    now taskId .resourceReserved (some message) (some (.reservation reservation))

def releaseResources (db : Db) (now : Timestamp) (taskId : TaskId) (message : String) :
    AppResult Db :=
  match db.activeReservation taskId with
  | some reservation =>
    (db.updateTask taskId (.setReleased now) (fun _ => rfl)).insertEvent
      now taskId .resourceReleased (some message) (some (.reservation reservation))
  | none => .ok db

/-- The write of `set_cancel_requested`; the method then re-reads the row. -/
def setCancelRequested (db : Db) (now : Timestamp) (taskId : TaskId) : AppResult Db :=
  (db.updateTask taskId (.setCancelRequested now) (fun _ => rfl)).insertEvent
    now taskId .killRequested (some "kill requested") none

def markTimeoutTriggered (db : Db) (now : Timestamp) (taskId : TaskId) : AppResult Db :=
  (db.updateTask taskId (.setTimeoutTriggered now) (fun _ => rfl)).insertEvent
    now taskId .timeoutTriggered (some "timeout triggered") none

/-- The release event that follows an update when the `SELECT` found a reservation. -/
def insertReleaseEvent (db : Db) (now : Timestamp) (taskId : TaskId)
    (active : Option TaskResourceReservation) : AppResult Db :=
  match active with
  | some reservation =>
    db.insertEvent now taskId .resourceReleased (some "task resources released")
      (some (.reservation reservation))
  | none => .ok db

/-- The event does not depend on whether the guarded `UPDATE` matched the row. -/
def cancelAcceptedTask (db : Db) (now : Timestamp) (taskId : TaskId) (error : RuntimeErrorInfo) :
    AppResult Db := do
  let active := db.activeReservation taskId
  let db := db.updateTask taskId (.setCancelled error now) (keeps_setCancelled error now)
  let db ← db.insertReleaseEvent now taskId active
  db.insertEvent now taskId .cancelled (some "task cancelled") none

def completionEvent : TaskStatus → EventType
  | .success => .finished
  | .failed => .failed
  | .cancelled => .cancelled
  | .accepted | .running => .finished

def completionMessage : TaskStatus → String
  | .success => "task finished"
  | .failed => "task failed"
  | .cancelled => "task cancelled"
  | .accepted | .running => "task finished"

def completeTask (db : Db) (now : Timestamp) (taskId : TaskId) (update : CompletionUpdate) :
    AppResult Db := do
  let active := db.activeReservation taskId
  if update.durationMs.any (fun duration => decide (i64Max < duration)) then
    throw (.invalidInput "duration_ms is too large to persist")
  let db := db.updateTask taskId (.setCompleted update) (fun _ => rfl)
  let db ← db.insertReleaseEvent now taskId active
  db.insertEvent now taskId (completionEvent update.status)
    (some (completionMessage update.status)) none

def markRecovered (db : Db) (now : Timestamp) (taskId : TaskId) : AppResult Db :=
  (db.updateTask taskId (.setRecovered now) (keeps_setRecovered now)).insertEvent
    now taskId .recovered (some "task recovered") none

/-- The events of the task go with it (`ON DELETE CASCADE`). -/
def deleteTask (db : Db) (taskId : TaskId) : AppResult Db :=
  .ok {
    tasks := db.tasks.erase taskId
    taskEvents := db.taskEvents.filter (fun event => decide (event.taskId ≠ taskId))
    lastSeq := db.lastSeq
    ownedEvents := by
      intro event hevent
      simp only [List.mem_filter, decide_eq_true_eq] at hevent
      rw [Table.find_erase, if_neg hevent.2]
      exact db.ownedEvents event hevent.1 }

end Db

/-- The update of `mark_recovery_lost`, which completes the task as failed. -/
def recoveryLost (now : Timestamp) : CompletionUpdate where
  status := .failed
  terminal := TaskStatus.isTerminal_failed
  finishedAt := now
  durationMs := some 0
  error := some ⟨.internal, "recovery_lost"⟩

end ExecgoRuntime
