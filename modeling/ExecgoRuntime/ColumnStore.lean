import ExecgoRuntime.Lib.JsonMaps
import ExecgoRuntime.Metrics

/-!
The repository on its columns (`repo.rs`): the statements and queries of every
method over rows of text and integers, as SQLite executes them. A statement works
on the columns it names; a query that returns rows decodes them one by one, and
a row that cannot be decoded fails it.
-/
namespace ExecgoRuntime

open KeyedTable

def toValue {α : Type} (codec : JsonCodec α) (a : α) : Json.Value := (codec.encode a).sorted

namespace EventData

/-- The `data` of an event. -/
def document : EventData → Json.Value
  | plan executionPlan => toValue ExecutionPlan.codec executionPlan
  | degradation fallbackReasons effectiveSandbox =>
    (Json.Value.object [
      ("fallback_reasons", .array (fallbackReasons.map .string)),
      ("effective_sandbox", SandboxPolicy.codec.encode effectiveSandbox)]).sorted
  | reservation reserved => toValue TaskResourceReservation.codec reserved

end EventData

/-- `rfc3339` is how `chrono` writes a date. -/
def CancelResult.document (rfc3339 : Timestamp → String) (result : CancelResult) : Json.Value :=
  (Json.Value.object [
    ("task_id", .string result.taskId),
    ("handle_id", .string result.handleId),
    ("status", .string (encodeStatus result.status)),
    ("finished_at", .string (rfc3339 result.finishedAt)),
    ("error", RuntimeErrorInfo.codec.encode result.error)]).sorted

def encodeEventType : EventType → String
  | .submitted => "submitted"
  | .accepted => "accepted"
  | .planned => "planned"
  | .degraded => "degraded"
  | .resourceReserved => "resource_reserved"
  | .resourceReleased => "resource_released"
  | .started => "started"
  | .killRequested => "kill_requested"
  | .timeoutTriggered => "timeout_triggered"
  | .finished => "finished"
  | .failed => "failed"
  | .cancelled => "cancelled"
  | .recovered => "recovered"

def decodeEventType : String → Except ColumnError EventType
  | "submitted" => .ok .submitted
  | "accepted" => .ok .accepted
  | "planned" => .ok .planned
  | "degraded" => .ok .degraded
  | "resource_reserved" => .ok .resourceReserved
  | "resource_released" => .ok .resourceReleased
  | "started" => .ok .started
  | "kill_requested" => .ok .killRequested
  | "timeout_triggered" => .ok .timeoutTriggered
  | "finished" => .ok .finished
  | "failed" => .ok .failed
  | "cancelled" => .ok .cancelled
  | "recovered" => .ok .recovered
  | other => .error (.invalidColumnType other)

theorem decodeEventType_encodeEventType (eventType : EventType) :
    decodeEventType (encodeEventType eventType) = .ok eventType := by
  cases eventType <;> rfl

structure StoredEvent where
  seq : ℕ
  taskId : String
  eventType : String
  timestampMs : ℤ
  message : Option String
  dataJson : Option String

/-- `EventRecord` of `types.rs`, whose data is any document. -/
structure EventDocument where
  seq : ℕ
  taskId : TaskId
  eventType : EventType
  timestamp : Timestamp
  message : Option String
  data : Option Json.Value

def EventRecord.document (event : EventRecord) : EventDocument :=
  ⟨event.seq, event.taskId, event.eventType, event.timestamp, event.message,
    event.data.map EventData.document⟩

section Store

variable (text : JsonText)

/-- `from_json` of a `serde_json::Value`. -/
def jsonValue (raw : String) : Except ColumnError Json.Value :=
  match text.ofText raw with
  | some document => .ok document.sorted
  | none => .error .conversionFailure

/-- The closure of `list_events`. -/
def rowToEventRecord (row : StoredEvent) : Except ColumnError EventDocument := do
  let eventType ← decodeEventType row.eventType
  let data ← row.dataJson.mapM (jsonValue text)
  pure ⟨row.seq, row.taskId, eventType, row.timestampMs, row.message, data⟩

end Store

namespace StoredRow

def setDispatched (shimPid : ℕ) (now : Timestamp) (row : StoredRow) : StoredRow :=
  if row.status = "accepted" then
    { row with status := "running", shimPid := some shimPid, updatedAtMs := now }
  else row

/-- `COALESCE` keeps the script path that is there. -/
def setStarted (pid pgid : ℕ) (scriptPath : Option String) (now : Timestamp) (row : StoredRow) :
    StoredRow :=
  { row with status := "running", pid := some pid, pgid := some pgid, startedAtMs := some now,
             updatedAtMs := now, scriptPath := scriptPath.or row.scriptPath }

def setReserved (reservationJson : String) (now : Timestamp) (row : StoredRow) : StoredRow :=
  { row with reservationJson := some reservationJson, reservedAtMs := some now,
             releasedAtMs := none, updatedAtMs := now }

def setReleased (now : Timestamp) (row : StoredRow) : StoredRow :=
  { row with releasedAtMs := some now, updatedAtMs := now }

def setCancelRequested (now : Timestamp) (row : StoredRow) : StoredRow :=
  { row with killRequested := 1, killRequestedAtMs := some now, updatedAtMs := now }

def setTimeoutTriggered (now : Timestamp) (row : StoredRow) : StoredRow :=
  { row with timeoutTriggered := 1, updatedAtMs := now }

/-- `released_at_ms IS NULL AND reservation_json IS NOT NULL`. -/
def activeReservation (row : StoredRow) : Bool :=
  row.reservationJson.isSome && row.releasedAtMs.isNone

def releasedAtOr (row : StoredRow) (now : Timestamp) : Option ℤ :=
  if row.activeReservation then some now else row.releasedAtMs

def setCancelled (errorCode errorJson resultJson : String) (now : Timestamp) (row : StoredRow) :
    StoredRow :=
  if row.status = "accepted" then
    { row with
      status := "cancelled"
      updatedAtMs := now
      finishedAtMs := some now
      releasedAtMs := row.releasedAtOr now
      errorCode := some errorCode
      errorJson := some errorJson
      durationMs := some 0
      resultJson := some resultJson }
  else row

def setCompleted (text : JsonText) (update : CompletionUpdate) (durationMs : Option ℤ)
    (row : StoredRow) : StoredRow :=
  { row with
    status := encodeStatus update.status
    updatedAtMs := update.finishedAt
    finishedAtMs := some update.finishedAt
    releasedAtMs := row.releasedAtOr update.finishedAt
    durationMs
    exitCode := update.exitCode
    exitSignal := update.exitSignal
    errorCode := update.error.map (fun error => encodeErrorCode error.code)
    errorJson := update.error.map (text.toJson RuntimeErrorInfo.codec)
    usageJson := update.usage.map (text.toJson ResourceUsage.codec)
    resultJson := none }

def setRecovered (now : Timestamp) (row : StoredRow) : StoredRow :=
  if row.status = "running" then { row with updatedAtMs := now } else row

theorem keeps_setDispatched (shimPid : ℕ) (now : Timestamp) :
    KeepsKey taskId (setDispatched shimPid now) := by
  intro row
  unfold setDispatched
  split <;> rfl

theorem keeps_setCancelled (errorCode errorJson resultJson : String) (now : Timestamp) :
    KeepsKey taskId (setCancelled errorCode errorJson resultJson now) := by
  intro row
  unfold setCancelled
  split <;> rfl

theorem keeps_setRecovered (now : Timestamp) : KeepsKey taskId (setRecovered now) := by
  intro row
  unfold setRecovered
  split <;> rfl

end StoredRow

structure StoredDb where
  tasks : StoredTable
  taskEvents : List StoredEvent
  lastSeq : ℕ
  ownedEvents : ∀ event ∈ taskEvents, (tasks.find event.taskId).isSome = true

namespace StoredDb

def empty : StoredDb := ⟨Table.empty, [], 0, by simp⟩

def updateTask (store : StoredDb) (taskId : TaskId) (set : StoredRow → StoredRow)
    (hset : KeepsKey StoredRow.taskId set) : StoredDb where
  tasks := store.tasks.update taskId set hset
  taskEvents := store.taskEvents
  lastSeq := store.lastSeq
  ownedEvents := by
    intro event hevent
    have hold := store.ownedEvents event hevent
    rw [Table.find_update]
    split
    · rename_i heq
      rw [heq] at hold
      simpa using hold
    · exact hold

def insertRow (store : StoredDb) (row : StoredRow) (h : store.tasks.find row.taskId = none) :
    StoredDb where
  tasks := store.tasks.insert row h
  taskEvents := store.taskEvents
  lastSeq := store.lastSeq
  ownedEvents := by
    intro event hevent
    rw [Table.find_insert]
    split
    · rfl
    · exact store.ownedEvents event hevent

section Text

variable (text : JsonText)

def insertEvent (store : StoredDb) (now : Timestamp) (taskId : TaskId) (eventType : EventType)
    (message : Option String) (data : Option Json.Value) : AppResult StoredDb :=
  if h : (store.tasks.find taskId).isSome = true then
    .ok {
      tasks := store.tasks
      taskEvents := store.taskEvents ++
        [⟨store.lastSeq + 1, taskId, encodeEventType eventType, now, message,
          data.map text.toText⟩]
      lastSeq := store.lastSeq + 1
      ownedEvents := by
        intro event hevent
        rcases List.mem_append.mp hevent with hold | hnew
        · exact store.ownedEvents event hold
        · rw [List.mem_singleton.mp hnew]
          exact h }
  else .error (.sqlite "FOREIGN KEY constraint failed")

def insertTask (store : StoredDb) (now : Timestamp) (new : NewTaskRecord) : AppResult StoredDb := do
  let row ← new.toStoredRow text now
  if h : store.tasks.find row.taskId = none then
    let plan := new.executionPlan
    let store ← (store.insertRow row h).insertEvent text
      now new.taskId .submitted (some "task submitted") none
    let store ← store.insertEvent text now new.taskId .accepted (some "task accepted") none
    let store ← store.insertEvent text now new.taskId .planned (some "execution plan resolved")
      (some (toValue ExecutionPlan.codec plan))
    if plan.degraded then
      store.insertEvent text now new.taskId .degraded (some "execution plan degraded")
        (some (EventData.degradation plan.fallbackReasons plan.effectiveSandbox).document)
    else pure store
  else throw (.conflict ("task " ++ new.taskId ++ " already exists"))

def markDispatched (store : StoredDb) (now : Timestamp) (taskId : TaskId) (shimPid : ℕ) :
    AppResult StoredDb :=
  .ok (store.updateTask taskId (.setDispatched shimPid now)
    (StoredRow.keeps_setDispatched shimPid now))

def markStarted (store : StoredDb) (now : Timestamp) (taskId : TaskId) (pid pgid : ℕ)
    (scriptPath : Option String) : AppResult StoredDb :=
  (store.updateTask taskId (.setStarted pid pgid scriptPath now) (fun _ => rfl)).insertEvent text
    now taskId .started (some "task started") none

def reserveResources (store : StoredDb) (now : Timestamp) (taskId : TaskId)
    (reservation : TaskResourceReservation) (message : String) : AppResult StoredDb :=
  (store.updateTask taskId
    (.setReserved (text.toJson TaskResourceReservation.codec reservation) now)
    (fun _ => rfl)).insertEvent text
      now taskId .resourceReserved (some message)
      (some (toValue TaskResourceReservation.codec reservation))

/-- `SELECT reservation_json` of a reservation that is not released. -/
def activeReservationJson (store : StoredDb) (taskId : TaskId) : Option String :=
  (store.tasks.find taskId).bind (fun row =>
    if row.activeReservation then row.reservationJson else none)

/-- `serde_json::from_str(&raw).map_err(AppError::Json)`. -/
def parseReservation (raw : String) : AppResult TaskResourceReservation :=
  (text.fromJson TaskResourceReservation.codec raw).mapError (fun e => .json e.toMessage)

def releaseResources (store : StoredDb) (now : Timestamp) (taskId : TaskId) (message : String) :
    AppResult StoredDb :=
  match store.activeReservationJson taskId with
  | some raw => do
    let reservation ← parseReservation text raw
    (store.updateTask taskId (.setReleased now) (fun _ => rfl)).insertEvent text
      now taskId .resourceReleased (some message)
      (some (toValue TaskResourceReservation.codec reservation))
  | none => .ok store

def setCancelRequested (store : StoredDb) (now : Timestamp) (taskId : TaskId) :
    AppResult StoredDb :=
  (store.updateTask taskId (.setCancelRequested now) (fun _ => rfl)).insertEvent text
    now taskId .killRequested (some "kill requested") none

def markTimeoutTriggered (store : StoredDb) (now : Timestamp) (taskId : TaskId) :
    AppResult StoredDb :=
  (store.updateTask taskId (.setTimeoutTriggered now) (fun _ => rfl)).insertEvent text
    now taskId .timeoutTriggered (some "timeout triggered") none

def insertReleaseEvent (store : StoredDb) (now : Timestamp) (taskId : TaskId)
    (active : Option String) : AppResult StoredDb :=
  match active with
  | some raw => do
    let reservation ← parseReservation text raw
    store.insertEvent text now taskId .resourceReleased (some "task resources released")
      (some (toValue TaskResourceReservation.codec reservation))
  | none => .ok store

def cancelAcceptedTask (rfc3339 : Timestamp → String) (store : StoredDb) (now : Timestamp)
    (taskId : TaskId) (error : RuntimeErrorInfo) : AppResult StoredDb := do
  let active := store.activeReservationJson taskId
  let store := store.updateTask taskId
    (.setCancelled (encodeErrorCode error.code) (text.toJson RuntimeErrorInfo.codec error)
      (text.toText
        (CancelResult.document rfc3339 ⟨taskId, taskId, .cancelled, now, error⟩)) now)
    (StoredRow.keeps_setCancelled _ _ _ now)
  let store ← store.insertReleaseEvent text now taskId active
  store.insertEvent text now taskId .cancelled (some "task cancelled") none

def completeTask (store : StoredDb) (now : Timestamp) (taskId : TaskId)
    (update : CompletionUpdate) : AppResult StoredDb := do
  let active := store.activeReservationJson taskId
  let durationMs ← update.durationMs.mapM
    (fun duration => narrow duration "duration_ms is too large to persist")
  let store := store.updateTask taskId (.setCompleted text update durationMs) (fun _ => rfl)
  let store ← store.insertReleaseEvent text now taskId active
  store.insertEvent text now taskId (Db.completionEvent update.status)
    (some (Db.completionMessage update.status)) none

def markRecovered (store : StoredDb) (now : Timestamp) (taskId : TaskId) : AppResult StoredDb :=
  (store.updateTask taskId (.setRecovered now)
    (StoredRow.keeps_setRecovered now)).insertEvent text
      now taskId .recovered (some "task recovered") none

def deleteTask (store : StoredDb) (taskId : TaskId) : AppResult StoredDb :=
  .ok {
    tasks := store.tasks.erase taskId
    taskEvents := store.taskEvents.filter (fun event => decide (event.taskId ≠ taskId))
    lastSeq := store.lastSeq
    ownedEvents := by
      intro event hevent
      simp only [List.mem_filter, decide_eq_true_eq] at hevent
      rw [Table.find_erase, if_neg hevent.2]
      exact store.ownedEvents event hevent.1 }

/-- A writing method on the columns. -/
def write (rfc3339 : Timestamp → String) (w : TaskWrite) (now : Timestamp) (taskId : TaskId)
    (store : StoredDb) : AppResult StoredDb :=
  match w with
  | .markDispatched shimPid => store.markDispatched now taskId shimPid
  | .markStarted pid pgid scriptPath => store.markStarted text now taskId pid pgid scriptPath
  | .reserveResources reservation message =>
    store.reserveResources text now taskId reservation message
  | .releaseResources message => store.releaseResources text now taskId message
  | .setCancelRequested => store.setCancelRequested text now taskId
  | .markTimeoutTriggered => store.markTimeoutTriggered text now taskId
  | .cancelAcceptedTask error => store.cancelAcceptedTask text rfc3339 now taskId error
  | .completeTask update => store.completeTask text now taskId update
  | .markRecovered => store.markRecovered text now taskId

def exec (rfc3339 : Timestamp → String) (call : StoreCall) (now : Timestamp) (store : StoredDb) :
    AppResult StoredDb :=
  match call with
  | .read => .ok store
  | .insertTask new => store.insertTask text now new
  | .write taskId w => store.write text rfc3339 w now taskId
  | .deleteTask taskId => store.deleteTask taskId

end Text

end StoredDb

namespace StoredDb

section Reads

variable (text : JsonText) (cancelResult : Json.Value → CancelResult)

/-- The rows of a query are read one by one; the first that cannot be read ends it. -/
def readRows (rows : List StoredRow) : AppResult (List TaskRecord) :=
  (rows.mapM (rowToTaskRecord text cancelResult)).mapError (fun e => .sqlite e.toMessage)

/-- `ORDER BY created_at_ms ASC`. -/
def byCreation (rows : List StoredRow) : List StoredRow :=
  rows.insertionSort (fun a b => a.createdAtMs ≤ b.createdAtMs)

/-- `reserved_at_ms ASC`; `NULL` comes first. -/
def reservedBefore (a b : StoredRow) : Bool :=
  match a.reservedAtMs, b.reservedAtMs with
  | none, _ => true
  | some _, none => false
  | some x, some y => decide (x ≤ y)

def listEvents (store : StoredDb) (taskId : TaskId) : AppResult (List EventDocument) :=
  (((store.taskEvents.filter (fun event => decide (event.taskId = taskId))).insertionSort
    (fun a b => a.seq ≤ b.seq)).mapM (rowToEventRecord text)).mapError
      (fun e => .sqlite e.toMessage)

def countByStatus (store : StoredDb) (status : TaskStatus) : ℕ :=
  (store.tasks.select (fun row => decide (row.status = encodeStatus status))).length

/-- A limit above the largest `i64` becomes a negative one, which limits nothing. -/
def listAccepted (store : StoredDb) (limit : ℕ) : AppResult (List TaskRecord) :=
  let rows := byCreation (store.tasks.select (fun row => decide (row.status = "accepted")))
  readRows text cancelResult (if limit ≤ i64Max then rows.take limit else rows)

def listNonTerminal (store : StoredDb) : AppResult (List TaskRecord) :=
  readRows text cancelResult (byCreation (store.tasks.select (fun row =>
    decide (row.status = "accepted" ∨ row.status = "running"))))

def listActiveReservations (store : StoredDb) : AppResult (List TaskRecord) :=
  readRows text cancelResult
    ((byCreation (store.tasks.select StoredRow.activeReservation)).insertionSort
      (fun a b => reservedBefore a b = true))

def countAcceptedWaiting (store : StoredDb) : ℕ :=
  (store.tasks.select (fun row => decide (row.status = "accepted" ∧
    (row.reservationJson = none ∨ row.releasedAtMs ≠ none)))).length

def isCancelRequested (store : StoredDb) (taskId : TaskId) : AppResult Bool :=
  match store.tasks.find taskId with
  | some row => .ok (decide (row.killRequested ≠ 0))
  | none => .error (.sqlite "Query returned no rows")

def listGcCandidates (store : StoredDb) (finishedBefore : Timestamp) :
    AppResult (List TaskRecord) :=
  readRows text cancelResult ((store.tasks.select (fun row =>
    decide (row.status = "success" ∨ row.status = "failed" ∨ row.status = "cancelled") &&
      row.finishedAtMs.any (fun finished => decide (finished ≤ finishedBefore)))).insertionSort
        (fun a b => a.finishedAtMs.getD 0 ≤ b.finishedAtMs.getD 0))

/-- The answers to the three queries of `metrics_snapshot`, in any order. -/
structure Answers (store : StoredDb) (rows : MetricsRows) : Prop where
  statuses : rows.statuses.Perm (groupCounts (store.tasks.rows.map StoredRow.status))
  errorCodes : rows.errorCodes.Perm
    (groupCounts (store.tasks.rows.filterMap StoredRow.errorCode))
  durations : rows.durations.Perm (store.tasks.rows.filterMap StoredRow.durationMs)

end Reads

end StoredDb

/-- The records that `count_accepted_waiting` counts. -/
def Db.countAcceptedWaiting (db : Db) : ℕ :=
  (db.tasks.select (fun row => decide (row.status = .accepted) && !row.hasActiveReservation)).length

end ExecgoRuntime
