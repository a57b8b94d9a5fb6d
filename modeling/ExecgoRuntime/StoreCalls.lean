import ExecgoRuntime.Repository

/-!
The writing methods of the repository as values, and what each of them does to
one task. An actor of the system issues at most one call per atomic step. A
write changes one row and appends to that row's event stream; `effect` and
`emits` say how, as functions of the row alone, and `run_spec` connects them to
the transactions. Every invariant about a row and its events is proved on this
per-task machine.
-/
namespace ExecgoRuntime

open KeyedTable

/-- The methods that write to one existing row. -/
inductive TaskWrite
  | markDispatched (shimPid : ℕ)
  | markStarted (pid pgid : ℕ) (scriptPath : Option String)
  | reserveResources (reservation : TaskResourceReservation) (message : String)
  | releaseResources (message : String)
  | setCancelRequested
  | markTimeoutTriggered
  | cancelAcceptedTask (error : RuntimeErrorInfo)
  | completeTask (update : CompletionUpdate)
  | markRecovered

/-- One repository method; `read` stands for any method that only selects. -/
inductive StoreCall
  | read
  | insertTask (new : NewTaskRecord)
  | write (taskId : TaskId) (w : TaskWrite)
  | deleteTask (taskId : TaskId)

namespace TaskWrite

def run (w : TaskWrite) (now : Timestamp) (taskId : TaskId) (db : Db) : AppResult Db :=
  match w with
  | markDispatched shimPid => db.markDispatched now taskId shimPid
  | markStarted pid pgid scriptPath => db.markStarted now taskId pid pgid scriptPath
  | reserveResources reservation message => db.reserveResources now taskId reservation message
  | releaseResources message => db.releaseResources now taskId message
  | setCancelRequested => db.setCancelRequested now taskId
  | markTimeoutTriggered => db.markTimeoutTriggered now taskId
  | cancelAcceptedTask error => db.cancelAcceptedTask now taskId error
  | completeTask update => db.completeTask now taskId update
  | markRecovered => db.markRecovered now taskId

/-- The row after the write. -/
def effect (w : TaskWrite) (now : Timestamp) (row : TaskRecord) : TaskRecord :=
  match w with
  | markDispatched shimPid => row.setDispatched shimPid now
  | markStarted pid pgid scriptPath => row.setStarted pid pgid scriptPath now
  | reserveResources reservation _ => row.setReserved reservation now
  | releaseResources _ => if row.hasActiveReservation then row.setReleased now else row
  | setCancelRequested => row.setCancelRequested now
  | markTimeoutTriggered => row.setTimeoutTriggered now
  | cancelAcceptedTask error => row.setCancelled error now
  | completeTask update => row.setCompleted update
  | markRecovered => row.setRecovered now

def releaseEvents (row : TaskRecord) : List EventType :=
  if row.hasActiveReservation then [.resourceReleased] else []

/-- The events the write appends to the stream of the row. -/
def emits (w : TaskWrite) (row : TaskRecord) : List EventType :=
  match w with
  | markDispatched _ => []
  | markStarted _ _ _ => [.started]
  | reserveResources _ _ => [.resourceReserved]
  | releaseResources _ => releaseEvents row
  | setCancelRequested => [.killRequested]
  | markTimeoutTriggered => [.timeoutTriggered]
  | cancelAcceptedTask _ => releaseEvents row ++ [.cancelled]
  | completeTask update => releaseEvents row ++ [Db.completionEvent update.status]
  | markRecovered => [.recovered]

theorem keeps_effect (w : TaskWrite) (now : Timestamp) :
    KeepsKey TaskRecord.taskId (w.effect now) := by
  intro row
  cases w with
  | markDispatched shimPid => exact keepsDispatched row
  | cancelAcceptedTask error => exact Db.keeps_setCancelled error now row
  | markRecovered => exact Db.keeps_setRecovered now row
  | releaseResources message =>
    simp only [effect]
    split <;> rfl
  | _ => rfl
where
  keepsDispatched {shimPid : ℕ} (row : TaskRecord) :
      (row.setDispatched shimPid now).taskId = row.taskId :=
    Db.keeps_setDispatched shimPid now row

end TaskWrite

namespace StoreCall

def exec (call : StoreCall) (now : Timestamp) (db : Db) : AppResult Db :=
  match call with
  | read => .ok db
  | insertTask new => db.insertTask now new
  | write taskId w => w.run now taskId db
  | deleteTask taskId => db.deleteTask taskId

end StoreCall

namespace Db

/-- The event types of one task, oldest first. -/
def stream (db : Db) (taskId : TaskId) : List EventType :=
  (db.listEvents taskId).map EventRecord.eventType

@[simp]
theorem updateTask_tasks (db : Db) (taskId : TaskId) (set : TaskRecord → TaskRecord)
    (hset : KeepsKey TaskRecord.taskId set) :
    (db.updateTask taskId set hset).tasks = db.tasks.update taskId set hset := rfl

@[simp]
theorem updateTask_stream (db : Db) (taskId : TaskId) (set : TaskRecord → TaskRecord)
    (hset : KeepsKey TaskRecord.taskId set) (j : TaskId) :
    (db.updateTask taskId set hset).stream j = db.stream j := rfl

/-- A stored event means that its task exists; it joins that task's stream. -/
theorem insertEvent_spec {db db' : Db} {now : Timestamp} {taskId : TaskId} {eventType : EventType}
    {message : Option String} {data : Option EventData}
    (h : db.insertEvent now taskId eventType message data = .ok db') :
    (∃ row, db.tasks.find taskId = some row) ∧ db'.tasks = db.tasks ∧
      ∀ j, db'.stream j = db.stream j ++ if j = taskId then [eventType] else [] := by
  unfold insertEvent at h
  split at h
  · rename_i hrow
    cases h
    refine ⟨Option.isSome_iff_exists.mp hrow, rfl, ?_⟩
    intro j
    by_cases hj : j = taskId
    · subst hj
      simp [stream, listEvents, List.filter_append]
    · have hne : taskId ≠ j := Ne.symm hj
      simp [stream, listEvents, List.filter_append, hj, hne]
  · cases h

/-- The foreign key again: an absent task has no events. -/
theorem stream_of_absent (db : Db) {taskId : TaskId} (h : db.tasks.find taskId = none) :
    db.stream taskId = [] := by
  simp only [stream, listEvents, List.map_eq_nil_iff, List.filter_eq_nil_iff, decide_eq_true_eq]
  intro event hevent heq
  have howned := db.ownedEvents event hevent
  rw [heq, h] at howned
  cases howned

theorem activeReservation_of_find {db : Db} {taskId : TaskId} {row : TaskRecord}
    (h : db.tasks.find taskId = some row) :
    db.activeReservation taskId = if row.hasActiveReservation then row.reservation else none := by
  simp [activeReservation, h]

theorem activeReservation_isSome {db : Db} {taskId : TaskId} {row : TaskRecord}
    (h : db.tasks.find taskId = some row) :
    (db.activeReservation taskId).isSome = row.hasActiveReservation := by
  rw [activeReservation_of_find h]
  cases hactive : row.hasActiveReservation with
  | false => rfl
  | true =>
    simp only [TaskRecord.hasActiveReservation, Bool.and_eq_true] at hactive
    simpa using hactive.1

/-- What a transaction on one task leaves behind: a task table, and the events
`types` at the end of that task's stream. -/
structure Leaves (db db' : Db) (tasks : TaskTable) (taskId : TaskId) (types : List EventType) :
    Prop where
  tasks : db'.tasks = tasks
  stream : ∀ j, db'.stream j = db.stream j ++ if j = taskId then types else []

theorem Leaves.insertEvent {db mid db' : Db} {tasks : TaskTable} {taskId : TaskId}
    {types : List EventType} {now : Timestamp} {eventType : EventType} {message : Option String}
    {data : Option EventData} (hmid : Leaves db mid tasks taskId types)
    (h : mid.insertEvent now taskId eventType message data = .ok db') :
    Leaves db db' tasks taskId (types ++ [eventType]) := by
  obtain ⟨_, htasks, hstream⟩ := insertEvent_spec h
  refine ⟨htasks.trans hmid.tasks, ?_⟩
  intro j
  rw [hstream j, hmid.stream j]
  split
  · rw [List.append_assoc]
  · rw [List.append_nil]

theorem leaves_updateTask (db : Db) (taskId : TaskId) (set : TaskRecord → TaskRecord)
    (hset : KeepsKey TaskRecord.taskId set) :
    Leaves db (db.updateTask taskId set hset) (db.tasks.update taskId set hset) taskId [] where
  tasks := rfl
  stream j := by
    rw [updateTask_stream]
    split <;> simp

theorem leaves_insertRow (db : Db) (row : TaskRecord) (h : db.tasks.find row.taskId = none) :
    Leaves db (db.insertRow row h) (db.tasks.insert row h) row.taskId [] where
  tasks := rfl
  stream j := by
    have hsame : (db.insertRow row h).stream j = db.stream j := rfl
    rw [hsame]
    split <;> simp

end Db

namespace TaskWrite

open Db

/-- The single-event transactions. -/
private theorem leaves_of_event {db db' : Db} {taskId : TaskId} {set : TaskRecord → TaskRecord}
    {hset : KeepsKey TaskRecord.taskId set} {now : Timestamp} {eventType : EventType}
    {message : Option String} {data : Option EventData}
    (h : (db.updateTask taskId set hset).insertEvent now taskId eventType message data =
      .ok db') :
    (∃ row, db.tasks.find taskId = some row) ∧
      Leaves db db' (db.tasks.update taskId set hset) taskId [eventType] := by
  obtain ⟨⟨row, hrow⟩, _⟩ := insertEvent_spec h
  rw [updateTask_tasks, Table.find_update_self] at hrow
  obtain ⟨old, hold, _⟩ := Option.map_eq_some_iff.mp hrow
  exact ⟨⟨old, hold⟩, (leaves_updateTask db taskId set hset).insertEvent h⟩

/-- The two transactions that release and then record a terminal event. -/
private theorem leaves_of_release {db db' : Db} {taskId : TaskId}
    {set : TaskRecord → TaskRecord} {hset : KeepsKey TaskRecord.taskId set} {now : Timestamp}
    {eventType : EventType} {message : Option String} {data : Option EventData}
    (h : ((db.updateTask taskId set hset).insertReleaseEvent now taskId
      (db.activeReservation taskId)).bind
        (fun mid => mid.insertEvent now taskId eventType message data) = .ok db') :
    ∃ row, db.tasks.find taskId = some row ∧
      Leaves db db' (db.tasks.update taskId set hset) taskId
        (releaseEvents row ++ [eventType]) := by
  cases hactive : db.activeReservation taskId with
  | none =>
    rw [hactive] at h
    obtain ⟨⟨row, hrow⟩, hleaves⟩ := leaves_of_event h
    have hisSome := activeReservation_isSome hrow
    rw [hactive] at hisSome
    refine ⟨row, hrow, ?_⟩
    simpa [releaseEvents, ← hisSome] using hleaves
  | some reservation =>
    rw [hactive, insertReleaseEvent] at h
    cases hmid : (db.updateTask taskId set hset).insertEvent now taskId .resourceReleased
        (some "task resources released") (some (.reservation reservation)) with
    | error err =>
      rw [hmid] at h
      cases h
    | ok mid =>
      rw [hmid] at h
      obtain ⟨⟨row, hrow⟩, hrelease⟩ := leaves_of_event hmid
      have hisSome := activeReservation_isSome hrow
      rw [hactive] at hisSome
      refine ⟨row, hrow, ?_⟩
      simpa [releaseEvents, ← hisSome] using hrelease.insertEvent h

/-- Every write rewrites its row by `effect` and appends `emits`. Only
`mark_dispatched` and `release_resources` succeed on an absent row, without effect. -/
theorem run_spec {w : TaskWrite} {now : Timestamp} {taskId : TaskId} {db db' : Db}
    (h : w.run now taskId db = .ok db') :
    Leaves db db' (db.tasks.update taskId (w.effect now) (w.keeps_effect now)) taskId
      (((db.tasks.find taskId).map w.emits).getD []) := by
  cases w with
  | markDispatched shimPid =>
    cases h
    refine ⟨rfl, fun j => ?_⟩
    have hnone : ((db.tasks.find taskId).map (markDispatched shimPid).emits).getD [] = [] := by
      cases db.tasks.find taskId <;> rfl
    rw [hnone]
    split <;> exact (List.append_nil _).symm
  | releaseResources message =>
    simp only [run, Db.releaseResources] at h
    cases hactive : db.activeReservation taskId with
    | none =>
      rw [hactive] at h
      cases h
      have hidle : ∀ row, db.tasks.find taskId = some row → row.hasActiveReservation = false := by
        intro row hrow
        rw [← activeReservation_isSome hrow, hactive]
        rfl
      refine ⟨(Table.update_eq_self _ _ _ ?_).symm, fun j => ?_⟩
      · intro row hrow
        simp [effect, hidle row hrow]
      · cases hrow : db.tasks.find taskId with
        | none => simp
        | some row => simp [emits, releaseEvents, hidle row hrow]
    | some reservation =>
      rw [hactive] at h
      obtain ⟨⟨row, hrow⟩, hleaves⟩ := leaves_of_event h
      have hheld : row.hasActiveReservation = true := by
        rw [← activeReservation_isSome hrow, hactive]
        rfl
      refine ⟨hleaves.tasks.trans (Table.update_congr _ _ _ _ ?_), fun j => ?_⟩
      · intro row' hrow'
        rw [hrow] at hrow'
        cases hrow'
        simp [effect, hheld]
      · rw [hleaves.stream j, hrow]
        simp [emits, releaseEvents, hheld]
  | cancelAcceptedTask error =>
    obtain ⟨row, hrow, hleaves⟩ := leaves_of_release h
    rw [hrow]
    exact hleaves
  | completeTask update =>
    simp only [run, Db.completeTask] at h
    split at h
    · cases h
    · obtain ⟨row, hrow, hleaves⟩ := leaves_of_release h
      rw [hrow]
      exact hleaves
  | markStarted pid pgid scriptPath =>
    obtain ⟨⟨row, hrow⟩, hleaves⟩ := leaves_of_event h
    rw [hrow]
    exact hleaves
  | reserveResources reservation message =>
    obtain ⟨⟨row, hrow⟩, hleaves⟩ := leaves_of_event h
    rw [hrow]
    exact hleaves
  | setCancelRequested =>
    obtain ⟨⟨row, hrow⟩, hleaves⟩ := leaves_of_event h
    rw [hrow]
    exact hleaves
  | markTimeoutTriggered =>
    obtain ⟨⟨row, hrow⟩, hleaves⟩ := leaves_of_event h
    rw [hrow]
    exact hleaves
  | markRecovered =>
    obtain ⟨⟨row, hrow⟩, hleaves⟩ := leaves_of_event h
    rw [hrow]
    exact hleaves

/-- The writes that also store an event fail on an absent row. -/
def storesEvent : TaskWrite → Bool
  | markDispatched _ | releaseResources _ => false
  | _ => true

theorem find_of_run {w : TaskWrite} (hw : w.storesEvent = true) {now : Timestamp}
    {taskId : TaskId} {db db' : Db} (h : w.run now taskId db = .ok db') :
    ∃ row, db.tasks.find taskId = some row := by
  cases w with
  | markDispatched _ => cases hw
  | releaseResources _ => cases hw
  | cancelAcceptedTask error =>
    obtain ⟨row, hrow, _⟩ := leaves_of_release h
    exact ⟨row, hrow⟩
  | completeTask update =>
    simp only [run, Db.completeTask] at h
    split at h
    · cases h
    · obtain ⟨row, hrow, _⟩ := leaves_of_release h
      exact ⟨row, hrow⟩
  | markStarted _ _ _ => exact (leaves_of_event h).1
  | reserveResources _ _ => exact (leaves_of_event h).1
  | setCancelRequested => exact (leaves_of_event h).1
  | markTimeoutTriggered => exact (leaves_of_event h).1
  | markRecovered => exact (leaves_of_event h).1

/-- The transaction does not reject its argument. -/
def persistable : TaskWrite → Bool
  | completeTask update => !update.durationMs.any (fun duration => decide (i64Max < duration))
  | _ => true

private theorem insertEvent_ok {db : Db} {taskId : TaskId}
    (h : (db.tasks.find taskId).isSome = true) (now : Timestamp) (eventType : EventType)
    (message : Option String) (data : Option EventData) :
    ∃ db', db.insertEvent now taskId eventType message data = .ok db' ∧ db'.tasks = db.tasks := by
  unfold Db.insertEvent
  rw [dif_pos h]
  exact ⟨_, rfl, rfl⟩

private theorem release_ok {db : Db} {taskId : TaskId}
    (h : (db.tasks.find taskId).isSome = true) (now : Timestamp)
    (active : Option TaskResourceReservation) (eventType : EventType) (message : Option String)
    (data : Option EventData) :
    ∃ db', (db.insertReleaseEvent now taskId active).bind
      (fun mid => mid.insertEvent now taskId eventType message data) = .ok db' := by
  cases active with
  | none =>
    obtain ⟨db', hdb', _⟩ := insertEvent_ok h now eventType message data
    exact ⟨db', hdb'⟩
  | some reservation =>
    obtain ⟨mid, hmid, htasks⟩ := insertEvent_ok h now .resourceReleased
      (some "task resources released") (some (.reservation reservation))
    rw [← htasks] at h
    obtain ⟨db', hdb', _⟩ := insertEvent_ok h now eventType message data
    refine ⟨db', ?_⟩
    simp only [insertReleaseEvent, hmid]
    exact hdb'

/-- On an existing row every write succeeds. -/
theorem run_ok {w : TaskWrite} (hw : w.persistable = true) (now : Timestamp) {taskId : TaskId}
    {db : Db} {row : TaskRecord} (hrow : db.tasks.find taskId = some row) :
    ∃ db', w.run now taskId db = .ok db' := by
  have hupdated : ∀ (set : TaskRecord → TaskRecord) (hset : KeepsKey TaskRecord.taskId set),
      ((db.updateTask taskId set hset).tasks.find taskId).isSome = true := by
    intro set hset
    rw [updateTask_tasks, Table.find_update_self, hrow]
    rfl
  have hevent : ∀ (set : TaskRecord → TaskRecord) (hset : KeepsKey TaskRecord.taskId set)
      (eventType : EventType) (message : Option String) (data : Option EventData),
      ∃ db', (db.updateTask taskId set hset).insertEvent now taskId eventType message data =
        .ok db' := by
    intro set hset eventType message data
    obtain ⟨db', hdb', _⟩ := insertEvent_ok (hupdated set hset) now eventType message data
    exact ⟨db', hdb'⟩
  cases w with
  | markDispatched shimPid => exact ⟨_, rfl⟩
  | releaseResources message =>
    simp only [run, Db.releaseResources]
    split
    · exact hevent _ _ _ _ _
    · exact ⟨db, rfl⟩
  | cancelAcceptedTask error => exact release_ok (hupdated _ _) now _ _ _ _
  | completeTask update =>
    have hfits : update.durationMs.any (fun duration => decide (i64Max < duration)) = false := by
      simpa [persistable] using hw
    simp only [run, Db.completeTask, hfits]
    exact release_ok (hupdated _ _) now _ _ _ _
  | markStarted _ _ _ => exact hevent _ _ _ _ _
  | reserveResources _ _ => exact hevent _ _ _ _ _
  | setCancelRequested => exact hevent _ _ _ _ _
  | markTimeoutTriggered => exact hevent _ _ _ _ _
  | markRecovered => exact hevent _ _ _ _ _

theorem setReleased_idle (now : Timestamp) (row : TaskRecord) :
    (row.setReleased now).hasActiveReservation = false := by
  simp [TaskRecord.setReleased, TaskRecord.hasActiveReservation]

theorem setCompleted_idle (update : CompletionUpdate) (row : TaskRecord) :
    (row.setCompleted update).hasActiveReservation = false := by
  cases hreservation : row.reservation <;> cases hreleased : row.releasedAt <;>
    simp [TaskRecord.setCompleted, TaskRecord.hasActiveReservation, TaskRecord.releasedAtOr,
      hreservation, hreleased]

theorem setCancelled_idle {row : TaskRecord} (h : row.status = .accepted)
    (error : RuntimeErrorInfo) (now : Timestamp) :
    (row.setCancelled error now).hasActiveReservation = false := by
  cases hreservation : row.reservation <;> cases hreleased : row.releasedAt <;>
    simp [TaskRecord.setCancelled, TaskRecord.hasActiveReservation, TaskRecord.releasedAtOr,
      h, hreservation, hreleased]

theorem setCancelled_eq_self {row : TaskRecord} (h : row.status ≠ .accepted)
    (error : RuntimeErrorInfo) (now : Timestamp) : row.setCancelled error now = row := by
  rw [TaskRecord.setCancelled, if_neg h]

def reserves : TaskWrite → Bool
  | reserveResources _ _ => true
  | _ => false

theorem effect_controlContext (w : TaskWrite) (now : Timestamp) (row : TaskRecord) :
    (w.effect now row).controlContext = row.controlContext := by
  cases w <;> simp only [effect, TaskRecord.setDispatched, TaskRecord.setStarted,
    TaskRecord.setReserved, TaskRecord.setReleased, TaskRecord.setCancelRequested,
    TaskRecord.setTimeoutTriggered, TaskRecord.setCancelled, TaskRecord.setCompleted,
    TaskRecord.setRecovered] <;> (try split) <;> rfl

/-- The columns that no write changes. -/
structure SameOrigin (row row' : TaskRecord) : Prop where
  taskId : row'.taskId = row.taskId
  limits : row'.limits = row.limits
  taskDir : row'.taskDir = row.taskDir
  resultPath : row'.resultPath = row.resultPath
  executionPlan : row'.executionPlan = row.executionPlan
  controlContext : row'.controlContext = row.controlContext

theorem effect_sameOrigin (w : TaskWrite) (now : Timestamp) (row : TaskRecord) :
    SameOrigin row (w.effect now row) := by
  constructor <;> cases w <;> simp only [effect, TaskRecord.setDispatched, TaskRecord.setStarted,
    TaskRecord.setReserved, TaskRecord.setReleased, TaskRecord.setCancelRequested,
    TaskRecord.setTimeoutTriggered, TaskRecord.setCancelled, TaskRecord.setCompleted,
    TaskRecord.setRecovered] <;> (try split) <;> rfl

/-- The columns that tell how a task ended. -/
structure SameEnd (row row' : TaskRecord) : Prop where
  status : row'.status = row.status
  finishedAt : row'.finishedAt = row.finishedAt
  durationMs : row'.durationMs = row.durationMs
  exitCode : row'.exitCode = row.exitCode
  errorCode : row'.errorCode = row.errorCode
  error : row'.error = row.error

theorem SameEnd.refl (row : TaskRecord) : SameEnd row row := ⟨rfl, rfl, rfl, rfl, rfl, rfl⟩

/-- How a row is terminal after a write. -/
inductive EndStep (now : Timestamp) (row : TaskRecord) : TaskWrite → TaskRecord → Prop
  | kept {w row'} : SameEnd row row' → EndStep now row w row'
  | cancelled (error : RuntimeErrorInfo) : row.status = .accepted →
      EndStep now row (.cancelAcceptedTask error) (row.setCancelled error now)
  | completed (update : CompletionUpdate) :
      EndStep now row (.completeTask update) (row.setCompleted update)

theorem effect_end {w : TaskWrite} {now : Timestamp} {row : TaskRecord}
    (h : (w.effect now row).status.isTerminal = true) :
    EndStep now row w (w.effect now row) := by
  cases w with
  | markDispatched shimPid =>
    by_cases haccepted : row.status = .accepted
    · simp only [effect, TaskRecord.setDispatched, if_pos haccepted] at h
      cases h
    · simp only [effect, TaskRecord.setDispatched, if_neg haccepted]
      exact .kept (.refl row)
  | markStarted pid pgid scriptPath => cases h
  | cancelAcceptedTask error =>
    by_cases haccepted : row.status = .accepted
    · exact .cancelled error haccepted
    · rw [effect, setCancelled_eq_self haccepted]
      exact .kept (.refl row)
  | completeTask update => exact .completed update
  | releaseResources message =>
    simp only [effect]
    split <;> exact .kept ⟨rfl, rfl, rfl, rfl, rfl, rfl⟩
  | markRecovered =>
    simp only [effect, TaskRecord.setRecovered]
    split <;> exact .kept ⟨rfl, rfl, rfl, rfl, rfl, rfl⟩
  | reserveResources _ _ => exact .kept ⟨rfl, rfl, rfl, rfl, rfl, rfl⟩
  | setCancelRequested => exact .kept ⟨rfl, rfl, rfl, rfl, rfl, rfl⟩
  | markTimeoutTriggered => exact .kept ⟨rfl, rfl, rfl, rfl, rfl, rfl⟩

/-- A write that does not end its task leaves the error code as it is. -/
theorem effect_errorCode {w : TaskWrite} {now : Timestamp} {row : TaskRecord}
    (h : (w.effect now row).status.isTerminal = false) :
    (w.effect now row).errorCode = row.errorCode := by
  cases w with
  | completeTask update =>
    have hterminal := update.terminal
    change update.status.isTerminal = false at h
    rw [hterminal] at h
    cases h
  | cancelAcceptedTask error =>
    by_cases haccepted : row.status = .accepted
    · simp only [effect, TaskRecord.setCancelled, if_pos haccepted] at h
      cases h
    · rw [effect, setCancelled_eq_self haccepted]
  | markDispatched _ =>
    simp only [effect, TaskRecord.setDispatched]
    split <;> rfl
  | releaseResources _ =>
    simp only [effect]
    split <;> rfl
  | markRecovered =>
    simp only [effect, TaskRecord.setRecovered]
    split <;> rfl
  | _ => rfl

/-- A row that has left the queue does not return to it. -/
theorem effect_not_accepted (w : TaskWrite) (now : Timestamp) {row : TaskRecord}
    (h : row.status ≠ .accepted) : (w.effect now row).status ≠ .accepted := by
  intro haccepted
  cases w with
  | markStarted _ _ _ => cases haccepted
  | completeTask update =>
    have hterminal := update.terminal
    change update.status = .accepted at haccepted
    rw [haccepted] at hterminal
    cases hterminal
  | markDispatched _ =>
    simp only [effect, TaskRecord.setDispatched, if_neg h] at haccepted
    exact h haccepted
  | cancelAcceptedTask _ =>
    rw [effect, setCancelled_eq_self h] at haccepted
    exact h haccepted
  | releaseResources _ =>
    simp only [effect] at haccepted
    split at haccepted <;> exact h haccepted
  | markRecovered =>
    simp only [effect, TaskRecord.setRecovered] at haccepted
    split at haccepted <;> exact h haccepted
  | _ => exact h haccepted

theorem effect_killRequested (w : TaskWrite) (now : Timestamp) {row : TaskRecord}
    (h : row.killRequested = true) : (w.effect now row).killRequested = true := by
  cases w <;> simp only [effect, TaskRecord.setDispatched, TaskRecord.setStarted,
    TaskRecord.setReserved, TaskRecord.setReleased, TaskRecord.setCancelRequested,
    TaskRecord.setTimeoutTriggered, TaskRecord.setCancelled, TaskRecord.setCompleted,
    TaskRecord.setRecovered] <;> (try split) <;> exact h

theorem effect_timeoutTriggered (w : TaskWrite) (now : Timestamp) {row : TaskRecord}
    (h : row.timeoutTriggered = true) : (w.effect now row).timeoutTriggered = true := by
  cases w <;> simp only [effect, TaskRecord.setDispatched, TaskRecord.setStarted,
    TaskRecord.setReserved, TaskRecord.setReleased, TaskRecord.setCancelRequested,
    TaskRecord.setTimeoutTriggered, TaskRecord.setCancelled, TaskRecord.setCompleted,
    TaskRecord.setRecovered] <;> (try split) <;> exact h

theorem effect_reservation {w : TaskWrite} (h : w.reserves = false) (now : Timestamp)
    (row : TaskRecord) : (w.effect now row).reservation = row.reservation := by
  cases w with
  | reserveResources _ _ => cases h
  | _ =>
    simp only [effect, TaskRecord.setDispatched, TaskRecord.setStarted, TaskRecord.setReleased,
      TaskRecord.setCancelRequested, TaskRecord.setTimeoutTriggered, TaskRecord.setCancelled,
      TaskRecord.setCompleted, TaskRecord.setRecovered]
    try split
    all_goals rfl

/-- Only `reserve_resources` makes a reservation active. -/
theorem active_of_effect {w : TaskWrite} (h : w.reserves = false) {now : Timestamp}
    {row : TaskRecord} (hactive : (w.effect now row).hasActiveReservation = true) :
    row.hasActiveReservation = true := by
  by_contra hidle
  cases w with
  | reserveResources _ _ => cases h
  | markDispatched _ =>
    simp only [effect, TaskRecord.setDispatched] at hactive
    split at hactive <;> exact hidle hactive
  | releaseResources _ =>
    simp only [effect, if_neg hidle] at hactive
    exact hidle hactive
  | cancelAcceptedTask _ =>
    simp only [effect, TaskRecord.setCancelled, TaskRecord.releasedAtOr, if_neg hidle] at hactive
    split at hactive <;> exact hidle hactive
  | completeTask _ =>
    simp only [effect, TaskRecord.setCompleted, TaskRecord.releasedAtOr, if_neg hidle] at hactive
    exact hidle hactive
  | markRecovered =>
    simp only [effect, TaskRecord.setRecovered] at hactive
    split at hactive <;> exact hidle hactive
  | _ => exact hidle hactive

end TaskWrite

namespace Db

/-- The events of a fresh row. -/
def insertEvents (new : NewTaskRecord) : List EventType :=
  [.submitted, .accepted, .planned] ++ if new.executionPlan.degraded then [.degraded] else []

/-- Insertion needs a free key, and the new row starts with its own events. -/
theorem insertTask_spec {db db' : Db} {now : Timestamp} {new : NewTaskRecord}
    (h : db.insertTask now new = .ok db') :
    ∃ hfree : db.tasks.find (new.toRow now).taskId = none,
      Leaves db db' (db.tasks.insert (new.toRow now) hfree) new.taskId (insertEvents new) := by
  simp only [insertTask, bind, pure, Except.pure] at h
  split at h
  · cases h
  split at h
  · cases h
  simp only [Except.bind] at h
  split at h
  · rename_i hfree
    refine ⟨hfree, ?_⟩
    have hrow : Leaves db (db.insertRow (new.toRow now) hfree)
        (db.tasks.insert (new.toRow now) hfree) new.taskId [] := leaves_insertRow db _ hfree
    split at h
    · cases h
    rename_i db₁ h₁
    split at h
    · cases h
    rename_i db₂ h₂
    split at h
    · cases h
    rename_i db₃ h₃
    have hthree := ((hrow.insertEvent h₁).insertEvent h₂).insertEvent h₃
    split at h
    · rename_i hdegraded
      simpa [insertEvents, hdegraded] using hthree.insertEvent h
    · rename_i hdegraded
      cases h
      simpa [insertEvents, hdegraded] using hthree
  · cases h

theorem deleteTask_spec {db db' : Db} {taskId : TaskId} (h : db.deleteTask taskId = .ok db') :
    db'.tasks = db.tasks.erase taskId ∧
      ∀ j, db'.stream j = if j = taskId then [] else db.stream j := by
  cases h
  refine ⟨rfl, fun j => ?_⟩
  simp only [stream, listEvents, List.filter_filter]
  split
  · rename_i hj
    subst hj
    rw [List.map_eq_nil_iff, List.filter_eq_nil_iff]
    simp
  · rename_i hj
    congr 1
    apply List.filter_congr
    intro event _
    by_cases hevent : event.taskId = j
    · simp [hevent, hj]
    · simp [hevent]

theorem getTask_eq_ok_iff (db : Db) (taskId : TaskId) (row : TaskRecord) :
    db.getTask taskId = .ok row ↔ db.tasks.find taskId = some row := by
  unfold getTask
  cases db.tasks.find taskId <;> simp

theorem find_of_isCancelRequested {db : Db} {taskId : TaskId} {requested : Bool}
    (h : db.isCancelRequested taskId = .ok requested) :
    ∃ row, db.tasks.find taskId = some row := by
  unfold isCancelRequested at h
  split at h
  · exact ⟨_, ‹_›⟩
  · cases h

theorem byCreation_perm (rows : List TaskRecord) : (byCreation rows).Perm rows :=
  List.perm_insertionSort _ rows

theorem limitRows_sublist (limit : ℕ) (rows : List TaskRecord) :
    (limitRows limit rows).Sublist rows := by
  unfold limitRows
  split
  · exact List.take_sublist _ _
  · exact List.Sublist.refl _

theorem mem_listAccepted {db : Db} {limit : ℕ} {row : TaskRecord}
    (h : row ∈ db.listAccepted limit) :
    db.tasks.find row.taskId = some row ∧ row.status = .accepted := by
  have hmem := (byCreation_perm _).mem_iff.mp ((limitRows_sublist _ _).mem h)
  simpa using (Table.mem_select_iff _ _ _).mp hmem

theorem listAccepted_nodup (db : Db) (limit : ℕ) :
    ((db.listAccepted limit).map TaskRecord.taskId).Nodup := by
  have hsorted : ((byCreation (db.tasks.select (fun row => decide (row.status = .accepted)))).map
      TaskRecord.taskId).Nodup :=
    ((byCreation_perm _).map _).nodup_iff.mpr (Table.select_nodup _ _)
  exact hsorted.sublist ((limitRows_sublist _ _).map _)

theorem mem_listNonTerminal {db : Db} {row : TaskRecord} (h : row ∈ db.listNonTerminal) :
    db.tasks.find row.taskId = some row ∧ row.status.isTerminal = false := by
  have hmem := (byCreation_perm _).mem_iff.mp h
  simpa using (Table.mem_select_iff _ _ _).mp hmem

theorem mem_listNonTerminal_of_find {db : Db} {taskId : TaskId} {row : TaskRecord}
    (hrow : db.tasks.find taskId = some row) (hlive : row.status.isTerminal = false) :
    row ∈ db.listNonTerminal := by
  refine (byCreation_perm _).mem_iff.mpr ((Table.mem_select_iff _ _ _).mpr ?_)
  rw [db.tasks.find_key hrow]
  exact ⟨hrow, by simpa using hlive⟩

theorem listNonTerminal_nodup (db : Db) : (db.listNonTerminal.map TaskRecord.taskId).Nodup :=
  ((byCreation_perm _).map _).nodup_iff.mpr (Table.select_nodup _ _)

theorem listActiveReservations_perm (db : Db) :
    db.listActiveReservations.Perm (db.tasks.select TaskRecord.hasActiveReservation) :=
  (List.perm_insertionSort _ _).trans (byCreation_perm _)

end Db

end ExecgoRuntime
