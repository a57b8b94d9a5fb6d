import ExecgoRuntime.EventLog

/-!
What the events of a task contain. Each transaction appends events whose types,
times, messages and data are a function of the row it hits. A reading of the
stream, folded event by event, that agrees with a reading of the row across
every single transaction therefore agrees with it in every state of a run.
-/
namespace ExecgoRuntime

open KeyedTable

/-- An event without its number and its task. -/
structure EventBody where
  eventType : EventType
  timestamp : Timestamp
  message : Option String
  data : Option EventData

def EventRecord.body (event : EventRecord) : EventBody :=
  ⟨event.eventType, event.timestamp, event.message, event.data⟩

/-- The event of a release, if there is something to release. -/
def TaskRecord.releaseBodies (row : TaskRecord) (now : Timestamp) (message : String) :
    List EventBody :=
  if row.hasActiveReservation then
    row.reservation.toList.map (fun reservation =>
      ⟨.resourceReleased, now, some message, some (.reservation reservation)⟩)
  else []

/-- The events that the write appends to those of the row. -/
def TaskWrite.bodies (w : TaskWrite) (now : Timestamp) (row : TaskRecord) : List EventBody :=
  match w with
  | markDispatched _ => []
  | markStarted _ _ _ => [⟨.started, now, some "task started", none⟩]
  | reserveResources reservation message =>
    [⟨.resourceReserved, now, some message, some (.reservation reservation)⟩]
  | releaseResources message => row.releaseBodies now message
  | setCancelRequested => [⟨.killRequested, now, some "kill requested", none⟩]
  | markTimeoutTriggered => [⟨.timeoutTriggered, now, some "timeout triggered", none⟩]
  | cancelAcceptedTask _ =>
    row.releaseBodies now "task resources released" ++
      [⟨.cancelled, now, some "task cancelled", none⟩]
  | completeTask update =>
    row.releaseBodies now "task resources released" ++
      [⟨Db.completionEvent update.status, now, some (Db.completionMessage update.status), none⟩]
  | markRecovered => [⟨.recovered, now, some "task recovered", none⟩]

/-- The events of a fresh row. -/
def NewTaskRecord.bodies (new : NewTaskRecord) (now : Timestamp) : List EventBody :=
  [⟨.submitted, now, some "task submitted", none⟩, ⟨.accepted, now, some "task accepted", none⟩,
    ⟨.planned, now, some "execution plan resolved", some (.plan new.executionPlan)⟩] ++
  if new.executionPlan.degraded then
    [⟨.degraded, now, some "execution plan degraded",
      some (.degradation new.executionPlan.fallbackReasons new.executionPlan.effectiveSandbox)⟩]
  else []

namespace Db

/-- The contents of the events of one task, oldest first. -/
def contents (db : Db) (taskId : TaskId) : List EventBody :=
  (db.listEvents taskId).map EventRecord.body

theorem contents_of_absent (db : Db) {taskId : TaskId} (h : db.tasks.find taskId = none) :
    db.contents taskId = [] := by
  rw [contents, List.map_eq_nil_iff]
  exact List.map_eq_nil_iff.mp (db.stream_of_absent h)

/-- Events were added to those of one task. -/
def Adds (db db' : Db) (taskId : TaskId) (bodies : List EventBody) : Prop :=
  ∀ j, db'.contents j = db.contents j ++ if j = taskId then bodies else []

theorem Adds.of_same {db db' : Db} {taskId : TaskId} (h : db'.taskEvents = db.taskEvents) :
    Adds db db' taskId [] := by
  intro j
  simp [contents, listEvents, h]

theorem Adds.trans {db mid db' : Db} {taskId : TaskId} {bodies bodies' : List EventBody}
    (h : Adds db mid taskId bodies) (h' : Adds mid db' taskId bodies') :
    Adds db db' taskId (bodies ++ bodies') := by
  intro j
  rw [h' j, h j, List.append_assoc]
  split <;> rfl

theorem Adds.insertEvent {db mid db' : Db} {taskId : TaskId} {bodies : List EventBody}
    (h : Adds db mid taskId bodies) {now : Timestamp} {eventType : EventType}
    {message : Option String} {data : Option EventData}
    (hinsert : mid.insertEvent now taskId eventType message data = .ok db') :
    Adds db db' taskId (bodies ++ [⟨eventType, now, message, data⟩]) := by
  refine h.trans fun j => ?_
  unfold Db.insertEvent at hinsert
  split at hinsert
  · cases hinsert
    by_cases hj : j = taskId
    · subst hj
      simp [contents, listEvents, List.filter_append, EventRecord.body]
    · simp [contents, listEvents, List.filter_append, hj, Ne.symm hj]
  · cases hinsert

/-- The transactions that release and then record an end. -/
theorem Adds.releaseAndRecord {db db' : Db} {taskId : TaskId} {row : TaskRecord}
    {set : TaskRecord → TaskRecord} {hset : KeepsKey TaskRecord.taskId set}
    (hrow : db.tasks.find taskId = some row) {now : Timestamp} {eventType : EventType}
    {message : Option String}
    (hrun : ((db.updateTask taskId set hset).insertReleaseEvent now taskId
        (db.activeReservation taskId)).bind
      (fun mid => mid.insertEvent now taskId eventType message none) = .ok db') :
    Adds db db' taskId
      (row.releaseBodies now "task resources released" ++ [⟨eventType, now, message, none⟩]) := by
  have hupdated : Adds db (db.updateTask taskId set hset) taskId [] := .of_same rfl
  rw [activeReservation_of_find hrow] at hrun
  unfold TaskRecord.releaseBodies
  cases hactive : row.hasActiveReservation with
  | false =>
    rw [hactive] at hrun
    exact hupdated.insertEvent hrun
  | true =>
    rw [hactive] at hrun
    cases hreservation : row.reservation with
    | none => simp [TaskRecord.hasActiveReservation, hreservation] at hactive
    | some reservation =>
      rw [hreservation] at hrun
      cases hrelease : (db.updateTask taskId set hset).insertReleaseEvent now taskId
          (some reservation) with
      | error e =>
        simp only [if_true, hrelease] at hrun
        cases hrun
      | ok released =>
        simp only [if_true, hrelease] at hrun
        exact (hupdated.insertEvent hrelease).insertEvent hrun

theorem adds_write {w : TaskWrite} {now : Timestamp} {taskId : TaskId} {db db' : Db}
    {row : TaskRecord} (h : w.run now taskId db = .ok db')
    (hrow : db.tasks.find taskId = some row) : Adds db db' taskId (w.bodies now row) := by
  have hupdated : ∀ (set : TaskRecord → TaskRecord) (hset : KeepsKey TaskRecord.taskId set),
      Adds db (db.updateTask taskId set hset) taskId [] := fun _ _ => .of_same rfl
  cases w with
  | markDispatched shimPid =>
    cases h
    exact .of_same rfl
  | releaseResources message =>
    simp only [TaskWrite.run, Db.releaseResources, activeReservation_of_find hrow] at h
    unfold TaskWrite.bodies TaskRecord.releaseBodies
    cases hactive : row.hasActiveReservation with
    | false =>
      simp only [hactive] at h
      cases h
      exact .of_same rfl
    | true =>
      simp only [hactive, if_true] at h
      cases hreservation : row.reservation with
      | none => simp [TaskRecord.hasActiveReservation, hreservation] at hactive
      | some reservation =>
        rw [hreservation] at h
        exact (hupdated _ _).insertEvent h
  | cancelAcceptedTask error => exact .releaseAndRecord hrow h
  | completeTask update =>
    simp only [TaskWrite.run, Db.completeTask] at h
    split at h
    · cases h
    · exact .releaseAndRecord hrow h
  | markStarted pid pgid scriptPath => exact (hupdated _ _).insertEvent h
  | reserveResources reservation message => exact (hupdated _ _).insertEvent h
  | setCancelRequested => exact (hupdated _ _).insertEvent h
  | markTimeoutTriggered => exact (hupdated _ _).insertEvent h
  | markRecovered => exact (hupdated _ _).insertEvent h

/-- A write to an absent task adds nothing. -/
theorem adds_write_of_absent {w : TaskWrite} {now : Timestamp} {taskId : TaskId} {db db' : Db}
    (h : w.run now taskId db = .ok db') (hnone : db.tasks.find taskId = none) :
    Adds db db' taskId [] := by
  by_cases hstores : w.storesEvent = true
  · obtain ⟨row, hrow⟩ := TaskWrite.find_of_run hstores h
    rw [hnone] at hrow
    cases hrow
  · cases w with
    | markDispatched shimPid =>
      cases h
      exact .of_same rfl
    | releaseResources message =>
      simp only [TaskWrite.run, Db.releaseResources, Db.activeReservation, hnone] at h
      cases h
      exact .of_same rfl
    | _ => exact absurd rfl hstores

theorem adds_insertTask {db db' : Db} {now : Timestamp} {new : NewTaskRecord}
    (h : db.insertTask now new = .ok db') : Adds db db' new.taskId (new.bodies now) := by
  simp only [insertTask, bind, pure, Except.pure] at h
  split at h
  · cases h
  split at h
  · cases h
  simp only [Except.bind] at h
  split at h
  · rename_i hfree
    have hrow : Adds db (db.insertRow (new.toRow now) hfree) new.taskId [] := .of_same rfl
    split at h
    · cases h
    rename_i db₁ h₁
    split at h
    · cases h
    rename_i db₂ h₂
    split at h
    · cases h
    rename_i db₃ h₃
    have hthree := ((hrow.insertEvent h₁).insertEvent h₂).insertEvent h₃
    unfold NewTaskRecord.bodies
    split at h
    · rename_i hdegraded
      rw [if_pos hdegraded]
      exact hthree.insertEvent h
    · rename_i hplain
      cases h
      rw [if_neg hplain, List.append_nil]
      exact hthree
  · cases h

theorem contents_deleteTask {db db' : Db} {other : TaskId} (h : db.deleteTask other = .ok db')
    (taskId : TaskId) :
    db'.contents taskId = if taskId = other then [] else db.contents taskId := by
  rw [contents, listEvents_deleteTask h]
  split <;> rfl

end Db

/-- A reading of the events of a task that agrees with a reading of its row across
every transaction. -/
structure Telling (α : Type) where
  start : α
  apply : α → EventBody → α
  column : TaskRecord → α
  inserted : ∀ (new : NewTaskRecord) (now : Timestamp),
    (new.bodies now).foldl apply start = column (new.toRow now)
  written : ∀ (w : TaskWrite) (now : Timestamp) (row : TaskRecord),
    (w.bodies now row).foldl apply (column row) = column (w.effect now row)

namespace Telling

variable {α : Type} (telling : Telling α)

def ofContents (bodies : List EventBody) : α := bodies.foldl telling.apply telling.start

/-- The events of every task tell what its row says. -/
def Told (db : Db) : Prop :=
  ∀ taskId row, db.tasks.find taskId = some row →
    telling.ofContents (db.contents taskId) = telling.column row

variable {telling} {db db' : Db} {now : Timestamp}

theorem Told.write (h : telling.Told db) {taskId : TaskId} {w : TaskWrite}
    (hrun : w.run now taskId db = .ok db') : telling.Told db' := by
  intro j row' hrow'
  rw [Db.find_write hrun] at hrow'
  by_cases hj : j = taskId
  · subst hj
    rw [if_pos rfl] at hrow'
    obtain ⟨row, hrow, rfl⟩ := Option.map_eq_some_iff.mp hrow'
    have hbefore : (db.contents j).foldl telling.apply telling.start = telling.column row :=
      h j row hrow
    rw [Db.adds_write hrun hrow j, if_pos rfl, ofContents, List.foldl_append, hbefore]
    exact telling.written w now row
  · rw [if_neg hj] at hrow'
    have hsame : db'.contents j = db.contents j := by
      cases hrow : db.tasks.find taskId with
      | none => simp [Db.adds_write_of_absent hrun hrow j]
      | some row => simp [Db.adds_write hrun hrow j, hj]
    rw [hsame]
    exact h j row' hrow'

theorem Told.insertTask (h : telling.Told db) {new : NewTaskRecord}
    (hinsert : db.insertTask now new = .ok db') : telling.Told db' := by
  obtain ⟨hfree, hleaves⟩ := Db.insertTask_spec hinsert
  have hkey : (new.toRow now).taskId = new.taskId := rfl
  intro j row hrow
  rw [hleaves.tasks, Table.find_insert, hkey] at hrow
  rw [Db.adds_insertTask hinsert j]
  by_cases hj : j = new.taskId
  · subst hj
    rw [if_pos rfl] at hrow ⊢
    have hempty : db.contents new.taskId = [] := Db.contents_of_absent db hfree
    rw [hempty, List.nil_append, ← Option.some.inj hrow]
    exact telling.inserted new now
  · rw [if_neg hj] at hrow ⊢
    rw [List.append_nil]
    exact h j row hrow

theorem Told.deleteTask (h : telling.Told db) {taskId : TaskId}
    (hdelete : db.deleteTask taskId = .ok db') : telling.Told db' := by
  intro j row hrow
  rw [(Db.deleteTask_spec hdelete).1, Table.find_erase] at hrow
  rw [Db.contents_deleteTask hdelete]
  by_cases hj : j = taskId
  · rw [if_pos hj] at hrow
    cases hrow
  · rw [if_neg hj] at hrow ⊢
    exact h j row hrow

theorem Told.exec (h : telling.Told db) {call : StoreCall}
    (hexec : call.exec now db = .ok db') : telling.Told db' := by
  cases call with
  | read => exact Except.ok.inj hexec ▸ h
  | insertTask new => exact h.insertTask hexec
  | write taskId w => exact h.write hexec
  | deleteTask taskId => exact h.deleteTask hexec

/-- In every state of a run the events of a task tell what its row says. -/
theorem told_of_run (telling : Telling α) {svc : RuntimeService} {trace : List (World × Event)}
    {last : World} (hrun : World.Run svc .init trace last) : telling.Told last.db := by
  have hstart : telling.Told World.init.db := fun _ _ hnone => by cases hnone
  refine hrun.invariant (I := fun w => telling.Told w.db) (G := fun _ _ => True) hstart ?_
    (fun _ _ => trivial)
  intro w e w' hinv _ hstep
  rcases World.step_db hstep with ⟨_, hdb⟩ | ⟨call, _, hexec⟩
  · exact hdb ▸ hinv
  · exact hinv.exec hexec

end Telling

end ExecgoRuntime
