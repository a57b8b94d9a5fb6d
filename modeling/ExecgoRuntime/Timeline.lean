import ExecgoRuntime.AuditTrail
import ExecgoRuntime.EventLog
import ExecgoRuntime.Exclusion
import ExecgoRuntime.Supervising

/-!
The times of a task. The columns that say when a task was submitted, reserved for,
started and asked to end are set exactly when there is an event that says so, and
are no later than the last one. If the clock does not go back and no deleted id is
submitted again, the events of a task are in the order of their times, no column is
before the submission or ahead of the clock, and the end that a row records is no
later than the event of it. A completion is stamped when the shim decides on it, so
it may go back behind a kill that was recorded in between: columns other than the
submission have no order among themselves.

A step reads the clock once, for the row. The code reads it again, inside the
transaction, for each event. So what is said of the events is said of any later
readings that take the place of the first, in the order of the events.
-/
namespace ExecgoRuntime

open KeyedTable

/-- When a task was submitted and last reserved for, started and asked to end. -/
structure Dates where
  created : Option Timestamp := none
  reserved : Option Timestamp := none
  started : Option Timestamp := none
  killRequested : Option Timestamp := none
  deriving DecidableEq

namespace Dates

def apply (dates : Dates) (eventType : EventType) (timestamp : Timestamp) : Dates :=
  match eventType with
  | .submitted => { dates with created := some timestamp }
  | .resourceReserved => { dates with reserved := some timestamp }
  | .started => { dates with started := some timestamp }
  | .killRequested => { dates with killRequested := some timestamp }
  | _ => dates

def ofEvents (events : List EventRecord) : Dates :=
  events.foldl (fun dates event => dates.apply event.eventType event.timestamp) {}

/-- The same dates are there, none of them later. -/
structure NoLater (dates bound : Dates) : Prop where
  created : Option.Rel (· ≤ ·) dates.created bound.created
  reserved : Option.Rel (· ≤ ·) dates.reserved bound.reserved
  started : Option.Rel (· ≤ ·) dates.started bound.started
  killRequested : Option.Rel (· ≤ ·) dates.killRequested bound.killRequested

theorem NoLater.refl (dates : Dates) : dates.NoLater dates := by
  have hrel : ∀ date : Option Timestamp, Option.Rel (· ≤ ·) date date := by
    rintro (_ | date)
    · exact .none
    · exact .some (le_refl date)
  exact ⟨hrel _, hrel _, hrel _, hrel _⟩

theorem NoLater.trans {dates mid bound : Dates} (h : dates.NoLater mid)
    (h' : mid.NoLater bound) : dates.NoLater bound := by
  have hrel : ∀ {a b c : Option Timestamp}, Option.Rel (· ≤ ·) a b → Option.Rel (· ≤ ·) b c →
      Option.Rel (· ≤ ·) a c := by
    rintro _ _ _ (hle | _) hnext
    · cases hnext with
      | some hle' => exact .some (hle.trans hle')
    · exact hnext
  exact ⟨hrel h.created h'.created, hrel h.reserved h'.reserved, hrel h.started h'.started,
    hrel h.killRequested h'.killRequested⟩

theorem NoLater.apply {dates bound : Dates} (h : dates.NoLater bound) (eventType : EventType)
    {timestamp reading : Timestamp} (hle : timestamp ≤ reading) :
    (dates.apply eventType timestamp).NoLater (bound.apply eventType reading) := by
  obtain ⟨hcreated, hreserved, hstarted, hkill⟩ := h
  cases eventType with
  | submitted => exact ⟨.some hle, hreserved, hstarted, hkill⟩
  | resourceReserved => exact ⟨hcreated, .some hle, hstarted, hkill⟩
  | started => exact ⟨hcreated, hreserved, .some hle, hkill⟩
  | killRequested => exact ⟨hcreated, hreserved, hstarted, .some hle⟩
  | _ => exact ⟨hcreated, hreserved, hstarted, hkill⟩

end Dates

/-- The event with a reading of the clock of its own. -/
def EventRecord.restamp (reading : ℕ → Timestamp) (event : EventRecord) : EventRecord :=
  { event with timestamp := reading event.seq }

/-- The clock is read for every event by its number: after it was read for the row, and
after it was read for the event before. -/
structure Db.ReadsAgain (db : Db) (reading : ℕ → Timestamp) : Prop where
  ordered : ∀ seq seq', seq < seq' → reading seq ≤ reading seq'
  later : ∀ event ∈ db.taskEvents, event.timestamp ≤ reading event.seq

def TaskRecord.dates (row : TaskRecord) : Dates :=
  ⟨some row.createdAt, row.reservedAt, row.startedAt, row.killRequestedAt⟩

namespace Dates

/-- Later readings make no date earlier. -/
theorem noLater_restamp {reading : ℕ → Timestamp} {events : List EventRecord}
    (h : ∀ event ∈ events, event.timestamp ≤ reading event.seq) :
    (ofEvents events).NoLater (ofEvents (events.map (.restamp reading))) := by
  have hall : ∀ dates bound : Dates, dates.NoLater bound →
      (events.foldl (fun dates event => dates.apply event.eventType event.timestamp) dates).NoLater
        ((events.map (EventRecord.restamp reading)).foldl
          (fun dates event => dates.apply event.eventType event.timestamp) bound) := by
    induction events with
    | nil => exact fun _ _ hstart => hstart
    | cons event rest ih =>
      intro dates bound hstart
      have hrest := ih (fun later hlater => h later (List.mem_cons_of_mem _ hlater))
      exact hrest _ _ (hstart.apply event.eventType (h event List.mem_cons_self))
  exact hall {} {} (.refl _)

theorem apply_releaseBodies (row : TaskRecord) (now : Timestamp) (message : String)
    (dates : Dates) :
    (row.releaseBodies now message).foldl (fun dates body => dates.apply body.eventType
      body.timestamp) dates = dates := by
  unfold TaskRecord.releaseBodies
  split
  · cases row.reservation <;> rfl
  · rfl

theorem apply_completionEvent (status : TaskStatus) (now : Timestamp) (dates : Dates) :
    dates.apply (Db.completionEvent status) now = dates := by
  cases status <;> rfl

/-- The dates are one reading of the events. -/
def telling : Telling Dates where
  start := {}
  apply dates body := dates.apply body.eventType body.timestamp
  column := TaskRecord.dates
  inserted new now := by
    unfold NewTaskRecord.bodies
    split <;> rfl
  written w now row := by
    cases w with
    | markDispatched shimPid =>
      simp only [TaskWrite.effect, TaskRecord.setDispatched]
      split <;> rfl
    | releaseResources message =>
      simp only [TaskWrite.bodies, apply_releaseBodies, TaskWrite.effect]
      split <;> rfl
    | cancelAcceptedTask error =>
      simp only [TaskWrite.bodies, List.foldl_append, apply_releaseBodies, TaskWrite.effect,
        TaskRecord.setCancelled]
      split <;> rfl
    | completeTask update =>
      simp only [TaskWrite.bodies, List.foldl_append, apply_releaseBodies, TaskWrite.effect]
      exact apply_completionEvent update.status now row.dates
    | markRecovered =>
      simp only [TaskWrite.effect, TaskRecord.setRecovered]
      split <;> rfl
    | _ => rfl

theorem ofEvents_eq (events : List EventRecord) :
    ofEvents events = telling.ofContents (events.map EventRecord.body) := by
  rw [ofEvents, Telling.ofContents, List.foldl_map]
  rfl

end Dates

namespace TaskRecord

/-- The times in a row, its submission left out. -/
def times (row : TaskRecord) : List Timestamp :=
  row.updatedAt :: (row.startedAt.toList ++ row.finishedAt.toList ++ row.killRequestedAt.toList ++
    row.reservedAt.toList ++ row.releasedAt.toList ++
    (row.resultJson.map CancelResult.finishedAt).toList)

/-- No time of the row is before its submission or ahead of the clock. -/
def Within (row : TaskRecord) (clock : Timestamp) : Prop :=
  ∀ t ∈ row.times, row.createdAt ≤ t ∧ t ≤ clock

/-- The events agree with the row: its columns are no later than the events that tell
them, the events are in the order of their times, and a row that has ended has the
event of its end, which is no earlier than the end it records. -/
structure Told (row : TaskRecord) (events : List EventRecord) : Prop where
  dates : row.dates.NoLater (Dates.ofEvents events)
  ordered : (events.map EventRecord.timestamp).Pairwise (· ≤ ·)
  ended : row.status.isTerminal = true → ∃ finished, row.finishedAt = some finished ∧
    ∃ event ∈ events, event.eventType ∈ terminalEvent row.status ∧ finished ≤ event.timestamp

/-- The row still agrees with its events if they have later readings of the clock. -/
theorem Told.restamp {row : TaskRecord} {events : List EventRecord} (h : row.Told events)
    {reading : ℕ → Timestamp} (hordered : ∀ seq seq', seq < seq' → reading seq ≤ reading seq')
    (hseq : (events.map EventRecord.seq).Pairwise (· < ·))
    (hlater : ∀ event ∈ events, event.timestamp ≤ reading event.seq) :
    row.Told (events.map (.restamp reading)) where
  dates := h.dates.trans (Dates.noLater_restamp hlater)
  ordered := by
    rw [List.map_map, List.pairwise_map]
    exact (List.pairwise_map.mp hseq).imp (fun hlt => hordered _ _ hlt)
  ended hterminal := by
    obtain ⟨finished, hfinished, event, hevent, htype, hle⟩ := h.ended hterminal
    exact ⟨finished, hfinished, event.restamp reading, List.mem_map_of_mem hevent, htype,
      hle.trans (hlater event hevent)⟩

end TaskRecord

/-- The time that a write puts on the row. -/
def TaskWrite.stamp (w : TaskWrite) (now : Timestamp) : Timestamp :=
  match w with
  | completeTask update => update.finishedAt
  | _ => now

namespace TaskRecord

theorem mem_times {row : TaskRecord} {t : Timestamp} :
    t ∈ row.times ↔ t = row.updatedAt ∨ row.startedAt = some t ∨ row.finishedAt = some t ∨
      row.killRequestedAt = some t ∨ row.reservedAt = some t ∨ row.releasedAt = some t ∨
      ∃ result, row.resultJson = some result ∧ result.finishedAt = t := by
  simp [times]

theorem eq_of_releasedAtOr {row : TaskRecord} {now t : Timestamp}
    (h : row.releasedAtOr now = some t) : row.releasedAt = some t ∨ t = now := by
  unfold releasedAtOr at h
  split at h
  · exact .inr (Option.some.inj h).symm
  · exact .inl h

end TaskRecord

/-- A write puts one time on its row. -/
theorem TaskWrite.mem_times_effect {w : TaskWrite} {now : Timestamp} {row : TaskRecord}
    {t : Timestamp} (h : t ∈ (w.effect now row).times) : t ∈ row.times ∨ t = w.stamp now := by
  cases w with
  | markDispatched shimPid =>
    simp only [effect, TaskRecord.setDispatched] at h
    split at h
    · rw [TaskRecord.mem_times] at h ⊢
      exact h.elim .inr (fun h => .inl (.inr h))
    · exact .inl h
  | markStarted pid pgid scriptPath =>
    rw [TaskRecord.mem_times] at h ⊢
    simp only [effect, TaskRecord.setStarted, Option.some.injEq] at h
    rcases h with h | h | h
    · exact .inr h
    · exact .inr h.symm
    · exact .inl (.inr (.inr h))
  | reserveResources reservation message =>
    rw [TaskRecord.mem_times] at h ⊢
    simp only [effect, TaskRecord.setReserved, Option.some.injEq, reduceCtorEq, false_or] at h
    simp only [stamp]
    grind
  | releaseResources message =>
    simp only [effect] at h
    split at h
    · rw [TaskRecord.mem_times] at h ⊢
      simp only [TaskRecord.setReleased, Option.some.injEq] at h
      simp only [stamp]
      grind
    · exact .inl h
  | setCancelRequested =>
    rw [TaskRecord.mem_times] at h ⊢
    simp only [effect, TaskRecord.setCancelRequested, Option.some.injEq] at h
    simp only [stamp]
    grind
  | markTimeoutTriggered =>
    rw [TaskRecord.mem_times] at h ⊢
    exact h.elim .inr (fun h => .inl (.inr h))
  | cancelAcceptedTask error =>
    simp only [effect, TaskRecord.setCancelled] at h
    split at h
    · rw [TaskRecord.mem_times] at h ⊢
      simp only [Option.some.injEq, exists_eq_left'] at h
      have hreleased : row.releasedAtOr now = some t → row.releasedAt = some t ∨ t = now :=
        TaskRecord.eq_of_releasedAtOr
      simp only [stamp]
      grind
    · exact .inl h
  | completeTask update =>
    rw [TaskRecord.mem_times] at h ⊢
    simp only [effect, TaskRecord.setCompleted, Option.some.injEq, reduceCtorEq, false_and,
      exists_false, or_false] at h
    have hreleased : row.releasedAtOr update.finishedAt = some t →
        row.releasedAt = some t ∨ t = update.finishedAt := TaskRecord.eq_of_releasedAtOr
    simp only [stamp]
    grind
  | markRecovered =>
    simp only [effect, TaskRecord.setRecovered] at h
    split at h
    · rw [TaskRecord.mem_times] at h ⊢
      exact h.elim .inr (fun h => .inl (.inr h))
    · exact .inl h

theorem TaskRecord.Within.mono {row : TaskRecord} {c d : Timestamp} (h : row.Within c)
    (hle : c ≤ d) : row.Within d := fun t ht => ⟨(h t ht).1, (h t ht).2.trans hle⟩

theorem TaskRecord.Within.submitted {row : TaskRecord} {clock : Timestamp} (h : row.Within clock) :
    row.createdAt ≤ clock := by
  obtain ⟨hafter, hbefore⟩ := h row.updatedAt List.mem_cons_self
  exact hafter.trans hbefore

theorem TaskRecord.Within.effect {row : TaskRecord} {now : Timestamp} {w : TaskWrite}
    (h : row.Within now) (hstamp : row.createdAt ≤ w.stamp now ∧ w.stamp now ≤ now) :
    (w.effect now row).Within now := by
  intro t ht
  rw [(w.effect_sameSubmission now row).createdAt]
  rcases TaskWrite.mem_times_effect ht with hold | rfl
  · exact h t hold
  · exact hstamp

theorem TaskRecord.timestamp_of_releaseBodies {row : TaskRecord} {now : Timestamp}
    {message : String} {body : EventBody} (h : body ∈ row.releaseBodies now message) :
    body.timestamp = now := by
  unfold releaseBodies at h
  split at h
  · obtain ⟨reservation, _, rfl⟩ := List.mem_map.mp h
    rfl
  · cases h

theorem TaskWrite.timestamp_of_bodies {w : TaskWrite} {now : Timestamp} {row : TaskRecord}
    {body : EventBody} (h : body ∈ w.bodies now row) : body.timestamp = now := by
  cases w with
  | markDispatched shimPid => cases h
  | releaseResources message => exact TaskRecord.timestamp_of_releaseBodies h
  | cancelAcceptedTask error =>
    rcases List.mem_append.mp h with hrelease | hend
    · exact TaskRecord.timestamp_of_releaseBodies hrelease
    · rw [List.mem_singleton.mp hend]
  | completeTask update =>
    rcases List.mem_append.mp h with hrelease | hend
    · exact TaskRecord.timestamp_of_releaseBodies hrelease
    · rw [List.mem_singleton.mp hend]
  | _ => rw [List.mem_singleton.mp h]

theorem NewTaskRecord.timestamp_of_bodies {new : NewTaskRecord} {now : Timestamp}
    {body : EventBody} (h : body ∈ new.bodies now) : body.timestamp = now := by
  unfold bodies at h
  split at h
  · simp only [List.cons_append, List.nil_append, List.mem_cons, List.not_mem_nil, or_false] at h
    rcases h with rfl | rfl | rfl | rfl <;> rfl
  · simp only [List.append_nil, List.mem_cons, List.not_mem_nil, or_false] at h
    rcases h with rfl | rfl | rfl <;> rfl

/-- The events are in the order of their times, none of which is ahead of the clock. -/
def Chronological (clock : Timestamp) (bodies : List EventBody) : Prop :=
  (bodies.map EventBody.timestamp).Pairwise (· ≤ ·) ∧ ∀ body ∈ bodies, body.timestamp ≤ clock

theorem Chronological.append {now : Timestamp} {bodies new : List EventBody}
    (h : Chronological now bodies) (hnew : ∀ body ∈ new, body.timestamp = now) :
    Chronological now (bodies ++ new) := by
  refine ⟨?_, fun body hmem => ?_⟩
  · rw [List.map_append, List.pairwise_append]
    refine ⟨h.1, ?_, fun a ha b hb => ?_⟩
    · rw [List.pairwise_map]
      exact List.pairwise_of_forall_mem_list (fun a ha b hb =>
        le_of_eq ((hnew a ha).trans (hnew b hb).symm))
    · obtain ⟨body, hbody, rfl⟩ := List.mem_map.mp ha
      obtain ⟨body', hbody', rfl⟩ := List.mem_map.mp hb
      exact (h.2 body hbody).trans_eq (hnew body' hbody').symm
  · rcases List.mem_append.mp hmem with hold | hadded
    · exact h.2 body hold
    · exact le_of_eq (hnew body hadded)

/-- A write that ends a row, or ends it anew, stores the event of the end. -/
theorem TaskWrite.end_cases (w : TaskWrite) (now : Timestamp) (row : TaskRecord)
    (hterminal : (w.effect now row).status.isTerminal = true) :
    ((w.effect now row).status = row.status ∧ (w.effect now row).finishedAt = row.finishedAt) ∨
      ((w.effect now row).finishedAt = some (w.stamp now) ∧ ∃ body ∈ w.bodies now row,
        body.eventType ∈ terminalEvent (w.effect now row).status) := by
  cases w with
  | markDispatched shimPid =>
    simp only [effect, TaskRecord.setDispatched] at hterminal ⊢
    split at hterminal
    · cases hterminal
    · rename_i hother
      rw [if_neg hother]
      exact .inl ⟨rfl, rfl⟩
  | markStarted pid pgid scriptPath => cases hterminal
  | releaseResources message =>
    simp only [effect]
    split <;> exact .inl ⟨rfl, rfl⟩
  | cancelAcceptedTask error =>
    simp only [effect, TaskRecord.setCancelled]
    split
    · exact .inr ⟨rfl, ⟨.cancelled, now, some "task cancelled", none⟩,
        List.mem_append_right _ (List.mem_singleton_self _), rfl⟩
    · exact .inl ⟨rfl, rfl⟩
  | completeTask update =>
    refine .inr ⟨rfl, _, List.mem_append_right _ (List.mem_singleton_self _), ?_⟩
    have hended : update.status.isTerminal = true := update.terminal
    change Db.completionEvent update.status ∈ terminalEvent update.status
    cases hstatus : update.status <;> rw [hstatus] at hended <;> first | rfl | cases hended
  | markRecovered =>
    simp only [effect, TaskRecord.setRecovered]
    split <;> exact .inl ⟨rfl, rfl⟩
  | _ => exact .inl ⟨rfl, rfl⟩

/-- A row that has ended has the event of its end, which is no earlier. -/
def EndRecorded (row : TaskRecord) (bodies : List EventBody) : Prop :=
  row.status.isTerminal = true → ∃ finished, row.finishedAt = some finished ∧
    ∃ body ∈ bodies, body.eventType ∈ terminalEvent row.status ∧ finished ≤ body.timestamp

theorem EndRecorded.write {row : TaskRecord} {bodies : List EventBody}
    (h : EndRecorded row bodies) {w : TaskWrite} {now : Timestamp} (hstamp : w.stamp now ≤ now) :
    EndRecorded (w.effect now row) (bodies ++ w.bodies now row) := by
  intro hterminal
  rcases w.end_cases now row hterminal with ⟨hstatus, hfinished⟩ | ⟨hfinished, body, hmem, htype⟩
  · rw [hstatus] at hterminal ⊢
    obtain ⟨finished, hold, body, hmem, htype, hle⟩ := h hterminal
    exact ⟨finished, hfinished.trans hold, body, List.mem_append_left _ hmem, htype, hle⟩
  · refine ⟨w.stamp now, hfinished, body, List.mem_append_right _ hmem, htype, ?_⟩
    exact hstamp.trans_eq (TaskWrite.timestamp_of_bodies hmem).symm

/-- What the times of a row and of its events keep to. -/
structure TaskRecord.Timely (clock : Timestamp) (row : TaskRecord) (bodies : List EventBody) :
    Prop where
  within : row.Within clock
  chronological : Chronological clock bodies
  ended : EndRecorded row bodies

/-- The update that a shim is about to write is not from before the submission. -/
def Shim.StampedAfter (shim : Shim) (row : TaskRecord) : Prop :=
  ∀ update, shim.state = .completing update → row.createdAt ≤ update.finishedAt

/-- A shim decides on its update at the time of a step. -/
theorem NoteStep.finishedAt {graceMs : ℕ} {now : Timestamp} {db : Db}
    {committed : Option StoreCall} {shim shim' : Shim}
    (h : NoteStep graceMs now db shim committed shim') {update : CompletionUpdate}
    (hupdate : shim'.state = .completing update) :
    shim.state = .completing update ∨ update.finishedAt = now := by
  cases h with
  | none hstate =>
    rw [hupdate] at hstate
    cases hstate
  | cancelledEarly _ _ _ _ =>
    cases hupdate
    exact .inr rfl
  | launchFailed e _ _ =>
    cases hupdate
    exact .inr rfl
  | reaped usage _ => exact .inl hupdate
  | collected elapsed usage cancelled memoryPeakBytes oomKilled _ _ _ =>
    cases hupdate
    exact .inr rfl
  | _ => cases hupdate

namespace World

variable {svc : RuntimeService} {w w' : World} {e : Event}

theorem Established.imp {taskId : TaskId} {P Q : TaskRecord → Prop} (h : w.Established taskId P)
    (himp : ∀ row, w.db.tasks.find taskId = some row → P row → Q row) :
    w.Established taskId Q := by
  rcases h with ⟨row, hrow, hp⟩ | hgone
  · exact .inl ⟨row, hrow, himp row hrow hp⟩
  · exact .inr hgone

/-- Where a row of the next state and the contents of its events come from. -/
inductive ContentsOrigin (svc : RuntimeService) (w : World) (e : Event) (w' : World)
    (taskId : TaskId) (row' : TaskRecord) : Prop
  | inserted (new : NewTaskRecord) (hrow' : row' = new.toRow e.now)
      (hcontents : w'.db.contents taskId = new.bodies e.now)
  | kept (hrow : w.db.tasks.find taskId = some row')
      (hcontents : w'.db.contents taskId = w.db.contents taskId)
  | written (write : TaskWrite) (row : TaskRecord)
      (hcommitted : w.committed svc e = some (.write taskId write))
      (hrow : w.db.tasks.find taskId = some row) (hrow' : row' = write.effect e.now row)
      (hcontents : w'.db.contents taskId = w.db.contents taskId ++ write.bodies e.now row)

theorem step_contents (h : w.step svc e = some w') {taskId : TaskId} {row' : TaskRecord}
    (hrow' : w'.db.tasks.find taskId = some row') : ContentsOrigin svc w e w' taskId row' := by
  rcases step_db h with ⟨_, hdb⟩ | ⟨call, hcall, hexec⟩
  · rw [hdb] at hrow'
    exact .kept hrow' (by rw [hdb])
  cases call with
  | read =>
    have hsame : w.db = w'.db := Except.ok.inj hexec
    exact .kept (hsame ▸ hrow') (by rw [hsame])
  | insertTask new =>
    obtain ⟨hfree, hleaves⟩ := Db.insertTask_spec hexec
    have hkey : (new.toRow e.now).taskId = new.taskId := rfl
    have hadds := Db.adds_insertTask hexec taskId
    rw [hleaves.tasks, KeyedTable.Table.find_insert, hkey] at hrow'
    by_cases hid : taskId = new.taskId
    · subst hid
      have hempty : w.db.contents new.taskId = [] := Db.contents_of_absent w.db hfree
      rw [if_pos rfl] at hrow' hadds
      rw [hempty, List.nil_append] at hadds
      exact .inserted new (Option.some.inj hrow').symm hadds
    · rw [if_neg hid] at hrow' hadds
      exact .kept hrow' (hadds.trans (List.append_nil _))
  | deleteTask other =>
    rw [(Db.deleteTask_spec hexec).1, KeyedTable.Table.find_erase] at hrow'
    by_cases hid : taskId = other
    · rw [if_pos hid] at hrow'
      cases hrow'
    · rw [if_neg hid] at hrow'
      exact .kept hrow' (by rw [Db.contents_deleteTask hexec, if_neg hid])
  | write other write =>
    rw [Db.find_write hexec] at hrow'
    by_cases hid : taskId = other
    · subst hid
      rw [if_pos rfl] at hrow'
      obtain ⟨row, hrow, rfl⟩ := Option.map_eq_some_iff.mp hrow'
      exact .written write row hcall hrow rfl (by rw [Db.adds_write hexec hrow, if_pos rfl])
    · rw [if_neg hid] at hrow'
      refine .kept hrow' ?_
      cases hrow : w.db.tasks.find other with
      | none => rw [Db.adds_write_of_absent hexec hrow, if_neg hid, List.append_nil]
      | some row => rw [Db.adds_write hexec hrow, if_neg hid, List.append_nil]

/-- The cycle has made a reservation for the task that it starts a shim for. -/
theorem unspawned_of_dispatch {now : Timestamp} {outcome : SpawnOutcome} {db db' : Db}
    {committed : Option StoreCall} {d d' : Dispatcher}
    (h : DispatchStep svc now outcome db committed db' d d') {taskId : TaskId}
    (hunspawned : d'.unspawned = some taskId) :
    d.unspawned = some taskId ∨ ∃ row, db'.tasks.find taskId = some row := by
  cases h with
  | reserved hdecision hrun =>
    cases hunspawned
    obtain ⟨row, hrow⟩ := TaskWrite.find_of_run rfl hrun
    exact .inr ⟨_, by rw [Db.find_write hrun, if_pos rfl, hrow]; rfl⟩
  | notSpawned _ _ => exact .inl hunspawned
  | _ => cases hunspawned

/-- Nothing that is stored, or about to be, is out of time. -/
structure OnTime (clock : Timestamp) (w : World) : Prop where
  rows : ∀ taskId row, w.db.tasks.find taskId = some row →
    row.Timely clock (w.db.contents taskId)
  launching : ∀ d taskId, w.procs.server = .serving d → d.unspawned = some taskId →
    w.Established taskId (fun _ => True)
  shims : ∀ shim ∈ w.procs.shims, w.Established shim.taskId shim.StampedAfter
  completing : ∀ shim ∈ w.procs.shims, ∀ update, shim.state = .completing update →
    update.finishedAt ≤ clock

theorem OnTime.mono {c d : Timestamp} (hle : c ≤ d) (h : w.OnTime c) : w.OnTime d where
  rows taskId row hrow :=
    have htimely := h.rows taskId row hrow
    ⟨htimely.within.mono hle, ⟨htimely.chronological.1,
      fun body hmem => (htimely.chronological.2 body hmem).trans hle⟩, htimely.ended⟩
  launching := h.launching
  shims := h.shims
  completing shim hmem update hupdate := (h.completing shim hmem update hupdate).trans hle

/-- A write is stamped between the submission of its task and the time of the step. -/
theorem OnTime.stamp (hinv : w.OnTime e.now) (h : w.step svc e = some w') {taskId : TaskId}
    {write : TaskWrite} (hcommitted : w.committed svc e = some (.write taskId write))
    {row : TaskRecord} (hrow : w.db.tasks.find taskId = some row) :
    row.createdAt ≤ write.stamp e.now ∧ write.stamp e.now ≤ e.now := by
  have hnow : row.createdAt ≤ e.now ∧ e.now ≤ e.now :=
    ⟨(hinv.rows taskId row hrow).within.submitted, le_refl _⟩
  cases step_write h hcommitted with
  | request _ hcall => cases hcall <;> exact hnow
  | dispatch _ _ _ _ _ hwrite _ => cases hwrite <;> exact hnow
  | recover _ _ _ _ _ hwrite _ => cases hwrite <;> exact hnow
  | shim i choice shim shim' _ hshim hid hwrite _ =>
    have hmem := List.mem_of_getElem? hshim
    cases hwrite with
    | started _ _ => exact hnow
    | timedOut _ _ => exact hnow
    | completed update hstate =>
      subst hid
      exact ⟨(hinv.shims shim hmem).of_find hrow update hstate,
        hinv.completing shim hmem update hstate⟩

theorem timely_of_toRow (new : NewTaskRecord) (now : Timestamp) :
    (new.toRow now).Timely now (new.bodies now) where
  within t ht := by
    rw [TaskRecord.mem_times] at ht
    simp only [NewTaskRecord.toRow, reduceCtorEq, false_and, exists_false, or_false] at ht
    rw [ht]
    exact ⟨le_refl _, le_refl _⟩
  chronological := by
    have hempty : Chronological now [] := ⟨.nil, fun _ hmem => by cases hmem⟩
    exact hempty.append (fun _ => NewTaskRecord.timestamp_of_bodies)
  ended hterminal := by cases hterminal

theorem Established.stampedAfter {taskId : TaskId} {shim : Shim}
    (h : w.Established taskId shim.StampedAfter) (hnew : w.NoResubmission svc e)
    (hstep : w.step svc e = some w') : w'.Established taskId shim.StampedAfter := by
  refine h.step (fun write now row hafter update hupdate => ?_) hnew hstep
  rw [(write.effect_sameSubmission now row).createdAt]
  exact hafter update hupdate

/-- A step that is taken no earlier than what is stored keeps everything in time. -/
theorem OnTime.step (hinv : w.OnTime e.now) (hnew : w.NoResubmission svc e)
    (h : w.step svc e = some w') : w'.OnTime e.now where
  rows taskId row' hrow' := by
    cases step_contents h hrow' with
    | inserted new hrow hcontents =>
      rw [hrow, hcontents]
      exact timely_of_toRow new e.now
    | kept hrow hcontents =>
      rw [hcontents]
      exact hinv.rows taskId row' hrow
    | written write row hcommitted hrow hafter hcontents =>
      have htimely := hinv.rows taskId row hrow
      have hstamp := hinv.stamp h hcommitted hrow
      rw [hafter, hcontents]
      exact ⟨htimely.within.effect hstamp,
        htimely.chronological.append (fun _ => TaskWrite.timestamp_of_bodies),
        htimely.ended.write hstamp.2⟩
  launching d' taskId hserver' hunspawned := by
    have hkept : ∀ d, w.procs.server = .serving d → d.unspawned = some taskId →
        w'.Established taskId (fun _ => True) := by
      intro d hserver hbefore
      exact (hinv.launching d taskId hserver hbefore).step (fun _ _ _ _ => trivial) hnew h
    cases step_cases h with
    | request _ _ hserver hafter _ _ =>
      exact hkept d' (hserver.trans (hafter.symm.trans hserver')) hunspawned
    | gc _ _ _ hserver hafter _ _ =>
      exact hkept d' (hserver.trans (hafter.symm.trans hserver')) hunspawned
    | dispatch outcome d d₂ _ hserver _ hmove hprocs =>
      rw [hprocs, Procs.afterDispatch_server, ServerState.serving.injEq] at hserver'
      rw [← hserver'] at hunspawned
      rcases unspawned_of_dispatch hmove hunspawned with hbefore | ⟨row, hrow⟩
      · exact hkept d hserver hbefore
      · exact .inl ⟨row, hrow, trivial⟩
    | recover _ r r' _ _ _ hprocs =>
      rw [hprocs] at hserver'
      unfold Procs.afterRecovery at hserver'
      split at hserver' <;> cases hserver'
      cases hunspawned
    | shim _ _ _ _ _ _ _ _ hprocs =>
      rw [hprocs] at hserver'
      exact hkept d' hserver' hunspawned
    | crash _ _ _ hprocs =>
      rw [hprocs] at hserver'
      cases hserver'
    | restart _ _ _ _ hprocs =>
      rw [hprocs] at hserver'
      cases hserver'
  shims shim' hmem' := by
    have hold : ∀ shim ∈ w.procs.shims, w'.Established shim.taskId shim.StampedAfter :=
      fun shim hmem => (hinv.shims shim hmem).stampedAfter hnew h
    cases step_shims h with
    | same hshims _ => exact hold shim' (hshims ▸ hmem')
    | spawned d outcome new _ hserver hspawns hshims =>
      rw [hshims, List.mem_append, List.mem_singleton] at hmem'
      rcases hmem' with hmem | rfl
      · exact hold shim' hmem
      · have hlaunching := hinv.launching d new.1 hserver (Dispatcher.unspawned_of_spawns hspawns)
        have hkept : w'.Established new.1 (fun _ => True) :=
          hlaunching.step (fun _ _ _ _ => trivial) hnew h
        exact hkept.imp (fun _ _ _ update hupdate => by cases hupdate)
    | moved i choice shim moved haction hshim _ hmove hshims =>
      obtain ⟨hlt, _⟩ := List.getElem?_eq_some_iff.mp hshim
      have hmoved : w'.procs.shims[i]? = some moved := by simp [hshims, hlt]
      have hnote := step_note h haction hshim hmoved
      rw [hshims] at hmem'
      rcases List.mem_or_eq_of_mem_set hmem' with hmem | rfl
      · exact hold shim' hmem
      · have hbefore : w.Established shim.taskId shim'.StampedAfter := by
          refine (hinv.shims shim (List.mem_of_getElem? hshim)).imp
            (fun row hrow hafter update hupdate => ?_)
          rcases hnote.finishedAt hupdate with hdecided | hnow
          · exact hafter update hdecided
          · exact hnow ▸ (hinv.rows shim.taskId row hrow).within.submitted
        rw [hmove.taskId]
        exact hbefore.stampedAfter hnew h
  completing shim' hmem' update hupdate := by
    rcases step_notes h hmem' with hold | hnew | ⟨i, choice, shim, _, hshim, _, _, hnote⟩
    · exact hinv.completing shim' hold update hupdate
    · rw [hupdate] at hnew
      cases hnew
    · rcases hnote.finishedAt hupdate with hdecided | hnow
      · exact hinv.completing shim (List.mem_of_getElem? hshim) update hdecided
      · exact le_of_eq hnow

theorem onTime_init (clock : Timestamp) : World.init.OnTime clock where
  rows _ _ hrow := by cases hrow
  launching _ _ hserver hunspawned := by
    cases hserver
    cases hunspawned
  shims _ hmem := by cases hmem
  completing _ hmem := by cases hmem

theorem onTime_of_run {trace : List (World × Event)} {last : World}
    (hrun : Run svc .init trace last) (hclock : (trace.map fun x => x.2.now).Pairwise (· ≤ ·))
    (hnew : ∀ x ∈ trace, x.1.NoResubmission svc x.2) {clock : Timestamp}
    (hbound : ∀ x ∈ trace, x.2.now ≤ clock) : last.OnTime clock :=
  hrun.invariant_of_clock (I := fun clock w => w.OnTime clock) onTime_init
    (fun _ _ _ hle h => h.mono hle) (fun _ _ _ hinv hnew h => hinv.step hnew h) hclock hnew clock
    hbound

/-- In a run whose clock does not go back and which does not submit a deleted id again,
no time of a row is before its submission or ahead of the clock, and its events agree
with it, also if the clock was read again for each of them. -/
theorem timeline_of_run {trace : List (World × Event)} {last : World}
    (hrun : Run svc .init trace last) (hclock : (trace.map fun x => x.2.now).Pairwise (· ≤ ·))
    (hnew : ∀ x ∈ trace, x.1.NoResubmission svc x.2) {clock : Timestamp}
    (hbound : ∀ x ∈ trace, x.2.now ≤ clock) {taskId : TaskId} {row : TaskRecord}
    (hrow : last.db.tasks.find taskId = some row) :
    row.Told (last.db.listEvents taskId) ∧ row.Within clock ∧
      ∀ reading, last.db.ReadsAgain reading →
        row.Told ((last.db.listEvents taskId).map (.restamp reading)) := by
  obtain ⟨hwithin, ⟨hordered, _⟩, hended⟩ :=
    (onTime_of_run hrun hclock hnew hbound).rows taskId row hrow
  have htold : row.Told (last.db.listEvents taskId) := by
    refine ⟨?_, ?_, fun hterminal => ?_⟩
    · have hdates : Dates.ofEvents (last.db.listEvents taskId) = row.dates := by
        rw [Dates.ofEvents_eq]
        exact Dates.telling.told_of_run hrun taskId row hrow
      rw [hdates]
      exact .refl _
    · rw [Db.contents, List.map_map] at hordered
      exact hordered
    · obtain ⟨finished, hfinished, body, hmem, htype, hle⟩ := hended hterminal
      obtain ⟨event, hevent, rfl⟩ := List.mem_map.mp hmem
      exact ⟨finished, hfinished, event, hevent, htype, hle⟩
  refine ⟨htold, hwithin, fun reading hreading => htold.restamp hreading.ordered ?_ ?_⟩
  · exact (numbered_of_run hrun).listEvents taskId
  · exact fun event hevent => hreading.later event (List.mem_of_mem_filter hevent)

/-- A task is killed after its shim has decided on the completion. -/
private def lateKill : List Event :=
  let kill : List Action := [.receiveKill "a" none, .kill 0 none, .kill 0 none]
  let actions := submitActions 0 (commandRequest "a") ++ dispatchActions 7 ++
    (shimActions 0 8).take 7 ++ kill ++ (shimActions 0 8).drop 7
  actions.mapIdx (fun i action => { action, now := i })

/-- The columns of that task have no order among themselves, and its events are stamped
later than they. -/
theorem timeline_of_lateKill :
    ∃ trace last row, Run (smallService ⟨1, none, none⟩) init trace last ∧
      last.db.tasks.find "a" = some row ∧
      (row.status = .success ∧ row.finishedAt = some 15 ∧ row.killRequestedAt = some 18) ∧
      row.Told (last.db.listEvents "a") ∧ row.Within 20 ∧
      last.db.ReadsAgain (fun seq => 20 + seq) ∧
      row.Told ((last.db.listEvents "a").map (.restamp fun seq => 20 + seq)) := by
  have hexec : (execute (smallService ⟨1, none, none⟩)
      (submitsFresh (smallService ⟨1, none, none⟩)) lateKill).any
      (fun w => w.db.taskEvents.all (fun event => decide (event.timestamp ≤ 20)) &&
        (w.db.tasks.find "a").any (fun row => decide (row.status = .success ∧
          row.finishedAt = some 15 ∧ row.killRequestedAt = some 18))) = true := by
    decide +kernel
  have hordered : (lateKill.map Event.now).Pairwise (· ≤ ·) := by decide
  obtain ⟨trace, last, hrun, hlabels, hfresh, htest⟩ := Runs.exists_run_of_exec hexec
  obtain ⟨hstamps, hfound⟩ := Bool.and_eq_true_iff.mp htest
  obtain ⟨row, hrow, hcolumns⟩ := (Option.any_eq_true _ _).mp hfound
  have hreads : last.db.ReadsAgain (fun seq => 20 + seq) := by
    refine ⟨fun seq seq' hlt => by simpa using hlt.le, fun event hevent => ?_⟩
    have hstamp := of_decide_eq_true (List.all_eq_true.mp hstamps event hevent)
    exact hstamp.trans (by simp)
  have hclock : (trace.map fun x => x.2.now).Pairwise (· ≤ ·) := by
    rw [← hlabels, List.map_map] at hordered
    exact hordered
  have hbound : ∀ x ∈ trace, x.2.now ≤ 20 :=
    Runs.forall_of_labels (P := fun e => e.now ≤ 20) hlabels (by decide)
  obtain ⟨htold, hwithin, hreadings⟩ :=
    timeline_of_run hrun hclock (fun x hx => noResubmission_of_fresh (hfresh x hx)) hbound hrow
  exact ⟨trace, last, row, hrun, hrow, of_decide_eq_true hcolumns, htold, hwithin, hreads,
    hreadings _ hreads⟩

end World

end ExecgoRuntime
