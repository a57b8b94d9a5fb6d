import ExecgoRuntime.System

/-!
Properties of single tasks along runs of the system. A property relates a row
to its event stream. What a step does to one task is decided by the write it
commits, so a run keeps the property of every task exactly when every committed
write is one that keeps it on its row; the actors do not matter.
-/
namespace ExecgoRuntime

open KeyedTable

namespace Db

/-- The property holds of every row and its stream. -/
def EachTask (J : TaskRecord → List EventType → Prop) (db : Db) : Prop :=
  ∀ taskId row, db.tasks.find taskId = some row → J row (db.stream taskId)

theorem eachTask_empty (J : TaskRecord → List EventType → Prop) : EachTask J .empty := by
  intro taskId row h
  simp [Db.empty] at h

theorem find_write {db db' : Db} {now : Timestamp} {taskId : TaskId} {w : TaskWrite}
    (h : w.run now taskId db = .ok db') (j : TaskId) :
    db'.tasks.find j =
      if j = taskId then (db.tasks.find taskId).map (w.effect now) else db.tasks.find j := by
  rw [(TaskWrite.run_spec h).tasks, Table.find_update]

theorem stream_write_self {db db' : Db} {now : Timestamp} {taskId : TaskId} {w : TaskWrite}
    {row : TaskRecord} (h : w.run now taskId db = .ok db')
    (hrow : db.tasks.find taskId = some row) :
    db'.stream taskId = db.stream taskId ++ w.emits row := by
  rw [(TaskWrite.run_spec h).stream, if_pos rfl, hrow]
  rfl

theorem stream_write_of_ne {db db' : Db} {now : Timestamp} {taskId j : TaskId} {w : TaskWrite}
    (h : w.run now taskId db = .ok db') (hj : j ≠ taskId) : db'.stream j = db.stream j := by
  rw [(TaskWrite.run_spec h).stream, if_neg hj, List.append_nil]

section EachTask

variable {J : TaskRecord → List EventType → Prop}

/-- A write keeps the property of all tasks exactly when it does so on its own row. -/
theorem eachTask_write_iff {db db' : Db} {now : Timestamp} {taskId : TaskId} {w : TaskWrite}
    (hall : EachTask J db) (h : w.run now taskId db = .ok db') :
    EachTask J db' ↔ ∀ row, db.tasks.find taskId = some row →
      J (w.effect now row) (db.stream taskId ++ w.emits row) := by
  constructor
  · intro hall' row hrow
    have hfind : db'.tasks.find taskId = some (w.effect now row) := by
      rw [find_write h, if_pos rfl, hrow]
      rfl
    rw [← stream_write_self h hrow]
    exact hall' taskId _ hfind
  · intro hrow j row' hfind
    by_cases hj : j = taskId
    · subst hj
      rw [find_write h, if_pos rfl] at hfind
      obtain ⟨row, hold, rfl⟩ := Option.map_eq_some_iff.mp hfind
      rw [stream_write_self h hold]
      exact hrow row hold
    · rw [find_write h, if_neg hj] at hfind
      rw [stream_write_of_ne h hj]
      exact hall j row' hfind

theorem eachTask_insert (hnew : ∀ new now, J (NewTaskRecord.toRow new now) (insertEvents new))
    {db db' : Db} {now : Timestamp} {new : NewTaskRecord} (hall : EachTask J db)
    (h : db.insertTask now new = .ok db') : EachTask J db' := by
  obtain ⟨hfree, hleaves⟩ := insertTask_spec h
  intro j row' hfind
  have hkey : (new.toRow now).taskId = new.taskId := rfl
  rw [hleaves.tasks, Table.find_insert, hkey] at hfind
  rw [hleaves.stream]
  by_cases hj : j = new.taskId
  · subst hj
    rw [if_pos rfl] at hfind
    cases hfind
    have hempty : db.stream new.taskId = [] := stream_of_absent db hfree
    rw [if_pos rfl, hempty, List.nil_append]
    exact hnew new now
  · rw [if_neg hj] at hfind
    rw [if_neg hj, List.append_nil]
    exact hall j row' hfind

theorem eachTask_delete {db db' : Db} {taskId : TaskId} (hall : EachTask J db)
    (h : db.deleteTask taskId = .ok db') : EachTask J db' := by
  obtain ⟨htasks, hstream⟩ := deleteTask_spec h
  intro j row hfind
  rw [htasks, Table.find_erase] at hfind
  by_cases hj : j = taskId
  · rw [if_pos hj] at hfind
    cases hfind
  · rw [if_neg hj] at hfind
    rw [hstream, if_neg hj]
    exact hall j row hfind

end EachTask

end Db

namespace World

/-- Every write the step commits is allowed on the row it hits. -/
def Writes (allowed : TaskWrite → TaskRecord → Prop) (svc : RuntimeService) (w : World)
    (e : Event) : Prop :=
  ∀ taskId write row, w.committed svc e = some (.write taskId write) →
    w.db.tasks.find taskId = some row → allowed write row

section EachTask

variable {svc : RuntimeService} {J : TaskRecord → List EventType → Prop}
  {allowed : TaskWrite → TaskRecord → Prop}

/-- The step rule: `hwrite` is needed only for the writes that the step commits. -/
theorem step_eachTask_iff {w w' : World} {e : Event}
    (hnew : ∀ new now, J (NewTaskRecord.toRow new now) (Db.insertEvents new))
    (hwrite : ∀ taskId write row, w.committed svc e = some (.write taskId write) →
      w.db.tasks.find taskId = some row → J row (w.db.stream taskId) →
      (J (write.effect e.now row) (w.db.stream taskId ++ write.emits row) ↔ allowed write row))
    (hall : w.db.EachTask J) (h : w.step svc e = some w') :
    w'.db.EachTask J ↔ w.Writes allowed svc e := by
  rcases step_db h with ⟨hnone, hdb⟩ | ⟨call, hcall, hexec⟩
  · rw [hdb]
    constructor
    · intro _ taskId write row hcommitted
      rw [hnone] at hcommitted
      cases hcommitted
    · intro _
      exact hall
  · have hother : (∀ taskId write, call ≠ .write taskId write) → w'.db.EachTask J →
        (w'.db.EachTask J ↔ w.Writes allowed svc e) := by
      intro hne hkept
      refine iff_of_true hkept ?_
      intro taskId write row hcommitted
      rw [hcall] at hcommitted
      exact absurd (Option.some.inj hcommitted) (hne taskId write)
    cases call with
    | read =>
      have hsame : w.db = w'.db := Except.ok.inj hexec
      exact hother (by simp) (hsame ▸ hall)
    | insertTask new => exact hother (by simp) (Db.eachTask_insert hnew hall hexec)
    | deleteTask taskId => exact hother (by simp) (Db.eachTask_delete hall hexec)
    | write taskId write =>
      rw [Db.eachTask_write_iff hall hexec]
      constructor
      · intro hrow taskId' write' row hcommitted hfind
        rw [hcall] at hcommitted
        cases hcommitted
        exact (hwrite taskId write row hcall hfind (hall taskId row hfind)).mp (hrow row hfind)
      · intro hwrites row hfind
        exact (hwrite taskId write row hcall hfind (hall taskId row hfind)).mpr
          (hwrites taskId write row hcall hfind)

/-- The run rule, for a property whose steps need nothing but the row. -/
theorem run_eachTask_iff
    (hnew : ∀ new now, J (NewTaskRecord.toRow new now) (Db.insertEvents new))
    (hwrite : ∀ write now row events, J row events →
      (J (TaskWrite.effect write now row) (events ++ write.emits row) ↔ allowed write row))
    {trace : List (World × Event)} {last : World} (h : Run svc init trace last) :
    (∀ s ∈ Runs.visited trace last, s.db.EachTask J) ↔
      ∀ x ∈ trace, x.1.Writes allowed svc x.2 := by
  refine h.invariant_iff (I := fun s => s.db.EachTask J) (Db.eachTask_empty J) ?_
  intro w e w' hall hstep
  exact step_eachTask_iff hnew (fun _ write row _ _ hJ => hwrite write e.now row _ hJ) hall hstep

end EachTask

end World

end ExecgoRuntime
