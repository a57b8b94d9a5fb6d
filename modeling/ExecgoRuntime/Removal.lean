import ExecgoRuntime.Collection
import ExecgoRuntime.TaskPaths

/-!
What garbage collection takes from the disk. `remove_dir_all` removes the directory
of a task with all that lies below it, or a part of that when it fails half way. The
directory of a task called `.` is that of all tasks, and the one of a task called
`..` is the data directory, which holds the database as well. No other id reaches
anything but what belongs to the task.
-/
namespace ExecgoRuntime

open LexicalPath

/-- The task whose directory and row the next step removes. -/
def Gc.victim : Gc → Option TaskRecord
  | .deleting (task :: _) => some task
  | _ => none

theorem Gc.mem_tasks_of_victim {gc : Gc} {task : TaskRecord} (h : gc.victim = some task) :
    task ∈ gc.tasks := by
  unfold victim at h
  split at h
  · cases h
    exact List.mem_cons_self ..
  · cases h

/-- The path is that of the task's directory or leads below it. -/
def TaskRecord.Sweeps (task : TaskRecord) (path : String) : Prop :=
  (resolvePath path).Within (resolvePath task.taskDir)

/-- An id that passes validation and is the name of a directory of its own. -/
structure PlainId (taskId : TaskId) : Prop where
  accepted : AcceptedId taskId
  not_dot : taskId ≠ "."
  not_dots : taskId ≠ ".."

/-- The database and the files that the write-ahead log adds to it. -/
def databaseFiles (dataDir : String) : List String :=
  ["runtime.db", "runtime.db-wal", "runtime.db-shm"].map (joinPath dataDir)

section Directories

variable {svc : RuntimeService} {dataDir : String}

/-- The way from the data directory to the directory of a task. -/
def taskPlace (taskId : TaskId) : List Name :=
  if taskId = "." then ["tasks".toList]
  else if taskId = ".." then []
  else ["tasks".toList, taskId.toList]

theorem resolvePath_taskDir (hdir : svc.settings.tasksDir = joinPath dataDir "tasks")
    {taskId : TaskId} (h : AcceptedId taskId) :
    resolvePath (svc.taskDir taskId) = (resolvePath dataDir).descend (taskPlace taskId) := by
  have htasks : resolvePath svc.settings.tasksDir = (resolvePath dataDir).child "tasks".toList := by
    rw [hdir]
    exact resolvePath_join_name dataDir "tasks" (by decide) rfl
  unfold RuntimeService.taskDir taskPlace
  rw [h.resolve_join, htasks]
  split
  · rw [Location.descend_cons, Location.descend_nil]
  split
  · rw [Location.parent_child, Location.descend_nil]
  · rw [Location.descend_cons, Location.descend_cons, Location.descend_nil]

/-- The directory of all tasks holds all but the data directory, which holds all. -/
theorem taskPlace_prefix_iff (a b : TaskId) :
    taskPlace a <+: taskPlace b ↔ b = a ∨ a = ".." ∨ (a = "." ∧ b ≠ "..") := by
  have hname : a.toList = b.toList ↔ b = a := String.toList_inj.trans eq_comm
  unfold taskPlace
  by_cases hdots : a = ".."
  · subst hdots
    simp
  by_cases hdot : a = "."
  · subst hdot
    by_cases hdots' : b = ".."
    · subst hdots'
      simp
    · rw [if_pos rfl, if_neg hdots']
      split <;> simp [hdots']
  · rw [if_neg hdot, if_neg hdots]
    by_cases hdot' : b = "."
    · subst hdot'
      simp [hdot, hdots, Ne.symm hdot]
    by_cases hdots' : b = ".."
    · subst hdots'
      simp [hdot, hdots, Ne.symm hdots]
    · rw [if_neg hdot', if_neg hdots']
      simp [hdot, hdots, hname, List.cons_prefix_cons]

/-- Whose directories go when the one of a task is removed. -/
theorem sweeps_taskDir_iff (hdir : svc.settings.tasksDir = joinPath dataDir "tasks")
    {task row : TaskRecord} (htask : task.taskDir = svc.taskDir task.taskId)
    (hrow : row.taskDir = svc.taskDir row.taskId) (hid : AcceptedId task.taskId)
    (hid' : AcceptedId row.taskId) :
    task.Sweeps row.taskDir ↔
      row.taskId = task.taskId ∨ task.taskId = ".." ∨ (task.taskId = "." ∧ row.taskId ≠ "..") := by
  unfold TaskRecord.Sweeps
  rw [htask, hrow, resolvePath_taskDir hdir hid, resolvePath_taskDir hdir hid',
    Location.descend_within_descend_iff, taskPlace_prefix_iff]

/-- The database is out of reach of a removal. -/
theorem not_sweeps_database (hdir : svc.settings.tasksDir = joinPath dataDir "tasks")
    {task : TaskRecord} (htask : task.taskDir = svc.taskDir task.taskId)
    (hid : PlainId task.taskId) {file : String} (hfile : file ∈ databaseFiles dataDir) :
    ¬ task.Sweeps file := by
  obtain ⟨name, hname, rfl⟩ := List.mem_map.mp hfile
  have hplace : resolvePath (joinPath dataDir name) =
      (resolvePath dataDir).descend [name.toList] := by
    rw [Location.descend_cons, Location.descend_nil]
    simp only [List.mem_cons, List.not_mem_nil, or_false] at hname
    rcases hname with rfl | rfl | rfl <;> exact resolvePath_join_name dataDir _ (by decide) rfl
  intro hsweeps
  unfold TaskRecord.Sweeps at hsweeps
  rw [htask, resolvePath_taskDir hdir hid.accepted, hplace,
    Location.descend_within_descend_iff, taskPlace, if_neg hid.not_dot, if_neg hid.not_dots]
    at hsweeps
  simpa using hsweeps.length_le

end Directories

end ExecgoRuntime
