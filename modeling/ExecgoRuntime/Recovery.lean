import ExecgoRuntime.Service

/-!
The recovery pass (`recover`), which runs before the server serves. It reads
the non-terminal rows once and treats them one by one: the reservation of an
accepted row is released as an orphan, a running row is kept if its recorded
shim still exists and declared lost otherwise. An error stops the server.
-/
namespace ExecgoRuntime

/-- The points of the pass: `recovering` has rebuilt a reservation and is about
to record the recovery, `persisting` has declared a task lost. -/
inductive Recovery
  | listing
  | scanning (tasks : List TaskRecord)
  | recovering (taskId : TaskId) (tasks : List TaskRecord)
  | persisting (taskId : TaskId) (tasks : List TaskRecord)
  | finished
  | failed (error : AppError)

namespace Recovery

/-- `process_exists` on the recorded shim. -/
def shimAlive (alive : ℕ → Bool) (task : TaskRecord) : Bool := task.shimPid.any alive

/-- What the pass does with one row of its list. -/
def handle (now : Timestamp) (alive : ℕ → Bool) (task : TaskRecord) (rest : List TaskRecord) :
    Move Recovery :=
  match task.status with
  | .accepted =>
    if task.hasActiveReservation then
      .write task.taskId
        (.releaseResources "orphan accepted-task reservation released during recovery")
        (.scanning rest) .failed
    else .silent (.scanning rest)
  | .running =>
    if shimAlive alive task then
      if task.hasActiveReservation then
        .write task.taskId .markRecovered (.scanning rest) .failed
      else
        .write task.taskId
          (.reserveResources (.fromLimits task.limits)
            "resource reservation reconstructed during recovery")
          (.recovering task.taskId rest) .failed
    else
      .write task.taskId (.completeTask (recoveryLost now)) (.persisting task.taskId rest) .failed
  | .success | .failed | .cancelled => .silent (.scanning rest)

/-- `alive` answers `process_exists`. -/
def move (now : Timestamp) (alive : ℕ → Bool) (recovery : Recovery) : Option (Move Recovery) :=
  match recovery with
  | .listing => some (.query (fun db => .ok db.listNonTerminal) .scanning .failed)
  | .scanning [] => some (.silent .finished)
  | .scanning (task :: rest) => some (handle now alive task rest)
  | .recovering taskId rest => some (.write taskId .markRecovered (.scanning rest) .failed)
  | .persisting taskId rest =>
    some (.query (fun db => db.getTask taskId) (fun _ => .scanning rest) .failed)
  | .finished | .failed _ => none

end Recovery

end ExecgoRuntime
