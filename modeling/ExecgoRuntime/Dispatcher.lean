import ExecgoRuntime.Service

/-!
The dispatch cycle (`dispatch_once_sync`). Admission is decided against two
totals that the cycle builds from one snapshot of the active reservations and
then updates itself, while other actors release reservations behind its back.
Every repository call and every process spawn is a step of its own. An error
ends the cycle.
-/
namespace ExecgoRuntime

/-- `current_reserved` and `tenant_reserved`. -/
structure CycleTotals where
  currentReserved : ResourceCapacity
  tenantReserved : TenantMap

namespace CycleTotals

def tenantTotals (ledger : ResourceLedger) (active : List TaskRecord) : TenantMap :=
  active.foldl
    (fun reserved task =>
      match task.reservation, task.tenant with
      | some reservation, some tenant => ledger.chargeTenant reserved tenant reservation
      | _, _ => reserved)
    ∅

def ofActive (ledger : ResourceLedger) (active : List TaskRecord) : CycleTotals where
  currentReserved := ledger.reservedCapacity (active.filterMap TaskRecord.reservation)
  tenantReserved := tenantTotals ledger active

/-- The entry of a tenant, or an empty one; a task without tenant looks up `""`. -/
def tenantLevel (ledger : ResourceLedger) (totals : CycleTotals) (tenant : Option String) :
    ResourceCapacity :=
  (tenant.bind (fun name => totals.tenantReserved.lookup name)).getD
    (ledger.emptyTenantCap (tenant.getD ""))

/-- Both totals after a successful `reserve_resources`. -/
def charge (ledger : ResourceLedger) (totals : CycleTotals) (tenant : Option String)
    (reservation : TaskResourceReservation) : CycleTotals where
  currentReserved := addReservation totals.currentReserved reservation
  tenantReserved :=
    match tenant with
    | some name => ledger.chargeTenant totals.tenantReserved name reservation
    | none => totals.tenantReserved

/-- After a failed spawn only the total of the whole runtime is lowered. -/
def refund (totals : CycleTotals) (reservation : TaskResourceReservation) : CycleTotals where
  currentReserved := subtractReservation totals.currentReserved reservation
  tenantReserved := totals.tenantReserved

end CycleTotals

/-- The reservation the dispatcher asks for. -/
def TaskRecord.requestedReservation (task : TaskRecord) : TaskResourceReservation :=
  task.reservation.getD (.fromLimits task.limits)

inductive Decision
  | cancel
  | skip
  | reserve (reservation : TaskResourceReservation)

/-- What the cycle does with one accepted task of its list. -/
def consider (ledger : ResourceLedger) (totals : CycleTotals) (task : TaskRecord) : Decision :=
  if task.killRequested then .cancel
  else if task.hasActiveReservation then .skip
  else if !ledger.canReserve totals.currentReserved task.requestedReservation then .skip
  else if !ledger.canReserveForTenant task.tenant (totals.tenantLevel ledger task.tenant)
      task.requestedReservation then .skip
  else .reserve task.requestedReservation

theorem consider_eq_reserve {ledger : ResourceLedger} {totals : CycleTotals} {task : TaskRecord}
    {reservation : TaskResourceReservation}
    (h : consider ledger totals task = .reserve reservation) :
    reservation = task.requestedReservation ∧ task.hasActiveReservation = false ∧
      ledger.canReserve totals.currentReserved reservation = true ∧
      ledger.canReserveForTenant task.tenant (totals.tenantLevel ledger task.tenant) reservation =
        true := by
  unfold consider at h
  split at h
  · cases h
  split at h
  · cases h
  split at h
  · cases h
  split at h
  · cases h
  cases h
  simp_all

/-- What comes of starting the shim. -/
inductive SpawnOutcome
  | spawned (pid : ℕ)
  | spawnFailed (message : String)
  | noExecutable (message : String)

/-- The points of a cycle: `launching` has reserved and is about to spawn,
`dispatching` has spawned and is about to record the pid, `failing` is about to
fail the task whose shim did not start. -/
inductive Dispatcher
  | idle
  | listing (totals : CycleTotals)
  | scanning (totals : CycleTotals) (tasks : List TaskRecord)
  | launching (totals : CycleTotals) (task : TaskRecord) (reservation : TaskResourceReservation)
      (tasks : List TaskRecord)
  | dispatching (totals : CycleTotals) (task : TaskRecord) (shimPid : ℕ) (tasks : List TaskRecord)
  | failing (totals : CycleTotals) (task : TaskRecord) (reservation : TaskResourceReservation)
      (message : String) (tasks : List TaskRecord)
  | persisting (totals : CycleTotals) (taskId : TaskId) (tasks : List TaskRecord)

/-- The update for a task whose shim could not be spawned. -/
def shimSpawnFailed (now : Timestamp) (message : String) : CompletionUpdate where
  status := .failed
  terminal := TaskStatus.isTerminal_failed
  finishedAt := now
  durationMs := some 0
  error := some ⟨.launchFailed, "failed to spawn shim: " ++ message⟩

namespace Dispatcher

def abandon (_ : AppError) : Dispatcher := .idle

/-- `outcome` is what `child.spawn()` returns, should this step be the spawn. -/
def move (svc : RuntimeService) (now : Timestamp) (outcome : SpawnOutcome) :
    Dispatcher → Move Dispatcher
  | .idle =>
    .query (fun db => .ok db.listActiveReservations)
      (fun active => .listing (.ofActive svc.ledger active)) abandon
  | .listing totals =>
    .query (fun db => .ok (db.listAccepted svc.settings.maxQueuedTasks)) (.scanning totals) abandon
  | .scanning _ [] => .silent .idle
  | .scanning totals (task :: rest) =>
    match consider svc.ledger totals task with
    | .cancel =>
      .write task.taskId (.cancelAcceptedTask cancelledBeforeExecution)
        (.persisting totals task.taskId rest) abandon
    | .skip => .silent (.scanning totals rest)
    | .reserve reservation =>
      .write task.taskId (.reserveResources reservation "task resources reserved")
        (.launching (totals.charge svc.ledger task.tenant reservation) task reservation rest)
        abandon
  | .launching totals task reservation rest =>
    match outcome with
    | .spawned pid => .silent (.dispatching totals task pid rest)
    | .spawnFailed message => .silent (.failing totals task reservation message rest)
    | .noExecutable _ => .silent .idle
  | .dispatching totals task shimPid rest =>
    .write task.taskId (.markDispatched shimPid) (.scanning totals rest) abandon
  | .failing totals task reservation message rest =>
    .write task.taskId (.completeTask (shimSpawnFailed now message))
      (.persisting (totals.refund reservation) task.taskId rest) abandon
  | .persisting totals taskId rest =>
    .query (fun db => db.getTask taskId) (fun _ => .scanning totals rest) abandon

/-- The task and the pid of a shim that this step starts. -/
def spawns (outcome : SpawnOutcome) : Dispatcher → Option (TaskId × ℕ)
  | .launching _ task _ _ =>
    match outcome with
    | .spawned pid => some (task.taskId, pid)
    | _ => none
  | _ => none

end Dispatcher

end ExecgoRuntime
