import ExecgoRuntime.Actor
import ExecgoRuntime.Ledger
import ExecgoRuntime.Policy
import Mathlib.Data.List.Infix

/-!
The request handlers of the server and its two small background tasks
(`runtime.rs`): `submit_task`, `kill_task`, the escalation that a kill leaves
behind, and the garbage collection pass. Each is a machine whose states are the
points between two repository calls. File system work that precedes a call in
the same step is part of that step: if it fails, the step fails.
-/
namespace ExecgoRuntime

structure Settings where
  tasksDir : String
  maxQueuedTasks : ℕ
  terminationGraceMs : ℕ
  resultRetentionSecs : ℕ
  defaultCapabilityMode : CapabilityMode := .adaptive

structure RuntimeService where
  settings : Settings
  capabilities : RuntimeCapabilities
  ledger : ResourceLedger

def containsText (text pattern : String) : Bool := decide (pattern.toList <:+: text.toList)

def inferScriptName (interpreter : Option String) : String :=
  let value := interpreter.getD ""
  if containsText value "python" then "script.py"
  else if containsText value "bash" then "script.sh"
  else if containsText value "zsh" then "script.zsh"
  else if containsText value "node" then "script.js"
  else "script.sh"

namespace RuntimeService

/-- The checks of `submit_task` that do not read the store. -/
def checkRequest (svc : RuntimeService) (request : SubmitTaskRequest) :
    AppResult ExecutionPlan := do
  request.validate
  let executionPlan ← Policy.resolveExecutionPlan request svc.capabilities
    svc.settings.defaultCapabilityMode
  let requestedReservation := TaskResourceReservation.fromLimits request.limits
  svc.ledger.ensureWithinCapacity requestedReservation
  svc.ledger.ensureWithinTenantQuota request.tenant requestedReservation
  return executionPlan

def newTask (svc : RuntimeService) (request : SubmitTaskRequest) (taskId : TaskId)
    (executionPlan : ExecutionPlan) : AppResult NewTaskRecord := do
  let taskDir := joinPath svc.settings.tasksDir taskId
  let workspaceDir ← resolveWorkspaceDir taskDir request.sandbox
  return {
    taskId
    request
    taskDir
    workspaceDir
    requestPath := joinPath taskDir "request.json"
    resultPath := joinPath taskDir "result.json"
    stdoutPath := joinPath taskDir "stdout.log"
    stderrPath := joinPath taskDir "stderr.log"
    scriptPath :=
      if request.execution.kind = .script then
        some (joinPath taskDir
          (inferScriptName (request.execution.interpreter.bind List.head?)))
      else none
    executionPlan
    controlContext := request.controlContext }

end RuntimeService

inductive SubmitState
  | received
  | inserting (new : NewTaskRecord)
  | returned (result : AppResult SubmitTaskResponse)

/-- One `submit_task`; `generatedId` is what `generate_task_id` would return. -/
structure SubmitCall where
  request : SubmitTaskRequest
  generatedId : TaskId
  state : SubmitState := .received

namespace SubmitCall

def fail (call : SubmitCall) (e : AppError) : SubmitCall :=
  { call with state := .returned (.error e) }

def move (svc : RuntimeService) (call : SubmitCall) : Option (Move SubmitCall) :=
  match call.state with
  | .received =>
    match svc.checkRequest call.request with
    | .error e => some (.silent (call.fail e))
    | .ok executionPlan =>
      some (.query (fun db => .ok db.countAccepted)
        (fun count =>
          if svc.settings.maxQueuedTasks ≤ count then call.fail .queueFull
          else
            match svc.newTask call.request (call.request.taskId.getD call.generatedId)
                executionPlan with
            | .ok new => { call with state := .inserting new }
            | .error e => call.fail e)
        call.fail)
  | .inserting new =>
    some {
      call := some (.insertTask new)
      ok := fun _ => { call with state := .returned (.ok ⟨new.taskId, new.taskId, .accepted⟩) }
      err := call.fail }
  | .returned _ => none

end SubmitCall

/-- The error `cancel_accepted_task` is given by `kill_task` and by the dispatcher. -/
def cancelledBeforeExecution : RuntimeErrorInfo := ⟨.cancelled, "task cancelled before execution"⟩

inductive KillState
  | received
  | requesting
  | rereading
  | cancelling
  | signalling (updated : TaskRecord)
  | responding
  | returned (result : AppResult TaskRecord)

structure KillCall where
  taskId : TaskId
  callerOwner : Option String
  state : KillState := .received

inductive EscalationState
  | sleeping
  | finished (signalled : Option ℕ)

/-- The task that `spawn_escalation` starts; `pgid` is the one the kill saw. -/
structure Escalation where
  taskId : TaskId
  pgid : Option ℕ
  state : EscalationState := .sleeping

def TaskRecord.owner (row : TaskRecord) : Option String :=
  row.controlContext.bind ControlContext.owner

namespace KillCall

def fail (call : KillCall) (e : AppError) : KillCall :=
  { call with state := .returned (.error e) }

/-- What `kill_task` does with the row it first reads. -/
def authorize (call : KillCall) (task : TaskRecord) : KillCall :=
  if task.owner.isSome && decide (call.callerOwner ≠ task.owner) then
    call.fail (.permissionDenied ("kill requires owner '" ++ task.owner.getD "" ++ "'"))
  else if task.status.isTerminal then { call with state := .returned (.ok task) }
  else { call with state := .requesting }

/-- What `kill_task` does with the row that `set_cancel_requested` returns. -/
def requested (call : KillCall) (updated : TaskRecord) : KillCall :=
  { call with state := if updated.status = .accepted then .cancelling else .signalling updated }

/-- `signal_task_termination`; a row without process ids is not signalled. -/
def signalled (updated : TaskRecord) (signalError : Option AppError) : AppResult Unit :=
  match signalError with
  | some e => if updated.pgid.isSome || updated.pid.isSome then .error e else .ok ()
  | none => .ok ()

/-- `set_cancel_requested` commits and then reads the row in a transaction of its own.
`signalError` is the answer of the signal system call. -/
def move (signalError : Option AppError) (call : KillCall) : Option (Move KillCall) :=
  match call.state with
  | .received => some (.query (fun db => db.getTask call.taskId) call.authorize call.fail)
  | .requesting =>
    some (.write call.taskId .setCancelRequested { call with state := .rereading } call.fail)
  | .rereading => some (.query (fun db => db.getTask call.taskId) call.requested call.fail)
  | .cancelling =>
    some (.write call.taskId (.cancelAcceptedTask cancelledBeforeExecution)
      { call with state := .responding } call.fail)
  | .signalling updated =>
    match signalled updated signalError with
    | .ok () => some (.silent { call with state := .responding })
    | .error e => some (.silent (call.fail e))
  | .responding =>
    some (.query (fun db => db.getTask call.taskId)
      (fun task => { call with state := .returned (.ok task) }) call.fail)
  | .returned _ => none

/-- The escalation a step leaves behind. -/
def escalation (signalError : Option AppError) (call : KillCall) : Option Escalation :=
  match call.state with
  | .signalling updated =>
    match signalled updated signalError with
    | .ok () => some { taskId := call.taskId, pgid := updated.pgid }
    | .error _ => none
  | _ => none

end KillCall

namespace Escalation

/-- The process group or process that receives `SIGKILL`. -/
def target (escalation : Escalation) (task : TaskRecord) : Option ℕ :=
  if task.status = .running then (escalation.pgid.or task.pgid).or task.pid else none

/-- The step after the grace period. It re-reads the row and signals. -/
def move (escalation : Escalation) : Option (Move Escalation) :=
  match escalation.state with
  | .sleeping =>
    some (.query (fun db => db.getTask escalation.taskId)
      (fun task => { escalation with state := .finished (escalation.target task) })
      (fun _ => { escalation with state := .finished none }))
  | .finished _ => none

end Escalation

inductive Gc
  | idle
  | deleting (tasks : List TaskRecord)

namespace Gc

/-- The smallest time a `chrono` date holds, in milliseconds. -/
def minTimestamp : Timestamp := -8334601228800000

/-- `Utc::now() - duration`, or `Utc::now()` for a duration `chrono` cannot
hold. There is no cutoff when the subtraction leaves the range of dates: the
pass then panics before it reads anything. -/
def cutoff (resultRetentionSecs : ℕ) (now : Timestamp) : Option Timestamp :=
  if i64Max < resultRetentionSecs * 1000 then some now
  else
    let bound := now - (resultRetentionSecs * 1000 : ℕ)
    if minTimestamp ≤ bound then some bound else none

/-- `removed` is whether the task directory could be removed. -/
def move (svc : RuntimeService) (now : Timestamp) (removed : Bool) (gc : Gc) : Move Gc :=
  match gc with
  | .idle =>
    match cutoff svc.settings.resultRetentionSecs now with
    | some bound => .query (fun db => .ok (db.listGcCandidates bound)) .deleting (fun _ => .idle)
    | none => .silent .idle
  | .deleting [] => .silent .idle
  | .deleting (task :: rest) =>
    if removed then
      { call := some (.deleteTask task.taskId)
        ok := fun _ => .deleting rest
        err := fun _ => .deleting rest }
    else .silent (.deleting rest)

end Gc

end ExecgoRuntime
