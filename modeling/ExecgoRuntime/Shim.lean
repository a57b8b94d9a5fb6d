import ExecgoRuntime.Actor

/-!
The shim process (`run_internal_shim`), one per dispatched task. It loads the
row, spawns the workload, reports the start, supervises the wait and completes
the row. A shim knows whether it has spawned its workload and whether
`wait_for_pid` has returned for it; both facts outlive every error exit, since
an error makes the shim exit and leaves the workload as it is. Durations are in
nanoseconds and the host is Linux.
-/
namespace ExecgoRuntime

/-- A duration of that many milliseconds. -/
def millis (ms : ℕ) : ℕ := ms * 1000000

/-- What `wait4` reports. -/
structure WaitUsage where
  exitCode : Option ℤ := none
  exitSignal : Option ℤ := none
  userCpuMs : Option ℕ := none
  systemCpuMs : Option ℕ := none
  maxRssBytes : Option ℕ := none

/-- The process spawned for the task; `waited` is the result of `wait_for_pid`. -/
structure Workload where
  pid : ℕ
  waited : Option WaitUsage := none

/-- `libc::SIGXCPU`. -/
def sigXcpu : ℤ := 24

/-- The status and error of a workload that ended. -/
def classify (usage : WaitUsage) (timedOut cancelled oomKilled : Bool) :
    TaskStatus × Option RuntimeErrorInfo :=
  if timedOut then (.failed, some ⟨.timeout, "task exceeded wall_time_ms"⟩)
  else if cancelled then (.cancelled, some ⟨.cancelled, "task cancelled"⟩)
  else if oomKilled then (.failed, some ⟨.memoryLimitExceeded, "task exceeded memory limit"⟩)
  else if usage.exitSignal = some sigXcpu then
    (.failed, some ⟨.cpuLimitExceeded, "task exceeded cpu_time_sec"⟩)
  else
    match usage.exitCode, usage.exitSignal with
    | some code, _ =>
      if code = 0 then (.success, none)
      else (.failed, some ⟨.exitNonZero, "task exited with code " ++ toString code⟩)
    | none, some signal =>
      (.failed, some ⟨.internal, "task terminated by signal " ++ toString signal⟩)
    | none, none => (.failed, some ⟨.internal, "task failed with unknown outcome"⟩)

theorem classify_terminal (usage : WaitUsage) (timedOut cancelled oomKilled : Bool) :
    (classify usage timedOut cancelled oomKilled).1.isTerminal = true := by
  unfold classify
  repeat' split
  all_goals rfl

def classifyCompletion (now : Timestamp) (usage : WaitUsage) (durationMs : ℕ)
    (timedOut cancelled oomKilled : Bool) (memoryPeakBytes : Option ℕ) : CompletionUpdate where
  status := (classify usage timedOut cancelled oomKilled).1
  terminal := classify_terminal usage timedOut cancelled oomKilled
  finishedAt := now
  durationMs := some durationMs
  exitCode := usage.exitCode
  exitSignal := usage.exitSignal
  error := (classify usage timedOut cancelled oomKilled).2
  usage := some { durationMs, userCpuMs := usage.userCpuMs, systemCpuMs := usage.systemCpuMs
                  maxRssBytes := usage.maxRssBytes, memoryPeakBytes }

def cancelledBeforeLaunch (now : Timestamp) : CompletionUpdate where
  status := .cancelled
  finishedAt := now
  durationMs := some 0
  error := some ⟨.cancelled, "task cancelled before process launch"⟩

/-- The error record for a failed `spawn_task_process`. -/
def launchError : AppError → RuntimeErrorInfo
  | .sandboxSetup message => ⟨.sandboxSetupFailed, message⟩
  | .launchFailed message => ⟨.launchFailed, message⟩
  | other => ⟨.internal, other.toMessage⟩

def launchFailure (now : Timestamp) (e : AppError) : CompletionUpdate where
  status := .failed
  terminal := TaskStatus.isTerminal_failed
  finishedAt := now
  durationMs := some 0
  error := some (launchError e)

/-- The local variables of `supervise_wait`; the two instants are measured from
its start. -/
structure Supervision where
  plan : ExecutionPlan
  timeoutStarted : Option ℕ := none
  cancelStarted : Option ℕ := none
  termSent : Bool := false
  killSent : Bool := false

namespace Supervision

def timeoutDue (s : Supervision) (elapsed : ℕ) : Bool :=
  s.timeoutStarted.isNone && decide (millis s.plan.resourceEnforcement.wallTimeMs ≤ elapsed)

def startTimeout (s : Supervision) (elapsed : ℕ) : Supervision :=
  { s with timeoutStarted := some elapsed }

def graceOver (terminationGraceMs elapsed : ℕ) (started : Option ℕ) : Bool :=
  started.any (fun since => decide (millis terminationGraceMs ≤ elapsed - since))

/-- The rest of a poll tick, after the store calls: the cancellation is noted,
`SIGTERM` is sent once, and `SIGKILL` once after the grace period. -/
def escalate (terminationGraceMs elapsed : ℕ) (cancelRequested : Bool) (s : Supervision) :
    Supervision :=
  let cancelStarted :=
    if cancelRequested && s.cancelStarted.isNone then some elapsed else s.cancelStarted
  let shouldEscalate := graceOver terminationGraceMs elapsed s.timeoutStarted ||
    graceOver terminationGraceMs elapsed cancelStarted
  { s with
    cancelStarted
    termSent := s.termSent || s.timeoutStarted.isSome || cancelStarted.isSome
    killSent := s.killSent || shouldEscalate }

/-- The completion once the wait has returned; the cgroup is read only if there is one. -/
def completion (s : Supervision) (now : Timestamp) (elapsed : ℕ) (usage : WaitUsage)
    (cancelled : Bool) (memoryPeakBytes : Option ℕ) (oomKilled : Bool) : CompletionUpdate :=
  let inCgroup := s.plan.resourceEnforcement.cgroupEnforced
  classifyCompletion now usage (elapsed / 1000000 % 2 ^ 64) s.timeoutStarted.isSome cancelled
    (inCgroup && oomKilled) (if inCgroup then memoryPeakBytes else none)

end Supervision

/-- The points of a shim. `confining` has spawned the workload and is about to
set up its cgroup; `launched` is about to report the start. -/
inductive ShimState
  | starting
  | launching (task : TaskRecord) (plan : ExecutionPlan)
  | confining (plan : ExecutionPlan) (scriptPath : Option String)
  | launched (plan : ExecutionPlan) (scriptPath : Option String)
  | reloading (plan : ExecutionPlan)
  | supervising (supervision : Supervision)
  | timingOut (supervision : Supervision) (elapsed : ℕ) (cancelRequested : Bool)
  | completing (update : CompletionUpdate)
  | persisting
  | exited (result : AppResult Unit)

structure Shim where
  pid : ℕ
  taskId : TaskId
  workload : Option Workload := none
  state : ShimState := .starting

/-- What the environment decides in a step. -/
inductive ShimChoice
  | proceed
  | spawnFailed (error : AppError)
  | spawned (pid : ℕ)
  | confined (failure : Option AppError)
  | tick (elapsed : ℕ)
  | reaped (usage : WaitUsage)
  | waitFailed (error : AppError)
  | collect (elapsed : ℕ) (memoryPeakBytes : Option ℕ) (oomKilled : Bool)

namespace Shim

/-- The process that the dispatcher starts for a task. -/
def ofSpawn (spawned : TaskId × ℕ) : Shim where
  pid := spawned.2
  taskId := spawned.1

/-- The workload was spawned and `wait_for_pid` has not returned for it. -/
def unreaped (shim : Shim) : Bool := shim.workload.any (fun workload => workload.waited.isNone)

def alive (shim : Shim) : Bool :=
  match shim.state with
  | .exited _ => false
  | _ => true

/-- The pid is held by the shim or by its workload. -/
def holdsPid (shim : Shim) (pid : ℕ) : Bool :=
  (shim.alive && decide (shim.pid = pid)) ||
    shim.workload.any (fun workload => workload.waited.isNone && decide (workload.pid = pid))

def exit (shim : Shim) (result : AppResult Unit) : Shim := { shim with state := .exited result }

def fail (shim : Shim) (e : AppError) : Shim := shim.exit (.error e)

/-- What the shim does with the row it loads first. -/
def load (now : Timestamp) (shim : Shim) (task : TaskRecord) : Shim :=
  if task.status.isTerminal then shim.exit (.ok ())
  else if task.killRequested && task.pid.isNone then
    { shim with state := .completing (cancelledBeforeLaunch now) }
  else
    { shim with
      state := .launching task (task.executionPlan.getD (.legacy task.sandbox task.limits)) }

/-- The script that `build_command` writes for a script task. -/
def scriptPathOf (task : TaskRecord) : Option String :=
  match task.execution.kind with
  | .command => none
  | .script => some (task.scriptPath.getD (joinPath task.taskDir "script.sh"))

def spawn (shim : Shim) (task : TaskRecord) (plan : ExecutionPlan) (pid : ℕ) : Shim :=
  { shim with
    workload := some { pid }
    state :=
      if plan.resourceEnforcement.cgroupEnforced then .confining plan (scriptPathOf task)
      else .launched plan (scriptPathOf task) }

/-- The error of `spawn_task_process` when `setup_cgroup` fails. -/
def confineError (e : AppError) : AppError := .sandboxSetup ("configure cgroup: " ++ e.toMessage)

def reap (shim : Shim) (usage : WaitUsage) : Shim :=
  { shim with workload := shim.workload.map (fun workload => { workload with waited := usage }) }

def collect (now : Timestamp) (shim : Shim) (s : Supervision) (usage : WaitUsage) (elapsed : ℕ)
    (memoryPeakBytes : Option ℕ) (oomKilled : Bool) : Move Shim :=
  let complete (cancelled : Bool) : Shim :=
    { shim with
      state := .completing
        (s.completion now elapsed usage cancelled memoryPeakBytes oomKilled) }
  if s.cancelStarted.isSome then .silent (complete true)
  else .query (fun db => db.isCancelRequested shim.taskId) complete shim.fail

def move (terminationGraceMs : ℕ) (now : Timestamp) (choice : ShimChoice) (shim : Shim) :
    Option (Move Shim) :=
  match shim.state, choice with
  | .starting, .proceed =>
    some (.query (fun db => db.getTask shim.taskId) (shim.load now) shim.fail)
  | .launching _ _, .spawnFailed e =>
    some (.silent { shim with state := .completing (launchFailure now e) })
  | .launching task plan, .spawned pid => some (.silent (shim.spawn task plan pid))
  | .confining plan scriptPath, .confined none =>
    some (.silent { shim with state := .launched plan scriptPath })
  | .confining _ _, .confined (some e) =>
    some (.silent { shim with state := .completing (launchFailure now (confineError e)) })
  | .launched plan scriptPath, .proceed =>
    shim.workload.map (fun workload =>
      .write shim.taskId (.markStarted workload.pid workload.pid scriptPath)
        { shim with state := .reloading plan } shim.fail)
  | .reloading plan, .proceed =>
    some (.query (fun db => db.getTask shim.taskId)
      (fun _ => { shim with state := .supervising { plan } }) shim.fail)
  | .supervising s, .tick elapsed =>
    some (.query (fun db => db.isCancelRequested shim.taskId)
      (fun cancelRequested =>
        if s.timeoutDue elapsed then { shim with state := .timingOut s elapsed cancelRequested }
        else { shim with
          state := .supervising (s.escalate terminationGraceMs elapsed cancelRequested) })
      shim.fail)
  | .timingOut s elapsed cancelRequested, .proceed =>
    some (.write shim.taskId .markTimeoutTriggered
      { shim with
        state := .supervising
          ((s.startTimeout elapsed).escalate terminationGraceMs elapsed cancelRequested) }
      shim.fail)
  | .supervising _, .reaped usage | .timingOut _ _ _, .reaped usage =>
    if shim.unreaped then some (.silent (shim.reap usage)) else none
  | .supervising _, .waitFailed e => if shim.unreaped then some (.silent (shim.fail e)) else none
  | .supervising s, .collect elapsed memoryPeakBytes oomKilled =>
    (shim.workload.bind Workload.waited).map (fun usage =>
      shim.collect now s usage elapsed memoryPeakBytes oomKilled)
  | .completing update, .proceed =>
    some (.write shim.taskId (.completeTask update) { shim with state := .persisting } shim.fail)
  | .persisting, .proceed =>
    some (.query (fun db => db.getTask shim.taskId) (fun _ => shim.exit (.ok ())) shim.fail)
  | _, _ => none

end Shim

end ExecgoRuntime
