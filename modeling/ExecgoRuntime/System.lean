import ExecgoRuntime.Dispatcher
import ExecgoRuntime.Lib.Runs
import ExecgoRuntime.Recovery
import ExecgoRuntime.Shim

/-!
The whole system: one database, at most one server process with its requests
and background tasks, and the shims, which outlive the server. A step lets one
actor take its next move; the label says which actor, what the environment
answers, at what time, and whether the actor's repository call fails. Every
interleaving of atomic steps is a run of `World.step`.
-/
namespace ExecgoRuntime

inductive ServerState
  | down
  | recovering (recovery : Recovery)
  | serving (dispatcher : Dispatcher)

/-- Everything but the database. Shims stay listed after they have exited. -/
structure Procs where
  server : ServerState
  submits : List SubmitCall := []
  kills : List KillCall := []
  escalations : List Escalation := []
  gc : Gc := .idle
  shims : List Shim := []

/-- `deleted` is a history variable: the ids whose rows were deleted. -/
structure World where
  db : Db
  procs : Procs
  deleted : List TaskId := []

inductive Action
  | receiveSubmit (request : SubmitTaskRequest) (generatedId : TaskId)
  | submit (i : ℕ)
  | receiveKill (taskId : TaskId) (callerOwner : Option String)
  | kill (i : ℕ) (signalError : Option AppError)
  | escalate (i : ℕ)
  | dispatch (outcome : SpawnOutcome)
  | gc (removed : Bool)
  | recover (pidTaken : Bool)
  | shim (i : ℕ) (choice : ShimChoice)
  | crash
  | restart

def Action.isCrash : Action → Bool
  | .crash => true
  | _ => false

def Action.isGc : Action → Bool
  | .gc _ => true
  | _ => false

/-- The steps of the request handlers and of what they leave behind. -/
def Action.isRequest : Action → Bool
  | .receiveSubmit _ _ | .submit _ | .receiveKill _ _ | .kill _ _ | .escalate _ => true
  | _ => false

/-- `failure` is the error of the step's repository call, if that call fails. -/
structure Event where
  action : Action
  now : Timestamp := 0
  failure : Option AppError := none

/-- A step of one server life in which no call fails. -/
def Event.plain (e : Event) : Bool :=
  e.failure.isNone &&
    match e.action with
    | .receiveSubmit _ _ | .submit _ | .receiveKill _ _ | .kill _ none | .dispatch _ | .shim _ _ =>
      true
    | _ => false

/-- A step of a run through several server lives, without kills and failing calls. -/
def Event.ofLives (e : Event) : Bool :=
  e.failure.isNone &&
    match e.action with
    | .receiveSubmit _ _ | .submit _ | .dispatch _ | .shim _ _ | .recover _ | .crash | .restart =>
      true
    | _ => false

theorem Event.of_plain {e : Event} (h : e.plain = true) :
    e.action.isCrash = false ∧ e.action.isGc = false := by
  obtain ⟨_, haction⟩ := Bool.and_eq_true_iff.mp h
  cases hcase : e.action <;> rw [hcase] at haction <;> first | exact ⟨rfl, rfl⟩ | cases haction

theorem Event.not_gc_of_lives {e : Event} (h : e.ofLives = true) : e.action.isGc = false := by
  obtain ⟨_, haction⟩ := Bool.and_eq_true_iff.mp h
  cases hcase : e.action <;> rw [hcase] at haction <;> first | rfl | cases haction

namespace Procs

def processExists (procs : Procs) (pid : ℕ) : Bool :=
  procs.shims.any (fun shim => shim.holdsPid pid)

/-- The kernel gives a new process a positive `pid_t` that no process holds. -/
def freshPid (procs : Procs) (pid : ℕ) : Bool :=
  decide (0 < pid) && decide (pid < 2 ^ 31) && !procs.processExists pid

/-- What is lost when the server process dies. -/
def crash (procs : Procs) : Procs := { server := .down, shims := procs.shims }

@[simp]
theorem crash_shims (procs : Procs) : procs.crash.shims = procs.shims := rfl

def afterRecovery (procs : Procs) (recovery : Recovery) : Procs :=
  match recovery with
  | .finished => { procs with server := .serving .idle }
  | .failed _ => { procs with server := .down }
  | _ => { procs with server := .recovering recovery }

@[simp]
theorem afterRecovery_shims (procs : Procs) (recovery : Recovery) :
    (procs.afterRecovery recovery).shims = procs.shims := by
  cases recovery <;> rfl

def afterDispatch (procs : Procs) (spawned : Option (TaskId × ℕ)) (dispatcher : Dispatcher) :
    Procs :=
  { procs with
    server := .serving dispatcher
    shims := procs.shims ++ spawned.toList.map Shim.ofSpawn }

@[simp]
theorem afterDispatch_server (procs : Procs) (spawned : Option (TaskId × ℕ))
    (dispatcher : Dispatcher) :
    (procs.afterDispatch spawned dispatcher).server = .serving dispatcher := rfl

@[simp]
theorem afterDispatch_shims (procs : Procs) (spawned : Option (TaskId × ℕ))
    (dispatcher : Dispatcher) :
    (procs.afterDispatch spawned dispatcher).shims =
      procs.shims ++ spawned.toList.map Shim.ofSpawn := rfl

def afterKill (procs : Procs) (i : ℕ) (escalation : Option Escalation) (call : KillCall) : Procs :=
  { procs with
    kills := procs.kills.set i call
    escalations := procs.escalations ++ escalation.toList }

/-- The pid that the step would give to a new process. -/
def newPid (procs : Procs) (action : Action) : Option ℕ :=
  match action, procs.server with
  | .dispatch outcome, .serving dispatcher => (dispatcher.spawns outcome).map Prod.snd
  | .shim _ (.spawned pid), _ => some pid
  | _, _ => none

/-- The move of the actor that the action names. -/
def actorMove (svc : RuntimeService) (now : Timestamp) (action : Action) (procs : Procs) :
    Option (Move Procs) :=
  match action, procs.server with
  | .receiveSubmit request generatedId, .serving _ =>
    some (.silent { procs with submits := procs.submits ++ [{ request, generatedId }] })
  | .submit i, .serving _ => do
    let m ← (← procs.submits[i]?).move svc
    return m.map (fun call => { procs with submits := procs.submits.set i call })
  | .receiveKill taskId callerOwner, .serving _ =>
    some (.silent { procs with kills := procs.kills ++ [{ taskId, callerOwner }] })
  | .kill i signalError, .serving _ => do
    let call ← procs.kills[i]?
    let m ← call.move signalError
    return m.map (procs.afterKill i (call.escalation signalError))
  | .escalate i, .serving _ => do
    let m ← (← procs.escalations[i]?).move
    return m.map (fun escalation =>
      { procs with escalations := procs.escalations.set i escalation })
  | .dispatch outcome, .serving dispatcher =>
    some ((dispatcher.move svc now outcome).map (procs.afterDispatch (dispatcher.spawns outcome)))
  | .gc removed, .serving _ =>
    some ((procs.gc.move svc now removed).map (fun gc => { procs with gc := gc }))
  | .recover pidTaken, .recovering recovery => do
    let m ← recovery.move now (fun pid => pidTaken || procs.processExists pid)
    return m.map procs.afterRecovery
  | .shim i choice, _ => do
    let m ← (← procs.shims[i]?).move svc.settings.terminationGraceMs now choice
    return m.map (fun shim => { procs with shims := procs.shims.set i shim })
  | .crash, .serving _ => some (.silent procs.crash)
  | .crash, .recovering _ => some (.silent procs.crash)
  | .restart, .down => some (.silent { procs with server := .recovering .listing })
  | _, _ => none

def move (svc : RuntimeService) (now : Timestamp) (action : Action) (procs : Procs) :
    Option (Move Procs) :=
  if (procs.newPid action).all procs.freshPid then procs.actorMove svc now action else none

end Procs

namespace World

/-- A server that has finished its start on this database, with no shims. -/
def serve (db : Db) : World where
  db := db
  procs := { server := .serving .idle }

/-- A server started on an empty database. -/
def init : World := serve .empty

def nextDeleted (deleted : List TaskId) : Option StoreCall → List TaskId
  | some (.deleteTask taskId) => taskId :: deleted
  | _ => deleted

/-- The repository call with which the step changes the database. -/
def committed (svc : RuntimeService) (w : World) (e : Event) : Option StoreCall :=
  (w.procs.move svc e.now e.action).bind (fun m => m.committed e.now e.failure w.db)

def step (svc : RuntimeService) (w : World) (e : Event) : Option World :=
  (w.procs.move svc e.now e.action).map (fun m =>
    let (db, procs) := m.run e.now e.failure w.db
    { db, procs, deleted := nextDeleted w.deleted (w.committed svc e) })

/-- Runs of the system. -/
abbrev Run (svc : RuntimeService) (start : World) (trace : List (World × Event)) (last : World) :
    Prop :=
  Runs.Run (step svc) start trace last

/-- The run belongs to one server process. -/
def OneLife (trace : List (World × Event)) : Prop := ∀ x ∈ trace, x.2.action.isCrash = false

/-- Every step is a move of one actor, with one of the three outcomes of a move. -/
theorem step_outcome {svc : RuntimeService} {w w' : World} {e : Event}
    (h : w.step svc e = some w') :
    ∃ m, w.procs.move svc e.now e.action = some m ∧
      Move.Outcome m e.now e.failure w.db (w.committed svc e) w'.db w'.procs ∧
      w'.deleted = nextDeleted w.deleted (w.committed svc e) := by
  obtain ⟨m, hm, rfl⟩ := Option.map_eq_some_iff.mp h
  refine ⟨m, hm, ?_, rfl⟩
  have hcommitted : w.committed svc e = m.committed e.now e.failure w.db := by
    simp [committed, hm]
  rw [hcommitted]
  exact Move.outcome_run m e.now e.failure w.db

/-- The move of the actor that the action names; a new process gets a pid that no
process holds. -/
theorem step_actor {svc : RuntimeService} {w w' : World} {e : Event}
    (h : w.step svc e = some w') :
    ∃ m, w.procs.actorMove svc e.now e.action = some m ∧
      (w.procs.newPid e.action).all w.procs.freshPid = true ∧
      Move.Outcome m e.now e.failure w.db (w.committed svc e) w'.db w'.procs := by
  obtain ⟨m, hm, hout, _⟩ := step_outcome h
  unfold Procs.move at hm
  split at hm
  · rename_i hfresh
    exact ⟨m, hm, hfresh, hout⟩
  · cases hm

/-- A step leaves the database alone or executes the call it commits. -/
theorem step_db {svc : RuntimeService} {w w' : World} {e : Event} (h : w.step svc e = some w') :
    (w.committed svc e = none ∧ w'.db = w.db) ∨
      ∃ call, w.committed svc e = some call ∧ call.exec e.now w.db = .ok w'.db := by
  obtain ⟨m, _, hout, _⟩ := step_outcome h
  generalize w.committed svc e = committed at hout
  generalize w'.db = db' at hout
  generalize w'.procs = procs' at hout
  cases hout with
  | silent _ => exact .inl ⟨rfl, rfl⟩
  | failed _ _ => exact .inl ⟨rfl, rfl⟩
  | done _ hexec _ => exact .inr ⟨_, rfl, hexec⟩

end World

/-- A service on a host that offers everything. -/
def smallService (capacity : ResourceCapacity) (tenantQuotas : TenantMap := ∅) :
    RuntimeService where
  settings := { tasksDir := "/data/tasks", maxQueuedTasks := 8, terminationGraceMs := 1000
                resultRetentionSecs := 3600 }
  capabilities := {
    sandbox := ⟨true, true, true, ⟨true, true, true, true, true⟩⟩
    resources := ⟨true, true, true, true, true, capacity⟩ }
  ledger := { capacity, tenantQuotas }

/-- The quotas of a service with one tenant. -/
theorem smallService_tenantQuota {capacity quota quota' : ResourceCapacity} {name tenant : String}
    (h : (smallService capacity ((∅ : TenantMap).insert name quota)).ledger.tenantQuota tenant =
      some quota') : tenant = name ∧ quota' = quota := by
  change ((∅ : TenantMap).insert name quota).lookup tenant = some quota' at h
  by_cases htenant : tenant = name
  · rw [htenant, AList.lookup_insert] at h
    exact ⟨htenant, (Option.some.inj h).symm⟩
  · rw [AList.lookup_insert_ne htenant, AList.lookup_empty] at h
    cases h

def commandRequest (taskId : TaskId) (controlContext : Option ControlContext := none) :
    SubmitTaskRequest where
  taskId := some taskId
  execution := { kind := .command, program := some "true" }
  controlContext

/-- The named actions, without a failing call. -/
def events (actions : List Action) : List Event := actions.map (fun action => { action })

/-- The `i`-th submission, from its arrival to its response. -/
def submitActions (i : ℕ) (request : SubmitTaskRequest) : List Action :=
  [.receiveSubmit request "", .submit i, .submit i]

/-- A dispatch cycle that starts a shim for the one task it lists. -/
def dispatchActions (shimPid : ℕ) : List Action := List.replicate 6 (.dispatch (.spawned shimPid))

/-- A shim whose workload succeeds. -/
def shimActions (i pid : ℕ) : List Action :=
  ([.proceed, .spawned pid, .proceed, .proceed, .tick 0, .reaped { exitCode := some 0 },
    .collect 0 none false, .proceed, .proceed] : List ShimChoice).map (.shim i)

/-- Execute events from an empty database, each of which has to pass a check. -/
abbrev World.execute (svc : RuntimeService) (check : World → Event → Bool) (labels : List Event) :
    Option World :=
  Runs.exec (Runs.checked check (World.step svc)) World.init labels

/-- An execution that leads to a row with some property, as a run. -/
theorem World.exists_run_to_row {svc : RuntimeService} {check : World → Event → Bool}
    {labels : List Event} {taskId : TaskId} {p : TaskRecord → List EventType → Bool}
    (h : (World.execute svc check labels).any (fun w =>
      (w.db.tasks.find taskId).any (fun row => p row (w.db.stream taskId))) = true) :
    ∃ trace last row, World.Run svc World.init trace last ∧ trace.map Prod.snd = labels ∧
      (∀ x ∈ trace, check x.1 x.2 = true) ∧ last.db.tasks.find taskId = some row ∧
      p row (last.db.stream taskId) = true := by
  obtain ⟨trace, last, hrun, hlabels, hcheck, htest⟩ := Runs.exists_run_of_exec h
  cases hrow : last.db.tasks.find taskId with
  | none => simp [hrow] at htest
  | some row => exact ⟨trace, last, row, hrun, hlabels, hcheck, hrow, by simpa [hrow] using htest⟩

end ExecgoRuntime
