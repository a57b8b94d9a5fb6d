import ExecgoRuntime.Dispatcher
import ExecgoRuntime.Recovery
import ExecgoRuntime.Shim

/-!
What a step of each machine can do, said once. The request handlers and the
garbage collection commit calls of their own kind only. A dispatch, recovery or
shim step is one of a list of cases, each with the states it joins, the call it
commits and what the machine knows when it does so. The proofs about a machine
go by cases on these lists and do not unfold its move.
-/
namespace ExecgoRuntime

/-- The calls that the handlers of `submit`, `kill` and the escalation commit. -/
inductive RequestCall : StoreCall → Prop
  | read : RequestCall .read
  | insertTask (new : NewTaskRecord) : RequestCall (.insertTask new)
  | setCancelRequested (taskId : TaskId) : RequestCall (.write taskId .setCancelRequested)
  | cancelAcceptedTask (taskId : TaskId) :
      RequestCall (.write taskId (.cancelAcceptedTask cancelledBeforeExecution))

/-- The calls that a garbage collection pass commits. -/
inductive GcCall : StoreCall → Prop
  | read : GcCall .read
  | deleteTask (taskId : TaskId) : GcCall (.deleteTask taskId)

theorem RequestCall.of_quiet {committed : Option StoreCall} (h : Move.Quiet committed) :
    ∀ call, committed = some call → RequestCall call := by
  intro call hcall
  rw [h.call_eq hcall]
  exact .read

theorem SubmitCall.requestCall {svc : RuntimeService} {submit : SubmitCall} {m : Move SubmitCall}
    {call : StoreCall} (hmove : submit.move svc = some m) (hcall : m.call = some call) :
    RequestCall call := by
  unfold SubmitCall.move at hmove
  split at hmove
  · split at hmove
    · cases hmove
      cases hcall
    · cases hmove
      cases hcall
      exact .read
  · cases hmove
    cases hcall
    exact .insertTask _
  · cases hmove

theorem KillCall.requestCall {signalError : Option AppError} {kill : KillCall} {m : Move KillCall}
    {call : StoreCall} (hmove : kill.move signalError = some m) (hcall : m.call = some call) :
    RequestCall call := by
  unfold KillCall.move at hmove
  split at hmove
  · cases hmove
    cases hcall
    exact .read
  · cases hmove
    cases hcall
    exact .setCancelRequested _
  · cases hmove
    cases hcall
    exact .read
  · cases hmove
    cases hcall
    exact .cancelAcceptedTask _
  · split at hmove <;> cases hmove <;> cases hcall
  · cases hmove
    cases hcall
    exact .read
  · cases hmove

theorem Escalation.requestCall {escalation : Escalation} {m : Move Escalation} {call : StoreCall}
    (hmove : escalation.move = some m) (hcall : m.call = some call) : RequestCall call := by
  unfold Escalation.move at hmove
  split at hmove
  · cases hmove
    cases hcall
    exact .read
  · cases hmove

theorem Gc.gcCall {svc : RuntimeService} {now : Timestamp} {removed : Bool} {gc : Gc}
    {call : StoreCall} (hcall : (gc.move svc now removed).call = some call) : GcCall call := by
  unfold Gc.move at hcall
  split at hcall
  · split at hcall
    · cases hcall
      exact .read
    · cases hcall
  · cases hcall
  · split at hcall
    · cases hcall
      exact .deleteTask _
    · cases hcall

/-- A step of the dispatch cycle. -/
inductive DispatchStep (svc : RuntimeService) (now : Timestamp) (outcome : SpawnOutcome) (db : Db) :
    Option StoreCall → Db → Dispatcher → Dispatcher → Prop
  | stop {c d} : Move.Quiet c → DispatchStep svc now outcome db c db d .idle
  | started {c} : Move.Quiet c →
      DispatchStep svc now outcome db c db .idle
        (.listing (.ofActive svc.ledger db.listActiveReservations))
  | listed {c totals} : Move.Quiet c →
      DispatchStep svc now outcome db c db (.listing totals)
        (.scanning totals (db.listAccepted svc.settings.maxQueuedTasks))
  | skipped {c totals task rest} : Move.Quiet c →
      DispatchStep svc now outcome db c db (.scanning totals (task :: rest)) (.scanning totals rest)
  | cancelled {totals task rest db'} :
      (TaskWrite.cancelAcceptedTask cancelledBeforeExecution).run now task.taskId db = .ok db' →
      DispatchStep svc now outcome db
        (some (.write task.taskId (.cancelAcceptedTask cancelledBeforeExecution))) db'
        (.scanning totals (task :: rest)) (.persisting totals task.taskId rest)
  | reserved {totals task rest reservation db'} :
      consider svc.ledger totals task = .reserve reservation →
      (TaskWrite.reserveResources reservation "task resources reserved").run now task.taskId db =
        .ok db' →
      DispatchStep svc now outcome db
        (some (.write task.taskId (.reserveResources reservation "task resources reserved"))) db'
        (.scanning totals (task :: rest))
        (.launching (totals.charge svc.ledger task.tenant reservation) task reservation rest)
  | spawned {c totals task reservation rest pid} : Move.Quiet c → outcome = .spawned pid →
      DispatchStep svc now outcome db c db (.launching totals task reservation rest)
        (.dispatching totals task pid rest)
  | notSpawned {c totals task reservation rest message} : Move.Quiet c →
      outcome = .spawnFailed message →
      DispatchStep svc now outcome db c db (.launching totals task reservation rest)
        (.failing totals task reservation message rest)
  | dispatched {totals task shimPid rest db'} :
      (TaskWrite.markDispatched shimPid).run now task.taskId db = .ok db' →
      DispatchStep svc now outcome db (some (.write task.taskId (.markDispatched shimPid))) db'
        (.dispatching totals task shimPid rest) (.scanning totals rest)
  | failed {totals task reservation message rest db'} :
      (TaskWrite.completeTask (shimSpawnFailed now message)).run now task.taskId db = .ok db' →
      DispatchStep svc now outcome db
        (some (.write task.taskId (.completeTask (shimSpawnFailed now message)))) db'
        (.failing totals task reservation message rest)
        (.persisting (totals.refund reservation) task.taskId rest)
  | persisted {c totals taskId rest} : Move.Quiet c →
      DispatchStep svc now outcome db c db (.persisting totals taskId rest) (.scanning totals rest)

theorem Dispatcher.move_cases {svc : RuntimeService} {now : Timestamp} {outcome : SpawnOutcome}
    {db db' : Db} {committed : Option StoreCall} {d d' : Dispatcher}
    {failure : Option AppError}
    (h : Move.Outcome (d.move svc now outcome) now failure db committed db' d') :
    DispatchStep svc now outcome db committed db' d d' := by
  cases d with
  | idle =>
    simp only [Dispatcher.move] at h
    obtain ⟨hquiet, rfl, ⟨active, hactive, rfl, _⟩ | ⟨e, rfl, _⟩⟩ := Move.outcome_query h
    · cases hactive
      exact .started hquiet
    · exact .stop hquiet
  | listing totals =>
    simp only [Dispatcher.move] at h
    obtain ⟨hquiet, rfl, ⟨tasks, htasks, rfl, _⟩ | ⟨e, rfl, _⟩⟩ := Move.outcome_query h
    · cases htasks
      exact .listed hquiet
    · exact .stop hquiet
  | scanning totals tasks =>
    cases tasks with
    | nil =>
      obtain ⟨hquiet, rfl, rfl⟩ := Move.outcome_silent h
      exact .stop hquiet
    | cons task rest =>
      simp only [Dispatcher.move] at h
      cases hdecision : consider svc.ledger totals task with
      | skip =>
        rw [hdecision] at h
        obtain ⟨hquiet, rfl, rfl⟩ := Move.outcome_silent h
        exact .skipped hquiet
      | cancel =>
        rw [hdecision] at h
        rcases Move.outcome_write h with ⟨hquiet, rfl, e, rfl, _⟩ | ⟨rfl, hrun, rfl, _⟩
        · exact .stop hquiet
        · exact .cancelled hrun
      | reserve reservation =>
        rw [hdecision] at h
        rcases Move.outcome_write h with ⟨hquiet, rfl, e, rfl, _⟩ | ⟨rfl, hrun, rfl, _⟩
        · exact .stop hquiet
        · exact .reserved hdecision hrun
  | launching totals task reservation rest =>
    cases outcome with
    | spawned pid =>
      obtain ⟨hquiet, rfl, rfl⟩ := Move.outcome_silent h
      exact .spawned hquiet rfl
    | spawnFailed message =>
      obtain ⟨hquiet, rfl, rfl⟩ := Move.outcome_silent h
      exact .notSpawned hquiet rfl
    | noExecutable message =>
      obtain ⟨hquiet, rfl, rfl⟩ := Move.outcome_silent h
      exact .stop hquiet
  | dispatching totals task shimPid rest =>
    simp only [Dispatcher.move] at h
    rcases Move.outcome_write h with ⟨hquiet, rfl, e, rfl, _⟩ | ⟨rfl, hrun, rfl, _⟩
    · exact .stop hquiet
    · exact .dispatched hrun
  | failing totals task reservation message rest =>
    simp only [Dispatcher.move] at h
    rcases Move.outcome_write h with ⟨hquiet, rfl, e, rfl, _⟩ | ⟨rfl, hrun, rfl, _⟩
    · exact .stop hquiet
    · exact .failed hrun
  | persisting totals taskId rest =>
    simp only [Dispatcher.move] at h
    obtain ⟨hquiet, rfl, ⟨row, _, rfl, _⟩ | ⟨e, rfl, _⟩⟩ := Move.outcome_query h
    · exact .persisted hquiet
    · exact .stop hquiet

/-- The tasks of the cycle that are still to be considered. -/
def Dispatcher.pending : Dispatcher → List TaskRecord
  | idle | listing _ => []
  | scanning _ tasks | launching _ _ _ tasks | dispatching _ _ _ tasks | failing _ _ _ _ tasks
  | persisting _ _ tasks => tasks

/-- A cycle gets new tasks only from the list it reads. -/
theorem DispatchStep.pending {svc : RuntimeService} {now : Timestamp} {outcome : SpawnOutcome}
    {db db' : Db} {committed : Option StoreCall} {d d' : Dispatcher}
    (h : DispatchStep svc now outcome db committed db' d d') :
    d'.pending.Sublist d.pending ∨
      (db' = db ∧ d'.pending = db.listAccepted svc.settings.maxQueuedTasks) := by
  cases h with
  | stop _ => exact .inl (List.nil_sublist _)
  | started _ => exact .inl (List.nil_sublist _)
  | listed _ => exact .inr ⟨rfl, rfl⟩
  | skipped _ => exact .inl (List.sublist_cons_self _ _)
  | cancelled _ => exact .inl (List.sublist_cons_self _ _)
  | reserved _ _ => exact .inl (List.sublist_cons_self _ _)
  | spawned _ _ => exact .inl (List.Sublist.refl _)
  | notSpawned _ _ => exact .inl (List.Sublist.refl _)
  | dispatched _ => exact .inl (List.Sublist.refl _)
  | failed _ => exact .inl (List.Sublist.refl _)
  | persisted _ => exact .inl (List.Sublist.refl _)

/-- The write reserves what the task asked for. -/
def TaskWrite.reservesFor (w : TaskWrite) (task : TaskRecord) : Prop :=
  ∃ reservation message, w = .reserveResources reservation message ∧
    (reservation = task.requestedReservation ∨ reservation = .fromLimits task.limits)

/-- The writes of the dispatch cycle. -/
inductive DispatchWrite (svc : RuntimeService) (now : Timestamp) :
    Dispatcher → Dispatcher → TaskId → TaskWrite → Prop
  | cancelled {totals task rest} :
      DispatchWrite svc now (.scanning totals (task :: rest))
        (.persisting totals task.taskId rest) task.taskId
        (.cancelAcceptedTask cancelledBeforeExecution)
  | reserved {totals task rest reservation} :
      consider svc.ledger totals task = .reserve reservation →
      DispatchWrite svc now (.scanning totals (task :: rest))
        (.launching (totals.charge svc.ledger task.tenant reservation) task reservation rest)
        task.taskId (.reserveResources reservation "task resources reserved")
  | dispatched {totals task shimPid rest} :
      DispatchWrite svc now (.dispatching totals task shimPid rest) (.scanning totals rest)
        task.taskId (.markDispatched shimPid)
  | failed {totals task reservation message rest} :
      DispatchWrite svc now (.failing totals task reservation message rest)
        (.persisting (totals.refund reservation) task.taskId rest) task.taskId
        (.completeTask (shimSpawnFailed now message))

theorem DispatchStep.write {svc : RuntimeService} {now : Timestamp} {outcome : SpawnOutcome}
    {db db' : Db} {committed : Option StoreCall} {d d' : Dispatcher}
    (h : DispatchStep svc now outcome db committed db' d d') {taskId : TaskId} {w : TaskWrite}
    (hcommitted : committed = some (.write taskId w)) : DispatchWrite svc now d d' taskId w := by
  cases h with
  | cancelled _ => cases hcommitted; exact .cancelled
  | reserved hdecision _ => cases hcommitted; exact .reserved hdecision
  | dispatched _ => cases hcommitted; exact .dispatched
  | failed _ => cases hcommitted; exact .failed
  | _ => exact absurd ‹_› (Move.not_quiet_write hcommitted)

/-- A cycle reserves for the task it considers, if that one was idle when listed. -/
theorem DispatchWrite.reserves {svc : RuntimeService} {now : Timestamp} {d d' : Dispatcher}
    {taskId : TaskId} {w : TaskWrite} (h : DispatchWrite svc now d d' taskId w)
    (hw : w.reserves = true) :
    ∃ task, d.pending = task :: d'.pending ∧ task.taskId = taskId ∧
      task.hasActiveReservation = false ∧ w.reservesFor task := by
  cases h with
  | reserved hdecision =>
    obtain ⟨hrequested, hidle, _⟩ := consider_eq_reserve hdecision
    exact ⟨_, rfl, rfl, hidle, _, _, rfl, .inl hrequested⟩
  | _ => cases hw

/-- A step of the recovery pass. -/
inductive RecoverStep (now : Timestamp) (alive : ℕ → Bool) (db : Db) :
    Option StoreCall → Db → Recovery → Recovery → Prop
  | stop {c r} (e : AppError) : Move.Quiet c → RecoverStep now alive db c db r (.failed e)
  | listed {c} : Move.Quiet c →
      RecoverStep now alive db c db .listing (.scanning db.listNonTerminal)
  | finished {c} : Move.Quiet c → RecoverStep now alive db c db (.scanning []) .finished
  | skipped {c task rest} : Move.Quiet c → task.status ≠ .running →
      RecoverStep now alive db c db (.scanning (task :: rest)) (.scanning rest)
  | released {task rest db' message} : task.status = .accepted →
      task.hasActiveReservation = true →
      (TaskWrite.releaseResources message).run now task.taskId db = .ok db' →
      RecoverStep now alive db (some (.write task.taskId (.releaseResources message))) db'
        (.scanning (task :: rest)) (.scanning rest)
  | reserved {task rest db' message} : task.status = .running →
      Recovery.shimAlive alive task = true → task.hasActiveReservation = false →
      (TaskWrite.reserveResources (.fromLimits task.limits) message).run now task.taskId db =
        .ok db' →
      RecoverStep now alive db
        (some (.write task.taskId (.reserveResources (.fromLimits task.limits) message))) db'
        (.scanning (task :: rest)) (.recovering task.taskId rest)
  | kept {task rest db'} : task.status = .running → Recovery.shimAlive alive task = true →
      task.hasActiveReservation = true →
      TaskWrite.markRecovered.run now task.taskId db = .ok db' →
      RecoverStep now alive db (some (.write task.taskId .markRecovered)) db'
        (.scanning (task :: rest)) (.scanning rest)
  | recovered {taskId rest db'} : TaskWrite.markRecovered.run now taskId db = .ok db' →
      RecoverStep now alive db (some (.write taskId .markRecovered)) db'
        (.recovering taskId rest) (.scanning rest)
  | lost {task rest db'} : task.status = .running → Recovery.shimAlive alive task = false →
      (TaskWrite.completeTask (recoveryLost now)).run now task.taskId db = .ok db' →
      RecoverStep now alive db (some (.write task.taskId (.completeTask (recoveryLost now)))) db'
        (.scanning (task :: rest)) (.persisting task.taskId rest)
  | persisted {c taskId rest} : Move.Quiet c →
      RecoverStep now alive db c db (.persisting taskId rest) (.scanning rest)

/-- The rows of the pass that are still to be handled. -/
def Recovery.pending : Recovery → List TaskRecord
  | listing | finished | failed _ => []
  | scanning tasks | recovering _ tasks | persisting _ tasks => tasks

theorem RecoverStep.pending {now : Timestamp} {alive : ℕ → Bool} {db db' : Db}
    {committed : Option StoreCall} {r r' : Recovery}
    (h : RecoverStep now alive db committed db' r r') :
    r'.pending.Sublist r.pending ∨ (db' = db ∧ r'.pending = db.listNonTerminal) := by
  cases h with
  | stop _ _ => exact .inl (List.nil_sublist _)
  | listed _ => exact .inr ⟨rfl, rfl⟩
  | finished _ => exact .inl (List.nil_sublist _)
  | skipped _ _ => exact .inl (List.sublist_cons_self _ _)
  | released _ _ _ => exact .inl (List.sublist_cons_self _ _)
  | reserved _ _ _ _ => exact .inl (List.sublist_cons_self _ _)
  | kept _ _ _ _ => exact .inl (List.sublist_cons_self _ _)
  | recovered _ => exact .inl (List.Sublist.refl _)
  | lost _ _ _ => exact .inl (List.sublist_cons_self _ _)
  | persisted _ => exact .inl (List.Sublist.refl _)

/-- The writes of the recovery pass. -/
inductive RecoverWrite (now : Timestamp) (alive : ℕ → Bool) :
    Recovery → Recovery → TaskId → TaskWrite → Prop
  | released {task rest} (message : String) : task.status = .accepted →
      task.hasActiveReservation = true →
      RecoverWrite now alive (.scanning (task :: rest)) (.scanning rest) task.taskId
        (.releaseResources message)
  | reserved {task rest} (message : String) : task.status = .running →
      Recovery.shimAlive alive task = true → task.hasActiveReservation = false →
      RecoverWrite now alive (.scanning (task :: rest)) (.recovering task.taskId rest) task.taskId
        (.reserveResources (.fromLimits task.limits) message)
  | kept {task rest} : task.status = .running → Recovery.shimAlive alive task = true →
      task.hasActiveReservation = true →
      RecoverWrite now alive (.scanning (task :: rest)) (.scanning rest) task.taskId .markRecovered
  | recovered {taskId rest} :
      RecoverWrite now alive (.recovering taskId rest) (.scanning rest) taskId .markRecovered
  | lost {task rest} : task.status = .running → Recovery.shimAlive alive task = false →
      RecoverWrite now alive (.scanning (task :: rest)) (.persisting task.taskId rest) task.taskId
        (.completeTask (recoveryLost now))

theorem RecoverStep.write {now : Timestamp} {alive : ℕ → Bool} {db db' : Db}
    {committed : Option StoreCall} {r r' : Recovery}
    (h : RecoverStep now alive db committed db' r r') {taskId : TaskId} {w : TaskWrite}
    (hcommitted : committed = some (.write taskId w)) : RecoverWrite now alive r r' taskId w := by
  cases h with
  | released hstatus hactive _ => cases hcommitted; exact .released _ hstatus hactive
  | reserved hstatus halive hidle _ => cases hcommitted; exact .reserved _ hstatus halive hidle
  | kept hstatus halive hactive _ => cases hcommitted; exact .kept hstatus halive hactive
  | recovered _ => cases hcommitted; exact .recovered
  | lost hstatus hdead _ => cases hcommitted; exact .lost hstatus hdead
  | _ => exact absurd ‹_› (Move.not_quiet_write hcommitted)

/-- The pass reserves for the row it handles, if that one was idle when listed. -/
theorem RecoverWrite.reserves {now : Timestamp} {alive : ℕ → Bool} {r r' : Recovery}
    {taskId : TaskId} {w : TaskWrite} (h : RecoverWrite now alive r r' taskId w)
    (hw : w.reserves = true) :
    ∃ task, r.pending = task :: r'.pending ∧ task.taskId = taskId ∧
      task.hasActiveReservation = false ∧ w.reservesFor task := by
  cases h with
  | reserved _ _ _ hidle => exact ⟨_, rfl, rfl, hidle, _, _, rfl, .inr rfl⟩
  | _ => cases hw

theorem Recovery.move_cases {now : Timestamp} {alive : ℕ → Bool} {db db' : Db}
    {failure : Option AppError} {committed : Option StoreCall} {r r' : Recovery} {m : Move Recovery}
    (hmove : r.move now alive = some m) (h : Move.Outcome m now failure db committed db' r') :
    RecoverStep now alive db committed db' r r' := by
  cases r with
  | listing =>
    cases hmove
    obtain ⟨hquiet, rfl, ⟨tasks, htasks, rfl, _⟩ | ⟨e, rfl, _⟩⟩ := Move.outcome_query h
    · cases htasks
      exact .listed hquiet
    · exact .stop e hquiet
  | scanning tasks =>
    cases tasks with
    | nil =>
      cases hmove
      obtain ⟨hquiet, rfl, rfl⟩ := Move.outcome_silent h
      exact .finished hquiet
    | cons task rest =>
      cases hmove
      unfold Recovery.handle at h
      split at h
      · rename_i hstatus
        split at h
        · rename_i hactive
          rcases Move.outcome_write h with ⟨hquiet, rfl, e, rfl, _⟩ | ⟨rfl, hrun, rfl, _⟩
          · exact .stop e hquiet
          · exact .released hstatus hactive hrun
        · obtain ⟨hquiet, rfl, rfl⟩ := Move.outcome_silent h
          exact .skipped hquiet (by simp [hstatus])
      · rename_i hstatus
        split at h
        · rename_i halive
          split at h
          · rename_i hactive
            rcases Move.outcome_write h with ⟨hquiet, rfl, e, rfl, _⟩ | ⟨rfl, hrun, rfl, _⟩
            · exact .stop e hquiet
            · exact .kept hstatus halive hactive hrun
          · rename_i hactive
            rcases Move.outcome_write h with ⟨hquiet, rfl, e, rfl, _⟩ | ⟨rfl, hrun, rfl, _⟩
            · exact .stop e hquiet
            · exact .reserved hstatus halive (by simpa using hactive) hrun
        · rename_i halive
          rcases Move.outcome_write h with ⟨hquiet, rfl, e, rfl, _⟩ | ⟨rfl, hrun, rfl, _⟩
          · exact .stop e hquiet
          · exact .lost hstatus (by simpa using halive) hrun
      all_goals
        rename_i hstatus
        obtain ⟨hquiet, rfl, rfl⟩ := Move.outcome_silent h
        exact .skipped hquiet (by simp [hstatus])
  | recovering taskId rest =>
    cases hmove
    rcases Move.outcome_write h with ⟨hquiet, rfl, e, rfl, _⟩ | ⟨rfl, hrun, rfl, _⟩
    · exact .stop e hquiet
    · exact .recovered hrun
  | persisting taskId rest =>
    cases hmove
    obtain ⟨hquiet, rfl, ⟨row, _, rfl, _⟩ | ⟨e, rfl, _⟩⟩ := Move.outcome_query h
    · exact .persisted hquiet
    · exact .stop e hquiet
  | finished => cases hmove
  | failed e => cases hmove

/-- The choices under which a shim whose workload runs can fail for good. -/
def ShimChoice.mayFail : ShimChoice → Bool
  | .proceed | .tick _ | .waitFailed _ => true
  | _ => false

/-- Why a step of a shim can fail. -/
inductive ShimFailure (failure : Option AppError) (choice : ShimChoice) (db : Db) (shim : Shim) :
    Prop
  | call : failure.isSome = true → ShimFailure failure choice db shim
  | absent : db.tasks.find shim.taskId = none → ShimFailure failure choice db shim
  | wait (e : AppError) : choice = .waitFailed e → ShimFailure failure choice db shim
  | completion (update : CompletionUpdate) : shim.state = .completing update →
      ShimFailure failure choice db shim

/-- The environment lets a step with a call succeed. -/
structure ShimSuccess (failure : Option AppError) (choice : ShimChoice) (db : Db) (shim : Shim) :
    Prop where
  call : failure = none
  present : ∃ row, db.tasks.find shim.taskId = some row
  choice : choice = .proceed ∨ ∃ elapsed, choice = .tick elapsed

/-- A step of a shim. -/
inductive ShimStep (now : Timestamp) (failure : Option AppError) (choice : ShimChoice) (db : Db)
    (shim : Shim) : Option StoreCall → Db → Shim → Prop
  | failed {c} (e : AppError) : Move.Quiet c → shim.alive = true →
      choice.mayFail = true ∨ shim.unreaped = false → ShimFailure failure choice db shim →
      ShimStep now failure choice db shim c db (shim.fail e)
  | loaded {c task} : Move.Quiet c → shim.state = .starting →
      db.tasks.find shim.taskId = some task →
      ShimStep now failure choice db shim c db (shim.load now task)
  | notSpawned {c task plan} (e : AppError) : Move.Quiet c → shim.state = .launching task plan →
      ShimStep now failure choice db shim c db
        { shim with state := .completing (launchFailure now e) }
  | spawned {c task plan pid} : Move.Quiet c → shim.state = .launching task plan →
      choice = .spawned pid →
      ShimStep now failure choice db shim c db (shim.spawn task plan pid)
  | confined {c plan scriptPath} : Move.Quiet c → shim.state = .confining plan scriptPath →
      choice = .confined none →
      ShimStep now failure choice db shim c db { shim with state := .launched plan scriptPath }
  | notConfined {c plan scriptPath} (e : AppError) : Move.Quiet c →
      shim.state = .confining plan scriptPath → choice = .confined (some e) →
      ShimStep now failure choice db shim c db
        { shim with state := .completing (launchFailure now (Shim.confineError e)) }
  | started {plan scriptPath workload db'} : ShimSuccess failure choice db shim →
      shim.state = .launched plan scriptPath →
      shim.workload = some workload →
      (TaskWrite.markStarted workload.pid workload.pid scriptPath).run now shim.taskId db =
        .ok db' →
      ShimStep now failure choice db shim
        (some (.write shim.taskId (.markStarted workload.pid workload.pid scriptPath))) db'
        { shim with state := .reloading plan }
  | reloaded {c plan} : Move.Quiet c → ShimSuccess failure choice db shim →
      shim.state = .reloading plan →
      ShimStep now failure choice db shim c db { shim with state := .supervising { plan } }
  | polled {c s} (s' : Supervision) : Move.Quiet c → ShimSuccess failure choice db shim →
      shim.state = .supervising s →
      ShimStep now failure choice db shim c db { shim with state := .supervising s' }
  | timeoutDue {c s} (elapsed : ℕ) (cancelRequested : Bool) : Move.Quiet c →
      ShimSuccess failure choice db shim → shim.state = .supervising s →
      ShimStep now failure choice db shim c db
        { shim with state := .timingOut s elapsed cancelRequested }
  | timedOut {s elapsed cancelRequested db'} (s' : Supervision) :
      ShimSuccess failure choice db shim →
      shim.state = .timingOut s elapsed cancelRequested →
      TaskWrite.markTimeoutTriggered.run now shim.taskId db = .ok db' →
      ShimStep now failure choice db shim (some (.write shim.taskId .markTimeoutTriggered)) db'
        { shim with state := .supervising s' }
  | reaped {c} (usage : WaitUsage) : Move.Quiet c → choice = .reaped usage →
      ((∃ s, shim.state = .supervising s) ∨ ∃ s elapsed b, shim.state = .timingOut s elapsed b) →
      ShimStep now failure choice db shim c db (shim.reap usage)
  | collected {c s} (update : CompletionUpdate) : Move.Quiet c → shim.state = .supervising s →
      shim.unreaped = false →
      ShimStep now failure choice db shim c db { shim with state := .completing update }
  | completed {update db'} : shim.state = .completing update →
      (TaskWrite.completeTask update).run now shim.taskId db = .ok db' →
      ShimStep now failure choice db shim (some (.write shim.taskId (.completeTask update))) db'
        { shim with state := .persisting }
  | persisted {c} : Move.Quiet c → shim.state = .persisting →
      ShimStep now failure choice db shim c db (shim.exit (.ok ()))

/-- The writes of a shim; they go to its own row. -/
inductive ShimWrite (shim : Shim) : Shim → TaskWrite → Prop
  | started {plan scriptPath} (workload : Workload) : shim.state = .launched plan scriptPath →
      ShimWrite shim { shim with state := .reloading plan }
        (.markStarted workload.pid workload.pid scriptPath)
  | timedOut {s elapsed cancelRequested} (s' : Supervision) :
      shim.state = .timingOut s elapsed cancelRequested →
      ShimWrite shim { shim with state := .supervising s' } .markTimeoutTriggered
  | completed (update : CompletionUpdate) : shim.state = .completing update →
      ShimWrite shim { shim with state := .persisting } (.completeTask update)

theorem ShimStep.call {now : Timestamp} {failure : Option AppError} {choice : ShimChoice}
    {db db' : Db} {committed : Option StoreCall} {shim shim' : Shim}
    (h : ShimStep now failure choice db shim committed db' shim') {call : StoreCall}
    (hcall : committed = some call) :
    call = .read ∨ ∃ w, call = .write shim.taskId w ∧ ShimWrite shim shim' w := by
  cases h with
  | started _ hstate _ _ => exact .inr ⟨_, (Option.some.inj hcall).symm, .started _ hstate⟩
  | timedOut s' _ hstate _ => exact .inr ⟨_, (Option.some.inj hcall).symm, .timedOut s' hstate⟩
  | completed hstate _ => exact .inr ⟨_, (Option.some.inj hcall).symm, .completed _ hstate⟩
  | _ => exact .inl (Move.Quiet.call_eq ‹_› hcall)

theorem ShimFailure.of_get {failure : Option AppError} {choice : ShimChoice} {db : Db} {shim : Shim}
    {e : AppError} (h : failure = some e ∨ db.getTask shim.taskId = .error e) :
    ShimFailure failure choice db shim := by
  rcases h with rfl | herror
  · exact .call rfl
  · refine .absent ?_
    unfold Db.getTask at herror
    split at herror
    · cases herror
    · assumption

theorem ShimFailure.of_cancelRequested {failure : Option AppError} {choice : ShimChoice} {db : Db}
    {shim : Shim} {e : AppError}
    (h : failure = some e ∨ db.isCancelRequested shim.taskId = .error e) :
    ShimFailure failure choice db shim := by
  rcases h with rfl | herror
  · exact .call rfl
  · refine .absent ?_
    unfold Db.isCancelRequested at herror
    split at herror
    · cases herror
    · assumption

/-- A write that is one update and one event fails on an absent row only. -/
theorem ShimFailure.of_event {failure : Option AppError} {choice : ShimChoice} {db : Db}
    {shim : Shim} {e : AppError} {now : Timestamp} {set : TaskRecord → TaskRecord}
    {hset : KeyedTable.KeepsKey TaskRecord.taskId set} {eventType : EventType}
    {message : Option String} {data : Option EventData}
    (h : failure = some e ∨ (db.updateTask shim.taskId set hset).insertEvent now shim.taskId
      eventType message data = .error e) :
    ShimFailure failure choice db shim := by
  rcases h with rfl | herror
  · exact .call rfl
  · refine .absent ?_
    unfold Db.insertEvent at herror
    split at herror
    · cases herror
    · rename_i habsent
      simpa using habsent

theorem Shim.move_cases {graceMs : ℕ} {now : Timestamp} {failure : Option AppError}
    {choice : ShimChoice} {db db' : Db} {committed : Option StoreCall} {shim shim' : Shim}
    {m : Move Shim} (hmove : shim.move graceMs now choice = some m)
    (h : Move.Outcome m now failure db committed db' shim') :
    ShimStep now failure choice db shim committed db' shim' := by
  unfold Shim.move at hmove
  split at hmove
  case h_1 hstate =>
    cases hmove
    obtain ⟨hquiet, rfl, ⟨row, hrow, rfl, hdone⟩ | ⟨e, rfl, hcause⟩⟩ := Move.outcome_query h
    · exact .loaded hquiet hstate ((db'.getTask_eq_ok_iff _ _).mp hrow)
    · exact .failed e hquiet (by simp [Shim.alive, hstate]) (.inl rfl) (.of_get hcause)
  case h_2 e hstate =>
    cases hmove
    obtain ⟨hquiet, rfl, rfl⟩ := Move.outcome_silent h
    exact .notSpawned e hquiet hstate
  case h_3 task plan pid hstate =>
    cases hmove
    obtain ⟨hquiet, rfl, rfl⟩ := Move.outcome_silent h
    exact .spawned hquiet hstate rfl
  case h_4 plan scriptPath hstate =>
    cases hmove
    obtain ⟨hquiet, rfl, rfl⟩ := Move.outcome_silent h
    exact .confined hquiet hstate rfl
  case h_5 e hstate =>
    cases hmove
    obtain ⟨hquiet, rfl, rfl⟩ := Move.outcome_silent h
    exact .notConfined e hquiet hstate rfl
  case h_6 plan scriptPath hstate =>
    obtain ⟨workload, hworkload, rfl⟩ := Option.map_eq_some_iff.mp hmove
    rcases Move.outcome_write h with ⟨hquiet, rfl, e, rfl, hcause⟩ | ⟨rfl, hrun, rfl, hdone⟩
    · exact .failed e hquiet (by simp [Shim.alive, hstate]) (.inl rfl) (.of_event hcause)
    · exact .started ⟨hdone, TaskWrite.find_of_run rfl hrun, .inl rfl⟩ hstate hworkload hrun
  case h_7 plan hstate =>
    cases hmove
    obtain ⟨hquiet, rfl, ⟨row, hrow, rfl, hdone⟩ | ⟨e, rfl, hcause⟩⟩ := Move.outcome_query h
    · exact .reloaded hquiet ⟨hdone, ⟨row, (db'.getTask_eq_ok_iff _ _).mp hrow⟩, .inl rfl⟩ hstate
    · exact .failed e hquiet (by simp [Shim.alive, hstate]) (.inl rfl) (.of_get hcause)
  case h_8 s elapsed hstate =>
    cases hmove
    obtain ⟨hquiet, rfl, ⟨cancelRequested, hread, rfl, hdone⟩ | ⟨e, rfl, hcause⟩⟩ :=
      Move.outcome_query h
    · have hsuccess : ShimSuccess failure (.tick elapsed) db' shim :=
        ⟨hdone, Db.find_of_isCancelRequested hread, .inr ⟨elapsed, rfl⟩⟩
      by_cases hdue : s.timeoutDue elapsed = true
      · simp only [hdue]
        exact .timeoutDue elapsed cancelRequested hquiet hsuccess hstate
      · simp only [hdue]
        exact .polled _ hquiet hsuccess hstate
    · exact .failed e hquiet (by simp [Shim.alive, hstate]) (.inl rfl) (.of_cancelRequested hcause)
  case h_9 s elapsed cancelRequested hstate =>
    cases hmove
    rcases Move.outcome_write h with ⟨hquiet, rfl, e, rfl, hcause⟩ | ⟨rfl, hrun, rfl, hdone⟩
    · exact .failed e hquiet (by simp [Shim.alive, hstate]) (.inl rfl) (.of_event hcause)
    · exact .timedOut _ ⟨hdone, TaskWrite.find_of_run rfl hrun, .inl rfl⟩ hstate hrun
  case h_10 s usage hstate =>
    split at hmove
    · cases hmove
      obtain ⟨hquiet, rfl, rfl⟩ := Move.outcome_silent h
      exact .reaped usage hquiet rfl (.inl ⟨s, hstate⟩)
    · cases hmove
  case h_11 s elapsed b usage hstate =>
    split at hmove
    · cases hmove
      obtain ⟨hquiet, rfl, rfl⟩ := Move.outcome_silent h
      exact .reaped usage hquiet rfl (.inr ⟨s, elapsed, b, hstate⟩)
    · cases hmove
  case h_12 e hstate =>
    split at hmove
    · cases hmove
      obtain ⟨hquiet, rfl, rfl⟩ := Move.outcome_silent h
      exact .failed e hquiet (by simp [Shim.alive, hstate]) (.inl rfl) (.wait e rfl)
    · cases hmove
  case h_13 s elapsed memoryPeakBytes oomKilled hstate =>
    obtain ⟨usage, husage, rfl⟩ := Option.map_eq_some_iff.mp hmove
    have hreaped : shim.unreaped = false := by
      obtain ⟨workload, hworkload, hwaited⟩ := Option.bind_eq_some_iff.mp husage
      simp [Shim.unreaped, hworkload, hwaited]
    unfold Shim.collect at h
    split at h
    · obtain ⟨hquiet, rfl, rfl⟩ := Move.outcome_silent h
      exact .collected _ hquiet hstate hreaped
    · obtain ⟨hquiet, rfl, ⟨cancelled, _, rfl, hdone⟩ | ⟨e, rfl, hcause⟩⟩ := Move.outcome_query h
      · exact .collected _ hquiet hstate hreaped
      · exact .failed e hquiet (by simp [Shim.alive, hstate]) (.inr hreaped)
          (.of_cancelRequested hcause)
  case h_14 update hstate =>
    cases hmove
    rcases Move.outcome_write h with ⟨hquiet, rfl, e, rfl, hcause⟩ | ⟨rfl, hrun, rfl, hdone⟩
    · exact .failed e hquiet (by simp [Shim.alive, hstate]) (.inl rfl) (.completion update hstate)
    · exact .completed hstate hrun
  case h_15 hstate =>
    cases hmove
    obtain ⟨hquiet, rfl, ⟨row, _, rfl, hdone⟩ | ⟨e, rfl, hcause⟩⟩ := Move.outcome_query h
    · exact .persisted hquiet hstate
    · exact .failed e hquiet (by simp [Shim.alive, hstate]) (.inl rfl) (.of_get hcause)
  case h_16 => cases hmove

/-- A shim works on one task only. -/
theorem ShimStep.taskId {now : Timestamp} {failure : Option AppError} {choice : ShimChoice}
    {db db' : Db} {committed : Option StoreCall} {shim shim' : Shim}
    (h : ShimStep now failure choice db shim committed db' shim') : shim'.taskId = shim.taskId := by
  cases h with
  | loaded _ _ _ =>
    unfold Shim.load
    split
    · rfl
    · split <;> rfl
  | _ => rfl

end ExecgoRuntime
