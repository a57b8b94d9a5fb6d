import ExecgoRuntime.Scopes
import ExecgoRuntime.Stranding

/-!
A dispatch cycle that nobody interrupts. Its two reads see one store, and from
there on the cycle is a run of its own: every step takes what the outside
answers (the clock, the error of a store call, what comes of a spawn) and moves
the store and the loop. `CycleStep` lists the steps of the loop with all that
each of them depends on.
-/
namespace ExecgoRuntime

open KeyedTable

/-- What the outside answers a step of the cycle with. -/
structure CycleAnswer where
  now : Timestamp := 0
  failure : Option AppError := none
  outcome : SpawnOutcome

/-- The store and the cycle. -/
abbrev LoneCycle := Db × Dispatcher

namespace LoneCycle

/-- The task loop of a cycle that has read this store. -/
def loopHead (svc : RuntimeService) (db : Db) : LoneCycle :=
  (db, .scanning (.ofActive svc.ledger db.listActiveReservations)
    (db.listAccepted svc.settings.maxQueuedTasks))

/-- A step of the task loop. It ends in `idle`. -/
def step (svc : RuntimeService) (s : LoneCycle) (a : CycleAnswer) : Option LoneCycle :=
  match s.2 with
  | .idle | .listing _ => none
  | d => some ((d.move svc a.now a.outcome).run a.now a.failure s.1)

/-- The task that the step reserves. -/
def reservedTask (svc : RuntimeService) (s : LoneCycle) (a : CycleAnswer) : Option TaskId :=
  ((s.2.move svc a.now a.outcome).committed a.now a.failure s.1).bind StoreCall.reservedTask

/-- The loop begins where the two reads of a cycle lead. -/
theorem run_reads (svc : RuntimeService) (db : Db) (now now' : Timestamp)
    (outcome outcome' : SpawnOutcome) :
    ((((Dispatcher.idle.move svc now outcome).run now none db).2.move svc now' outcome').run now'
      none db) = loopHead svc db := rfl

/-- A step of the dispatcher in the system is a step of the loop. -/
theorem step_of_world {svc : RuntimeService} {w w' : World} {e : Event} {outcome : SpawnOutcome}
    {d : Dispatcher} (hstep : w.step svc e = some w') (haction : e.action = .dispatch outcome)
    (hserver : w.procs.server = .serving d) (hidle : d ≠ .idle) (hlisted : d.hasListed = true) :
    ∃ d', w'.procs.server = .serving d' ∧
      step svc (w.db, d) ⟨e.now, e.failure, outcome⟩ = some (w'.db, d') := by
  have hloop : step svc (w.db, d) ⟨e.now, e.failure, outcome⟩ =
      some ((d.move svc e.now outcome).run e.now e.failure w.db) := by
    cases d with
    | idle => exact absurd rfl hidle
    | listing totals => cases hlisted
    | _ => rfl
  obtain ⟨m, hm, rfl⟩ := Option.map_eq_some_iff.mp hstep
  unfold Procs.move at hm
  split at hm
  · unfold Procs.actorMove at hm
    rw [haction, hserver] at hm
    cases hm
    rw [Move.run_map]
    exact ⟨_, rfl, hloop⟩
  · cases hm

end LoneCycle

/-- The task that the cycle has at hand. -/
def Dispatcher.subject : Dispatcher → Option TaskId
  | .idle | .listing _ | .scanning _ [] => none
  | .scanning _ (task :: _) | .launching _ task _ _ | .dispatching _ task _ _
  | .failing _ task _ _ _ => some task.taskId
  | .persisting _ taskId _ => some taskId

namespace LoneCycle

/-- What breaks a loop off: a store call that fails, a process that cannot find
its executable, or a task without row. -/
def Breaks (s : LoneCycle) (a : CycleAnswer) : Prop :=
  (∃ e, a.failure = some e) ∨ (∃ message, a.outcome = .noExecutable message) ∨
    ∃ taskId, s.2.subject = some taskId ∧ s.1.tasks.find taskId = none

/-- The steps of the loop, with the task that a step reserves. -/
inductive CycleStep (svc : RuntimeService) (a : CycleAnswer) :
    LoneCycle → Option TaskId → LoneCycle → Prop
  | returned {db totals} : CycleStep svc a (db, .scanning totals []) none (db, .idle)
  | broken {db d} : Breaks (db, d) a → CycleStep svc a (db, d) none (db, .idle)
  | skipped {db totals task rest} : consider svc.ledger totals task = .skip →
      CycleStep svc a (db, .scanning totals (task :: rest)) none (db, .scanning totals rest)
  | cancelled {db db' totals task rest} : consider svc.ledger totals task = .cancel →
      (TaskWrite.cancelAcceptedTask cancelledBeforeExecution).run a.now task.taskId db =
        .ok db' →
      CycleStep svc a (db, .scanning totals (task :: rest)) none
        (db', .persisting totals task.taskId rest)
  | reserved {db db' totals task rest reservation} :
      consider svc.ledger totals task = .reserve reservation →
      (TaskWrite.reserveResources reservation "task resources reserved").run a.now task.taskId db =
        .ok db' →
      CycleStep svc a (db, .scanning totals (task :: rest)) (some task.taskId)
        (db', .launching (totals.charge svc.ledger task.tenant reservation) task reservation rest)
  | spawned {db totals task reservation rest pid} : a.outcome = .spawned pid →
      CycleStep svc a (db, .launching totals task reservation rest) none
        (db, .dispatching totals task pid rest)
  | notSpawned {db totals task reservation rest message} : a.outcome = .spawnFailed message →
      CycleStep svc a (db, .launching totals task reservation rest) none
        (db, .failing totals task reservation message rest)
  | dispatched {db db' totals task shimPid rest} :
      (TaskWrite.markDispatched shimPid).run a.now task.taskId db = .ok db' →
      CycleStep svc a (db, .dispatching totals task shimPid rest) none (db', .scanning totals rest)
  | failed {db db' totals task reservation message rest} :
      (TaskWrite.completeTask (shimSpawnFailed a.now message)).run a.now task.taskId db =
        .ok db' →
      CycleStep svc a (db, .failing totals task reservation message rest) none
        (db', .persisting (totals.refund reservation) task.taskId rest)
  | persisted {db totals taskId rest} :
      CycleStep svc a (db, .persisting totals taskId rest) none (db, .scanning totals rest)

section Steps

variable {svc : RuntimeService} {s s' : LoneCycle} {a : CycleAnswer}

/-- A write that fails breaks the loop off. -/
private theorem breaks_of_write {db : Db} {d : Dispatcher} {taskId : TaskId} {w : TaskWrite}
    {e : AppError} (hw : w.persistable = true) (hsubject : d.subject = some taskId)
    (h : a.failure = some e ∨ w.run a.now taskId db = .error e) : Breaks (db, d) a := by
  rcases h with hfailure | herror
  · exact .inl ⟨e, hfailure⟩
  · refine .inr (.inr ⟨taskId, hsubject, ?_⟩)
    cases hrow : db.tasks.find taskId with
    | none => rfl
    | some row =>
      obtain ⟨db', hok⟩ := TaskWrite.run_ok hw a.now hrow
      rw [hok] at herror
      cases herror

/-- A step is a move of the dispatcher. -/
theorem step_outcome (h : step svc s a = some s') :
    ∃ committed, reservedTask svc s a = committed.bind StoreCall.reservedTask ∧
      s.2 ≠ .idle ∧ s.2.hasListed = true ∧
      Move.Outcome (s.2.move svc a.now a.outcome) a.now a.failure s.1 committed s'.1 s'.2 := by
  have hout := (s.2.move svc a.now a.outcome).outcome_run a.now a.failure s.1
  obtain ⟨db, d⟩ := s
  cases d with
  | idle => cases h
  | listing totals => cases h
  | _ =>
    cases h
    exact ⟨_, rfl, nofun, rfl, hout⟩

theorem step_cases (h : step svc s a = some s') :
    CycleStep svc a s (reservedTask svc s a) s' := by
  obtain ⟨committed, hreserved, hidle, hlisted, hout⟩ := step_outcome h
  rw [hreserved]
  obtain ⟨db, d⟩ := s
  obtain ⟨db', d'⟩ := s'
  cases d with
  | idle => exact absurd rfl hidle
  | listing totals => cases hlisted
  | scanning totals tasks =>
    cases tasks with
    | nil =>
      obtain ⟨hquiet, rfl, rfl⟩ := Move.outcome_silent hout
      rw [StoreCall.reservedTask_of_quiet hquiet]
      exact .returned
    | cons task rest =>
      simp only [Dispatcher.move] at hout
      cases hdecision : consider svc.ledger totals task with
      | skip =>
        rw [hdecision] at hout
        obtain ⟨hquiet, rfl, rfl⟩ := Move.outcome_silent hout
        rw [StoreCall.reservedTask_of_quiet hquiet]
        exact .skipped hdecision
      | cancel =>
        rw [hdecision] at hout
        rcases Move.outcome_write hout with ⟨hquiet, rfl, e, rfl, hcause⟩ | ⟨rfl, hwrite, rfl, _⟩
        · rw [StoreCall.reservedTask_of_quiet hquiet]
          exact .broken (breaks_of_write rfl rfl hcause)
        · exact .cancelled hdecision hwrite
      | reserve reservation =>
        rw [hdecision] at hout
        rcases Move.outcome_write hout with ⟨hquiet, rfl, e, rfl, hcause⟩ | ⟨rfl, hwrite, rfl, _⟩
        · rw [StoreCall.reservedTask_of_quiet hquiet]
          exact .broken (breaks_of_write rfl rfl hcause)
        · exact .reserved hdecision hwrite
  | launching totals task reservation rest =>
    simp only [Dispatcher.move] at hout
    cases houtcome : a.outcome with
    | spawned pid =>
      rw [houtcome] at hout
      obtain ⟨hquiet, rfl, rfl⟩ := Move.outcome_silent hout
      rw [StoreCall.reservedTask_of_quiet hquiet]
      exact .spawned houtcome
    | spawnFailed message =>
      rw [houtcome] at hout
      obtain ⟨hquiet, rfl, rfl⟩ := Move.outcome_silent hout
      rw [StoreCall.reservedTask_of_quiet hquiet]
      exact .notSpawned houtcome
    | noExecutable message =>
      rw [houtcome] at hout
      obtain ⟨hquiet, rfl, rfl⟩ := Move.outcome_silent hout
      rw [StoreCall.reservedTask_of_quiet hquiet]
      exact .broken (.inr (.inl ⟨message, houtcome⟩))
  | dispatching totals task shimPid rest =>
    rcases Move.outcome_write hout with ⟨hquiet, rfl, e, rfl, hcause⟩ | ⟨rfl, hwrite, rfl, _⟩
    · rw [StoreCall.reservedTask_of_quiet hquiet]
      exact .broken (breaks_of_write rfl rfl hcause)
    · exact .dispatched hwrite
  | failing totals task reservation message rest =>
    rcases Move.outcome_write hout with ⟨hquiet, rfl, e, rfl, hcause⟩ | ⟨rfl, hwrite, rfl, _⟩
    · rw [StoreCall.reservedTask_of_quiet hquiet]
      exact .broken (breaks_of_write rfl rfl hcause)
    · exact .failed hwrite
  | persisting totals taskId rest =>
    obtain ⟨hquiet, rfl, ⟨row, _, rfl, _⟩ | ⟨e, rfl, hcause⟩⟩ := Move.outcome_query hout
    · rw [StoreCall.reservedTask_of_quiet hquiet]
      exact .persisted
    · rw [StoreCall.reservedTask_of_quiet hquiet]
      refine .broken ?_
      rcases hcause with hfailure | hmissing
      · exact .inl ⟨e, hfailure⟩
      · refine .inr (.inr ⟨taskId, rfl, ?_⟩)
        cases hrow : db'.tasks.find taskId with
        | none => rfl
        | some row =>
          rw [(db'.getTask_eq_ok_iff taskId row).mpr hrow] at hmissing
          cases hmissing

end Steps

/-- The loop on the store that some events lead to from an empty one. Each of its
steps has to pass a check. -/
def execute (svc : RuntimeService) (check : LoneCycle → CycleAnswer → Bool) (labels : List Event)
    (answers : List CycleAnswer) : Option (Db × LoneCycle) :=
  (World.execute svc (fun _ _ => true) labels).bind (fun w =>
    (Runs.exec (Runs.checked check (step svc)) (loopHead svc w.db) answers).map
      (fun s => (w.db, s)))

theorem exists_run_of_execute {svc : RuntimeService} {check : LoneCycle → CycleAnswer → Bool}
    {labels : List Event} {answers : List CycleAnswer} {test : Db × LoneCycle → Bool}
    (h : (execute svc check labels answers).any test = true) :
    ∃ db trace last, Runs.Run (step svc) (loopHead svc db) trace last ∧
      trace.map Prod.snd = answers ∧ (∀ x ∈ trace, check x.1 x.2 = true) ∧
      test (db, last) = true := by
  obtain ⟨⟨db, last⟩, hexec, htest⟩ := (Option.any_eq_true _ _).mp h
  obtain ⟨w, _, hloop⟩ := Option.bind_eq_some_iff.mp hexec
  obtain ⟨s, hs, heq⟩ := Option.map_eq_some_iff.mp hloop
  cases heq
  obtain ⟨trace, hrun, hanswers⟩ := Runs.run_of_exec hs
  obtain ⟨hrun', hcheck⟩ := hrun.of_checked
  exact ⟨w.db, trace, _, hrun', hanswers, hcheck, htest⟩

end LoneCycle
end ExecgoRuntime
