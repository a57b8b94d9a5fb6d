import ExecgoRuntime.Requests

/-!
The errors of `kill_task`. One call is followed beside everything else that runs,
up to its response, which needs the output files too. The row is read again after
the flag and its event have been committed. An error before that commit leaves the
task alone; no error after it takes the flag back.
-/
namespace ExecgoRuntime

/-- A call; it is lost with the server process. -/
structure KillTask where
  call : KillCall
  lost : Bool := false

/-- The answers of the environment to a step of the call: the errors of the
repository call, of the signal and of the output files. -/
structure KillAnswer where
  now : Timestamp := 0
  failure : Option AppError := none
  signalError : Option AppError := none
  previewError : Option AppError := none

/-- `build_status_response`, which reads the output files of the row. -/
def KillCall.respond (previewError : Option AppError) (call : KillCall) : KillCall :=
  match call.state, previewError with
  | .returned (.ok _), some e => call.fail e
  | _, _ => call

namespace KillTask

def move (a : KillAnswer) (task : KillTask) : Option (Move KillTask) :=
  if task.lost then none
  else
    (task.call.move a.signalError).map (Move.map (fun call =>
      { task with call := call.respond a.previewError }))

def escalation (signalError : Option AppError) (task : KillTask) : Option Escalation :=
  if task.lost then none else task.call.escalation signalError

/-- What a call has done so far. -/
inductive Stage
  | uncommitted
  | committed
  | failed
  | over
  deriving DecidableEq

def stage (task : KillTask) : Stage :=
  if task.lost then .over
  else
    match task.call.state with
    | .received | .requesting => .uncommitted
    | .rereading | .cancelling | .signalling _ | .responding => .committed
    | .returned (.error _) => .failed
    | .returned (.ok _) => .over

/-- The server process dies; what the call has returned stays returned. -/
def crash (task : KillTask) : KillTask :=
  match task.stage with
  | .failed | .over => task
  | _ => { task with lost := true }

/-- The next step of the call fails, and the flag is committed. -/
def failsLate (a : KillAnswer) (db : Db) (task : KillTask) : Bool :=
  let callFails := a.failure.isSome || (db.tasks.find task.call.taskId).isNone
  !task.lost &&
    match task.call.state with
    | .rereading | .cancelling => callFails
    | .signalling updated => a.signalError.isSome && (updated.pgid.isSome || updated.pid.isSome)
    | .responding => callFails || a.previewError.isSome
    | _ => false

end KillTask

/-- The row and the event stream of the task are the same. -/
def Db.SameTask (db db' : Db) (taskId : TaskId) : Prop :=
  db'.tasks.find taskId = db.tasks.find taskId ∧ db'.listEvents taskId = db.listEvents taskId

/-- One call and the rest of the system. -/
structure Killing where
  world : World
  task : KillTask

inductive KillingEvent
  | others (e : Event)
  | call (a : KillAnswer)

namespace Killing

def step (svc : RuntimeService) (s : Killing) : KillingEvent → Option Killing
  | .others e =>
    (s.world.step svc e).map (fun w => ⟨w, if e.action.isCrash then s.task.crash else s.task⟩)
  | .call a =>
    (s.task.move a).map (fun m =>
      let (db, task) := m.run a.now a.failure s.world.db
      let escalations := s.world.procs.escalations ++ (s.task.escalation a.signalError).toList
      { world := { s.world with db, procs := { s.world.procs with escalations } }, task })

/-- The runs of a call that has just arrived. -/
abbrev Run (svc : RuntimeService) (start : World) (taskId : TaskId) (callerOwner : Option String)
    (trace : List (Killing × KillingEvent)) (last : Killing) : Prop :=
  Runs.Run (step svc) ⟨start, { call := { taskId, callerOwner } }⟩ trace last

/-- The step is none of the call, or it leaves the task alone. -/
def Spares (svc : RuntimeService) (taskId : TaskId) (s : Killing) (e : KillingEvent) : Prop :=
  ∀ a s', e = .call a → s.step svc e = some s' → s.world.db.SameTask s'.world.db taskId

/-- The step is one of the call that fails after the flag is committed. -/
def FailsLate (s : Killing) (e : KillingEvent) : Prop :=
  ∃ a, e = .call a ∧ s.task.failsLate a s.world.db = true

/-- If the call has returned an error, it has not changed the task. -/
def AtomicOnError (svc : RuntimeService) (taskId : TaskId) (trace : List (Killing × KillingEvent))
    (last : Killing) : Prop :=
  last.task.stage = .failed → ∀ x ∈ trace, x.1.Spares svc taskId x.2

end Killing

namespace KillTask

/-- What a step of the call does, by what the call has done before. -/
inductive CallStep (a : KillAnswer) (db : Db) (task : KillTask) : Db → KillTask → Prop
  | quiet {task'} : task.stage = .uncommitted → task'.stage ≠ .committed →
      CallStep a db task db task'
  | requested {db' task'} : task.stage = .uncommitted → ¬ db.SameTask db' task.call.taskId →
      task'.stage = .committed → CallStep a db task db' task'
  | failed {db' task'} : task.stage = .committed → task.failsLate a db = true →
      task'.stage = .failed → CallStep a db task db' task'
  | went {db' task'} : task.stage = .committed → task.failsLate a db = false →
      task'.stage = .committed ∨ task'.stage = .over → CallStep a db task db' task'

theorem committed_of_failsLate {a : KillAnswer} {db : Db} {task : KillTask}
    (h : task.failsLate a db = true) : task.stage = .committed := by
  obtain ⟨hlost, hfails⟩ := Bool.and_eq_true_iff.mp h
  rw [Bool.not_eq_true'] at hlost
  unfold stage
  rw [hlost, if_neg Bool.false_ne_true]
  cases hstate : task.call.state with
  | rereading | cancelling | signalling _ | responding => rfl
  | received | requesting | returned _ =>
    rw [hstate] at hfails
    cases hfails

/-- A committed `set_cancel_requested` appends to the event stream. -/
theorem not_sameTask_of_requested {db db' : Db} {now : Timestamp} {taskId : TaskId}
    (h : TaskWrite.setCancelRequested.run now taskId db = .ok db') : ¬ db.SameTask db' taskId := by
  rintro ⟨_, hevents⟩
  obtain ⟨row, hrow⟩ := TaskWrite.find_of_run rfl h
  have hstream := (TaskWrite.run_spec h).stream taskId
  rw [if_pos rfl, hrow, Db.stream, hevents] at hstream
  have hlength := congrArg List.length hstream
  rw [List.length_append] at hlength
  simp [Db.stream, TaskWrite.emits] at hlength

theorem stage_requested (previewError : Option AppError) (call : KillCall)
    (updated : TaskRecord) :
    stage ⟨(call.requested updated).respond previewError, false⟩ = .committed := by
  unfold KillCall.requested
  by_cases haccepted : updated.status = .accepted
  · rw [if_pos haccepted]
    cases previewError <;> rfl
  · rw [if_neg haccepted]
    cases previewError <;> rfl

@[simp]
theorem stage_fail (call : KillCall) (e : AppError) :
    stage ⟨call.fail e, false⟩ = .failed := rfl

@[simp]
theorem respond_fail (previewError : Option AppError) (call : KillCall) (e : AppError) :
    (call.fail e).respond previewError = call.fail e := by
  cases previewError <;> rfl

theorem respond_taskId (previewError : Option AppError) (call : KillCall) :
    (call.respond previewError).taskId = call.taskId := by
  unfold KillCall.respond
  split <;> rfl

/-- The first read decides without a commit. -/
theorem stage_authorize (previewError : Option AppError) (call : KillCall) (task : TaskRecord) :
    stage ⟨(call.authorize task).respond previewError, false⟩ ≠ .committed := by
  unfold KillCall.authorize
  split
  · simp
  split
  · cases previewError <;> nofun
  · cases previewError <;> nofun

theorem row_absent_of_getTask {db : Db} {taskId : TaskId} {e : AppError}
    (h : db.getTask taskId = .error e) : (db.tasks.find taskId).isNone = true := by
  unfold Db.getTask at h
  split at h
  · cases h
  · rename_i hrow
    rw [hrow]
    rfl

theorem row_absent_of_write {w : TaskWrite} (hw : w.persistable = true) {now : Timestamp}
    {taskId : TaskId} {db : Db} {e : AppError} (h : w.run now taskId db = .error e) :
    (db.tasks.find taskId).isNone = true := by
  cases hrow : db.tasks.find taskId with
  | none => rfl
  | some row =>
    obtain ⟨db', hrun⟩ := TaskWrite.run_ok hw now hrow
    rw [hrun] at h
    cases h

variable {a : KillAnswer} {db db' : Db} {committed : Option StoreCall} {task task' : KillTask}
  {m : Move KillTask}

/-- What the server still waits for goes on to its response. -/
theorem call_step_live {call call' : KillCall} {m : Move KillCall}
    (hmove : call.move a.signalError = some m)
    (h : Move.Outcome m a.now a.failure db committed db' call') :
    CallStep a db ⟨call, false⟩ db' ⟨call'.respond a.previewError, false⟩ := by
  unfold KillCall.move at hmove
  split at hmove
  case h_1 hreceived =>
    cases hmove
    have hstage : stage ⟨call, false⟩ = .uncommitted := by simp [stage, hreceived]
    obtain ⟨_, rfl, ⟨row, _, rfl, _⟩ | ⟨e, rfl, _⟩⟩ := Move.outcome_query h
    · exact .quiet hstage (stage_authorize _ call row)
    · exact .quiet hstage (by simp)
  case h_2 hrequesting =>
    cases hmove
    have hstage : stage ⟨call, false⟩ = .uncommitted := by simp [stage, hrequesting]
    rcases Move.outcome_write h with ⟨_, rfl, e, rfl, _⟩ | ⟨_, hrun, rfl, _⟩
    · exact .quiet hstage (by simp)
    · refine .requested hstage (not_sameTask_of_requested hrun) ?_
      cases a.previewError <;> rfl
  case h_3 hrereading =>
    cases hmove
    have hstage : stage ⟨call, false⟩ = .committed := by simp [stage, hrereading]
    obtain ⟨_, rfl, ⟨row, hrow, rfl, hdone⟩ | ⟨e, rfl, hcause⟩⟩ := Move.outcome_query h
    · have hfind := (Db.getTask_eq_ok_iff _ _ _).mp hrow
      exact .went hstage (by simp [failsLate, hrereading, hdone, hfind])
        (.inl (stage_requested _ call row))
    · refine .failed hstage ?_ (by simp)
      rcases hcause with hfailure | hread
      · simp [failsLate, hrereading, hfailure]
      · simp [failsLate, hrereading, row_absent_of_getTask hread]
  case h_4 hcancelling =>
    cases hmove
    have hstage : stage ⟨call, false⟩ = .committed := by simp [stage, hcancelling]
    rcases Move.outcome_write h with ⟨_, _, e, rfl, hcause⟩ | ⟨_, hrun, rfl, hdone⟩
    · refine .failed hstage ?_ (by simp)
      rcases hcause with hfailure | hexec
      · simp [failsLate, hcancelling, hfailure]
      · simp [failsLate, hcancelling, row_absent_of_write rfl hexec]
    · obtain ⟨row, hrow⟩ := TaskWrite.find_of_run rfl hrun
      refine .went hstage (by simp [failsLate, hcancelling, hrow, hdone]) (.inl ?_)
      cases a.previewError <;> rfl
  case h_5 updated hsignalling =>
    have hstage : stage ⟨call, false⟩ = .committed := by simp [stage, hsignalling]
    split at hmove
    · rename_i hsignal
      cases hmove
      obtain ⟨_, _, rfl⟩ := Move.outcome_silent h
      refine .went hstage ?_ (.inl ?_)
      · unfold KillCall.signalled at hsignal
        cases hanswer : a.signalError with
        | none => simp [failsLate, hsignalling, hanswer]
        | some e =>
          rw [hanswer] at hsignal
          simp only at hsignal
          split at hsignal
          · cases hsignal
          · rename_i hnone
            simpa [failsLate, hsignalling, hanswer] using hnone
      · cases a.previewError <;> rfl
    · rename_i e hsignal
      cases hmove
      obtain ⟨_, _, rfl⟩ := Move.outcome_silent h
      refine .failed hstage ?_ (by simp)
      unfold KillCall.signalled at hsignal
      cases hanswer : a.signalError with
      | none =>
        rw [hanswer] at hsignal
        cases hsignal
      | some e' =>
        rw [hanswer] at hsignal
        simp only at hsignal
        split at hsignal
        · rename_i hsome
          simpa [failsLate, hsignalling, hanswer] using hsome
        · cases hsignal
  case h_6 hresponding =>
    cases hmove
    have hstage : stage ⟨call, false⟩ = .committed := by simp [stage, hresponding]
    obtain ⟨_, rfl, ⟨row, hrow, rfl, hdone⟩ | ⟨e, rfl, hcause⟩⟩ := Move.outcome_query h
    · have hfind := (Db.getTask_eq_ok_iff _ _ _).mp hrow
      cases hpreview : a.previewError with
      | none =>
        exact .went hstage (by simp [failsLate, hresponding, hdone, hfind, hpreview]) (.inr rfl)
      | some e =>
        exact .failed hstage (by simp [failsLate, hresponding, hpreview]) rfl
    · refine .failed hstage ?_ (by simp)
      rcases hcause with hfailure | hread
      · simp [failsLate, hresponding, hfailure]
      · simp [failsLate, hresponding, row_absent_of_getTask hread]
  case h_7 => cases hmove

theorem call_step (hmove : task.move a = some m)
    (h : Move.Outcome m a.now a.failure db committed db' task') : CallStep a db task db' task' := by
  obtain ⟨call, lost⟩ := task
  unfold move at hmove
  split at hmove
  · cases hmove
  rename_i hlost
  obtain rfl : lost = false := Bool.eq_false_of_not_eq_true hlost
  obtain ⟨m', hmove', rfl⟩ := Option.map_eq_some_iff.mp hmove
  obtain ⟨call', hout, rfl⟩ := Move.outcome_map h
  exact call_step_live hmove' hout

theorem move_taskId (hmove : task.move a = some m)
    (h : Move.Outcome m a.now a.failure db committed db' task') :
    task'.call.taskId = task.call.taskId := by
  unfold move at hmove
  split at hmove
  · cases hmove
  obtain ⟨m', hmove', rfl⟩ := Option.map_eq_some_iff.mp hmove
  obtain ⟨call', hout, rfl⟩ := Move.outcome_map h
  exact (respond_taskId _ _).trans (KillCall.move_cases hmove' hout).taskId

end KillTask

namespace Killing

open KillTask

variable {svc : RuntimeService} {s s' : Killing} {a : KillAnswer} {e : KillingEvent}

theorem step_call (h : s.step svc (.call a) = some s') :
    CallStep a s.world.db s.task s'.world.db s'.task ∧
      s'.task.call.taskId = s.task.call.taskId := by
  obtain ⟨m, hmove, rfl⟩ := Option.map_eq_some_iff.mp h
  have hout := Move.outcome_run m a.now a.failure s.world.db
  exact ⟨call_step hmove hout, move_taskId hmove hout⟩

theorem crash_stage (task : KillTask) :
    task.crash.stage = task.stage ∨ (task.crash.stage = .over ∧ task.stage ≠ .failed) := by
  unfold KillTask.crash
  split
  · exact .inl rfl
  · exact .inl rfl
  · rename_i hfailed _
    exact .inr ⟨rfl, hfailed⟩

/-- A step of the others does not take the call further. -/
theorem step_others {event : Event} (h : s.step svc (.others event) = some s') :
    s'.task.call.taskId = s.task.call.taskId ∧
      (s'.task.stage = s.task.stage ∨ (s'.task.stage = .over ∧ s.task.stage ≠ .failed)) := by
  obtain ⟨w, _, rfl⟩ := Option.map_eq_some_iff.mp h
  simp only
  split
  · refine ⟨?_, crash_stage s.task⟩
    unfold KillTask.crash
    split <;> rfl
  · exact ⟨rfl, .inl rfl⟩

section Runs

variable {start : World} {taskId : TaskId} {callerOwner : Option String}
  {trace : List (Killing × KillingEvent)} {last : Killing}

theorem taskId_of_run (h : Run svc start taskId callerOwner trace last) :
    last.task.call.taskId = taskId := by
  refine Runs.Run.invariant (I := fun s => s.task.call.taskId = taskId) (G := fun _ _ => True) rfl
    ?_ h (fun _ _ => trivial)
  intro s e s' hid _ hstep
  cases e with
  | others event => exact (step_others hstep).1.trans hid
  | call a => exact (step_call hstep).2.trans hid

/-- No step of the call has changed the task. -/
def Untouched (svc : RuntimeService) (taskId : TaskId) (trace : List (Killing × KillingEvent)) :
    Prop :=
  ∀ x ∈ trace, x.1.Spares svc taskId x.2

theorem untouched_snoc :
    Untouched svc taskId (trace ++ [(s, e)]) ↔
      Untouched svc taskId trace ∧ s.Spares svc taskId e := by
  unfold Untouched
  simp only [List.mem_append, List.mem_singleton, or_imp, forall_and, forall_eq]

theorem spares_others (event : Event) : s.Spares svc taskId (.others event) := by
  intro a s' heq _
  cases heq

theorem spares_of_same (h : s.step svc (.call a) = some s') (hdb : s'.world.db = s.world.db) :
    s.Spares svc taskId (.call a) := by
  rintro _ s'' ⟨⟩ hstep
  rw [h] at hstep
  cases hstep
  rw [hdb]
  exact ⟨rfl, rfl⟩

/-- Before the commit nothing is touched, after it something is. -/
theorem untouched_of_run (h : Run svc start taskId callerOwner trace last) :
    (last.task.stage = .uncommitted → Untouched svc taskId trace) ∧
      (last.task.stage = .committed → ¬ Untouched svc taskId trace) := by
  induction h with
  | nil => exact ⟨fun _ _ hx => absurd hx List.not_mem_nil, nofun⟩
  | @snoc trace s e s' hrun hstep ih =>
    rw [untouched_snoc]
    cases e with
    | others event =>
      rcases (step_others hstep).2 with hsame | ⟨hover, _⟩
      · rw [hsame]
        exact ⟨fun hstage => ⟨ih.1 hstage, spares_others event⟩,
          fun hstage hall => ih.2 hstage hall.1⟩
      · rw [hover]
        exact ⟨nofun, nofun⟩
    | call a =>
      obtain ⟨hcall, _⟩ := step_call hstep
      generalize hdb : s'.world.db = db' at hcall
      generalize htask : s'.task = task' at hcall
      cases hcall with
      | quiet hstage hnext =>
        exact ⟨fun _ => ⟨ih.1 hstage, spares_of_same hstep hdb⟩, fun hcommitted =>
          absurd hcommitted hnext⟩
      | requested hstage hchanged hnext =>
        refine ⟨fun hother => ?_, fun _ hall => ?_⟩
        · rw [hnext] at hother
          cases hother
        · rw [taskId_of_run hrun, ← hdb] at hchanged
          exact hchanged (hall.2 a s' rfl hstep)
      | failed _ _ hnext =>
        rw [hnext]
        exact ⟨nofun, nofun⟩
      | went hstage _ hnext =>
        refine ⟨fun hother => ?_, fun _ hall => ih.2 hstage hall.1⟩
        rcases hnext with hnext | hnext <;> (rw [hother] at hnext; cases hnext)

/-- Without a late failure an error is one from before the commit. -/
theorem untouched_of_failed (h : Run svc start taskId callerOwner trace last)
    (hearly : ∀ x ∈ trace, ¬ x.1.FailsLate x.2) (hfailed : last.task.stage = .failed) :
    Untouched svc taskId trace := by
  induction h with
  | nil => cases hfailed
  | @snoc trace s e s' hrun hstep ih =>
    rw [untouched_snoc]
    have hbefore := ih (fun x hx => hearly x (List.mem_append_left _ hx))
    cases e with
    | others event =>
      refine ⟨hbefore ?_, spares_others event⟩
      rcases (step_others hstep).2 with hsame | ⟨hover, _⟩
      · rw [← hsame, hfailed]
      · rw [hfailed] at hover
        cases hover
    | call a =>
      obtain ⟨hcall, _⟩ := step_call hstep
      generalize hdb : s'.world.db = db' at hcall
      generalize htask : s'.task = task' at hcall hfailed
      cases hcall with
      | quiet hstage _ => exact ⟨(untouched_of_run hrun).1 hstage, spares_of_same hstep hdb⟩
      | requested _ _ hnext =>
        rw [hfailed] at hnext
        cases hnext
      | failed _ hfails _ => exact absurd ⟨a, rfl, hfails⟩ (hearly (s, .call a) (by simp))
      | went _ _ hnext =>
        rcases hnext with hnext | hnext <;> (rw [hfailed] at hnext; cases hnext)

/-- A call that has failed stays so. -/
theorem failed_step (h : s.step svc e = some s') (hfailed : s.task.stage = .failed) :
    s'.task.stage = .failed := by
  cases e with
  | others event =>
    rcases (step_others h).2 with hsame | ⟨_, hnot⟩
    · rw [hsame, hfailed]
    · exact absurd hfailed hnot
  | call a =>
    obtain ⟨hcall, _⟩ := step_call h
    generalize s'.world.db = db' at hcall
    generalize s'.task = task' at hcall ⊢
    cases hcall with
    | quiet hstage _ | requested hstage _ _ | failed hstage _ _ | went hstage _ _ =>
      rw [hfailed] at hstage
      cases hstage

/-- After a late failure the call has failed and has touched the task. -/
theorem failed_of_failsLate {before after : List (Killing × KillingEvent)}
    {x : Killing × KillingEvent} (h : Run svc start taskId callerOwner (before ++ x :: after) last)
    (hlate : x.1.FailsLate x.2) :
    last.task.stage = .failed ∧ ¬ Untouched svc taskId (before ++ x :: after) := by
  obtain ⟨s, e⟩ := x
  obtain ⟨a, rfl, hfails⟩ := hlate
  obtain ⟨s', hbefore, hstep, hafter⟩ := h.split
  obtain ⟨hcall, _⟩ := step_call hstep
  have hstage := committed_of_failsLate hfails
  have hnext : s'.task.stage = .failed := by
    generalize s'.world.db = db' at hcall
    generalize s'.task = task' at hcall ⊢
    cases hcall with
    | failed _ _ hnext => exact hnext
    | quiet hother _ | requested hother _ _ =>
      rw [hstage] at hother
      cases hother
    | went _ hnot _ =>
      rw [hfails] at hnot
      cases hnot
  refine ⟨?_, fun hall => ?_⟩
  · exact Runs.Run.invariant (I := fun s => s.task.stage = .failed) (G := fun _ _ => True)
      hnext (fun s e s' hs _ ht => failed_step ht hs) hafter (fun _ _ => trivial)
  · refine (untouched_of_run hbefore).2 hstage ?_
    intro y hy
    exact hall y (List.mem_append_left _ hy)

end Runs

end Killing

/-- A kill that returns an error has left the task alone exactly when no step of
it fails after its flag was committed. -/
theorem kill_atomic_iff (svc : RuntimeService) (start : World) (taskId : TaskId)
    (callerOwner : Option String) (trace : List (Killing × KillingEvent)) (last : Killing)
    (hrun : Killing.Run svc start taskId callerOwner trace last) :
    Killing.AtomicOnError svc taskId trace last ↔ ∀ x ∈ trace, ¬ x.1.FailsLate x.2 := by
  constructor
  · intro hatomic x hx hlate
    obtain ⟨before, after, rfl⟩ := List.append_of_mem hx
    obtain ⟨hfailed, htouched⟩ := Killing.failed_of_failsLate hrun hlate
    exact htouched (hatomic hfailed)
  · intro hearly hfailed
    exact Killing.untouched_of_failed hrun hearly hfailed

private def oneSlot : RuntimeService := smallService ⟨1, none, none⟩

private def arrived : Killing := ⟨.init, { call := { taskId := "a", callerOwner := none } }⟩

/-- The steps of the other actors, none of which fails. -/
private def othersActions (actions : List Action) : List KillingEvent :=
  (events actions).map .others

/-- The task is started and its shim waits for it; then the call reads the row. -/
private def runningActions : List KillingEvent :=
  othersActions (submitActions 0 (commandRequest "a") ++ dispatchActions 10 ++
    (shimActions 0 20).take 5) ++ [.call {}]

/-- The call has set the flag and read the row when the workload ends. -/
private def goneActions : List KillingEvent :=
  runningActions ++ [.call {}, .call {}] ++
    othersActions [.shim 0 (.reaped { exitCode := some 0 })]

private def failsEarly (s : Killing) (e : KillingEvent) : Bool :=
  match e with
  | .others _ => true
  | .call a => !s.task.failsLate a s.world.db

private theorem not_failsLate_of_check {s : Killing} {e : KillingEvent}
    (h : failsEarly s e = true) : ¬ s.FailsLate e := by
  rintro ⟨a, rfl, hfails⟩
  rw [failsEarly, hfails] at h
  cases h

/-- The store is locked when the call is about to set the flag; the task succeeds. -/
theorem kill_atomic_of_locked_store : ∃ trace last,
    Killing.Run oneSlot .init "a" none trace last ∧ last.task.stage = .failed ∧
      Killing.AtomicOnError oneSlot "a" trace last := by
  have hexec : (Runs.exec (Runs.checked failsEarly (Killing.step oneSlot)) arrived
      (runningActions ++ [.call { failure := some (.sqlite "database is locked") }] ++
        othersActions ((shimActions 0 20).drop 5))).any
          (fun s => decide (s.task.stage = .failed)) = true := by decide +kernel
  obtain ⟨trace, last, hrun, _, hcheck, hfailed⟩ := Runs.exists_run_of_exec hexec
  refine ⟨trace, last, hrun, of_decide_eq_true hfailed, ?_⟩
  exact (kill_atomic_iff _ _ _ _ trace last hrun).mpr
    (fun x hx => not_failsLate_of_check (hcheck x hx))

/-- The process group is gone when the call signals it: the call returns the error
and the flag stays. -/
theorem failed_kill_leaves_flag :
    ¬ ∀ svc start taskId callerOwner trace last,
      Killing.Run svc start taskId callerOwner trace last →
      Killing.AtomicOnError svc taskId trace last := by
  intro hclaim
  have hcommitted : (Runs.exec (Runs.checked (fun _ _ => true) (Killing.step oneSlot)) arrived
      goneActions).any (fun s => decide (s.task.stage = .committed)) = true := by decide +kernel
  have hfailed : (Runs.exec (Runs.checked (fun _ _ => true) (Killing.step oneSlot)) arrived
      (goneActions ++
        [.call { signalError := some (.internal "signal process group: ESRCH: No such process") }])
      ).any (fun s => decide (s.task.stage = .failed)) = true := by decide +kernel
  obtain ⟨before, s, after, last, hrun, _, _, _, hbefore, hlast⟩ :=
    Runs.exists_run_through hcommitted hfailed
  obtain ⟨_, hrunBefore, _, _⟩ := hrun.split
  have huntouched := hclaim _ _ _ _ _ _ hrun (of_decide_eq_true hlast)
  refine (Killing.untouched_of_run hrunBefore).2 (of_decide_eq_true hbefore) ?_
  intro x hx
  exact huntouched x (List.mem_append_left _ hx)

end ExecgoRuntime
