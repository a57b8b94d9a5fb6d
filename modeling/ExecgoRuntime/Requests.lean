import ExecgoRuntime.Steps

/-!
What a step of a request handler can do, said once. The three handlers are
inverted like the machines of the server: each case names the state it starts
from, the row it has read, the call it commits and the state it leaves. A step
of the system moves one handler, receives one request or leaves all of them
alone; a crash loses them.
-/
namespace ExecgoRuntime

theorem Db.getTask_error {db : Db} {taskId : TaskId} {e : AppError}
    (h : db.getTask taskId = .error e) : e = .notFound taskId := by
  unfold Db.getTask at h
  split at h
  · cases h
  · exact (Except.error.inj h).symm

/-- A write that is one update and one event fails on the foreign key only. -/
theorem Db.insertEvent_error {db : Db} {now : Timestamp} {taskId : TaskId} {eventType : EventType}
    {message : Option String} {data : Option EventData} {e : AppError}
    (h : db.insertEvent now taskId eventType message data = .error e) :
    ∃ text, e = .sqlite text := by
  unfold Db.insertEvent at h
  split at h
  · cases h
  · exact ⟨_, (Except.error.inj h).symm⟩

theorem Db.cancelAcceptedTask_error {db : Db} {now : Timestamp} {taskId : TaskId}
    {error : RuntimeErrorInfo} {e : AppError}
    (h : db.cancelAcceptedTask now taskId error = .error e) : ∃ text, e = .sqlite text := by
  simp only [Db.cancelAcceptedTask, bind, Except.bind] at h
  split at h
  · rename_i hrelease
    unfold Db.insertReleaseEvent at hrelease
    cases h
    split at hrelease
    · exact Db.insertEvent_error hrelease
    · cases hrelease
  · exact Db.insertEvent_error h

/-- A step of `submit_task`. -/
inductive SubmitStep (svc : RuntimeService) (now : Timestamp) (db : Db) (submit : SubmitCall) :
    Option StoreCall → Db → SubmitCall → Prop
  | failed {c} (e : AppError) : Move.Quiet c → SubmitStep svc now db submit c db (submit.fail e)
  | planned {c plan new} : Move.Quiet c → submit.state = .received →
      svc.checkRequest submit.request = .ok plan →
      db.countAccepted < svc.settings.maxQueuedTasks →
      svc.newTask submit.request (submit.request.taskId.getD submit.generatedId) plan = .ok new →
      SubmitStep svc now db submit c db { submit with state := .inserting new }
  | inserted {new db'} : submit.state = .inserting new → db.insertTask now new = .ok db' →
      SubmitStep svc now db submit (some (.insertTask new)) db'
        { submit with state := .returned (.ok ⟨new.taskId, new.taskId, .accepted⟩) }

theorem SubmitCall.move_cases {svc : RuntimeService} {now : Timestamp} {failure : Option AppError}
    {db db' : Db} {committed : Option StoreCall} {submit submit' : SubmitCall} {m : Move SubmitCall}
    (hmove : submit.move svc = some m) (h : Move.Outcome m now failure db committed db' submit') :
    SubmitStep svc now db submit committed db' submit' := by
  unfold SubmitCall.move at hmove
  split at hmove
  · rename_i hstate
    split at hmove
    · cases hmove
      obtain ⟨hquiet, rfl, rfl⟩ := Move.outcome_silent h
      exact .failed _ hquiet
    · rename_i plan hplan
      cases hmove
      obtain ⟨hquiet, rfl, ⟨count, hcount, rfl, _⟩ | ⟨e, rfl, _⟩⟩ := Move.outcome_query h
      · cases hcount
        split
        · exact .failed _ hquiet
        · rename_i hroom
          split
          · rename_i new hnew
            exact .planned hquiet hstate hplan (Nat.lt_of_not_le hroom) hnew
          · exact .failed _ hquiet
      · exact .failed e hquiet
  · rename_i new hstate
    cases hmove
    cases h with
    | silent hcall => cases hcall
    | failed hcall _ => exact .failed _ (.inl rfl)
    | done hcall hexec _ =>
      cases hcall
      exact .inserted hstate hexec
  · cases hmove

/-- Why a kill can fail: the environment failed a call or a signal, or the row
is gone. -/
inductive KillFailure (failure signalError : Option AppError) (e : AppError) : Prop
  | call : failure = some e → KillFailure failure signalError e
  | signal : signalError = some e → KillFailure failure signalError e
  | absent (taskId : TaskId) : e = .notFound taskId → KillFailure failure signalError e
  | store (text : String) : e = .sqlite text → KillFailure failure signalError e

/-- A step of `kill_task`. -/
inductive KillStep (signalError : Option AppError) (now : Timestamp) (failure : Option AppError)
    (db : Db) (kill : KillCall) : Option StoreCall → Db → KillCall → Prop
  | failed {c} (e : AppError) : Move.Quiet c → KillFailure failure signalError e →
      KillStep signalError now failure db kill c db (kill.fail e)
  | authorized {c task} : Move.Quiet c → kill.state = .received →
      db.tasks.find kill.taskId = some task →
      KillStep signalError now failure db kill c db (kill.authorize task)
  | flagged {db'} : kill.state = .requesting →
      TaskWrite.setCancelRequested.run now kill.taskId db = .ok db' →
      KillStep signalError now failure db kill (some (.write kill.taskId .setCancelRequested)) db'
        { kill with state := .rereading }
  | requested {c updated} : Move.Quiet c → failure = none → kill.state = .rereading →
      db.tasks.find kill.taskId = some updated →
      KillStep signalError now failure db kill c db (kill.requested updated)
  | cancelled {db'} : kill.state = .cancelling →
      (TaskWrite.cancelAcceptedTask cancelledBeforeExecution).run now kill.taskId db = .ok db' →
      KillStep signalError now failure db kill
        (some (.write kill.taskId (.cancelAcceptedTask cancelledBeforeExecution))) db'
        { kill with state := .responding }
  | signalled {c updated} : Move.Quiet c → kill.state = .signalling updated →
      KillStep signalError now failure db kill c db { kill with state := .responding }
  | responded {c task} : Move.Quiet c → kill.state = .responding →
      db.tasks.find kill.taskId = some task →
      KillStep signalError now failure db kill c db { kill with state := .returned (.ok task) }

@[simp]
theorem KillCall.authorize_taskId (kill : KillCall) (task : TaskRecord) :
    (kill.authorize task).taskId = kill.taskId := by
  unfold authorize
  split
  · rfl
  · split <;> rfl

theorem KillStep.taskId {signalError : Option AppError} {now : Timestamp}
    {failure : Option AppError} {db db' : Db} {committed : Option StoreCall}
    {kill kill' : KillCall} (h : KillStep signalError now failure db kill committed db' kill') :
    kill'.taskId = kill.taskId := by
  cases h with
  | authorized _ _ _ => exact KillCall.authorize_taskId kill _
  | _ => rfl

theorem KillCall.move_cases {signalError : Option AppError} {now : Timestamp}
    {failure : Option AppError} {db db' : Db} {committed : Option StoreCall}
    {kill kill' : KillCall} {m : Move KillCall} (hmove : kill.move signalError = some m)
    (h : Move.Outcome m now failure db committed db' kill') :
    KillStep signalError now failure db kill committed db' kill' := by
  have hget : ∀ {e : AppError}, failure = some e ∨ db.getTask kill.taskId = .error e →
      KillFailure failure signalError e := by
    rintro e (hfailure | herror)
    · exact .call hfailure
    · exact .absent _ (Db.getTask_error herror)
  unfold KillCall.move at hmove
  split at hmove
  · rename_i hstate
    cases hmove
    obtain ⟨hquiet, rfl, ⟨task, htask, rfl, _⟩ | ⟨e, rfl, hcause⟩⟩ := Move.outcome_query h
    · exact .authorized hquiet hstate ((db'.getTask_eq_ok_iff _ _).mp htask)
    · exact .failed e hquiet (hget hcause)
  · rename_i hstate
    cases hmove
    rcases Move.outcome_write h with ⟨hquiet, rfl, e, rfl, hcause⟩ | ⟨rfl, hrun, rfl, _⟩
    · refine .failed e hquiet ?_
      rcases hcause with hfailure | hexec
      · exact .call hfailure
      · obtain ⟨text, htext⟩ := Db.insertEvent_error hexec
        exact .store text htext
    · exact .flagged hstate hrun
  · rename_i hstate
    cases hmove
    obtain ⟨hquiet, rfl, ⟨updated, hupdated, rfl, hdone⟩ | ⟨e, rfl, hcause⟩⟩ :=
      Move.outcome_query h
    · exact .requested hquiet hdone hstate ((db'.getTask_eq_ok_iff _ _).mp hupdated)
    · exact .failed e hquiet (hget hcause)
  · rename_i hstate
    cases hmove
    rcases Move.outcome_write h with ⟨hquiet, rfl, e, rfl, hcause⟩ | ⟨rfl, hrun, rfl, _⟩
    · refine .failed e hquiet ?_
      rcases hcause with hfailure | hexec
      · exact .call hfailure
      · obtain ⟨text, htext⟩ := Db.cancelAcceptedTask_error hexec
        exact .store text htext
    · exact .cancelled hstate hrun
  · rename_i updated hstate
    split at hmove
    · cases hmove
      obtain ⟨hquiet, rfl, rfl⟩ := Move.outcome_silent h
      exact .signalled hquiet hstate
    · rename_i e hsignal
      cases hmove
      obtain ⟨hquiet, rfl, rfl⟩ := Move.outcome_silent h
      refine .failed e hquiet (.signal ?_)
      unfold signalled at hsignal
      split at hsignal
      · split at hsignal
        · exact congrArg some (Except.error.inj hsignal)
        · cases hsignal
      · cases hsignal
  · rename_i hstate
    cases hmove
    obtain ⟨hquiet, rfl, ⟨task, htask, rfl, _⟩ | ⟨e, rfl, hcause⟩⟩ := Move.outcome_query h
    · exact .responded hquiet hstate ((db'.getTask_eq_ok_iff _ _).mp htask)
    · exact .failed e hquiet (hget hcause)
  · cases hmove

/-- The step of an escalation after its grace period. -/
inductive EscalationStep (db : Db) (escalation : Escalation) :
    Option StoreCall → Db → Escalation → Prop
  | failed {c} : Move.Quiet c → escalation.state = .sleeping →
      EscalationStep db escalation c db { escalation with state := .finished none }
  | signalled {c task} : Move.Quiet c → escalation.state = .sleeping →
      db.tasks.find escalation.taskId = some task →
      EscalationStep db escalation c db
        { escalation with state := .finished (escalation.target task) }

theorem Escalation.move_cases {now : Timestamp} {failure : Option AppError} {db db' : Db}
    {committed : Option StoreCall} {escalation escalation' : Escalation} {m : Move Escalation}
    (hmove : escalation.move = some m)
    (h : Move.Outcome m now failure db committed db' escalation') :
    EscalationStep db escalation committed db' escalation' := by
  unfold Escalation.move at hmove
  split at hmove
  · rename_i hstate
    cases hmove
    obtain ⟨hquiet, rfl, ⟨task, htask, rfl, _⟩ | ⟨e, rfl, _⟩⟩ := Move.outcome_query h
    · exact .signalled hquiet hstate ((db'.getTask_eq_ok_iff _ _).mp htask)
    · exact .failed hquiet hstate
  · cases hmove

namespace World

/-- What a step does to the requests and to what they leave behind. -/
inductive RequestsStep (svc : RuntimeService) (w : World) (e : Event) (w' : World) : Prop
  | same (haction : e.action.isRequest = false) (hsubmits : w'.procs.submits = w.procs.submits)
      (hkills : w'.procs.kills = w.procs.kills)
      (hescalations : w'.procs.escalations = w.procs.escalations)
  | lost (haction : e.action = .crash) (hquiet : Move.Quiet (w.committed svc e))
      (hprocs : w'.procs = w.procs.crash)
  | submitReceived (request : SubmitTaskRequest) (generatedId : TaskId)
      (haction : e.action = .receiveSubmit request generatedId)
      (hquiet : Move.Quiet (w.committed svc e))
      (hprocs : w'.procs =
        { w.procs with submits := w.procs.submits ++ [{ request, generatedId }] })
  | submit (i : ℕ) (submit submit' : SubmitCall) (haction : e.action = .submit i)
      (hsubmit : w.procs.submits[i]? = some submit)
      (hstep : SubmitStep svc e.now w.db submit (w.committed svc e) w'.db submit')
      (hprocs : w'.procs = { w.procs with submits := w.procs.submits.set i submit' })
  | killReceived (taskId : TaskId) (callerOwner : Option String)
      (haction : e.action = .receiveKill taskId callerOwner)
      (hquiet : Move.Quiet (w.committed svc e))
      (hprocs : w'.procs = { w.procs with kills := w.procs.kills ++ [{ taskId, callerOwner }] })
  | kill (i : ℕ) (signalError : Option AppError) (kill kill' : KillCall)
      (haction : e.action = .kill i signalError) (hkill : w.procs.kills[i]? = some kill)
      (hstep : KillStep signalError e.now e.failure w.db kill (w.committed svc e) w'.db kill')
      (hprocs : w'.procs = w.procs.afterKill i (kill.escalation signalError) kill')
  | escalate (i : ℕ) (escalation escalation' : Escalation) (haction : e.action = .escalate i)
      (hescalation : w.procs.escalations[i]? = some escalation)
      (hstep : EscalationStep w.db escalation (w.committed svc e) w'.db escalation')
      (hprocs : w'.procs =
        { w.procs with escalations := w.procs.escalations.set i escalation' })

variable {svc : RuntimeService} {w w' : World} {e : Event}

theorem step_requests (h : w.step svc e = some w') : RequestsStep svc w e w' := by
  obtain ⟨m, hm, _, hout⟩ := step_actor h
  unfold Procs.actorMove at hm
  split at hm
  case h_1 request generatedId dispatcher haction hserver =>
    cases hm
    obtain ⟨hquiet, _, hprocs⟩ := Move.outcome_silent hout
    exact .submitReceived request generatedId haction hquiet hprocs
  case h_2 i dispatcher haction hserver =>
    obtain ⟨submit, hsubmit, hm⟩ := Option.bind_eq_some_iff.mp hm
    obtain ⟨m', hmove, hm⟩ := Option.bind_eq_some_iff.mp hm
    cases hm
    obtain ⟨submit', hout, hprocs⟩ := Move.outcome_map hout
    exact .submit i submit submit' haction hsubmit (SubmitCall.move_cases hmove hout) hprocs
  case h_3 taskId callerOwner dispatcher haction hserver =>
    cases hm
    obtain ⟨hquiet, _, hprocs⟩ := Move.outcome_silent hout
    exact .killReceived taskId callerOwner haction hquiet hprocs
  case h_4 i signalError dispatcher haction hserver =>
    obtain ⟨kill, hkill, hm⟩ := Option.bind_eq_some_iff.mp hm
    obtain ⟨m', hmove, hm⟩ := Option.bind_eq_some_iff.mp hm
    cases hm
    obtain ⟨kill', hout, hprocs⟩ := Move.outcome_map hout
    exact .kill i signalError kill kill' haction hkill (KillCall.move_cases hmove hout) hprocs
  case h_5 i dispatcher haction hserver =>
    obtain ⟨escalation, hescalation, hm⟩ := Option.bind_eq_some_iff.mp hm
    obtain ⟨m', hmove, hm⟩ := Option.bind_eq_some_iff.mp hm
    cases hm
    obtain ⟨escalation', hout, hprocs⟩ := Move.outcome_map hout
    exact .escalate i escalation escalation' haction hescalation
      (Escalation.move_cases hmove hout) hprocs
  case h_6 outcome dispatcher haction hserver =>
    cases hm
    obtain ⟨_, _, hprocs⟩ := Move.outcome_map hout
    exact .same (by rw [haction]; rfl) (by rw [hprocs]; rfl) (by rw [hprocs]; rfl)
      (by rw [hprocs]; rfl)
  case h_7 removed dispatcher haction hserver =>
    cases hm
    obtain ⟨_, _, hprocs⟩ := Move.outcome_map hout
    exact .same (by rw [haction]; rfl) (by rw [hprocs]) (by rw [hprocs]) (by rw [hprocs])
  case h_8 pidTaken recovery haction hserver =>
    obtain ⟨m', _, hm⟩ := Option.bind_eq_some_iff.mp hm
    cases hm
    obtain ⟨recovery', _, hprocs⟩ := Move.outcome_map hout
    have hkept : (w.procs.afterRecovery recovery').submits = w.procs.submits ∧
        (w.procs.afterRecovery recovery').kills = w.procs.kills ∧
        (w.procs.afterRecovery recovery').escalations = w.procs.escalations := by
      cases recovery' <;> exact ⟨rfl, rfl, rfl⟩
    rw [← hprocs] at hkept
    exact .same (by rw [haction]; rfl) hkept.1 hkept.2.1 hkept.2.2
  case h_9 i choice haction =>
    obtain ⟨shim, _, hm⟩ := Option.bind_eq_some_iff.mp hm
    obtain ⟨m', _, hm⟩ := Option.bind_eq_some_iff.mp hm
    cases hm
    obtain ⟨shim', _, hprocs⟩ := Move.outcome_map hout
    exact .same (by rw [haction]; rfl) (by rw [hprocs]) (by rw [hprocs]) (by rw [hprocs])
  case h_10 dispatcher haction hserver =>
    cases hm
    obtain ⟨hquiet, _, hprocs⟩ := Move.outcome_silent hout
    exact .lost haction hquiet hprocs
  case h_11 recovery haction hserver =>
    cases hm
    obtain ⟨hquiet, _, hprocs⟩ := Move.outcome_silent hout
    exact .lost haction hquiet hprocs
  case h_12 haction hserver =>
    cases hm
    obtain ⟨_, _, hprocs⟩ := Move.outcome_silent hout
    exact .same (by rw [haction]; rfl) (by rw [hprocs]) (by rw [hprocs]) (by rw [hprocs])
  case h_13 => cases hm

/-- Where a kill of the next state comes from. -/
theorem mem_kills_of_step (h : w.step svc e = some w') {kill' : KillCall}
    (hmem : kill' ∈ w'.procs.kills) :
    kill' ∈ w.procs.kills ∨
      (∃ taskId callerOwner, e.action = .receiveKill taskId callerOwner ∧
        kill' = { taskId, callerOwner }) ∨
      ∃ i signalError kill, e.action = .kill i signalError ∧ w.procs.kills[i]? = some kill ∧
        KillStep signalError e.now e.failure w.db kill (w.committed svc e) w'.db kill' := by
  cases step_requests h with
  | same _ _ hkills _ => exact .inl (hkills ▸ hmem)
  | lost _ _ hprocs =>
    rw [hprocs] at hmem
    cases hmem
  | submitReceived _ _ _ _ hprocs =>
    rw [hprocs] at hmem
    exact .inl hmem
  | submit _ _ _ _ _ _ hprocs =>
    rw [hprocs] at hmem
    exact .inl hmem
  | killReceived taskId callerOwner haction _ hprocs =>
    rw [hprocs] at hmem
    rcases List.mem_append.mp hmem with hold | hnew
    · exact .inl hold
    · exact .inr (.inl ⟨taskId, callerOwner, haction, List.mem_singleton.mp hnew⟩)
  | kill i signalError kill _ haction hkill hstep hprocs =>
    rw [hprocs] at hmem
    rcases List.mem_or_eq_of_mem_set hmem with hold | rfl
    · exact .inl hold
    · exact .inr (.inr ⟨i, signalError, kill, haction, hkill, hstep⟩)
  | escalate _ _ _ _ _ _ hprocs =>
    rw [hprocs] at hmem
    exact .inl hmem

/-- Where a submission of the next state comes from. -/
theorem mem_submits_of_step (h : w.step svc e = some w') {submit' : SubmitCall}
    (hmem : submit' ∈ w'.procs.submits) :
    submit' ∈ w.procs.submits ∨
      (∃ request generatedId, submit' = { request, generatedId }) ∨
      ∃ submit ∈ w.procs.submits,
        SubmitStep svc e.now w.db submit (w.committed svc e) w'.db submit' := by
  cases step_requests h with
  | same _ hsubmits _ _ => exact .inl (hsubmits ▸ hmem)
  | lost _ _ hprocs =>
    rw [hprocs] at hmem
    cases hmem
  | submitReceived request generatedId _ _ hprocs =>
    rw [hprocs] at hmem
    rcases List.mem_append.mp hmem with hold | hnew
    · exact .inl hold
    · exact .inr (.inl ⟨request, generatedId, List.mem_singleton.mp hnew⟩)
  | submit i submit _ _ hsubmit hstep hprocs =>
    rw [hprocs] at hmem
    rcases List.mem_or_eq_of_mem_set hmem with hold | rfl
    · exact .inl hold
    · exact .inr (.inr ⟨submit, List.mem_of_getElem? hsubmit, hstep⟩)
  | killReceived _ _ _ _ hprocs =>
    rw [hprocs] at hmem
    exact .inl hmem
  | kill _ _ _ _ _ _ _ hprocs =>
    rw [hprocs] at hmem
    exact .inl hmem
  | escalate _ _ _ _ _ _ hprocs =>
    rw [hprocs] at hmem
    exact .inl hmem

/-- The only requests that write to the store are a submission and a kill. -/
theorem step_handler (h : w.step svc e = some w') (haction : e.action.isRequest = true)
    (hwrites : ¬ Move.Quiet (w.committed svc e)) :
    (∃ i submit submit', e.action = .submit i ∧ w.procs.submits[i]? = some submit ∧
      SubmitStep svc e.now w.db submit (w.committed svc e) w'.db submit') ∨
    ∃ i signalError kill kill', e.action = .kill i signalError ∧
      w.procs.kills[i]? = some kill ∧
      KillStep signalError e.now e.failure w.db kill (w.committed svc e) w'.db kill' ∧
      w'.procs = w.procs.afterKill i (kill.escalation signalError) kill' := by
  cases step_requests h with
  | same hother _ _ _ =>
    rw [haction] at hother
    cases hother
  | lost _ hno _ => exact absurd hno hwrites
  | submitReceived _ _ _ hno _ => exact absurd hno hwrites
  | killReceived _ _ _ hno _ => exact absurd hno hwrites
  | submit i submit submit' hi hsubmit hstep _ =>
    exact .inl ⟨i, submit, submit', hi, hsubmit, hstep⟩
  | kill i signalError kill kill' hi hkill hstep hprocs =>
    exact .inr ⟨i, signalError, kill, kill', hi, hkill, hstep, hprocs⟩
  | escalate _ _ _ _ _ hstep _ =>
    generalize w'.db = db' at hstep
    cases hstep <;> exact absurd ‹_› hwrites

/-- A row is inserted by a submission that has been planned. -/
theorem step_insert (h : w.step svc e = some w') {new : NewTaskRecord}
    (hcommitted : w.committed svc e = some (.insertTask new)) :
    ∃ i submit, e.action = .submit i ∧ w.procs.submits[i]? = some submit ∧
      submit.state = .inserting new ∧ w.db.insertTask e.now new = .ok w'.db := by
  have hquiet : ¬ Move.Quiet (w.committed svc e) := by
    intro hno
    cases hno.call_eq hcommitted
  cases step_cases h with
  | gc _ _ _ _ _ _ hcall => cases hcall _ hcommitted
  | dispatch _ _ _ _ _ _ hmove _ =>
    rw [hcommitted] at hmove hquiet
    generalize w'.db = db' at hmove
    cases hmove <;> exact absurd ‹_› hquiet
  | recover _ _ _ _ _ hmove _ =>
    rw [hcommitted] at hmove hquiet
    generalize w'.db = db' at hmove
    cases hmove <;> exact absurd ‹_› hquiet
  | shim _ _ _ _ _ _ _ hmove _ =>
    rcases hmove.call hcommitted with hread | ⟨_, hwrite, _⟩
    · cases hread
    · cases hwrite
  | crash _ hno _ _ => exact absurd hno hquiet
  | restart _ hno _ _ _ => exact absurd hno hquiet
  | request _ haction _ _ _ _ =>
    rcases step_handler h haction hquiet with
      ⟨i, submit, _, hi, hsubmit, hstep⟩ | ⟨_, _, _, _, _, _, hstep, _⟩
    · rw [hcommitted] at hstep hquiet
      generalize w'.db = db' at hstep
      cases hstep with
      | inserted hstate hinsert => exact ⟨i, submit, hi, hsubmit, hstate, hinsert⟩
      | failed _ hno => exact absurd hno hquiet
      | planned hno _ _ _ _ => exact absurd hno hquiet
    · rw [hcommitted] at hstep hquiet
      generalize w'.db = db' at hstep
      cases hstep <;> exact absurd ‹_› hquiet

/-- The only handler that writes to a row is the kill. -/
inductive KillWrite (kill : KillCall) : TaskWrite → Prop
  | requested : kill.state = .requesting → KillWrite kill .setCancelRequested
  | cancelled : kill.state = .cancelling →
      KillWrite kill (.cancelAcceptedTask cancelledBeforeExecution)

theorem step_kill_write (h : w.step svc e = some w') (haction : e.action.isRequest = true)
    {taskId : TaskId} {write : TaskWrite}
    (hcommitted : w.committed svc e = some (.write taskId write)) :
    ∃ i signalError kill, e.action = .kill i signalError ∧ w.procs.kills[i]? = some kill ∧
      kill.taskId = taskId ∧ KillWrite kill write := by
  have hquiet : ¬ Move.Quiet (w.committed svc e) := Move.not_quiet_write hcommitted
  rcases step_handler h haction hquiet with
    ⟨_, _, _, _, _, hstep⟩ | ⟨i, signalError, kill, _, hi, hkill, hstep, _⟩
  · rw [hcommitted] at hstep hquiet
    generalize w'.db = db' at hstep
    cases hstep <;> exact absurd ‹_› hquiet
  · refine ⟨i, signalError, kill, hi, hkill, ?_⟩
    rw [hcommitted] at hstep hquiet
    generalize w'.db = db' at hstep
    cases hstep with
    | flagged hstate _ => exact ⟨rfl, .requested hstate⟩
    | cancelled hstate _ => exact ⟨rfl, .cancelled hstate⟩
    | _ => exact absurd ‹_› hquiet

end World

end ExecgoRuntime
