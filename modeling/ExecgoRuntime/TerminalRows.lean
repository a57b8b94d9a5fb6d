import ExecgoRuntime.Requests
import ExecgoRuntime.Supervising

/-!
Terminal rows are well formed. The columns that tell how a task ended are written
at different times by different actors: the two flags before, by kills and by
shims, the rest with the status. What an actor has noted about a task was
established on the row when it was noted, so whoever ends the task finds the
flags that its ending needs.
-/
namespace ExecgoRuntime

/-- The row tells how its task ended. -/
structure TaskRecord.WellEnded (row : TaskRecord) : Prop where
  finishedAt : row.finishedAt.isSome = true
  durationMs : row.durationMs.isSome = true
  error : row.error = none ↔ row.status = .success
  errorCode : row.errorCode = row.error.map RuntimeErrorInfo.code
  success : row.status = .success → row.exitCode = some 0
  cancelled : row.status = .cancelled →
    row.killRequested = true ∧ row.errorCode = some .cancelled
  timeout : row.errorCode = some .timeout → row.timeoutTriggered = true

/-- The update ends a task in the form that its row needs. -/
structure CompletionUpdate.WellFormed (update : CompletionUpdate) : Prop where
  durationMs : update.durationMs.isSome = true
  error : update.error = none ↔ update.status = .success
  success : update.status = .success → update.exitCode = some 0
  cancelled : update.status = .cancelled →
    update.error.map RuntimeErrorInfo.code = some .cancelled

theorem wellFormed_of_failed {update : CompletionUpdate} {error : RuntimeErrorInfo}
    (hstatus : update.status = .failed) (herror : update.error = some error)
    (hduration : update.durationMs.isSome = true) : update.WellFormed where
  durationMs := hduration
  error := by simp [hstatus, herror]
  success hsuccess := by
    rw [hstatus] at hsuccess
    cases hsuccess
  cancelled hcancelled := by
    rw [hstatus] at hcancelled
    cases hcancelled

theorem launchFailure_wellFormed (now : Timestamp) (e : AppError) :
    (launchFailure now e).WellFormed := wellFormed_of_failed rfl rfl rfl

theorem shimSpawnFailed_wellFormed (now : Timestamp) (message : String) :
    (shimSpawnFailed now message).WellFormed := wellFormed_of_failed rfl rfl rfl

theorem recoveryLost_wellFormed (now : Timestamp) : (recoveryLost now).WellFormed :=
  wellFormed_of_failed rfl rfl rfl

theorem cancelledBeforeLaunch_wellFormed (now : Timestamp) :
    (cancelledBeforeLaunch now).WellFormed where
  durationMs := rfl
  error := by simp [cancelledBeforeLaunch]
  success hsuccess := by cases hsuccess
  cancelled _ := rfl

/-- The three clauses of a classification that do not depend on the host. -/
theorem classify_wellFormed (usage : WaitUsage) (timedOut cancelled oomKilled : Bool) :
    ((classify usage timedOut cancelled oomKilled).2 = none ↔
      (classify usage timedOut cancelled oomKilled).1 = .success) ∧
    ((classify usage timedOut cancelled oomKilled).1 = .success → usage.exitCode = some 0) ∧
    ((classify usage timedOut cancelled oomKilled).1 = .cancelled →
      (classify usage timedOut cancelled oomKilled).2.map RuntimeErrorInfo.code =
        some .cancelled) := by
  unfold classify
  split
  · simp
  split
  · simp
  split
  · simp
  split
  · simp
  split
  · rename_i code hcode
    split
    · rename_i hzero
      simp [hcode, hzero]
    · simp
  · simp
  · simp

theorem completion_wellFormed (s : Supervision) (now : Timestamp) (elapsed : ℕ)
    (usage : WaitUsage) (cancelled : Bool) (memoryPeakBytes : Option ℕ) (oomKilled : Bool) :
    (s.completion now elapsed usage cancelled memoryPeakBytes oomKilled).WellFormed := by
  obtain ⟨herror, hsuccess, hcancelled⟩ := classify_wellFormed usage s.timeoutStarted.isSome
    cancelled (s.plan.resourceEnforcement.cgroupEnforced && oomKilled)
  exact ⟨rfl, herror, hsuccess, hcancelled⟩

/-- A completed row is well formed if its update is and the flags agree with it. -/
theorem wellEnded_setCompleted {update : CompletionUpdate} {row : TaskRecord}
    (hupdate : update.WellFormed)
    (hcancelled : update.status = .cancelled → row.killRequested = true)
    (htimeout : update.error.map RuntimeErrorInfo.code = some .timeout →
      row.timeoutTriggered = true) : (row.setCompleted update).WellEnded where
  finishedAt := rfl
  durationMs := hupdate.durationMs
  error := hupdate.error
  errorCode := rfl
  success := hupdate.success
  cancelled hstatus := ⟨hcancelled hstatus, hupdate.cancelled hstatus⟩
  timeout := htimeout

theorem wellEnded_setCancelled {row : TaskRecord} (haccepted : row.status = .accepted)
    (hflag : row.killRequested = true) (now : Timestamp) :
    (row.setCancelled cancelledBeforeExecution now).WellEnded := by
  simp only [TaskRecord.setCancelled, if_pos haccepted]
  refine ⟨rfl, rfl, by simp, rfl, ?_, fun _ => ⟨hflag, rfl⟩, ?_⟩
  · intro hsuccess
    cases hsuccess
  · intro htimeout
    cases htimeout

/-- A write that leaves the ending alone, and takes no flag back. -/
theorem TaskRecord.WellEnded.of_sameEnd {row row' : TaskRecord} (h : row.WellEnded)
    (hsame : TaskWrite.SameEnd row row')
    (hkill : row.killRequested = true → row'.killRequested = true)
    (htimeout : row.timeoutTriggered = true → row'.timeoutTriggered = true) :
    row'.WellEnded where
  finishedAt := hsame.finishedAt ▸ h.finishedAt
  durationMs := hsame.durationMs ▸ h.durationMs
  error := by
    rw [hsame.error, hsame.status]
    exact h.error
  errorCode := by
    rw [hsame.errorCode, hsame.error]
    exact h.errorCode
  success hstatus := by
    rw [hsame.exitCode]
    exact h.success (hsame.status ▸ hstatus)
  cancelled hstatus := by
    obtain ⟨hflag, hcode⟩ := h.cancelled (hsame.status ▸ hstatus)
    exact ⟨hkill hflag, hsame.errorCode.trans hcode⟩
  timeout hcode := htimeout (h.timeout (hsame.errorCode ▸ hcode))

theorem Dispatcher.cancel_call {svc : RuntimeService} {now : Timestamp} {outcome : SpawnOutcome}
    {d : Dispatcher} {taskId : TaskId} {error : RuntimeErrorInfo}
    (hcall : (d.move svc now outcome).call = some (.write taskId (.cancelAcceptedTask error))) :
    error = cancelledBeforeExecution ∧
      ∃ task ∈ d.pending, task.taskId = taskId ∧ task.killRequested = true := by
  cases d with
  | scanning totals tasks =>
    cases tasks with
    | nil => cases hcall
    | cons task rest =>
      simp only [Dispatcher.move] at hcall
      cases hdecision : consider svc.ledger totals task with
      | skip =>
        rw [hdecision] at hcall
        cases hcall
      | reserve reservation =>
        rw [hdecision] at hcall
        cases hcall
      | cancel =>
        rw [hdecision] at hcall
        cases hcall
        refine ⟨rfl, task, List.mem_cons_self .., rfl, ?_⟩
        unfold consider at hdecision
        split at hdecision
        · assumption
        repeat' split at hdecision
        all_goals cases hdecision
  | launching totals task reservation rest => cases outcome <;> cases hcall
  | _ => cases hcall

/-- The flag of the task is committed, and the kill may still cancel the task. -/
def KillState.flagged : KillState → Bool
  | .rereading | .cancelling => true
  | _ => false

namespace World

variable {svc : RuntimeService} {w w' : World} {e : Event}

theorem step_cancels (h : w.step svc e = some w') {taskId : TaskId} {error : RuntimeErrorInfo}
    (hcommitted : w.committed svc e = some (.write taskId (.cancelAcceptedTask error))) :
    error = cancelledBeforeExecution ∧
      ((∃ kill ∈ w.procs.kills, kill.state = .cancelling ∧ kill.taskId = taskId) ∨
        ∃ task ∈ w.pending, task.taskId = taskId ∧ task.killRequested = true) := by
  cases step_write h hcommitted with
  | recover _ _ _ _ _ hwrite _ => cases hwrite
  | shim _ _ _ _ _ _ _ hwrite _ => cases hwrite
  | dispatch outcome d d' haction hserver _ _ =>
    obtain ⟨m, hm, _, hout⟩ := step_actor h
    rw [haction] at hm
    simp only [Procs.actorMove, hserver, Option.some.injEq] at hm
    subst hm
    have hcall := Move.call_of_committed hout hcommitted
    obtain ⟨herror, task, htask, hid, hflag⟩ := Dispatcher.cancel_call hcall
    refine ⟨herror, .inr ⟨task, ?_, hid, hflag⟩⟩
    simpa [pending, hserver] using htask
  | request haction _ =>
    obtain ⟨i, _, kill, _, hkill, hid, hwrite⟩ := step_kill_write h haction hcommitted
    cases hwrite with
    | cancelled hstate => exact ⟨rfl, .inl ⟨kill, List.mem_of_getElem? hkill, hstate, hid⟩⟩

/-- The cancellation of the task is recorded. -/
abbrev Cancelled (w : World) (taskId : TaskId) : Prop :=
  w.Established taskId (fun row => row.killRequested = true)

/-- The timeout of the task is recorded. -/
abbrev TimedOut (w : World) (taskId : TaskId) : Prop :=
  w.Established taskId (fun row => row.timeoutTriggered = true)

/-- What a shim has noted is on the row, and what it has decided is well formed. -/
structure ShimBacked (w : World) (shim : Shim) : Prop where
  cancel : shim.notedCancel = true → w.Cancelled shim.taskId
  timeout : shim.notedTimeout = true → w.TimedOut shim.taskId
  update : ∀ update, shim.state = .completing update → update.WellFormed

structure WellEnding (w : World) : Prop where
  rows : ∀ taskId row, w.db.tasks.find taskId = some row → row.status.isTerminal = true →
    row.WellEnded
  timeouts : ∀ taskId row, w.db.tasks.find taskId = some row → row.errorCode = some .timeout →
    row.timeoutTriggered = true
  shims : ∀ shim ∈ w.procs.shims, w.ShimBacked shim
  kills : ∀ kill ∈ w.procs.kills, kill.state.flagged = true → w.Cancelled kill.taskId
  pending : ∀ task ∈ w.pending, task.killRequested = true → w.Cancelled task.taskId

theorem Cancelled.step {taskId : TaskId} (hcancelled : w.Cancelled taskId)
    (hnew : w.NoResubmission svc e) (h : w.step svc e = some w') : w'.Cancelled taskId :=
  Established.step (fun write now _ hflag => write.effect_killRequested now hflag)
    hcancelled hnew h

theorem TimedOut.step {taskId : TaskId} (htimedOut : w.TimedOut taskId)
    (hnew : w.NoResubmission svc e) (h : w.step svc e = some w') : w'.TimedOut taskId :=
  Established.step (fun write now _ hflag => write.effect_timeoutTriggered now hflag)
    htimedOut hnew h

/-- What a write puts on its row is established. -/
theorem established_of_write {taskId : TaskId} {write : TaskWrite} {P : TaskRecord → Prop}
    (h : w.step svc e = some w') (hcommitted : w.committed svc e = some (.write taskId write))
    (hstores : write.storesEvent = true) (hP : ∀ now row, P (write.effect now row)) :
    w'.Established taskId P := by
  rcases step_db h with ⟨hnone, _⟩ | ⟨call, hcall, hexec⟩
  · rw [hnone] at hcommitted
    cases hcommitted
  · rw [hcall] at hcommitted
    cases hcommitted
    have hrun : write.run e.now taskId w.db = .ok w'.db := hexec
    obtain ⟨row, hrow⟩ := TaskWrite.find_of_run hstores hrun
    refine .inl ⟨write.effect e.now row, ?_, hP e.now row⟩
    rw [Db.find_write hrun, if_pos rfl, hrow]
    rfl

theorem ShimBacked.of_no_notes {shim : Shim} (h : shim.state.hasNotes = false) :
    w.ShimBacked shim where
  cancel hnoted := by
    rw [Shim.notedCancel_of_hasNotes h] at hnoted
    cases hnoted
  timeout hnoted := by
    rw [Shim.notedTimeout_of_hasNotes h] at hnoted
    cases hnoted
  update update hupdate := by
    rw [hupdate] at h
    cases h

/-- The update that a shim decides on. -/
theorem wellFormed_of_note {graceMs : ℕ} {now : Timestamp} {db : Db}
    {committed : Option StoreCall} {shim shim' : Shim}
    (h : NoteStep graceMs now db shim committed shim')
    (hold : ∀ update, shim.state = .completing update → update.WellFormed)
    {update : CompletionUpdate} (hupdate : shim'.state = .completing update) :
    update.WellFormed := by
  cases h with
  | none hstate =>
    rw [hupdate] at hstate
    cases hstate
  | cancelledEarly _ _ _ _ =>
    cases hupdate
    exact cancelledBeforeLaunch_wellFormed now
  | launchFailed e _ _ =>
    cases hupdate
    exact launchFailure_wellFormed now e
  | reaped usage _ => exact hold update hupdate
  | collected elapsed usage cancelled memoryPeakBytes oomKilled _ _ _ =>
    cases hupdate
    exact completion_wellFormed _ now elapsed usage cancelled memoryPeakBytes oomKilled
  | _ => cases hupdate

theorem WellEnding.shim_step (hinv : w.WellEnding) (hnew : w.NoResubmission svc e)
    (h : w.step svc e = some w') {shim' : Shim} (hmem : shim' ∈ w'.procs.shims) :
    w'.ShimBacked shim' := by
  cases step_notes h hmem with
  | same hold =>
    have hbacked := hinv.shims shim' hold
    exact ⟨fun hnoted => (hbacked.cancel hnoted).step hnew h,
      fun hnoted => (hbacked.timeout hnoted).step hnew h, hbacked.update⟩
  | spawned hstate => exact .of_no_notes (by rw [hstate]; rfl)
  | moved i choice shim _ hshim hid _ hnotes =>
    have hbacked := hinv.shims shim (List.mem_of_getElem? hshim)
    refine ⟨fun hnoted => ?_, fun hnoted => ?_, fun update => wellFormed_of_note hnotes
      hbacked.update⟩
    · rw [hid]
      rcases hnotes.notedCancel hnoted with hold | ⟨row, hrow, hflag⟩
      · exact (hbacked.cancel hold).step hnew h
      · have hread : w.Cancelled shim.taskId := .inl ⟨row, hrow, hflag⟩
        exact hread.step hnew h
    · rw [hid]
      rcases hnotes.notedTimeout hnoted with hold | hcommitted
      · exact (hbacked.timeout hold).step hnew h
      · exact established_of_write h hcommitted rfl (fun _ _ => rfl)

theorem WellEnding.kill_step (hinv : w.WellEnding) (hnew : w.NoResubmission svc e)
    (h : w.step svc e = some w') {kill' : KillCall} (hmem : kill' ∈ w'.procs.kills)
    (hstate : kill'.state.flagged = true) : w'.Cancelled kill'.taskId := by
  rcases mem_kills_of_step h hmem with hold | ⟨_, _, _, rfl⟩ | ⟨_, _, kill, _, hkill, hstep⟩
  · exact (hinv.kills kill' hold hstate).step hnew h
  · cases hstate
  · generalize hc : w.committed svc e = committed at hstep
    generalize hdb : w'.db = db' at hstep
    cases hstep with
    | flagged _ _ => exact established_of_write h hc rfl (fun _ _ => rfl)
    | requested _ _ hrereading _ =>
      refine (hinv.kills kill (List.mem_of_getElem? hkill) ?_).step hnew h
      rw [hrereading]
      rfl
    | authorized _ _ _ =>
      unfold KillCall.authorize at hstate
      split at hstate
      · cases hstate
      · split at hstate <;> cases hstate
    | _ => cases hstate

theorem WellEnding.pending_step (hinv : w.WellEnding) (hnew : w.NoResubmission svc e)
    (h : w.step svc e = some w') {task : TaskRecord} (hmem : task ∈ w'.pending)
    (hflag : task.killRequested = true) : w'.Cancelled task.taskId := by
  rcases step_pending h with hsub | ⟨hdb, haccepted | hrecovered⟩
  · exact (hinv.pending task (hsub.mem hmem) hflag).step hnew h
  · rw [haccepted] at hmem
    exact .inl ⟨task, hdb ▸ (Db.mem_listAccepted hmem).1, hflag⟩
  · rw [hrecovered] at hmem
    exact .inl ⟨task, hdb ▸ (Db.mem_listNonTerminal hmem).1, hflag⟩

/-- Whoever completes a task has a well-formed update that the flags agree with. -/
theorem WellEnding.completion (hinv : w.WellEnding) (h : w.step svc e = some w')
    {taskId : TaskId} {update : CompletionUpdate}
    (hcommitted : w.committed svc e = some (.write taskId (.completeTask update))) :
    update.WellFormed ∧ (update.status = .cancelled → w.Cancelled taskId) ∧
      (update.error.map RuntimeErrorInfo.code = some .timeout → w.TimedOut taskId) := by
  cases step_write h hcommitted with
  | request _ hcall => cases hcall
  | dispatch _ _ _ _ _ hwrite _ =>
    cases hwrite with
    | failed => exact ⟨shimSpawnFailed_wellFormed _ _, by simp [shimSpawnFailed],
        by simp [shimSpawnFailed]⟩
  | recover _ _ _ _ _ hwrite _ =>
    cases hwrite with
    | lost _ _ => exact ⟨recoveryLost_wellFormed _, by simp [recoveryLost], by simp [recoveryLost]⟩
  | shim i choice shim shim' _ hshim hid hwrite _ =>
    cases hwrite with
    | completed _ hstate =>
      have hbacked := hinv.shims shim (List.mem_of_getElem? hshim)
      refine ⟨hbacked.update update hstate, fun hcancelled => ?_, fun htimeout => ?_⟩
      · rw [← hid]
        exact hbacked.cancel (by simp [Shim.notedCancel, hstate, hcancelled])
      · rw [← hid]
        exact hbacked.timeout (by simp [Shim.notedTimeout, hstate, htimeout])

theorem WellEnding.row_step (hinv : w.WellEnding) (h : w.step svc e = some w')
    {taskId : TaskId} {row' : TaskRecord} (hrow' : w'.db.tasks.find taskId = some row')
    (hterminal : row'.status.isTerminal = true) : row'.WellEnded := by
  cases step_origin h hrow' with
  | inserted new _ _ _ hnewRow _ =>
    rw [hnewRow] at hterminal
    cases hterminal
  | kept hrow _ _ => exact hinv.rows taskId row' hrow hterminal
  | written write row hcommitted hrow heffect _ =>
    subst heffect
    have hend := TaskWrite.effect_end hterminal
    generalize hresult : write.effect e.now row = row' at hend hterminal
    cases hend with
    | kept hsame =>
      have hwell := hinv.rows taskId row hrow (hsame.status ▸ hterminal)
      refine hwell.of_sameEnd hsame (fun hflag => ?_) (fun hflag => ?_)
      · exact hresult ▸ write.effect_killRequested e.now hflag
      · exact hresult ▸ write.effect_timeoutTriggered e.now hflag
    | cancelled error haccepted =>
      obtain ⟨rfl, hwho⟩ := step_cancels h hcommitted
      have hcancelled : w.Cancelled taskId := by
        rcases hwho with ⟨kill, hkill, hstate, rfl⟩ | ⟨task, htask, rfl, hflag⟩
        · exact hinv.kills kill hkill (by rw [hstate]; rfl)
        · exact hinv.pending task htask hflag
      exact wellEnded_setCancelled haccepted (hcancelled.of_find hrow) e.now
    | completed update =>
      obtain ⟨hupdate, hcancelled, htimeout⟩ := hinv.completion h hcommitted
      exact wellEnded_setCompleted hupdate (fun hstatus => (hcancelled hstatus).of_find hrow)
        (fun hcode => (htimeout hcode).of_find hrow)

/-- The error code of a row that is not terminal is left from an earlier ending. -/
theorem WellEnding.timeout_step (hinv : w.WellEnding) (h : w.step svc e = some w')
    {taskId : TaskId} {row' : TaskRecord} (hrow' : w'.db.tasks.find taskId = some row')
    (hcode : row'.errorCode = some .timeout) : row'.timeoutTriggered = true := by
  by_cases hterminal : row'.status.isTerminal = true
  · exact (hinv.row_step h hrow' hterminal).timeout hcode
  · cases step_origin h hrow' with
    | inserted _ _ _ _ hnewRow _ =>
      rw [hnewRow] at hcode
      cases hcode
    | kept hrow _ _ => exact hinv.timeouts taskId row' hrow hcode
    | written write row _ hrow heffect _ =>
      subst heffect
      have hsame := TaskWrite.effect_errorCode (by simpa using hterminal)
      have hflag := hinv.timeouts taskId row hrow (hsame ▸ hcode)
      exact write.effect_timeoutTriggered e.now hflag

theorem WellEnding.step (hinv : w.WellEnding) (hnew : w.NoResubmission svc e)
    (h : w.step svc e = some w') : w'.WellEnding where
  rows _ _ hrow hterminal := hinv.row_step h hrow hterminal
  timeouts _ _ hrow hcode := hinv.timeout_step h hrow hcode
  shims _ hmem := hinv.shim_step hnew h hmem
  kills _ hmem hstate := hinv.kill_step hnew h hmem hstate
  pending _ hmem hflag := hinv.pending_step hnew h hmem hflag

theorem wellEnding_init : init.WellEnding where
  rows _ _ hrow _ := by cases hrow
  timeouts _ _ hrow _ := by cases hrow
  shims _ hmem := by cases hmem
  kills _ hmem := by cases hmem
  pending _ hmem := by cases hmem

end World

/-- Terminal rows are well formed in every state of a run that starts on an empty
database and submits no deleted id again, and every row with the error code of a
timeout has its flag. -/
theorem terminal_rows_well_ended (svc : RuntimeService) (trace : List (World × Event))
    (last : World) (hrun : World.Run svc .init trace last)
    (hnew : ∀ x ∈ trace, x.1.NoResubmission svc x.2) :
    ∀ s ∈ Runs.visited trace last, ∀ taskId row, s.db.tasks.find taskId = some row →
      (row.status.isTerminal = true → row.WellEnded) ∧
        (row.errorCode = some .timeout → row.timeoutTriggered = true) := by
  have hwell := hrun.invariant_visited World.wellEnding_init
    (fun w e w' hw hg ht => World.WellEnding.step (e := e) hw hg ht) hnew
  intro s hs taskId row hrow
  exact ⟨(hwell s hs).rows taskId row hrow, (hwell s hs).timeouts taskId row hrow⟩

/-- A task that is cancelled while it runs: its row is terminal at the end. -/
theorem terminal_rows_well_ended_of_kill :
    ∃ trace last row, World.Run (smallService ⟨1, none, none⟩) .init trace last ∧
      trace.map Prod.snd = events (submitActions 0 (commandRequest "a") ++ dispatchActions 10 ++
        (shimActions 0 20).take 5 ++ [.receiveKill "a" none, .kill 0 none, .kill 0 none,
          .kill 0 none, .kill 0 none, .shim 0 (.tick 1),
          .shim 0 (.reaped { exitSignal := some 15 }), .shim 0 (.collect 1 none false),
          .shim 0 .proceed]) ∧
      last.db.tasks.find "a" = some row ∧ row.status = .cancelled ∧ row.WellEnded := by
  let svc := smallService ⟨1, none, none⟩
  have hexec : (World.execute svc (World.submitsFresh svc) (events
      (submitActions 0 (commandRequest "a") ++ dispatchActions 10 ++
        (shimActions 0 20).take 5 ++ [.receiveKill "a" none, .kill 0 none, .kill 0 none,
          .kill 0 none, .kill 0 none, .shim 0 (.tick 1),
          .shim 0 (.reaped { exitSignal := some 15 }), .shim 0 (.collect 1 none false),
          .shim 0 .proceed]))).any (fun w =>
        (w.db.tasks.find "a").any (fun row => decide (row.status = .cancelled))) = true := by
    decide +kernel
  obtain ⟨trace, last, row, hrun, hlabels, hfresh, hrow, htest⟩ :=
    World.exists_run_to_row (p := fun row _ => decide (row.status = .cancelled)) hexec
  have hcancelled : row.status = .cancelled := of_decide_eq_true htest
  have hwell := terminal_rows_well_ended svc trace last hrun
    (fun x hx => World.noResubmission_of_fresh (hfresh x hx)) last
    (Runs.last_mem_visited trace last) "a" row hrow
  exact ⟨trace, last, row, hrun, hlabels, hrow, hcancelled, hwell.1 (by rw [hcancelled]; rfl)⟩

end ExecgoRuntime
