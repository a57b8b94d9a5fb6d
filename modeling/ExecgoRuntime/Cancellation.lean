import ExecgoRuntime.Requests
import ExecgoRuntime.Supervising

/-!
A cancellation that is recorded on an unfinished task. The dispatcher, the
recovery pass and the shims that have yet to look at the row end the task as
cancelled, or as failed for a reason of their own. A shim that has looked for
the last time writes what it has decided, since `complete_task` does not read the
flag; so the cancellation is lost exactly on such a shim.
-/
namespace ExecgoRuntime

/-- The endings of a task that do not ignore its cancellation: cancelled, timed
out, not launched, or lost by the recovery. -/
inductive HeedsCancel : TaskStatus → Option RuntimeErrorInfo → Prop
  | cancelled (error : Option RuntimeErrorInfo) : HeedsCancel .cancelled error
  | timeout (message : String) : HeedsCancel .failed (some ⟨.timeout, message⟩)
  | launchFailure (e : AppError) : HeedsCancel .failed (some (launchError e))
  | recoveryLost : HeedsCancel .failed (some ⟨.internal, "recovery_lost"⟩)

theorem HeedsCancel.ne_success {status : TaskStatus} {error : Option RuntimeErrorInfo}
    (h : HeedsCancel status error) : status ≠ .success := by
  intro heq
  rw [heq] at h
  cases h

def CompletionUpdate.HeedsCancel (update : CompletionUpdate) : Prop :=
  ExecgoRuntime.HeedsCancel update.status update.error

theorem classify_heeds (usage : WaitUsage) (timedOut oomKilled : Bool) :
    HeedsCancel (classify usage timedOut true oomKilled).1
      (classify usage timedOut true oomKilled).2 := by
  cases timedOut with
  | true => exact .timeout _
  | false => exact .cancelled _

namespace World

/-- No shim of the task has decided on a completion that ignores a cancellation. -/
def ShimsHeed (w : World) (taskId : TaskId) : Prop :=
  ∀ shim ∈ w.procs.shims, shim.taskId = taskId → ∀ update, shim.state = .completing update →
    update.HeedsCancel

/-- `set_cancel_requested` on an unfinished task is not too late for its shims. -/
def CancelsInTime (svc : RuntimeService) (w : World) (e : Event) : Prop :=
  ∀ taskId row, w.committed svc e = some (.write taskId .setCancelRequested) →
    w.db.tasks.find taskId = some row → row.status.isTerminal = false → w.ShimsHeed taskId

/-- The cancellation of the task is recorded and will be heeded. -/
structure CancelKept (taskId : TaskId) (w : World) : Prop where
  row : ∃ row, w.db.tasks.find taskId = some row ∧ row.killRequested = true ∧
    (row.status.isTerminal = true → HeedsCancel row.status row.error)
  shims : w.ShimsHeed taskId

variable {svc : RuntimeService} {w w' : World} {e : Event} {taskId : TaskId}

/-- A shim that looks at the flagged row decides to heed it. -/
theorem shimsHeed_step (h : w.step svc e = some w') (hheed : w.ShimsHeed taskId)
    (hread : ∀ row, w.db.tasks.find taskId = some row → row.killRequested = true) :
    w'.ShimsHeed taskId := by
  intro shim' hmem hid update hupdate
  cases step_notes h hmem with
  | same hold => exact hheed shim' hold hid update hupdate
  | spawned hnew =>
    rw [hnew] at hupdate
    cases hupdate
  | moved i choice shim _ hshim hsame _ hnotes =>
    have hid' : shim.taskId = taskId := hsame.symm.trans hid
    generalize w.committed svc e = committed at hnotes
    cases hnotes with
    | none hstate =>
      rw [hupdate] at hstate
      cases hstate
    | cancelledEarly _ _ _ _ =>
      cases hupdate
      exact .cancelled _
    | launchFailed e _ _ =>
      cases hupdate
      exact .launchFailure e
    | reaped usage _ =>
      exact hheed shim (List.mem_of_getElem? hshim) hid' update hupdate
    | collected elapsed usage cancelled _ _ _ _ hlooked =>
      cases hupdate
      have hcancelled : cancelled = true := by
        rcases hlooked with ⟨_, hcancelled⟩ | ⟨_, row, hrow, hflag⟩
        · exact hcancelled
        · rw [hflag]
          exact hread row (hid' ▸ hrow)
      subst hcancelled
      exact classify_heeds usage _ _
    | _ => cases hupdate

/-- Every completion that is written comes from an actor that heeds the cancellation. -/
theorem completion_heeds (h : w.step svc e = some w') (hheed : w.ShimsHeed taskId)
    {update : CompletionUpdate}
    (hcommitted : w.committed svc e = some (.write taskId (.completeTask update))) :
    update.HeedsCancel := by
  cases step_write h hcommitted with
  | request _ hcall => cases hcall
  | dispatch _ _ _ _ _ hwrite _ =>
    cases hwrite with
    | failed => exact .launchFailure (.launchFailed _)
  | recover _ _ _ _ _ hwrite _ =>
    cases hwrite with
    | lost _ _ => exact .recoveryLost
  | shim i choice shim shim' _ hshim hid hwrite _ =>
    cases hwrite with
    | completed _ hstate => exact hheed shim (List.mem_of_getElem? hshim) hid update hstate

theorem CancelKept.step (hkept : CancelKept taskId w) (h : w.step svc e = some w')
    (hrow : w.committed svc e ≠ some (.deleteTask taskId)) : CancelKept taskId w' := by
  obtain ⟨row, hfind, hflag, hend⟩ := hkept.row
  have hread : ∀ row', w.db.tasks.find taskId = some row' → row'.killRequested = true := by
    intro row' hfind'
    rw [hfind] at hfind'
    cases hfind'
    exact hflag
  refine ⟨?_, shimsHeed_step h hkept.shims hread⟩
  cases step_row_of_not_deleted h hrow hfind with
  | kept hfind' _ => exact ⟨row, hfind', hflag, hend⟩
  | written write hcommitted hfind' =>
    refine ⟨_, hfind', TaskWrite.effect_killRequested write e.now hflag, ?_⟩
    intro hterminal
    have hstep := TaskWrite.effect_end hterminal
    generalize write.effect e.now row = row' at hstep hterminal
    cases hstep with
    | kept hsame =>
      rw [hsame.status, hsame.error]
      exact hend (hsame.status ▸ hterminal)
    | cancelled error haccepted =>
      simp only [TaskRecord.setCancelled, if_pos haccepted]
      exact .cancelled _
    | completed update => exact completion_heeds h hkept.shims hcommitted

/-- The row that `set_cancel_requested` leaves behind. -/
theorem cancelKept_of_request (h : w.step svc e = some w') {row : TaskRecord}
    (hcommitted : w.committed svc e = some (.write taskId .setCancelRequested))
    (hrow : w.db.tasks.find taskId = some row) (hlive : row.status.isTerminal = false)
    (hheed : w.ShimsHeed taskId) : CancelKept taskId w' := by
  refine ⟨?_, ?_⟩
  · rcases step_db h with ⟨hnone, _⟩ | ⟨call, hcall, hexec⟩
    · rw [hnone] at hcommitted
      cases hcommitted
    · rw [hcall] at hcommitted
      cases hcommitted
      have hwrite : TaskWrite.setCancelRequested.run e.now taskId w.db = .ok w'.db := hexec
      refine ⟨row.setCancelRequested e.now, ?_, rfl, ?_⟩
      · rw [Db.find_write hwrite, if_pos rfl, hrow]
        rfl
      · intro hterminal
        have hsame : (row.setCancelRequested e.now).status = row.status := rfl
        rw [hsame, hlive] at hterminal
        cases hterminal
  · intro shim' hmem
    have hkill : ∀ i choice, e.action ≠ .shim i choice := by
      intro i choice haction
      cases step_write h hcommitted with
      | request hrequest _ =>
        rw [haction] at hrequest
        cases hrequest
      | dispatch _ _ _ _ _ hwrite _ => cases hwrite
      | recover _ _ _ _ _ hwrite _ => cases hwrite
      | shim _ _ _ _ _ _ _ hwrite _ => cases hwrite
    cases step_notes h hmem with
    | same hold => exact hheed shim' hold
    | spawned hnew =>
      intro _ update hupdate
      rw [hnew] at hupdate
      cases hupdate
    | moved i choice _ haction _ _ _ _ => exact absurd haction (hkill i choice)

end World

/-- No cancellation is lost that is recorded, on an unfinished task, before a shim
of the task has decided to ignore it: as long as the row is not deleted it does
not become a success, and it ends in a way that heeds the cancellation. -/
theorem cancellation_kept (svc : RuntimeService) (start : World)
    (before : List (World × Event)) (w : World) (e : Event) (after : List (World × Event))
    (last : World) (hrun : World.Run svc start (before ++ (w, e) :: after) last)
    (htime : ∀ x ∈ before ++ (w, e) :: after, x.1.CancelsInTime svc x.2)
    (taskId : TaskId) (row : TaskRecord)
    (hcommitted : w.committed svc e = some (.write taskId .setCancelRequested))
    (hrow : w.db.tasks.find taskId = some row) (hlive : row.status.isTerminal = false)
    (hkept : ∀ x ∈ after, x.1.committed svc x.2 ≠ some (.deleteTask taskId)) :
    ∃ row', last.db.tasks.find taskId = some row' ∧ row'.status ≠ .success ∧
      (row'.status.isTerminal = true → HeedsCancel row'.status row'.error) := by
  obtain ⟨w', _, hstep, hafter⟩ := hrun.split
  have hheed := htime (w, e) (by simp) taskId row hcommitted hrow hlive
  have hstart := World.cancelKept_of_request hstep hcommitted hrow hlive hheed
  have hlast := hafter.invariant (G := fun s a => s.committed svc a ≠ some (.deleteTask taskId))
    hstart (fun s a s' hs hg ht => hs.step ht hg) hkept
  obtain ⟨row', hfind, _, hend⟩ := hlast.row
  refine ⟨row', hfind, ?_, hend⟩
  intro hsuccess
  exact (hend (by rw [hsuccess]; rfl)).ne_success hsuccess

/-- A task that has been started and is being killed; its shim waits for it. -/
private def killStartActions : List Action :=
  submitActions 0 (commandRequest "a") ++ dispatchActions 10 ++ (shimActions 0 20).take 5 ++
    [.receiveKill "a" none, .kill 0 none]

/-- No shim has decided on a completion when a cancellation is recorded. -/
private def undecided (svc : RuntimeService) (w : World) (e : Event) : Bool :=
  match w.committed svc e with
  | some (.write _ .setCancelRequested) =>
    w.procs.shims.all (fun shim => match shim.state with | .completing _ => false | _ => true)
  | _ => true

private theorem cancelsInTime_of_undecided {svc : RuntimeService} {w : World} {e : Event}
    (h : undecided svc w e = true) : w.CancelsInTime svc e := by
  intro taskId row hcommitted _ _ shim hmem _ update hupdate
  simp only [undecided, hcommitted, List.all_eq_true] at h
  have hstate := h shim hmem
  rw [hupdate] at hstate
  cases hstate

/-- The kill is about to record the cancellation of the unfinished task. -/
private def recordsCancel (svc : RuntimeService) (w : World) : Bool :=
  match w.committed svc ⟨.kill 0 none, 0, none⟩ with
  | some (.write taskId .setCancelRequested) =>
    decide (taskId = "a") &&
      (w.db.tasks.find taskId).any (fun row => !row.status.isTerminal)
  | _ => false

private theorem committed_of_recordsCancel {svc : RuntimeService} {w : World}
    (h : recordsCancel svc w = true) :
    w.committed svc ⟨.kill 0 none, 0, none⟩ = some (.write "a" .setCancelRequested) ∧
      ∃ row, w.db.tasks.find "a" = some row ∧ row.status.isTerminal = false := by
  unfold recordsCancel at h
  split at h
  · rename_i taskId hcommitted
    obtain ⟨hid, hrow⟩ := Bool.and_eq_true_iff.mp h
    obtain rfl := of_decide_eq_true hid
    cases hfind : w.db.tasks.find "a" with
    | none => simp [hfind] at hrow
    | some row => exact ⟨hcommitted, row, rfl, by simpa [hfind] using hrow⟩
  · cases h

private theorem not_deleted_of_no_gc {svc : RuntimeService} {start last : World}
    {before after : List (World × Event)} {x₀ : World × Event}
    (hrun : World.Run svc start (before ++ x₀ :: after) last)
    (hgc : ∀ x ∈ after, x.2.action.isGc = false) (taskId : TaskId) :
    ∀ x ∈ after, x.1.committed svc x.2 ≠ some (.deleteTask taskId) := by
  intro x hx
  obtain ⟨w', hstep⟩ := hrun.step_of_mem (List.mem_append_right before (List.mem_cons_of_mem x₀ hx))
  exact World.not_deletes_of_step hstep (hgc x hx) taskId

/-- The workload is killed and the shim completes the task. -/
private def killEndActions : List Action :=
  [.kill 0 none, .shim 0 (.reaped { exitSignal := some 15 }), .shim 0 (.collect 0 none false),
    .shim 0 .proceed]

/-- A kill that is recorded while the shim waits. -/
theorem cancellation_kept_while_waiting :
    ∃ before w after last,
      World.Run (smallService ⟨1, none, none⟩) .init
        (before ++ (w, ⟨.kill 0 none, 0, none⟩) :: after) last ∧
      before.map Prod.snd = events killStartActions ∧
      after.map Prod.snd = events killEndActions ∧
      ∃ row', last.db.tasks.find "a" = some row' ∧ row'.status ≠ .success ∧
        (row'.status.isTerminal = true → HeedsCancel row'.status row'.error) := by
  let svc := smallService ⟨1, none, none⟩
  have hstart : (World.execute svc (undecided svc) (events killStartActions)).any
      (recordsCancel svc) = true := by decide +kernel
  have hexec : (World.execute svc (undecided svc)
      (events killStartActions ++ ⟨.kill 0 none, 0, none⟩ :: events killEndActions)).any
        (fun _ => true) = true := by decide +kernel
  obtain ⟨before, w, after, last, hrun, hbefore, hafter, hcheck, hrecords, _⟩ :=
    Runs.exists_run_through hstart hexec
  obtain ⟨hcommitted, row, hrow, hlive⟩ := committed_of_recordsCancel hrecords
  refine ⟨before, w, after, last, hrun, hbefore, hafter,
    cancellation_kept svc .init before w _ after last hrun
      (fun x hx => cancelsInTime_of_undecided (hcheck x hx)) "a" row hcommitted hrow hlive ?_⟩
  exact not_deleted_of_no_gc hrun
    (Runs.forall_of_labels (P := fun e => e.action.isGc = false) hafter (by decide)) "a"

/-- The workload has ended and the shim has looked at the row for the last time. -/
private def decidedActions : List Action :=
  killStartActions ++ [.shim 0 (.reaped { exitCode := some 0 }), .shim 0 (.collect 0 none false)]

/-- A kill that is recorded between the last look of the shim and its write. -/
theorem cancellation_lost_after_last_look :
    ¬ ∀ svc before w e after last,
      World.Run svc .init (before ++ (w, e) :: after) last → ∀ taskId row,
      w.committed svc e = some (.write taskId .setCancelRequested) →
      w.db.tasks.find taskId = some row → row.status.isTerminal = false →
      (∀ x ∈ after, x.1.committed svc x.2 ≠ some (.deleteTask taskId)) →
      ∃ row', last.db.tasks.find taskId = some row' ∧ row'.status ≠ .success ∧
        (row'.status.isTerminal = true → HeedsCancel row'.status row'.error) := by
  intro hclaim
  let svc := smallService ⟨1, none, none⟩
  have hstart : (World.execute svc (fun _ _ => true) (events decidedActions)).any
      (recordsCancel svc) = true := by decide +kernel
  have hexec : (World.execute svc (fun _ _ => true)
      (events decidedActions ++ ⟨.kill 0 none, 0, none⟩ :: events [.shim 0 .proceed])).any
        (fun w => (w.db.tasks.find "a").any (fun row => decide (row.status = .success))) =
      true := by decide +kernel
  obtain ⟨before, w, after, last, hrun, _, hafter, _, hrecords, hsuccess⟩ :=
    Runs.exists_run_through hstart hexec
  obtain ⟨hcommitted, row, hrow, hlive⟩ := committed_of_recordsCancel hrecords
  have hkept := not_deleted_of_no_gc hrun
    (Runs.forall_of_labels (P := fun e => e.action.isGc = false) hafter (by decide)) "a"
  obtain ⟨row', hrow', hne, _⟩ :=
    hclaim svc before w _ after last hrun "a" row hcommitted hrow hlive hkept
  rw [hrow'] at hsuccess
  exact hne (by simpa using hsuccess)

end ExecgoRuntime
