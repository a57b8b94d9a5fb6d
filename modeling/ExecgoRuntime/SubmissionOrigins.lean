import ExecgoRuntime.Collection
import Mathlib.Data.List.Perm.Subperm

/-!
Where the rows come from. A request that is received leads to one row at most,
and no row has another source; the columns that hold what was submitted never
change.
-/
namespace ExecgoRuntime

open KeyedTable

/-- A request as the server received it, with the id of its task. -/
structure Arrival where
  request : SubmitTaskRequest
  taskId : TaskId

namespace SubmitCall

def arrival (call : SubmitCall) : Arrival :=
  ⟨call.request, call.request.taskId.getD call.generatedId⟩

/-- The call has not been answered. -/
def pending (call : SubmitCall) : Bool :=
  match call.state with
  | .received | .inserting _ => true
  | .returned _ => false

/-- The arrival of a call that may still insert a row. -/
def waiting (call : SubmitCall) : Option Arrival :=
  if call.pending then some call.arrival else none

/-- The arrival of a call that was answered with an error. -/
def refusal (call : SubmitCall) : Option Arrival :=
  match call.state with
  | .returned (.error _) => some call.arrival
  | _ => none

theorem waiting_of_pending {call : SubmitCall} (h : call.pending = true) :
    call.waiting = some call.arrival := if_pos h

/-- An answered call makes no move. -/
theorem pending_of_move {svc : RuntimeService} {call : SubmitCall} {m : Move SubmitCall}
    (h : call.move svc = some m) : call.pending = true := by
  cases hstate : call.state with
  | returned _ =>
    rw [move, hstate] at h
    cases h
  | received => rw [pending, hstate]
  | inserting _ => rw [pending, hstate]

end SubmitCall

/-- The record that the service makes of an arrival it accepts. -/
def RuntimeService.Admits (svc : RuntimeService) (arrival : Arrival) (new : NewTaskRecord) : Prop :=
  ∃ plan, svc.checkRequest arrival.request = .ok plan ∧
    svc.newTask arrival.request arrival.taskId plan = .ok new

theorem RuntimeService.Admits.arrival {svc : RuntimeService} {arrival : Arrival}
    {new : NewTaskRecord} (h : svc.Admits arrival new) :
    new.request = arrival.request ∧ new.taskId = arrival.taskId := by
  obtain ⟨plan, _, hnew⟩ := h
  simp only [newTask, bind, Except.bind] at hnew
  split at hnew
  · cases hnew
  · cases hnew
    exact ⟨rfl, rfl⟩

namespace TaskWrite

/-- The columns that hold what was submitted. -/
structure SameSubmission (row row' : TaskRecord) : Prop extends SameOrigin row row' where
  handleId : row'.handleId = row.handleId
  execution : row'.execution = row.execution
  sandbox : row'.sandbox = row.sandbox
  metadata : row'.metadata = row.metadata
  createdAt : row'.createdAt = row.createdAt
  workspaceDir : row'.workspaceDir = row.workspaceDir
  requestPath : row'.requestPath = row.requestPath
  stdoutPath : row'.stdoutPath = row.stdoutPath
  stderrPath : row'.stderrPath = row.stderrPath
  stdoutMaxBytes : row'.stdoutMaxBytes = row.stdoutMaxBytes
  stderrMaxBytes : row'.stderrMaxBytes = row.stderrMaxBytes

theorem SameSubmission.refl (row : TaskRecord) : SameSubmission row row :=
  ⟨⟨rfl, rfl, rfl, rfl, rfl, rfl⟩, rfl, rfl, rfl, rfl, rfl, rfl, rfl, rfl, rfl, rfl, rfl⟩

theorem SameSubmission.trans {row row' row'' : TaskRecord} (h : SameSubmission row row')
    (h' : SameSubmission row' row'') : SameSubmission row row'' where
  taskId := h'.taskId.trans h.taskId
  limits := h'.limits.trans h.limits
  taskDir := h'.taskDir.trans h.taskDir
  resultPath := h'.resultPath.trans h.resultPath
  executionPlan := h'.executionPlan.trans h.executionPlan
  controlContext := h'.controlContext.trans h.controlContext
  handleId := h'.handleId.trans h.handleId
  execution := h'.execution.trans h.execution
  sandbox := h'.sandbox.trans h.sandbox
  metadata := h'.metadata.trans h.metadata
  createdAt := h'.createdAt.trans h.createdAt
  workspaceDir := h'.workspaceDir.trans h.workspaceDir
  requestPath := h'.requestPath.trans h.requestPath
  stdoutPath := h'.stdoutPath.trans h.stdoutPath
  stderrPath := h'.stderrPath.trans h.stderrPath
  stdoutMaxBytes := h'.stdoutMaxBytes.trans h.stdoutMaxBytes
  stderrMaxBytes := h'.stderrMaxBytes.trans h.stderrMaxBytes

theorem effect_sameSubmission (w : TaskWrite) (now : Timestamp) (row : TaskRecord) :
    SameSubmission row (w.effect now row) := by
  refine ⟨w.effect_sameOrigin now row, ?_, ?_, ?_, ?_, ?_, ?_, ?_, ?_, ?_, ?_, ?_⟩
  all_goals
    cases w <;> simp only [effect, TaskRecord.setDispatched, TaskRecord.setStarted,
      TaskRecord.setReserved, TaskRecord.setReleased, TaskRecord.setCancelRequested,
      TaskRecord.setTimeoutTriggered, TaskRecord.setCancelled, TaskRecord.setCompleted,
      TaskRecord.setRecovered] <;> (try split) <;> rfl

end TaskWrite

namespace World

variable {svc : RuntimeService} {w w' : World} {e : Event}

def arrivalOf (e : Event) : Option Arrival :=
  match e.action with
  | .receiveSubmit request generatedId => some ⟨request, request.taskId.getD generatedId⟩
  | _ => none

/-- The arrival whose row the step inserts. -/
def insertionOf (svc : RuntimeService) (w : World) (e : Event) : Option Arrival :=
  match w.committed svc e with
  | some (.insertTask new) => some ⟨new.request, new.taskId⟩
  | _ => none

/-- The arrival that the step answers with an error. -/
def refusalOf (svc : RuntimeService) (w : World) (e : Event) : Option Arrival :=
  match e.action with
  | .submit i => (w.step svc e).bind fun w' => (w'.procs.submits[i]?).bind SubmitCall.refusal
  | _ => none

def waitingArrivals (w : World) : List Arrival := w.procs.submits.filterMap SubmitCall.waiting

/-- A submission that is about to insert a record inserts that of its arrival. -/
def Planned (svc : RuntimeService) (w : World) : Prop :=
  ∀ submit ∈ w.procs.submits, ∀ new, submit.state = .inserting new →
    svc.Admits submit.arrival new

theorem Planned.step (hinv : w.Planned svc) (h : w.step svc e = some w') : w'.Planned svc := by
  intro submit' hmem new hstate
  rcases mem_submits_of_step h hmem with hold | ⟨request, generatedId, rfl⟩ | ⟨submit, _, hstep⟩
  · exact hinv submit' hold new hstate
  · cases hstate
  · generalize w.committed svc e = committed at hstep
    generalize w'.db = db' at hstep
    cases hstep with
    | failed _ _ => cases hstate
    | planned _ _ hplan _ hnew =>
      cases hstate
      exact ⟨_, hplan, hnew⟩
    | inserted _ _ => cases hstate

theorem insertionOf_of_quiet (h : Move.Quiet (w.committed svc e)) :
    w.insertionOf svc e = none := by
  rcases h with hnone | hread
  · rw [insertionOf, hnone]
  · rw [insertionOf, hread]

theorem insertionOf_of_not_submit (h : w.step svc e = some w')
    (haction : ∀ i, e.action ≠ .submit i) : w.insertionOf svc e = none := by
  unfold insertionOf
  split
  · rename_i new hcommitted
    obtain ⟨i, _, hsubmit, _⟩ := step_insert h hcommitted
    exact absurd hsubmit (haction i)
  · rfl

theorem refusalOf_of_not_submit (haction : ∀ i, e.action ≠ .submit i) :
    w.refusalOf svc e = none := by
  unfold refusalOf
  split
  · rename_i i hsubmit
    exact absurd hsubmit (haction i)
  · rfl

theorem submit_of_actorMove {procs : Procs} {now : Timestamp} {i : ℕ} {m : Move Procs}
    (hm : procs.actorMove svc now (.submit i) = some m) :
    ∃ submit m', procs.submits[i]? = some submit ∧ submit.move svc = some m' ∧
      m = m'.map (fun call => { procs with submits := procs.submits.set i call }) := by
  obtain ⟨server, submits, kills, escalations, gc, shims⟩ := procs
  cases server with
  | serving _ =>
    obtain ⟨submit, hsubmit, hm⟩ := Option.bind_eq_some_iff.mp hm
    obtain ⟨m', hmove, hm⟩ := Option.bind_eq_some_iff.mp hm
    exact ⟨submit, m', hsubmit, hmove, (Option.some.inj hm).symm⟩
  | down => cases hm
  | recovering _ => cases hm

theorem pending_of_submit (h : w.step svc e = some w') {i : ℕ} (haction : e.action = .submit i)
    {submit : SubmitCall} (hsubmit : w.procs.submits[i]? = some submit) :
    submit.pending = true := by
  obtain ⟨m, hm, _, _⟩ := step_actor h
  rw [haction] at hm
  obtain ⟨found, m', hfound, hmove, _⟩ := submit_of_actorMove hm
  rw [hsubmit] at hfound
  cases hfound
  exact SubmitCall.pending_of_move hmove

/-- The step of a submission takes nothing away but the row it inserts, or the
arrival it refuses. -/
theorem submitStep_waiting {submit submit' : SubmitCall} (hpending : submit.pending = true)
    (hplanned : ∀ new, submit.state = .inserting new → svc.Admits submit.arrival new)
    (h : SubmitStep svc e.now w.db submit (w.committed svc e) w'.db submit') :
    ((w.insertionOf svc e).toList ++ submit'.refusal.toList ++ submit'.waiting.toList).Sublist
      submit.waiting.toList := by
  rw [SubmitCall.waiting_of_pending hpending]
  unfold insertionOf
  generalize w.committed svc e = committed at h
  generalize w'.db = db' at h
  cases h with
  | failed err hquiet =>
    have hrefusal : (submit.fail err).refusal = some submit.arrival := rfl
    have hanswered : (submit.fail err).waiting = none := rfl
    rw [hrefusal, hanswered]
    rcases hquiet with rfl | rfl <;> exact List.Sublist.refl _
  | planned hquiet _ _ _ _ =>
    rcases hquiet with rfl | rfl <;> exact List.Sublist.refl _
  | @inserted new _ hstate _ =>
    obtain ⟨hrequest, hid⟩ := (hplanned new hstate).arrival
    change [(⟨new.request, new.taskId⟩ : Arrival)].Sublist [submit.arrival]
    rw [hrequest, hid]

theorem waitingArrivals_set {procs : Procs} {i : ℕ} {submit submit' : SubmitCall}
    (hsubmit : procs.submits[i]? = some submit) {extra : List Arrival}
    (h : (extra ++ submit'.waiting.toList).Sublist submit.waiting.toList) :
    (extra ++ (procs.submits.set i submit').filterMap SubmitCall.waiting).Subperm
      (procs.submits.filterMap SubmitCall.waiting) := by
  obtain ⟨hlt, rfl⟩ := List.getElem?_eq_some_iff.mp hsubmit
  obtain ⟨before, after, hlist, _, hset⟩ :
      ∃ before after, procs.submits = before ++ procs.submits[i] :: after ∧
        before.length = i ∧ procs.submits.set i submit' = before ++ submit' :: after :=
    List.exists_of_set hlt
  have hsplit : ∀ call : SubmitCall, (before ++ call :: after).filterMap SubmitCall.waiting =
      before.filterMap SubmitCall.waiting ++
        (call.waiting.toList ++ after.filterMap SubmitCall.waiting) := by
    intro call
    cases hwaiting : call.waiting <;> simp [hwaiting]
  rw [hset, hsplit, hlist, hsplit]
  refine (List.perm_append_comm_assoc _ _ _).subperm.trans (List.Sublist.subperm ?_)
  rw [← List.append_assoc extra]
  exact (List.Sublist.refl _).append (h.append (List.Sublist.refl _))

/-- Nothing waits, is refused or is inserted that was not waiting or received. -/
theorem step_waiting (hinv : w.Planned svc) (h : w.step svc e = some w') :
    ((w.insertionOf svc e).toList ++ (w.refusalOf svc e).toList ++ w'.waitingArrivals).Subperm
      (w.waitingArrivals ++ (arrivalOf e).toList) := by
  have hothers : (∀ i, e.action ≠ .submit i) → w'.procs.submits = w.procs.submits →
      ((w.insertionOf svc e).toList ++ (w.refusalOf svc e).toList ++ w'.waitingArrivals).Subperm
        (w.waitingArrivals ++ (arrivalOf e).toList) := by
    intro haction hsame
    rw [insertionOf_of_not_submit h haction, refusalOf_of_not_submit haction, waitingArrivals,
      hsame]
    exact (List.sublist_append_left _ _).subperm
  cases step_requests h with
  | same haction hsubmits _ _ =>
    refine hothers (fun i hi => ?_) hsubmits
    rw [hi] at haction
    cases haction
  | lost haction hquiet hprocs =>
    rw [insertionOf_of_quiet hquiet, refusalOf_of_not_submit (by simp [haction]), waitingArrivals,
      hprocs]
    exact List.nil_subperm
  | submitReceived request generatedId haction hquiet hprocs =>
    have harrival : arrivalOf e = some ⟨request, request.taskId.getD generatedId⟩ := by
      rw [arrivalOf, haction]
    rw [insertionOf_of_quiet hquiet, refusalOf_of_not_submit (by simp [haction]), harrival,
      waitingArrivals, hprocs, List.filterMap_append]
    exact List.Subperm.refl _
  | submit i submit submit' haction hsubmit hstep hprocs =>
    have hlt := (List.getElem?_eq_some_iff.mp hsubmit).1
    have hrefusal : w.refusalOf svc e = submit'.refusal := by
      simp [refusalOf, haction, h, hprocs, hlt]
    rw [hrefusal, waitingArrivals, hprocs]
    have hplanned := hinv submit (List.mem_of_getElem? hsubmit)
    have hpending := pending_of_submit h haction hsubmit
    exact (waitingArrivals_set hsubmit (submitStep_waiting hpending hplanned hstep)).trans
      (List.sublist_append_left _ _).subperm
  | killReceived _ _ haction _ hprocs => exact hothers (by simp [haction]) (by rw [hprocs])
  | kill _ _ _ _ haction _ _ hprocs => exact hothers (by simp [haction]) (by rw [hprocs]; rfl)
  | escalate _ _ _ haction _ _ hprocs => exact hothers (by simp [haction]) (by rw [hprocs])

/-- The requests that the server received, in order. -/
def arrivals (trace : List (World × Event)) : List Arrival :=
  trace.filterMap (fun x => arrivalOf x.2)

/-- The arrivals whose rows were inserted, in order. -/
def insertions (svc : RuntimeService) (trace : List (World × Event)) : List Arrival :=
  trace.filterMap (fun x => x.1.insertionOf svc x.2)

/-- The arrivals that were answered with an error, in order. -/
def refusals (svc : RuntimeService) (trace : List (World × Event)) : List Arrival :=
  trace.filterMap (fun x => x.1.refusalOf svc x.2)

theorem planned_serve (db : Db) : (serve db).Planned svc := by
  intro submit hmem
  cases hmem

section Runs

variable {db : Db} {trace : List (World × Event)} {last : World}

theorem planned_of_run (hrun : Run svc (serve db) trace last) : last.Planned svc :=
  hrun.invariant (G := fun _ _ => True) (planned_serve db)
    (fun _ _ _ hinv _ hstep => hinv.step hstep) (fun _ _ => trivial)

/-- What was inserted, what was refused and what still waits are parts of what was
received. -/
theorem inserted_refused_or_waiting (hrun : Run svc (serve db) trace last) :
    (insertions svc trace ++ refusals svc trace ++ last.waitingArrivals).Subperm
      (arrivals trace) := by
  induction hrun with
  | nil => exact List.nil_subperm
  | @snoc trace s e s' hbefore hstep ih =>
    have hins : insertions svc (trace ++ [(s, e)]) =
        insertions svc trace ++ (s.insertionOf svc e).toList := by
      cases hcase : s.insertionOf svc e <;> simp [insertions, hcase]
    have href : refusals svc (trace ++ [(s, e)]) =
        refusals svc trace ++ (s.refusalOf svc e).toList := by
      cases hcase : s.refusalOf svc e <;> simp [refusals, hcase]
    have harr : arrivals (trace ++ [(s, e)]) = arrivals trace ++ (arrivalOf e).toList := by
      cases hcase : arrivalOf e <;> simp [arrivals, hcase]
    have hmoved := (List.Subperm.refl (insertions svc trace ++ refusals svc trace)).append
      (step_waiting (planned_of_run hbefore) hstep)
    have hreceived := ih.append (List.Subperm.refl (arrivalOf e).toList)
    rw [List.append_assoc _ s.waitingArrivals] at hreceived
    have hsorted : (insertions svc trace ++ (s.insertionOf svc e).toList ++
        (refusals svc trace ++ (s.refusalOf svc e).toList) ++ s'.waitingArrivals).Perm
        (insertions svc trace ++ refusals svc trace ++
          ((s.insertionOf svc e).toList ++ (s.refusalOf svc e).toList ++ s'.waitingArrivals)) := by
      simp only [List.append_assoc]
      exact (List.perm_append_comm_assoc _ _ _).append_left _
    rw [hins, href, harr]
    exact hsorted.subperm.trans (hmoved.trans hreceived)

/-- The step inserts the record of an arrival of the run before it. -/
structure InsertedBy (svc : RuntimeService) (before : List (World × Event)) (w : World) (e : Event)
    (arrival : Arrival) (new : NewTaskRecord) : Prop where
  received : arrival ∈ arrivals before
  admitted : svc.Admits arrival new
  committed : w.committed svc e = some (.insertTask new)

theorem insertedBy_of_step (hrun : Run svc (serve db) trace last) {e : Event} {next : World}
    (hstep : last.step svc e = some next) {new : NewTaskRecord}
    (hcommitted : last.committed svc e = some (.insertTask new)) :
    ∃ arrival, InsertedBy svc trace last e arrival new := by
  obtain ⟨i, submit, _, hsubmit, hstate, _⟩ := step_insert hstep hcommitted
  have hmem := List.mem_of_getElem? hsubmit
  have hwaiting : submit.waiting = some submit.arrival := by
    simp [SubmitCall.waiting, SubmitCall.pending, hstate]
  have hwaits : submit.arrival ∈ last.waitingArrivals :=
    List.mem_filterMap.mpr ⟨submit, hmem, hwaiting⟩
  refine ⟨submit.arrival, ?_, planned_of_run hrun submit hmem new hstate, hcommitted⟩
  exact (inserted_refused_or_waiting hrun).subset (List.mem_append_right _ hwaits)

def Deletes (svc : RuntimeService) (taskId : TaskId) (x : World × Event) : Prop :=
  x.1.committed svc x.2 = some (.deleteTask taskId)

/-- Every row was inserted for a request received before, holds what that request
asked for, and was not deleted since. -/
theorem row_origin (hrun : Run svc init trace last) {taskId : TaskId} {row : TaskRecord}
    (hrow : last.db.tasks.find taskId = some row) :
    ∃ before w e after arrival new, trace = before ++ (w, e) :: after ∧
      InsertedBy svc before w e arrival new ∧ arrival.taskId = taskId ∧
      TaskWrite.SameSubmission (new.toRow e.now) row ∧ ∀ x ∈ after, ¬ Deletes svc taskId x := by
  induction hrun generalizing row with
  | nil => simp [init, serve, Db.empty] at hrow
  | @snoc trace s e s' hbefore hstep ih =>
    have hlater : ∀ old, s.db.tasks.find taskId = some old →
        TaskWrite.SameSubmission old row → s.committed svc e ≠ some (.deleteTask taskId) →
        ∃ before w e' after arrival new, trace ++ [(s, e)] = before ++ (w, e') :: after ∧
          InsertedBy svc before w e' arrival new ∧ arrival.taskId = taskId ∧
          TaskWrite.SameSubmission (new.toRow e'.now) row ∧
          ∀ x ∈ after, ¬ Deletes svc taskId x := by
      intro old hold hsame hkept
      obtain ⟨before, w, e', after, arrival, new, rfl, hinserted, hid, hfrom, hstays⟩ := ih hold
      refine ⟨before, w, e', after ++ [(s, e)], arrival, new, by simp, hinserted, hid,
        hfrom.trans hsame, ?_⟩
      intro x hx
      rcases List.mem_append.mp hx with hx | hx
      · exact hstays x hx
      · rw [List.mem_singleton.mp hx]
        exact hkept
    cases step_origin hstep hrow with
    | inserted new hcommitted hid _ hnew _ =>
      obtain ⟨arrival, hinserted⟩ := insertedBy_of_step hbefore hstep hcommitted
      refine ⟨trace, s, e, [], arrival, new, rfl, hinserted, ?_, ?_, by simp⟩
      · exact hinserted.admitted.arrival.2.symm.trans hid
      · rw [hnew]
        exact .refl _
    | kept hold _ _ =>
      refine hlater row hold (.refl row) (fun hdelete => ?_)
      rcases step_db hstep with ⟨hnone, _⟩ | ⟨call, hcall, hexec⟩
      · rw [hnone] at hdelete
        cases hdelete
      · rw [hdelete] at hcall
        cases hcall
        rw [(Db.deleteTask_spec hexec).1, Table.find_erase, if_pos rfl] at hrow
        cases hrow
    | written write old hcommitted hold heffect _ =>
      refine hlater old hold ?_ (by simp [hcommitted])
      rw [heffect]
      exact write.effect_sameSubmission e.now old

/-- What is stored was submitted: rows are inserted for received requests only, for
each request at most once, and every row holds what its request asked for. -/
theorem stored_as_submitted (hrun : Run svc init trace last) :
    (insertions svc trace).Subperm (arrivals trace) ∧
      ∀ taskId row, last.db.tasks.find taskId = some row →
        ∃ before w e after arrival new, trace = before ++ (w, e) :: after ∧
          InsertedBy svc before w e arrival new ∧ arrival.taskId = taskId ∧
          TaskWrite.SameSubmission (new.toRow e.now) row ∧
          ∀ x ∈ after, ¬ Deletes svc taskId x :=
  ⟨((List.sublist_append_left _ _).trans (List.sublist_append_left _ _)).subperm.trans
      (inserted_refused_or_waiting hrun),
    fun _ _ hrow => row_origin hrun hrow⟩

end Runs

/-- Two requests for one id, of which the second comes too late. -/
theorem stored_as_submitted_of_conflict :
    ∃ trace last, Run (smallService ⟨1, none, none⟩) init trace last ∧
      trace.map Prod.snd =
        events (submitActions 0 (commandRequest "a") ++ submitActions 1 (commandRequest "a")) ∧
      (insertions (smallService ⟨1, none, none⟩) trace).Subperm (arrivals trace) ∧
      ∀ taskId row, last.db.tasks.find taskId = some row →
        ∃ before w e after arrival new, trace = before ++ (w, e) :: after ∧
          InsertedBy (smallService ⟨1, none, none⟩) before w e arrival new ∧
          arrival.taskId = taskId ∧ TaskWrite.SameSubmission (new.toRow e.now) row ∧
          ∀ x ∈ after, ¬ Deletes (smallService ⟨1, none, none⟩) taskId x := by
  have hexec : (execute (smallService ⟨1, none, none⟩) (fun _ _ => true)
      (events (submitActions 0 (commandRequest "a") ++
        submitActions 1 (commandRequest "a")))).any (fun _ => true) = true := by decide +kernel
  obtain ⟨trace, last, hrun, hlabels, _, _⟩ := Runs.exists_run_of_exec hexec
  exact ⟨trace, last, hrun, hlabels, stored_as_submitted hrun⟩

end World

end ExecgoRuntime
