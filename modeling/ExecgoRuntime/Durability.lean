import ExecgoRuntime.Removal
import ExecgoRuntime.SubmissionOrigins

/-!
How long a row stays. A submission that has been answered is durable: its row
survives failing calls and crashes and stays until garbage collection deletes it,
after the task has ended. That takes a database that stays on the disk, which it
does if no request brings one of the two ids whose directories hold it.
-/
namespace ExecgoRuntime

open KeyedTable

namespace World

variable {svc : RuntimeService} {w w' : World} {e : Event}

/-- Every task that garbage collection has listed still has its row. -/
structure GcBacked (w : World) : Prop where
  nodup : (w.procs.gc.tasks.map TaskRecord.taskId).Nodup
  rows : ∀ task ∈ w.procs.gc.tasks, (w.db.tasks.find task.taskId).isSome = true

theorem find_isSome_of_step (h : w.step svc e = some w') {taskId : TaskId}
    (hkept : w.committed svc e ≠ some (.deleteTask taskId))
    (hrow : (w.db.tasks.find taskId).isSome = true) :
    (w'.db.tasks.find taskId).isSome = true := by
  obtain ⟨row, hrow⟩ := Option.isSome_iff_exists.mp hrow
  cases step_row_of_not_deleted h hkept hrow with
  | kept hrow' _ => rw [hrow']; rfl
  | written _ _ hrow' => rw [hrow']; rfl

theorem GcBacked.step (hinv : w.GcBacked) (h : w.step svc e = some w') : w'.GcBacked := by
  cases step_collect h with
  | kept hsub hcalls =>
    refine ⟨hinv.nodup.sublist (hsub.map _), fun task htask => ?_⟩
    exact find_isSome_of_step h (hcalls task.taskId) (hinv.rows task (hsub.mem htask))
  | listed bound hdb _ hlist =>
    refine ⟨hlist ▸ w.db.listGcCandidates_nodup bound, fun task htask => ?_⟩
    rw [hdb, (Db.mem_listGcCandidates (hlist ▸ htask)).1]
    rfl
  | deleted task hcommitted hlist =>
    have hnodup := hinv.nodup
    rw [hlist, List.map_cons, List.nodup_cons] at hnodup
    refine ⟨hnodup.2, fun other hother => ?_⟩
    refine find_isSome_of_step h ?_ (hinv.rows other (hlist ▸ List.mem_cons_of_mem _ hother))
    intro hdelete
    rw [hcommitted] at hdelete
    have hid : task.taskId = other.taskId := by simpa using hdelete
    exact hnodup.1 (hid ▸ List.mem_map_of_mem hother)

/-- The step answers a submission with success. -/
def Acknowledges (e : Event) (w' : World) (response : SubmitTaskResponse) : Prop :=
  ∃ i submit', e.action = .submit i ∧ w'.procs.submits[i]? = some submit' ∧
    submit'.state = .returned (.ok response)

/-- A submission is answered with success in the step that inserts its row. -/
theorem committed_of_acknowledges (h : w.step svc e = some w') {response : SubmitTaskResponse}
    (hack : Acknowledges e w' response) :
    ∃ new, w.committed svc e = some (.insertTask new) ∧
      response = ⟨new.taskId, new.taskId, .accepted⟩ := by
  obtain ⟨i, submit', haction, hsubmit', hstate'⟩ := hack
  cases step_requests h with
  | submit j submit after hj hsubmit hstep hprocs =>
    rw [haction] at hj
    cases hj
    have hlt := (List.getElem?_eq_some_iff.mp hsubmit).1
    have hset : after = submit' := by simpa [hprocs, hlt] using hsubmit'
    subst hset
    generalize w.committed svc e = committed at hstep ⊢
    generalize w'.db = db' at hstep
    cases hstep with
    | failed _ _ => cases hstate'
    | planned _ _ _ _ _ => cases hstate'
    | inserted _ _ =>
      cases hstate'
      exact ⟨_, rfl, rfl⟩
  | same hother _ _ _ =>
    rw [haction] at hother
    cases hother
  | lost hcase _ _ =>
    rw [haction] at hcase
    cases hcase
  | submitReceived _ _ hcase _ _ =>
    rw [haction] at hcase
    cases hcase
  | killReceived _ _ hcase _ _ =>
    rw [haction] at hcase
    cases hcase
  | kill _ _ _ _ hcase _ _ _ =>
    rw [haction] at hcase
    cases hcase
  | escalate _ _ _ hcase _ _ _ =>
    rw [haction] at hcase
    cases hcase

/-- The row of `original` was deleted by garbage collection after its task had ended. -/
def Collected (svc : RuntimeService) (original : TaskRecord) (trace : List (World × Event)) :
    Prop :=
  ∃ before x after, trace = before ++ x :: after ∧ Deletes svc original.taskId x ∧
    x.2.action.isGc = true ∧ ∃ y ∈ before, ∃ row, y.1.db.tasks.find original.taskId = some row ∧
      TaskWrite.SameSubmission original row ∧ row.status.isTerminal = true

/-- The row of `original` is there, and if garbage collection has listed its task,
that was after the task had ended. -/
def Kept (original : TaskRecord) (trace : List (World × Event)) (w : World) : Prop :=
  (∃ row, w.db.tasks.find original.taskId = some row ∧ TaskWrite.SameSubmission original row) ∧
    (original.taskId ∈ w.procs.gc.tasks.map TaskRecord.taskId →
      ∃ y ∈ trace, ∃ row, y.1.db.tasks.find original.taskId = some row ∧
        TaskWrite.SameSubmission original row ∧ row.status.isTerminal = true)

theorem kept_or_collected_step {original : TaskRecord} {trace : List (World × Event)}
    (hkept : w.Kept original trace) (h : w.step svc e = some w') :
    w'.Kept original (trace ++ [(w, e)]) ∨ Collected svc original (trace ++ [(w, e)]) := by
  obtain ⟨⟨row, hrow, hsame⟩, hlisted⟩ := hkept
  by_cases hdelete : w.committed svc e = some (.deleteTask original.taskId)
  · have hgc : e.action.isGc = true := by
      by_contra hnot
      exact not_deletes_of_step h (by simpa using hnot) _ hdelete
    cases step_collect h with
    | kept _ hcalls => exact absurd hdelete (hcalls _)
    | listed _ _ hcalls _ => exact absurd hdelete (hcalls _)
    | deleted task hcommitted hlist =>
      rw [hdelete] at hcommitted
      have hid : original.taskId = task.taskId := by simpa using hcommitted
      exact .inr ⟨trace, (w, e), [], rfl, hdelete, hgc, hlisted (by simp [hlist, hid])⟩
  · left
    have hrow' : ∃ row', w'.db.tasks.find original.taskId = some row' ∧
        TaskWrite.SameSubmission original row' := by
      cases step_row_of_not_deleted h hdelete hrow with
      | kept hrow' _ => exact ⟨row, hrow', hsame⟩
      | written write _ hrow' =>
        exact ⟨_, hrow', hsame.trans (write.effect_sameSubmission e.now row)⟩
    have hearlier : original.taskId ∈ w.procs.gc.tasks.map TaskRecord.taskId →
        ∃ y ∈ trace ++ [(w, e)], ∃ row, y.1.db.tasks.find original.taskId = some row ∧
          TaskWrite.SameSubmission original row ∧ row.status.isTerminal = true := by
      intro hmem
      obtain ⟨y, hy, hended⟩ := hlisted hmem
      exact ⟨y, List.mem_append_left _ hy, hended⟩
    refine ⟨hrow', fun hmem => ?_⟩
    cases step_collect h with
    | kept hsub _ => exact hearlier ((hsub.map TaskRecord.taskId).mem hmem)
    | deleted task _ hlist =>
      refine hearlier ?_
      rw [hlist]
      exact List.mem_cons_of_mem _ hmem
    | listed bound _ _ hlist =>
      rw [hlist] at hmem
      obtain ⟨task, htask, hid⟩ := List.mem_map.mp hmem
      obtain ⟨hfind, hterminal⟩ := Db.mem_listGcCandidates htask
      rw [hid, hrow] at hfind
      cases hfind
      exact ⟨(w, e), by simp, row, hrow, hsame, hterminal⟩

/-- The step that inserts a row leaves garbage collection alone. -/
theorem gc_of_insert (h : w.step svc e = some w') {new : NewTaskRecord}
    (hcommitted : w.committed svc e = some (.insertTask new)) :
    w'.procs.gc = w.procs.gc ∧ w.db.insertTask e.now new = .ok w'.db := by
  obtain ⟨i, submit, haction, _, _, hinsert⟩ := step_insert h hcommitted
  obtain ⟨m, hm, _, hout⟩ := step_actor h
  rw [haction] at hm
  obtain ⟨_, _, _, _, rfl⟩ := submit_of_actorMove hm
  obtain ⟨_, _, hprocs⟩ := Move.outcome_map hout
  exact ⟨by rw [hprocs], hinsert⟩

/-- A row that was inserted is there until garbage collection deletes it, after its
task has ended. -/
theorem kept_or_collected {db : Db} {before after : List (World × Event)} {last : World}
    (hbefore : Run svc (serve db) before w) (hstep : w.step svc e = some w')
    {new : NewTaskRecord} (hcommitted : w.committed svc e = some (.insertTask new))
    (hafter : Run svc w' after last) :
    last.Kept (new.toRow e.now) after ∨ Collected svc (new.toRow e.now) after := by
  obtain ⟨hgc, hinsert⟩ := gc_of_insert hstep hcommitted
  have hidle : (serve db).GcBacked := ⟨List.nodup_nil, by simp [serve, Gc.tasks]⟩
  have hbacked : w.GcBacked := hbefore.invariant (G := fun _ _ => True) hidle
    (fun _ _ _ hinv _ hnext => hinv.step hnext) (fun _ _ => trivial)
  obtain ⟨hfree, hleaves⟩ := Db.insertTask_spec hinsert
  have hstart : w'.Kept (new.toRow e.now) [] := by
    refine ⟨⟨new.toRow e.now, ?_, .refl _⟩, fun hmem => ?_⟩
    · rw [hleaves.tasks, Table.find_insert, if_pos rfl]
    · rw [hgc] at hmem
      obtain ⟨task, htask, htaskId⟩ := List.mem_map.mp hmem
      have hrow := hbacked.rows task htask
      rw [htaskId, hfree] at hrow
      cases hrow
  induction hafter with
  | nil => exact .inl hstart
  | @snoc _ s a _ _ hnext ih =>
    rcases ih with hkept | ⟨pre, x, post, rfl, hcollected⟩
    · exact kept_or_collected_step hkept hnext
    · exact .inr ⟨pre, x, post ++ [(s, a)], by simp, hcollected⟩

/-- A request that is received gets an id of this kind: the one that it brings, if that
one is accepted, or the generated one. -/
def Names (P : TaskId → Prop) (request : SubmitTaskRequest) (generatedId : TaskId) : Prop :=
  (∀ taskId, request.taskId = some taskId → AcceptedId taskId → P taskId) ∧
    (request.taskId = none → P generatedId)

/-- All requests that the step receives are of this kind. -/
def ReceivesNamed (P : TaskId → Prop) (e : Event) : Prop :=
  ∀ request generatedId, e.action = .receiveSubmit request generatedId →
    Names P request generatedId

/-- The tasks have ids of this kind, and the directories of their ids. -/
structure Named (svc : RuntimeService) (P : TaskId → Prop) (w : World) : Prop where
  requests : ∀ submit ∈ w.procs.submits, Names P submit.request submit.generatedId
  inserting : ∀ submit ∈ w.procs.submits, ∀ new, submit.state = .inserting new →
    P new.taskId ∧ new.taskDir = svc.taskDir new.taskId
  rows : ∀ taskId row, w.db.tasks.find taskId = some row →
    P taskId ∧ row.taskDir = svc.taskDir taskId
  listed : ∀ task ∈ w.procs.gc.tasks, P task.taskId ∧ task.taskDir = svc.taskDir task.taskId

/-- An admitted request has an id of the kind of its request. -/
theorem named_of_checkRequest {P : TaskId → Prop} {request : SubmitTaskRequest}
    {generatedId : TaskId} (h : Names P request generatedId) {plan : ExecutionPlan}
    (hplan : svc.checkRequest request = .ok plan) : P (request.taskId.getD generatedId) := by
  cases hid : request.taskId with
  | none => exact h.2 hid
  | some taskId =>
    refine h.1 taskId hid ⟨request, hid, ?_⟩
    simp only [RuntimeService.checkRequest, bind, Except.bind] at hplan
    cases hvalid : request.validate with
    | error e =>
      rw [hvalid] at hplan
      cases hplan
    | ok value => rfl

theorem Named.step {P : TaskId → Prop} (hinv : w.Named svc P) (h : w.step svc e = some w')
    (hreceives : ReceivesNamed P e) : w'.Named svc P where
  requests submit' hmem := by
    cases step_requests h with
    | same _ hsubmits _ _ => exact hinv.requests submit' (hsubmits ▸ hmem)
    | lost _ _ hprocs =>
      rw [hprocs] at hmem
      cases hmem
    | submitReceived request generatedId haction _ hprocs =>
      rw [hprocs] at hmem
      rcases List.mem_append.mp hmem with hold | hnew
      · exact hinv.requests submit' hold
      · rw [List.mem_singleton.mp hnew]
        exact hreceives request generatedId haction
    | submit i submit after _ hsubmit hstep hprocs =>
      rw [hprocs] at hmem
      rcases List.mem_or_eq_of_mem_set hmem with hold | rfl
      · exact hinv.requests submit' hold
      · have hsame := hinv.requests submit (List.mem_of_getElem? hsubmit)
        generalize w.committed svc e = committed at hstep
        generalize w'.db = db' at hstep
        cases hstep <;> exact hsame
    | killReceived _ _ _ _ hprocs =>
      rw [hprocs] at hmem
      exact hinv.requests submit' hmem
    | kill _ _ _ _ _ _ _ hprocs =>
      rw [hprocs] at hmem
      exact hinv.requests submit' hmem
    | escalate _ _ _ _ _ _ hprocs =>
      rw [hprocs] at hmem
      exact hinv.requests submit' hmem
  inserting submit' hmem new hstate := by
    rcases mem_submits_of_step h hmem with
      hold | ⟨request, generatedId, rfl⟩ | ⟨submit, hold, hstep⟩
    · exact hinv.inserting submit' hold new hstate
    · cases hstate
    · generalize w.committed svc e = committed at hstep
      generalize w'.db = db' at hstep
      cases hstep with
      | failed _ _ => cases hstate
      | planned _ _ hplan _ hnew =>
        cases hstate
        obtain ⟨hid, hdir⟩ := RuntimeService.newTask_taskDir hnew
        rw [hid, hdir]
        exact ⟨named_of_checkRequest (hinv.requests submit hold) hplan, rfl⟩
      | inserted _ _ => cases hstate
  rows taskId row' hrow' := by
    cases step_origin h hrow' with
    | inserted new hcommitted hid _ hnew _ =>
      obtain ⟨i, submit, _, hsubmit, hstate, _⟩ := step_insert h hcommitted
      obtain ⟨hnamed, hdir⟩ := hinv.inserting submit (List.mem_of_getElem? hsubmit) new hstate
      rw [hnew, ← hid]
      exact ⟨hnamed, hdir⟩
    | kept hrow _ _ => exact hinv.rows taskId row' hrow
    | written write row _ hrow heffect _ =>
      rw [heffect, (write.effect_sameOrigin e.now row).taskDir]
      exact hinv.rows taskId row hrow
  listed task htask := by
    cases step_collect h with
    | kept hsub _ => exact hinv.listed task (hsub.mem htask)
    | deleted _ _ hlist => exact hinv.listed task (hlist ▸ List.mem_cons_of_mem _ htask)
    | listed bound _ _ hlist =>
      exact hinv.rows task.taskId task (Db.mem_listGcCandidates (hlist ▸ htask)).1

/-- The step removes, or tries to remove, what lies at the path. -/
def Sweeps (w : World) (e : Event) (path : String) : Prop :=
  e.action.isGc = true ∧ ∃ task, w.procs.gc.victim = some task ∧ task.Sweeps path

/-- If no task has one of the two special ids, garbage collection never gets at the
database. -/
theorem not_sweeps_of_run {dataDir : String}
    (hdir : svc.settings.tasksDir = joinPath dataDir "tasks") {db : Db}
    (hdb : ∀ taskId row, db.tasks.find taskId = some row →
      PlainId taskId ∧ row.taskDir = svc.taskDir taskId)
    {trace : List (World × Event)} {last : World} (hrun : Run svc (serve db) trace last)
    (hplain : ∀ x ∈ trace, ReceivesNamed PlainId x.2) :
    ∀ x ∈ trace, ∀ file ∈ databaseFiles dataDir, ¬ x.1.Sweeps x.2 file := by
  have hstart : (serve db).Named svc PlainId :=
    ⟨fun _ hmem => absurd hmem List.not_mem_nil, fun _ hmem => absurd hmem List.not_mem_nil, hdb,
      fun _ hmem => absurd hmem List.not_mem_nil⟩
  have hnamed := hrun.invariant_visited hstart
    (fun _ _ _ hinv hreceives hstep => hinv.step hstep hreceives) hplain
  rintro x hx file hfile ⟨_, task, hvictim, hsweeps⟩
  obtain ⟨hid, htask⟩ := (hnamed x.1 (List.mem_append_left _ (List.mem_map_of_mem hx))).listed task
    (Gc.mem_tasks_of_victim hvictim)
  exact not_sweeps_database hdir htask hid hfile hsweeps

/-- An acknowledged submission is durable where no task has one of the two special
ids: the row of the request stays as it was submitted, whatever fails or crashes,
until garbage collection deletes it, and that is after its task has ended; and no
removal of a directory gets at the files of the database. -/
theorem acknowledged_submission_durable {dataDir : String}
    (hdir : svc.settings.tasksDir = joinPath dataDir "tasks") {db : Db}
    (hdb : ∀ taskId row, db.tasks.find taskId = some row →
      PlainId taskId ∧ row.taskDir = svc.taskDir taskId)
    {before after : List (World × Event)} {w' last : World} (hbefore : Run svc (serve db) before w)
    (hstep : w.step svc e = some w') {response : SubmitTaskResponse}
    (hack : Acknowledges e w' response) (hafter : Run svc w' after last)
    (hplain : ∀ x ∈ before ++ (w, e) :: after, ReceivesNamed PlainId x.2) :
    (∃ arrival new, InsertedBy svc before w e arrival new ∧
      response = ⟨arrival.taskId, arrival.taskId, .accepted⟩ ∧
      ((∃ row, last.db.tasks.find arrival.taskId = some row ∧
          TaskWrite.SameSubmission (new.toRow e.now) row) ∨
        Collected svc (new.toRow e.now) after)) ∧
    ∀ x ∈ before ++ (w, e) :: after, ∀ file ∈ databaseFiles dataDir, ¬ x.1.Sweeps x.2 file := by
  obtain ⟨new, hcommitted, rfl⟩ := committed_of_acknowledges hstep hack
  obtain ⟨arrival, hinserted⟩ := insertedBy_of_step hbefore hstep hcommitted
  have hid : new.taskId = arrival.taskId := hinserted.admitted.arrival.2
  have hrun : Run svc (serve db) (before ++ (w, e) :: after) last := by
    simpa using (hbefore.snoc hstep).append hafter
  refine ⟨⟨arrival, new, hinserted, by rw [hid], ?_⟩, not_sweeps_of_run hdir hdb hrun hplain⟩
  rw [← hid]
  exact (kept_or_collected hbefore hstep hcommitted hafter).imp_left (fun hkept => hkept.1)

/-- The answer of the first submission in a state. -/
def firstAnswer (w : World) : Option SubmitTaskResponse :=
  match w.procs.submits with
  | { state := .returned (.ok response), .. } :: _ => some response
  | _ => none

theorem plainId_a : PlainId "a" :=
  ⟨⟨commandRequest "a", rfl, by decide⟩, by decide, by decide⟩

/-- If the step receives a request, it is one for this task. -/
def brings (taskId : TaskId) (e : Event) : Bool :=
  match e.action with
  | .receiveSubmit request _ => decide (request.taskId = some taskId)
  | _ => true

theorem names_of_given {P : TaskId → Prop} {request : SubmitTaskRequest} {taskId : TaskId}
    (hid : request.taskId = some taskId) (h : P taskId) (generatedId : TaskId) :
    Names P request generatedId := by
  refine ⟨fun given hgiven _ => ?_, fun hnone => ?_⟩
  · rw [hid] at hgiven
    cases hgiven
    exact h
  · rw [hid] at hnone
    cases hnone

theorem receivesNamed_of_brings {P : TaskId → Prop} {taskId : TaskId} (h : P taskId) {e : Event}
    (hbrings : brings taskId e = true) : ReceivesNamed P e := by
  intro request generatedId haction
  rw [brings, haction] at hbrings
  exact names_of_given (of_decide_eq_true hbrings) h generatedId

/-- The server dies right after its answer and is started again. -/
theorem acknowledged_submission_durable_of_crash :
    ∃ before w e w' after last, Run (smallService ⟨1, none, none⟩) init before w ∧
      w.step (smallService ⟨1, none, none⟩) e = some w' ∧
      Acknowledges e w' ⟨"a", "a", .accepted⟩ ∧
      Run (smallService ⟨1, none, none⟩) w' after last ∧
      after.map Prod.snd = events [.crash, .restart, .recover false, .recover false] ∧
      (∃ arrival new, InsertedBy (smallService ⟨1, none, none⟩) before w e arrival new ∧
        (⟨"a", "a", .accepted⟩ : SubmitTaskResponse) =
          ⟨arrival.taskId, arrival.taskId, .accepted⟩ ∧
        ((∃ row, last.db.tasks.find arrival.taskId = some row ∧
            TaskWrite.SameSubmission (new.toRow e.now) row) ∨
          Collected (smallService ⟨1, none, none⟩) (new.toRow e.now) after)) ∧
      ∀ x ∈ before ++ (w, e) :: after, ∀ file ∈ databaseFiles "/data", ¬ x.1.Sweeps x.2 file := by
  have hbefore : (execute (smallService ⟨1, none, none⟩) (fun _ => brings "a")
      (events [.receiveSubmit (commandRequest "a") "", .submit 0])).any (fun w =>
        (w.step (smallService ⟨1, none, none⟩) { action := .submit 0 }).any (fun w' =>
          decide (w'.firstAnswer = some ⟨"a", "a", .accepted⟩))) = true := by decide +kernel
  have hall : (execute (smallService ⟨1, none, none⟩) (fun _ => brings "a")
      (events [.receiveSubmit (commandRequest "a") "", .submit 0] ++ { action := .submit 0 } ::
        events [.crash, .restart, .recover false, .recover false])).any (fun _ => true) = true := by
    decide +kernel
  obtain ⟨before, w, after, last, hrun, _, hlabels, hcheck, htest, _⟩ :=
    Runs.exists_run_through hbefore hall
  obtain ⟨w', hrunBefore, hstep, hrunAfter⟩ := hrun.split
  rw [hstep, Option.any_some, decide_eq_true_eq] at htest
  have hack : Acknowledges { action := .submit 0 } w' ⟨"a", "a", .accepted⟩ := by
    unfold firstAnswer at htest
    split at htest
    · rename_i request generatedId response rest hsubmits
      cases htest
      exact ⟨0, _, rfl, by rw [hsubmits]; rfl, rfl⟩
    · cases htest
  have hplain := fun x hx => receivesNamed_of_brings plainId_a (hcheck x hx)
  exact ⟨before, w, _, w', after, last, hrunBefore, hstep, hack, hrunAfter, hlabels,
    acknowledged_submission_durable rfl (by simp [Db.empty]) hrunBefore hstep hack hrunAfter hplain⟩

end World

end ExecgoRuntime
