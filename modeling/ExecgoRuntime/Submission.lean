import ExecgoRuntime.Host

/-!
`submit_task` as a whole, with its file work. The checks come first and change
nothing; then the directories and files of the task are written, and only then
the store sees the row. What the store rejects at the end has left its files
behind. The theorems say which rejected requests change something, and connect
the call to the machine that takes its steps in the system.
-/
namespace ExecgoRuntime

open LexicalPath

variable {β : Type}

namespace RuntimeService

/-- The checks of `submit_task` and the record they lead to. -/
def prepare (svc : RuntimeService) (request : SubmitTaskRequest) (generatedId : TaskId) (db : Db) :
    AppResult NewTaskRecord := do
  let executionPlan ← svc.checkRequest request
  if svc.settings.maxQueuedTasks ≤ db.countAccepted then throw .queueFull
  svc.newTask request (request.taskId.getD generatedId) executionPlan

/-- The directories and files of a new task; `encode` serialises a request. -/
def writeRequestFiles (encode : SubmitTaskRequest → List β) (new : NewTaskRecord) : FileWork β :=
  (FileWork.createDirAll (resolvePath new.workspaceDir)).andThen
    ((FileWork.createDirAll (resolvePath new.taskDir)).andThen
      ((FileWork.writeJsonFile new.requestPath (encode new.request)).andThen
        ((FileWork.touchFile new.stdoutPath).andThen (FileWork.touchFile new.stderrPath))))

def submitTask (svc : RuntimeService) (encode : SubmitTaskRequest → List β) (now : Timestamp)
    (generatedId : TaskId) (request : SubmitTaskRequest) (host : Host β) :
    Host β × AppResult SubmitTaskResponse :=
  match svc.prepare request generatedId host.db with
  | .error e => (host, .error e)
  | .ok new =>
    match writeRequestFiles encode new host.files with
    | (files, .error e) => ({ host with files }, .error e)
    | (files, .ok ()) =>
      match host.db.insertTask now new with
      | .error e => ({ host with files }, .error e)
      | .ok db => (⟨db, files⟩, .ok ⟨new.taskId, new.taskId, .accepted⟩)

end RuntimeService

namespace SubmitCall

/-- The machine of a submission when nothing else moves and no call fails. -/
def alone (svc : RuntimeService) (s : Db × SubmitCall) (now : Timestamp) :
    Option (Db × SubmitCall) :=
  (s.2.move svc).map (fun m => m.run now none s.1)

end SubmitCall

section Files

variable {svc : RuntimeService} {request : SubmitTaskRequest} {taskId generatedId : TaskId}
  {plan : ExecutionPlan} {new : NewTaskRecord} {encode : SubmitTaskRequest → List β}
  {files files' : FileTree β}

/-- The paths of a new task. -/
structure NewPaths (svc : RuntimeService) (request : SubmitTaskRequest) (taskId : TaskId)
    (new : NewTaskRecord) : Prop where
  sameRequest : new.request = request
  sameId : new.taskId = taskId
  taskDir : new.taskDir = svc.taskDir taskId
  workspaceDir : resolveWorkspaceDir (svc.taskDir taskId) request.sandbox = .ok new.workspaceDir
  requestPath : new.requestPath = joinPath (svc.taskDir taskId) "request.json"
  stdoutPath : new.stdoutPath = joinPath (svc.taskDir taskId) "stdout.log"
  stderrPath : new.stderrPath = joinPath (svc.taskDir taskId) "stderr.log"

theorem RuntimeService.newTask_paths (h : svc.newTask request taskId plan = .ok new) :
    NewPaths svc request taskId new := by
  simp only [newTask, bind, Except.bind] at h
  split at h
  · cases h
  · rename_i workspaceDir hworkspace
    cases h
    exact ⟨rfl, rfl, rfl, hworkspace, rfl, rfl, rfl⟩

theorem NewPaths.requestLocation (h : NewPaths svc request taskId new) :
    resolvePath new.requestPath =
      (resolvePath (svc.taskDir taskId)).child "request.json".toList := by
  rw [h.requestPath]
  exact resolvePath_join_name _ "request.json" (by decide) (by decide)

theorem NewPaths.stdoutLocation (h : NewPaths svc request taskId new) :
    resolvePath new.stdoutPath = (resolvePath (svc.taskDir taskId)).child "stdout.log".toList := by
  rw [h.stdoutPath]
  exact resolvePath_join_name _ "stdout.log" (by decide) (by decide)

theorem NewPaths.stderrLocation (h : NewPaths svc request taskId new) :
    resolvePath new.stderrPath = (resolvePath (svc.taskDir taskId)).child "stderr.log".toList := by
  rw [h.stderrPath]
  exact resolvePath_join_name _ "stderr.log" (by decide) (by decide)

theorem writeRequestFiles_failsWithIo (encode : SubmitTaskRequest → List β) (new : NewTaskRecord) :
    (RuntimeService.writeRequestFiles encode new).FailsWithIo :=
  (FileWork.createDirAll_failsWithIo _).andThen
    ((FileWork.createDirAll_failsWithIo _).andThen
      ((FileWork.writeJsonFile_failsWithIo _ _).andThen
        ((FileWork.touchFile_failsWithIo _).andThen (FileWork.touchFile_failsWithIo _))))

/-- Everything the request needs exists afterwards. Nothing else is lost, and no
file but the stored request is replaced. -/
theorem writeRequestFiles_ok
    (h : RuntimeService.writeRequestFiles encode new files = (files', .ok ())) :
    files'.node (resolvePath new.requestPath) = some (.file (encode new.request)) ∧
      (∀ loc, loc ≠ resolvePath new.requestPath → (files.node loc).isSome = true →
        files'.node loc = files.node loc) ∧
      files.node (resolvePath new.requestPath) ≠ some .dir ∧
      (∀ loc ∈ [resolvePath new.workspaceDir, resolvePath new.stdoutPath,
        resolvePath new.stderrPath], (files'.node loc).isSome = true) := by
  obtain ⟨first, hfirst, h⟩ := FileWork.andThen_ok h
  obtain ⟨second, hsecond, h⟩ := FileWork.andThen_ok h
  obtain ⟨third, hthird, h⟩ := FileWork.andThen_ok h
  obtain ⟨fourth, hfourth, hfifth⟩ := FileWork.andThen_ok h
  obtain ⟨hgrows, hworkspace⟩ := FileTree.createDirAll_spec (FileWork.createDirAll_ok hfirst)
  obtain ⟨hgrows', _⟩ := FileTree.createDirAll_spec (FileWork.createDirAll_ok hsecond)
  obtain ⟨mid, hgrowsMid, hnotdir, _, hwritten⟩ := FileWork.writeJsonFile_ok hthird
  obtain ⟨hgrowsOut, hout, _⟩ := FileWork.touchFile_ok hfourth
  obtain ⟨hgrowsErr, herr, _⟩ := FileWork.touchFile_ok hfifth
  have hbefore : files.Grows mid := (hgrows.trans hgrows').trans hgrowsMid
  have hafter : third.Grows files' := hgrowsOut.trans hgrowsErr
  have hkept : ∀ loc, (mid.node loc).isSome = true → (files'.node loc).isSome = true := by
    intro loc hsome
    have hthirdSome : (third.node loc).isSome = true := by
      rw [hwritten loc]
      split
      · rfl
      · exact hsome
    rw [hafter loc hthirdSome]
    exact hthirdSome
  have hrequest : third.node (resolvePath new.requestPath) = some (.file (encode new.request)) := by
    rw [hwritten, if_pos rfl]
  refine ⟨?_, ?_, fun hdir => hnotdir (hbefore.isDir hdir), ?_⟩
  · rw [hafter _ (by rw [hrequest]; rfl), hrequest]
  · intro loc hne hsome
    have hmid : mid.node loc = files.node loc := hbefore loc hsome
    have hthirdNode : third.node loc = files.node loc := by rw [hwritten loc, if_neg hne, hmid]
    rw [hafter loc (by rw [hthirdNode]; exact hsome), hthirdNode]
  · intro loc hloc
    simp only [List.mem_cons, List.not_mem_nil, or_false] at hloc
    rcases hloc with rfl | rfl | rfl
    · have hmid := (hgrows'.trans hgrowsMid).isDir hworkspace
      exact hkept _ (by rw [hmid]; rfl)
    · rw [hgrowsErr _ hout]
      exact hout
    · exact herr

/-- Where everything exists already, the stored request is all that is written. -/
theorem writeRequestFiles_existing (hpaths : NewPaths svc request taskId new)
    (h : RuntimeService.writeRequestFiles encode new files = (files', .ok ()))
    (hexist : ∀ loc ∈ [resolvePath new.workspaceDir, resolvePath new.requestPath,
      resolvePath new.stdoutPath, resolvePath new.stderrPath], (files.node loc).isSome = true) :
    ∀ loc, files'.node loc =
      if loc = resolvePath new.requestPath then some (.file (encode new.request))
      else files.node loc := by
  obtain ⟨first, hfirst, h⟩ := FileWork.andThen_ok h
  obtain ⟨second, hsecond, h⟩ := FileWork.andThen_ok h
  obtain ⟨third, hthird, h⟩ := FileWork.andThen_ok h
  obtain ⟨fourth, hfourth, hfifth⟩ := FileWork.andThen_ok h
  have htaskDir : files.node (resolvePath (svc.taskDir taskId)) = some .dir := by
    have hrequest := hexist (resolvePath new.requestPath) (by simp)
    rw [hpaths.requestLocation] at hrequest
    have hparent := files.closed _ (Location.child_names_ne_nil _ _) hrequest
    rwa [Location.parent_child] at hparent
  have hfirst' := FileWork.createDirAll_ok hfirst
  obtain ⟨hgrows, hworkspace⟩ := FileTree.createDirAll_spec hfirst'
  rw [hgrows _ (hexist _ (by simp))] at hworkspace
  rw [FileTree.createDirAll_of_dir files _ hworkspace] at hfirst'
  have hsame : files = first := congrArg Prod.fst hfirst'
  subst hsame
  have hsecond' := FileWork.createDirAll_ok hsecond
  rw [hpaths.taskDir, FileTree.createDirAll_of_dir files _ htaskDir] at hsecond'
  have hsame : files = second := congrArg Prod.fst hsecond'
  subst hsame
  obtain ⟨mid, _, _, hmid, hwritten⟩ := FileWork.writeJsonFile_ok hthird
  rw [hpaths.requestLocation, Location.parent_child] at hmid
  have hsame := hmid htaskDir
  subst hsame
  have hthirdSome : ∀ loc, (mid.node loc).isSome = true → (third.node loc).isSome = true := by
    intro loc hsome
    rw [hwritten loc]
    split
    · rfl
    · exact hsome
  have hthirdDir : third.node (resolvePath (svc.taskDir taskId)) = some .dir := by
    rw [hwritten, if_neg, htaskDir]
    rw [hpaths.requestLocation]
    exact (Location.child_ne_self _ _).symm
  obtain ⟨_, _, hout⟩ := FileWork.touchFile_ok hfourth
  have hsame : fourth = third := by
    apply hout
    · rw [hpaths.stdoutLocation, Location.parent_child]
      exact hthirdDir
    · exact hthirdSome _ (hexist _ (by simp))
  subst hsame
  obtain ⟨_, _, herr⟩ := FileWork.touchFile_ok hfifth
  have hsame : files' = fourth := by
    apply herr
    · rw [hpaths.stderrLocation, Location.parent_child]
      exact hthirdDir
    · exact hthirdSome _ (hexist _ (by simp))
  subst hsame
  exact hwritten

end Files

/-- The tables, the files of every existing task and the places where there was
nothing are as before. -/
structure Host.Untouched (host host' : Host β) : Prop where
  tasks : host'.db.tasks = host.db.tasks
  events : host'.db.taskEvents = host.db.taskEvents
  files : ∀ taskId row, host.db.tasks.find taskId = some row →
    ∀ loc : Location, loc.Within (resolvePath row.taskDir) →
      host'.files.node loc = host.files.node loc
  created : ∀ loc, host.files.node loc = none → host'.files.node loc = none

theorem Host.Untouched.refl (host : Host β) : host.Untouched host :=
  ⟨rfl, rfl, fun _ _ _ _ _ => rfl, fun _ h => h⟩

namespace RuntimeService

/-- One of the checks before the file work fails. -/
def RejectsEarly (svc : RuntimeService) (request : SubmitTaskRequest) (db : Db) : Prop :=
  (∃ e, svc.checkRequest request = .error e) ∨ svc.settings.maxQueuedTasks ≤ db.countAccepted

/-- Everything that the request would create is there, and the request stored
there is the same one or belongs to no task. -/
def FilesInPlace (svc : RuntimeService) (encode : SubmitTaskRequest → List β)
    (request : SubmitTaskRequest) (taskId : TaskId) (host : Host β) : Prop :=
  ∃ workspaceDir content,
    resolveWorkspaceDir (svc.taskDir taskId) request.sandbox = .ok workspaceDir ∧
    (host.files.node (resolvePath workspaceDir)).isSome = true ∧
    (host.files.node (resolvePath (joinPath (svc.taskDir taskId) "stdout.log"))).isSome = true ∧
    (host.files.node (resolvePath (joinPath (svc.taskDir taskId) "stderr.log"))).isSome = true ∧
    host.files.node (resolvePath (joinPath (svc.taskDir taskId) "request.json")) =
      some (.file content) ∧
    (content = encode request ∨ ∀ id row, host.db.tasks.find id = some row →
      ¬ (resolvePath (joinPath (svc.taskDir taskId) "request.json")).Within
        (resolvePath row.taskDir))

section Rejected

variable {svc : RuntimeService} {request : SubmitTaskRequest} {generatedId : TaskId}
  {encode : SubmitTaskRequest → List β} {now : Timestamp} {host : Host β} {e : AppError}

/-- The workspace directory was checked with the request. -/
theorem newTask_of_checkRequest {plan : ExecutionPlan} (h : svc.checkRequest request = .ok plan)
    (taskId : TaskId) : ∃ new, svc.newTask request taskId plan = .ok new := by
  have hsandbox : request.sandbox.validate = .ok () := by
    simp only [checkRequest, bind, Except.bind] at h
    cases hvalid : request.validate with
    | error e =>
      rw [hvalid] at h
      cases h
    | ok value => exact SubmitTaskRequest.sandbox_validate hvalid
  cases hsubdir : request.sandbox.workspaceSubdir with
  | none =>
    simp [newTask, resolveWorkspaceDir, hsubdir, bind, Except.bind, pure, Except.pure]
  | some subdir =>
    have hcheck : validateRelativeWorkspaceSubdir subdir = .ok () :=
      ((SandboxPolicy.validate_eq_ok_iff _).mp hsandbox).1 subdir hsubdir
    simp [newTask, resolveWorkspaceDir, hsubdir, hcheck, bind, Except.bind, pure, Except.pure]

theorem prepare_error_iff (generatedId : TaskId) (db : Db) :
    (∃ e, svc.prepare request generatedId db = .error e) ↔ svc.RejectsEarly request db := by
  unfold prepare RejectsEarly
  simp only [bind, Except.bind]
  cases hcheck : svc.checkRequest request with
  | error e => simp
  | ok plan =>
    obtain ⟨new, hnew⟩ := newTask_of_checkRequest hcheck (request.taskId.getD generatedId)
    by_cases hfull : svc.settings.maxQueuedTasks ≤ db.countAccepted
    · simp [hfull, throw, throwThe, MonadExceptOf.throw]
    · simp [hfull, hnew]

theorem prepare_paths {db : Db} {new : NewTaskRecord}
    (h : svc.prepare request generatedId db = .ok new) :
    NewPaths svc request (request.taskId.getD generatedId) new := by
  simp only [prepare, bind, Except.bind] at h
  split at h
  · cases h
  split at h
  · cases h
  · exact newTask_paths h

/-- A request that is rejected for another reason than its file work was rejected
by a check, or by the store after all its files had been written. -/
theorem submitTask_rejected (h : (svc.submitTask encode now generatedId request host).2 = .error e)
    (hio : e.isIo = false) :
    (svc.RejectsEarly request host.db ∧
        (svc.submitTask encode now generatedId request host).1 = host) ∨
      ∃ new files', svc.prepare request generatedId host.db = .ok new ∧
        writeRequestFiles encode new host.files = (files', .ok ()) ∧
        host.db.insertTask now new = .error e ∧
        (svc.submitTask encode now generatedId request host).1 = { host with files := files' } := by
  unfold submitTask at h ⊢
  cases hprepare : svc.prepare request generatedId host.db with
  | error early => exact .inl ⟨(prepare_error_iff generatedId host.db).mp ⟨early, hprepare⟩, rfl⟩
  | ok new =>
    simp only [hprepare] at h ⊢
    cases hfiles : writeRequestFiles encode new host.files with
    | mk files' result =>
      cases result with
      | error failed =>
        simp only [hfiles] at h
        cases h
        rw [writeRequestFiles_failsWithIo encode new _ _ _ hfiles] at hio
        cases hio
      | ok value =>
        simp only [hfiles] at h ⊢
        cases hinsert : host.db.insertTask now new with
        | error rejected =>
          simp only [hinsert] at h
          cases h
          exact .inr ⟨new, files', rfl, hfiles, hinsert, rfl⟩
        | ok db =>
          simp only [hinsert] at h
          cases h

/-- What has changed nothing by writing its files found them there. -/
theorem filesInPlace_of_untouched {new : NewTaskRecord} {taskId : TaskId} {files' : FileTree β}
    (hpaths : NewPaths svc request taskId new)
    (hfiles : writeRequestFiles encode new host.files = (files', .ok ()))
    (huntouched : host.Untouched { host with files := files' }) :
    svc.FilesInPlace encode request taskId host := by
  obtain ⟨hstored, _, hnotdir, hpresent⟩ := writeRequestFiles_ok hfiles
  have hbefore : ∀ loc, (files'.node loc).isSome = true → (host.files.node loc).isSome = true := by
    intro loc hsome
    by_contra hnone
    have hgone : files'.node loc = none := huntouched.created loc (by simpa using hnone)
    rw [hgone] at hsome
    cases hsome
  have hrequest := hbefore (resolvePath new.requestPath) (by rw [hstored]; rfl)
  obtain ⟨entry, hentry⟩ := Option.isSome_iff_exists.mp hrequest
  refine ⟨new.workspaceDir, ?_⟩
  rw [← hpaths.stdoutPath, ← hpaths.stderrPath, ← hpaths.requestPath]
  cases entry with
  | dir => exact absurd hentry hnotdir
  | file content =>
    refine ⟨content, hpaths.workspaceDir, hbefore _ (hpresent _ (by simp)),
      hbefore _ (hpresent _ (by simp)), hbefore _ (hpresent _ (by simp)), hentry, ?_⟩
    by_cases howned : ∀ id row, host.db.tasks.find id = some row →
        ¬ (resolvePath new.requestPath).Within (resolvePath row.taskDir)
    · exact .inr howned
    · -- the stored request belongs to a task, so it was not replaced by another one
      push Not at howned
      obtain ⟨id, row, hrow, hwithin⟩ := howned
      have hsame : files'.node (resolvePath new.requestPath) =
          host.files.node (resolvePath new.requestPath) := huntouched.files id row hrow _ hwithin
      rw [hstored, hentry] at hsame
      cases hsame
      rw [hpaths.sameRequest]
      exact .inl rfl

theorem untouched_of_filesInPlace {new : NewTaskRecord} {taskId : TaskId} {files' : FileTree β}
    (hpaths : NewPaths svc request taskId new)
    (hfiles : writeRequestFiles encode new host.files = (files', .ok ()))
    (hplace : svc.FilesInPlace encode request taskId host) :
    host.Untouched { host with files := files' } := by
  obtain ⟨workspaceDir, content, hworkspace, hdir, hout, herr, hrequest, howner⟩ := hplace
  rw [hpaths.workspaceDir] at hworkspace
  cases hworkspace
  rw [← hpaths.stdoutPath] at hout
  rw [← hpaths.stderrPath] at herr
  rw [← hpaths.requestPath] at hrequest howner
  have hexist : ∀ loc ∈ [resolvePath new.workspaceDir, resolvePath new.requestPath,
      resolvePath new.stdoutPath, resolvePath new.stderrPath],
      (host.files.node loc).isSome = true := by
    intro loc hloc
    simp only [List.mem_cons, List.not_mem_nil, or_false] at hloc
    rcases hloc with rfl | rfl | rfl | rfl
    · exact hdir
    · rw [hrequest]
      rfl
    · exact hout
    · exact herr
  have hnode := writeRequestFiles_existing hpaths hfiles hexist
  refine ⟨rfl, rfl, ?_, ?_⟩
  · intro id row hrow loc hwithin
    rw [hnode loc]
    split
    · rename_i hloc
      subst hloc
      rcases howner with hcontent | hnone
      · rw [hrequest, hcontent, hpaths.sameRequest]
      · exact absurd hwithin (hnone id row hrow)
    · rfl
  · intro loc hnone
    rw [hnode loc, if_neg]
    · exact hnone
    · rintro rfl
      rw [hrequest] at hnone
      cases hnone

/-- A rejected request changes nothing exactly when a check before the file work
rejects it, or when all it writes is there already. -/
theorem rejected_untouched_iff
    (h : (svc.submitTask encode now generatedId request host).2 = .error e) (hio : e.isIo = false) :
    host.Untouched (svc.submitTask encode now generatedId request host).1 ↔
      svc.RejectsEarly request host.db ∨
        svc.FilesInPlace encode request (request.taskId.getD generatedId) host := by
  rcases submitTask_rejected h hio with ⟨hearly, hsame⟩ | ⟨new, files', hprepare, hfiles, _, hafter⟩
  · rw [hsame]
    exact iff_of_true (.refl host) (.inl hearly)
  · have hpaths := prepare_paths hprepare
    rw [hafter]
    constructor
    · intro huntouched
      exact .inr (filesInPlace_of_untouched hpaths hfiles huntouched)
    · rintro (hearly | hplace)
      · obtain ⟨early, hearly⟩ := (prepare_error_iff generatedId host.db).mpr hearly
        rw [hprepare] at hearly
        cases hearly
      · exact untouched_of_filesInPlace hpaths hfiles hplace

/-- A request that takes the id of an existing task replaces that task's stored
request before the store rejects it. -/
theorem conflict_replaces_request {row : TaskRecord}
    (hrow : host.db.tasks.find (request.taskId.getD generatedId) = some row)
    (hpass : ¬ svc.RejectsEarly request host.db)
    (h : (svc.submitTask encode now generatedId request host).2 = .error e)
    (hio : e.isIo = false) :
    (svc.submitTask encode now generatedId request host).1.files.node
        (resolvePath (joinPath (svc.taskDir (request.taskId.getD generatedId)) "request.json")) =
      some (.file (encode request)) ∧
    (svc.submitTask encode now generatedId request host).1.db.tasks.find
        (request.taskId.getD generatedId) = some row := by
  rcases submitTask_rejected h hio with ⟨hearly, _⟩ | ⟨new, files', hprepare, hfiles, _, hafter⟩
  · exact absurd hearly hpass
  · have hpaths := prepare_paths hprepare
    obtain ⟨hstored, _⟩ := writeRequestFiles_ok hfiles
    rw [hafter, ← hpaths.requestPath]
    rw [hpaths.sameRequest] at hstored
    exact ⟨hstored, hrow⟩

end Rejected

section Moves

theorem alone_received (svc : RuntimeService) (request : SubmitTaskRequest) (generatedId : TaskId)
    (now : Timestamp) (db : Db) :
    SubmitCall.alone svc (db, ⟨request, generatedId, .received⟩) now =
      some (db, ⟨request, generatedId,
        match svc.prepare request generatedId db with
        | .ok new => .inserting new
        | .error e => .returned (.error e)⟩) := by
  unfold SubmitCall.alone SubmitCall.move prepare
  simp only [bind, Except.bind]
  cases svc.checkRequest request with
  | error e => rfl
  | ok plan =>
    by_cases hfull : svc.settings.maxQueuedTasks ≤ db.countAccepted
    · simp [hfull, Move.run, Move.query, StoreCall.exec, SubmitCall.fail, throw, throwThe,
        MonadExceptOf.throw]
    · cases hnew : svc.newTask request (request.taskId.getD generatedId) plan <;>
        simp [hfull, hnew, Move.run, Move.query, StoreCall.exec, SubmitCall.fail]

theorem alone_inserting (svc : RuntimeService) (request : SubmitTaskRequest) (generatedId : TaskId)
    (now : Timestamp) (db : Db) (new : NewTaskRecord) :
    SubmitCall.alone svc (db, ⟨request, generatedId, .inserting new⟩) now =
      some (match db.insertTask now new with
        | .ok db' =>
          (db', ⟨request, generatedId, .returned (.ok ⟨new.taskId, new.taskId, .accepted⟩)⟩)
        | .error e => (db, ⟨request, generatedId, .returned (.error e)⟩)) := by
  unfold SubmitCall.alone SubmitCall.move
  simp only [Option.map_some, Move.run, StoreCall.exec]
  cases db.insertTask now new <;> rfl

/-- Unless its file work fails, the call does to the store what the machine of a
submission does when it moves alone, and returns the same. -/
theorem submitTask_moves (svc : RuntimeService) (encode : SubmitTaskRequest → List β)
    (now : Timestamp) (generatedId : TaskId) (request : SubmitTaskRequest) (host : Host β)
    (hio : ∀ e, (svc.submitTask encode now generatedId request host).2 = .error e →
      e.isIo = false) :
    ∃ times, Runs.exec (SubmitCall.alone svc) (host.db, ⟨request, generatedId, .received⟩) times =
      some ((svc.submitTask encode now generatedId request host).1.db,
        ⟨request, generatedId,
          .returned (svc.submitTask encode now generatedId request host).2⟩) := by
  have hfirst := alone_received svc request generatedId now host.db
  unfold submitTask at hio ⊢
  cases hprepare : svc.prepare request generatedId host.db with
  | error early =>
    rw [hprepare] at hfirst
    refine ⟨[now], ?_⟩
    simp [Runs.exec, hfirst]
  | ok new =>
    rw [hprepare] at hfirst
    simp only [hprepare] at hio ⊢
    cases hfiles : writeRequestFiles encode new host.files with
    | mk files' result =>
      cases result with
      | error failed =>
        simp only [hfiles] at hio
        have hfailed := writeRequestFiles_failsWithIo encode new _ _ _ hfiles
        rw [hio failed rfl] at hfailed
        cases hfailed
      | ok value =>
        have hsecond := alone_inserting svc request generatedId now host.db new
        refine ⟨[now, now], ?_⟩
        simp only [Runs.exec, hfirst, hsecond, Option.bind_some]
        cases host.db.insertTask now new <;> rfl

end Moves

end RuntimeService

/-- An empty store and an empty disk. -/
def Host.fresh : Host Char := ⟨.empty, .empty⟩

/-- A request that no limit check rejects before its files are written. -/
def oversizedRequest : SubmitTaskRequest :=
  { commandRequest "a" with limits := { stdoutMaxBytes := 2 ^ 63 } }

/-- A request without a program is rejected before anything is written. -/
theorem rejected_untouched_without_program :
    Host.fresh.Untouched ((smallService ⟨1, none, none⟩).submitTask (fun _ => []) 0 ""
      { commandRequest "a" with execution := { kind := .command } } Host.fresh).1 := by
  refine (RuntimeService.rejected_untouched_iff
    (e := .invalidInput "execution.program is required for command tasks") (by decide) rfl).mpr
    (.inl (.inl ⟨.invalidInput "execution.program is required for command tasks", rfl⟩))

/-- A limit that no column holds is found by the insertion, after the directory
and the files of the task have been created. -/
theorem rejected_request_leaves_files :
    ¬ ∀ (svc : RuntimeService) (encode : SubmitTaskRequest → List Char) (now : Timestamp)
      (generatedId : TaskId) (request : SubmitTaskRequest) (host : Host Char) (e : AppError),
      (svc.submitTask encode now generatedId request host).2 = .error e → e.isIo = false →
      host.Untouched (svc.submitTask encode now generatedId request host).1 := by
  intro hall
  have huntouched := hall (smallService ⟨1, none, none⟩) (fun _ => []) 0 "" oversizedRequest
    Host.fresh (.invalidInput "stdout_max_bytes is too large") (by decide +kernel) rfl
  have hcreated := huntouched.created (resolvePath "/data/tasks/a/request.json") (by decide +kernel)
  have hpresent : (((smallService ⟨1, none, none⟩).submitTask (fun _ => []) 0 "" oversizedRequest
      Host.fresh).1.files.node (resolvePath "/data/tasks/a/request.json")).isSome = true := by
    decide +kernel
  rw [hcreated] at hpresent
  cases hpresent

end ExecgoRuntime
