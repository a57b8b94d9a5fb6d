import ExecgoRuntime.Submission
import ExecgoRuntime.SubmissionOrigins
import Mathlib.Data.List.AList

/-!
What a launch executes. `prepareWorkload` is the part of `spawn_task_process`
before the spawn: it opens the output files, creates the workspace, writes the
script and builds the command from the row (`build_command`, `minimal_env`). In
every run the command of a workload is the one that a received request asked
for, and its preparation touches nothing outside the directory of the task.
-/
namespace ExecgoRuntime

open LexicalPath

variable {β : Type}

/-- Environment variables by name. -/
abbrev Environment := AList (fun _ : String => String)

/-- The process that is spawned; its standard input is `/dev/null`. -/
structure WorkloadCommand where
  program : String
  args : List String
  currentDir : String
  env : Environment
  stdoutPath : String
  stderrPath : String

/-- The variables that a workload inherits from the shim. -/
def inheritedKeys : List String := ["PATH", "HOME", "LANG", "TMPDIR", "USER"]

/-- `hostEnv` is `std::env::var` of the shim. -/
def minimalEnv (hostEnv : String → Option String) (extra : List (String × String)) :
    Environment :=
  let env := inheritedKeys.foldl (fun (env : Environment) key =>
    match hostEnv key with
    | some value => env.insert key value
    | none => env) ∅
  extra.foldl (fun env entry => env.insert entry.1 entry.2) env

/-- A file that is created or truncated, in a directory that is made for it. -/
def FileWork.openOutputFile (path : String) : FileWork β := FileWork.writeJsonFile path []

/-- The mode bits of the script file are not part of the tree. -/
def FileWork.writeScriptFile (path : String) (script : List β) : FileWork β :=
  FileWork.writeJsonFile path script

namespace TaskRecord

/-- Where `build_command` puts the script of a script task. -/
def scriptFile (task : TaskRecord) : String :=
  task.scriptPath.getD (joinPath task.taskDir "script.sh")

def command (task : TaskRecord) (hostEnv : String → Option String) (program : String)
    (args : List String) : WorkloadCommand where
  program := program
  args := args
  currentDir := task.workspaceDir
  env := minimalEnv hostEnv task.execution.env
  stdoutPath := task.stdoutPath
  stderrPath := task.stderrPath

end TaskRecord

/-- The command of a task and the script it runs. There is no result at all when
the code indexes an empty interpreter and panics. -/
def buildCommand (hostEnv : String → Option String) (encode : String → List β)
    (task : TaskRecord) (files : FileTree β) :
    Option (FileTree β × AppResult (WorkloadCommand × Option String)) :=
  match FileWork.createDirAll (resolvePath task.workspaceDir) files with
  | (files, .error e) => some (files, .error e)
  | (files, .ok ()) =>
    match task.execution.kind with
    | .command =>
      match task.execution.program with
      | none => some (files, .error (.invalidInput "execution.program missing"))
      | some program => some (files, .ok (task.command hostEnv program task.execution.args, none))
    | .script =>
      match task.execution.script with
      | none => some (files, .error (.invalidInput "execution.script missing"))
      | some script =>
        match FileWork.writeScriptFile task.scriptFile (encode script) files with
        | (files, .error e) => some (files, .error e)
        | (files, .ok ()) =>
          match task.execution.interpreter with
          | some [] => none
          | some (program :: args) =>
            some (files, .ok (task.command hostEnv program (args ++ [task.scriptFile]),
              some task.scriptFile))
          | none =>
            some (files, .ok (task.command hostEnv "/bin/sh" ["-c", script],
              some task.scriptFile))

/-- `spawn_task_process` up to the spawn. -/
def prepareWorkload (hostEnv : String → Option String) (encode : String → List β)
    (task : TaskRecord) (files : FileTree β) :
    Option (FileTree β × AppResult (WorkloadCommand × Option String)) :=
  match FileWork.openOutputFile task.stdoutPath files with
  | (files, .error e) => some (files, .error e)
  | (files, .ok ()) =>
    match FileWork.openOutputFile task.stderrPath files with
    | (files, .error e) => some (files, .error e)
    | (files, .ok ()) => buildCommand hostEnv encode task files

theorem mem_foldl_insert (extra : List (String × String)) (env : Environment) (key : String) :
    key ∈ extra.foldl (fun env entry => env.insert entry.1 entry.2) env ↔
      key ∈ extra.map Prod.fst ∨ key ∈ env := by
  induction extra generalizing env with
  | nil => simp
  | cons entry rest ih =>
    rw [List.foldl_cons, ih, AList.mem_insert, List.map_cons, List.mem_cons]
    tauto

theorem lookup_foldl_insert {extra : List (String × String)} {env : Environment}
    {key value : String}
    (h : (extra.foldl (fun env entry => env.insert entry.1 entry.2) env).lookup key = some value) :
    (key, value) ∈ extra ∨ (key ∉ extra.map Prod.fst ∧ env.lookup key = some value) := by
  induction extra generalizing env with
  | nil => exact .inr ⟨by simp, h⟩
  | cons entry rest ih =>
    rcases ih h with hrest | ⟨hnot, hlookup⟩
    · exact .inl (List.mem_cons_of_mem _ hrest)
    · by_cases hkey : key = entry.1
      · rw [hkey, AList.lookup_insert] at hlookup
        rw [hkey, ← Option.some.inj hlookup]
        exact .inl (List.mem_cons_self ..)
      · rw [AList.lookup_insert_ne hkey] at hlookup
        refine .inr ⟨?_, hlookup⟩
        rw [List.map_cons, List.mem_cons]
        exact not_or.mpr ⟨hkey, hnot⟩

section Inherited

variable (hostEnv : String → Option String)

theorem mem_foldl_inherit (keys : List String) (env : Environment) (key : String) :
    key ∈ keys.foldl (fun (env : Environment) key =>
        match hostEnv key with
        | some value => env.insert key value
        | none => env) env ↔
      (key ∈ keys ∧ (hostEnv key).isSome = true) ∨ key ∈ env := by
  induction keys generalizing env with
  | nil => simp
  | cons first rest ih =>
    rw [List.foldl_cons, ih]
    cases hvalue : hostEnv first with
    | none =>
      simp only [List.mem_cons]
      constructor
      · tauto
      · rintro (⟨rfl | hrest, hsome⟩ | henv)
        · simp [hvalue] at hsome
        · exact .inl ⟨hrest, hsome⟩
        · exact .inr henv
    | some value =>
      simp only [List.mem_cons, AList.mem_insert]
      constructor
      · rintro (⟨hrest, hsome⟩ | rfl | henv)
        · exact .inl ⟨.inr hrest, hsome⟩
        · exact .inl ⟨.inl rfl, by simp [hvalue]⟩
        · exact .inr henv
      · rintro (⟨rfl | hrest, hsome⟩ | henv) <;> tauto

theorem lookup_foldl_inherit {keys : List String} {env : Environment} {key value : String}
    (h : (keys.foldl (fun (env : Environment) key =>
        match hostEnv key with
        | some value => env.insert key value
        | none => env) env).lookup key = some value) :
    (key ∈ keys ∧ hostEnv key = some value) ∨ env.lookup key = some value := by
  induction keys generalizing env with
  | nil => exact .inr h
  | cons first rest ih =>
    rcases ih h with ⟨hrest, hvalue⟩ | hlookup
    · exact .inl ⟨List.mem_cons_of_mem _ hrest, hvalue⟩
    · cases hfirst : hostEnv first with
      | none =>
        simp only [hfirst] at hlookup
        exact .inr hlookup
      | some inherited =>
        simp only [hfirst] at hlookup
        by_cases hkey : key = first
        · subst hkey
          rw [AList.lookup_insert] at hlookup
          exact .inl ⟨List.mem_cons_self .., hfirst.trans hlookup⟩
        · rw [AList.lookup_insert_ne hkey] at hlookup
          exact .inr hlookup

end Inherited

/-- What a workload finds in its environment: the variables of its request, and
of the shim's only those of a fixed list that the request does not set. -/
structure EnvironmentOf (hostEnv : String → Option String) (extra : List (String × String))
    (env : Environment) : Prop where
  keys : ∀ key, key ∈ env ↔
    key ∈ extra.map Prod.fst ∨ (key ∈ inheritedKeys ∧ (hostEnv key).isSome = true)
  values : ∀ key value, env.lookup key = some value → (key, value) ∈ extra ∨
    (key ∉ extra.map Prod.fst ∧ key ∈ inheritedKeys ∧ hostEnv key = some value)

theorem minimalEnv_environmentOf (hostEnv : String → Option String)
    (extra : List (String × String)) :
    EnvironmentOf hostEnv extra (minimalEnv hostEnv extra) where
  keys key := by
    have hempty : key ∉ (∅ : Environment) := AList.notMem_empty key
    rw [minimalEnv, mem_foldl_insert, mem_foldl_inherit, or_iff_left hempty]
  values key value h := by
    rcases lookup_foldl_insert h with hgiven | ⟨hnot, hinherited⟩
    · exact .inl hgiven
    · rcases lookup_foldl_inherit hostEnv hinherited with hhost | hempty
      · exact .inr ⟨hnot, hhost⟩
      · rw [AList.lookup_empty] at hempty
        cases hempty

namespace ExecutionSpec

/-- The command line that a request asks for, when its script is in that file. -/
def requestedLine (spec : ExecutionSpec) (scriptFile : String) : List String :=
  match spec.kind, spec.interpreter with
  | .command, _ => spec.program.getD "" :: spec.args
  | .script, some interpreter => interpreter ++ [scriptFile]
  | .script, none => ["/bin/sh", "-c", spec.script.getD ""]

/-- What `build_command` needs of a task. -/
structure Complete (spec : ExecutionSpec) : Prop where
  program : spec.kind = .command → spec.program.isSome = true
  script : spec.kind = .script → spec.script.isSome = true
  interpreter : spec.kind = .script → spec.interpreter ≠ some []

theorem complete_of_validate {spec : ExecutionSpec} (h : spec.validate = .ok ()) :
    spec.Complete := by
  obtain ⟨kind, program, args, script, interpreter, env⟩ := spec
  unfold validate at h
  cases kind with
  | command =>
    refine ⟨fun _ => ?_, by simp, by simp⟩
    cases program with
    | some _ => rfl
    | none => simp [throw, throwThe, MonadExceptOf.throw, bind, Except.bind] at h
  | script =>
    refine ⟨by simp, fun _ => ?_, fun _ => ?_⟩
    · cases script with
      | some _ => rfl
      | none => simp [throw, throwThe, MonadExceptOf.throw, bind, Except.bind] at h
    · rintro rfl
      simp only [bind, Except.bind] at h
      split at h
      · cases h
      split at h
      · cases h
      split at h
      · cases h
      · rename_i hitems
        exact absurd rfl hitems

end ExecutionSpec

theorem SubmitTaskRequest.execution_validate {request : SubmitTaskRequest}
    (h : request.validate = .ok ()) : request.execution.validate = .ok () := by
  simp only [validate, bind, Except.bind] at h
  revert h
  repeat' split
  all_goals
    intro h
    first | assumption | cases h

theorem RuntimeService.validate_of_checkRequest {svc : RuntimeService}
    {request : SubmitTaskRequest} {plan : ExecutionPlan}
    (h : svc.checkRequest request = .ok plan) : request.validate = .ok () := by
  simp only [checkRequest, bind, Except.bind] at h
  cases hvalid : request.validate with
  | error e =>
    rw [hvalid] at h
    cases h
  | ok value => rfl

section Prepared

variable {hostEnv : String → Option String} {encode : String → List β} {task : TaskRecord}
  {files files' : FileTree β} {command : WorkloadCommand} {script : Option String}

/-- What a successful preparation leaves: the command that the row asks for, its
workspace and its script. -/
structure Prepared (hostEnv : String → Option String) (encode : String → List β)
    (task : TaskRecord) (files' : FileTree β) (command : WorkloadCommand) : Prop where
  line : command.program :: command.args = task.execution.requestedLine task.scriptFile
  env : EnvironmentOf hostEnv task.execution.env command.env
  currentDir : command.currentDir = task.workspaceDir
  stdoutPath : command.stdoutPath = task.stdoutPath
  stderrPath : command.stderrPath = task.stderrPath
  workspace : files'.node (resolvePath task.workspaceDir) = some .dir
  script : ∀ text, task.execution.kind = .script → task.execution.script = some text →
    files'.node (resolvePath task.scriptFile) = some (.file (encode text))

theorem buildCommand_ok
    (h : buildCommand hostEnv encode task files = some (files', .ok (command, script))) :
    Prepared hostEnv encode task files' command := by
  have henv := minimalEnv_environmentOf hostEnv task.execution.env
  unfold buildCommand at h
  cases hdir : FileWork.createDirAll (resolvePath task.workspaceDir) files with
  | mk made result =>
  cases result with
  | error e => simp [hdir] at h
  | ok _ =>
    have hmade := (FileTree.createDirAll_spec (FileWork.createDirAll_ok hdir)).2
    simp only [hdir] at h
    cases hkind : task.execution.kind with
    | command =>
      simp only [hkind] at h
      cases hprogram : task.execution.program with
      | none => simp [hprogram] at h
      | some program =>
        simp only [hprogram, Option.some.injEq, Prod.mk.injEq, Except.ok.injEq] at h
        obtain ⟨rfl, rfl, rfl⟩ := h
        refine ⟨?_, henv, rfl, rfl, rfl, hmade, by simp [hkind]⟩
        simp [ExecutionSpec.requestedLine, hkind, hprogram, TaskRecord.command]
    | script =>
      simp only [hkind] at h
      cases hscript : task.execution.script with
      | none => simp [hscript] at h
      | some text =>
        simp only [hscript] at h
        cases hwrite : FileWork.writeScriptFile task.scriptFile (encode text) made with
        | mk written result =>
        cases result with
        | error e => simp [hwrite] at h
        | ok _ =>
          simp only [hwrite] at h
          obtain ⟨mid, hgrows, hnotdir, _, hnode⟩ := FileWork.writeJsonFile_ok hwrite
          have hworkspace : written.node (resolvePath task.workspaceDir) = some .dir := by
            have hmid := hgrows.isDir hmade
            rw [hnode, if_neg, hmid]
            intro heq
            exact hnotdir (heq ▸ hmid)
          have hfile : ∀ text', task.execution.kind = .script → some text = some text' →
              written.node (resolvePath task.scriptFile) = some (.file (encode text')) := by
            rintro text' _ ⟨⟩
            rw [hnode, if_pos rfl]
          rw [← hscript] at hfile
          cases hinterpreter : task.execution.interpreter with
          | none =>
            simp only [hinterpreter, Option.some.injEq, Prod.mk.injEq, Except.ok.injEq] at h
            obtain ⟨rfl, rfl, _⟩ := h
            refine ⟨?_, henv, rfl, rfl, rfl, hworkspace, hfile⟩
            simp [ExecutionSpec.requestedLine, hkind, hinterpreter, hscript, TaskRecord.command]
          | some items =>
            cases items with
            | nil => simp [hinterpreter] at h
            | cons program args =>
              simp only [hinterpreter, Option.some.injEq, Prod.mk.injEq, Except.ok.injEq] at h
              obtain ⟨rfl, rfl, _⟩ := h
              refine ⟨?_, henv, rfl, rfl, rfl, hworkspace, hfile⟩
              simp [ExecutionSpec.requestedLine, hkind, hinterpreter, TaskRecord.command]

/-- A complete task is prepared or fails on its files. -/
theorem buildCommand_total (hcomplete : task.execution.Complete) (files : FileTree β) :
    ∃ files' result, buildCommand hostEnv encode task files = some (files', result) ∧
      ∀ e, result = .error e → e.isIo = true := by
  unfold buildCommand
  cases hdir : FileWork.createDirAll (resolvePath task.workspaceDir) files with
  | mk made result =>
  cases result with
  | error e =>
    refine ⟨made, .error e, rfl, ?_⟩
    rintro e' ⟨⟩
    exact FileWork.createDirAll_failsWithIo _ _ _ _ hdir
  | ok _ =>
    cases hkind : task.execution.kind with
    | command =>
      obtain ⟨program, hprogram⟩ := Option.isSome_iff_exists.mp (hcomplete.program hkind)
      simp only [hprogram]
      exact ⟨_, _, rfl, by simp⟩
    | script =>
      obtain ⟨text, htext⟩ := Option.isSome_iff_exists.mp (hcomplete.script hkind)
      simp only [htext]
      cases hwrite : FileWork.writeScriptFile task.scriptFile (encode text) made with
      | mk written result =>
      cases result with
      | error e =>
        refine ⟨written, .error e, rfl, ?_⟩
        rintro e' ⟨⟩
        exact FileWork.writeJsonFile_failsWithIo _ _ _ _ _ hwrite
      | ok _ =>
        cases hinterpreter : task.execution.interpreter with
        | none => exact ⟨_, _, rfl, by simp⟩
        | some items =>
          cases items with
          | nil => exact absurd hinterpreter (hcomplete.interpreter hkind)
          | cons program args => exact ⟨_, _, rfl, by simp⟩

theorem prepareWorkload_ok
    (h : prepareWorkload hostEnv encode task files = some (files', .ok (command, script))) :
    Prepared hostEnv encode task files' command := by
  unfold prepareWorkload at h
  split at h
  · cases h
  split at h
  · cases h
  · exact buildCommand_ok h

theorem prepareWorkload_total (hcomplete : task.execution.Complete) (files : FileTree β) :
    ∃ files' result, prepareWorkload hostEnv encode task files = some (files', result) ∧
      ∀ e, result = .error e → e.isIo = true := by
  unfold prepareWorkload
  split
  · rename_i opened e hopen
    refine ⟨opened, .error e, rfl, ?_⟩
    rintro e' ⟨⟩
    exact FileWork.writeJsonFile_failsWithIo _ _ _ _ _ hopen
  · split
    · rename_i opened e hopen
      refine ⟨opened, .error e, rfl, ?_⟩
      rintro e' ⟨⟩
      exact FileWork.writeJsonFile_failsWithIo _ _ _ _ _ hopen
    · exact buildCommand_total hcomplete _

end Prepared

section Confined

variable {dir : Location} {files files' : FileTree β}

theorem FileWork.createDirAll_grows {loc : Location} {result : AppResult Unit}
    (h : FileWork.createDirAll loc files = (files', result)) : files.Grows files' := by
  have hgrows := files.createDirAll_grows loc
  unfold createDirAll at h
  split at h <;> rename_i hmade <;> cases h <;> rw [hmade] at hgrows <;> exact hgrows

theorem FileWork.writeJsonFile_sameOutside {path : String} {content : List β}
    (hpath : (resolvePath path).Within dir) {result : AppResult Unit}
    (h : FileWork.writeJsonFile path content files = (files', result)) :
    FileTree.SameOutside dir files files' := by
  unfold writeJsonFile FileWork.andThen at h
  split at h
  · rename_i made hmade
    refine ((FileWork.createDirAll_grows hmade).sameOutside dir).trans ?_
    cases hwrite : made.writeFile (resolvePath path) content with
    | ok written =>
      simp only [hwrite, ofResult] at h
      cases h
      exact FileTree.writeFile_sameOutside hpath hwrite
    | error e =>
      simp only [hwrite, ofResult] at h
      cases h
      exact .refl dir _
  · rename_i hmade
    cases h
    exact (FileWork.createDirAll_grows hmade).sameOutside dir

/-- Nothing outside the task's directory is changed, whatever fails. -/
theorem prepareWorkload_sameOutside {hostEnv : String → Option String} {encode : String → List β}
    {task : TaskRecord} {result : AppResult (WorkloadCommand × Option String)}
    (hstdout : (resolvePath task.stdoutPath).Within dir)
    (hstderr : (resolvePath task.stderrPath).Within dir)
    (hscript : (resolvePath task.scriptFile).Within dir)
    (h : prepareWorkload hostEnv encode task files = some (files', result)) :
    FileTree.SameOutside dir files files' := by
  unfold prepareWorkload at h
  split at h
  · rename_i hout
    cases h
    exact FileWork.writeJsonFile_sameOutside hstdout hout
  rename_i opened hout
  refine (FileWork.writeJsonFile_sameOutside hstdout hout).trans ?_
  split at h
  · rename_i herr
    cases h
    exact FileWork.writeJsonFile_sameOutside hstderr herr
  rename_i both herr
  refine (FileWork.writeJsonFile_sameOutside hstderr herr).trans ?_
  unfold buildCommand at h
  split at h
  · rename_i hdir
    cases h
    exact (FileWork.createDirAll_grows hdir).sameOutside dir
  rename_i made hdir
  refine ((FileWork.createDirAll_grows hdir).sameOutside dir).trans ?_
  split at h
  · split at h <;> cases h <;> exact .refl dir _
  · split at h
    · cases h
      exact .refl dir _
    · split at h
      · rename_i hwrite
        cases h
        exact FileWork.writeJsonFile_sameOutside hscript hwrite
      · rename_i written hwrite
        have hsame := FileWork.writeJsonFile_sameOutside hscript hwrite
        split at h
        · cases h
        · cases h
          exact hsame
        · cases h
          exact hsame

end Confined

namespace RuntimeService

/-- A name that the service gives to scripts, in the directory of the task. -/
def IsScriptPath (svc : RuntimeService) (taskId : TaskId) (path : String) : Prop :=
  ∃ interpreter, path = joinPath (svc.taskDir taskId) (inferScriptName interpreter)

theorem newTask_plan {svc : RuntimeService} {request : SubmitTaskRequest} {taskId : TaskId}
    {plan : ExecutionPlan} {new : NewTaskRecord} (h : svc.newTask request taskId plan = .ok new) :
    new.executionPlan = plan ∧ ∀ path ∈ new.scriptPath, svc.IsScriptPath taskId path := by
  simp only [newTask, bind, Except.bind] at h
  split at h
  · cases h
  · cases h
    refine ⟨rfl, ?_⟩
    intro path hpath
    dsimp only at hpath
    split at hpath
    · cases hpath
      exact ⟨_, rfl⟩
    · cases hpath

end RuntimeService

theorem TaskRecord.isScriptPath_scriptFile {svc : RuntimeService} {task : TaskRecord}
    {taskId : TaskId} (hdir : task.taskDir = svc.taskDir taskId)
    (hpath : ∀ path ∈ task.scriptPath, svc.IsScriptPath taskId path) :
    svc.IsScriptPath taskId task.scriptFile := by
  unfold scriptFile
  cases hcase : task.scriptPath with
  | some path => exact hpath path hcase
  | none => exact ⟨none, by rw [hdir]; rfl⟩

theorem resolvePath_scriptName (dir : String) (interpreter : Option String) :
    resolvePath (joinPath dir (inferScriptName interpreter)) =
      (resolvePath dir).child (inferScriptName interpreter).toList := by
  unfold inferScriptName
  dsimp only
  split
  · exact resolvePath_join_name dir "script.py" (by decide) (by decide)
  split
  · exact resolvePath_join_name dir "script.sh" (by decide) (by decide)
  split
  · exact resolvePath_join_name dir "script.zsh" (by decide) (by decide)
  split
  · exact resolvePath_join_name dir "script.js" (by decide) (by decide)
  · exact resolvePath_join_name dir "script.sh" (by decide) (by decide)

/-- The script files that a shim has in hand. -/
def Shim.scripts (shim : Shim) : List String :=
  match shim.state with
  | .launching task _ => [task.scriptFile]
  | .confining _ scriptPath | .launched _ scriptPath => scriptPath.toList
  | _ => []

section ShimSteps

variable {now : Timestamp} {failure : Option AppError} {choice : ShimChoice} {db db' : Db}
  {committed : Option StoreCall} {shim shim' : Shim}

theorem mem_scriptPathOf {task : TaskRecord} {path : String}
    (h : path ∈ (Shim.scriptPathOf task).toList) : path = task.scriptFile := by
  unfold Shim.scriptPathOf at h
  cases hkind : task.execution.kind <;> rw [hkind] at h
  · cases h
  · exact List.mem_singleton.mp h

theorem Shim.scripts_spawn (shim : Shim) (task : TaskRecord) (plan : ExecutionPlan) (pid : ℕ) :
    (shim.spawn task plan pid).scripts = (Shim.scriptPathOf task).toList := by
  unfold Shim.spawn Shim.scripts
  cases plan.resourceEnforcement.cgroupEnforced <;> rfl

/-- A script file in hand is that of the row the shim has loaded. -/
theorem ShimStep.scripts (h : ShimStep now failure choice db shim committed db' shim')
    {path : String} (hpath : path ∈ shim'.scripts) :
    path ∈ shim.scripts ∨ ∃ task, db.tasks.find shim.taskId = some task ∧
      path = task.scriptFile := by
  cases h with
  | @loaded _ task _ _ hrow =>
    refine .inr ⟨task, hrow, ?_⟩
    unfold Shim.load at hpath
    split at hpath
    · cases hpath
    · split at hpath
      · cases hpath
      · exact List.mem_singleton.mp hpath
  | @spawned _ task plan pid _ hstate _ =>
    left
    rw [Shim.scripts_spawn] at hpath
    simp only [Shim.scripts, hstate, List.mem_singleton]
    exact mem_scriptPathOf hpath
  | confined _ hstate _ =>
    left
    simp only [Shim.scripts, hstate]
    exact hpath
  | reaped _ _ _ hstate =>
    rcases hstate with ⟨s, hstate⟩ | ⟨s, elapsed, b, hstate⟩ <;>
      simp [Shim.scripts, Shim.reap, hstate] at hpath
  | _ => cases hpath

/-- A shim launches the row that it has read. -/
theorem ShimStep.launching (h : ShimStep now failure choice db shim committed db' shim')
    {task : TaskRecord} {plan : ExecutionPlan} (hstate' : shim'.state = .launching task plan) :
    db.tasks.find shim.taskId = some task ∧
      plan = task.executionPlan.getD (.legacy task.sandbox task.limits) := by
  cases h with
  | loaded _ _ hrow =>
    unfold Shim.load at hstate'
    split at hstate'
    · cases hstate'
    · split at hstate'
      · cases hstate'
      · cases hstate'
        exact ⟨hrow, rfl⟩
  | spawned _ _ _ =>
    unfold Shim.spawn at hstate'
    simp only at hstate'
    split at hstate' <;> cases hstate'
  | reaped _ _ _ hstate =>
    rcases hstate with ⟨s, hstate⟩ | ⟨s, elapsed, b, hstate⟩ <;>
      simp [Shim.reap, hstate] at hstate'
  | _ => cases hstate'

end ShimSteps

/-- Only a start touches the script path of a row. -/
theorem TaskWrite.effect_scriptPath (write : TaskWrite) (now : Timestamp) (row : TaskRecord) :
    (write.effect now row).scriptPath = row.scriptPath ∨
      ∃ pid pgid given, write = .markStarted pid pgid given ∧
        (write.effect now row).scriptPath = given.or row.scriptPath := by
  cases write with
  | markStarted pid pgid given => exact .inr ⟨pid, pgid, given, rfl, rfl⟩
  | _ =>
    left
    simp only [effect, TaskRecord.setDispatched, TaskRecord.setReserved, TaskRecord.setReleased,
      TaskRecord.setCancelRequested, TaskRecord.setTimeoutTriggered, TaskRecord.setCancelled,
      TaskRecord.setCompleted, TaskRecord.setRecovered]
    try split
    all_goals rfl

namespace World

variable {svc : RuntimeService} {w w' : World} {e : Event} {trace : List (World × Event)}
  {last : World}

/-- Every script file that is stored or in hand is one of its task. -/
structure ScriptsInPlace (svc : RuntimeService) (w : World) : Prop where
  rows : ∀ taskId row, w.db.tasks.find taskId = some row →
    ∀ path ∈ row.scriptPath, svc.IsScriptPath taskId path
  shims : ∀ shim ∈ w.procs.shims, ∀ path ∈ shim.scripts, svc.IsScriptPath shim.taskId path

/-- A start reports the script file that the shim has in hand. -/
theorem started_in_place (hinv : w.ScriptsInPlace svc) (h : w.step svc e = some w')
    {taskId : TaskId} {pid pgid : ℕ} {scriptPath : Option String}
    (hcommitted : w.committed svc e = some (.write taskId (.markStarted pid pgid scriptPath)))
    {path : String} (hpath : scriptPath = some path) : svc.IsScriptPath taskId path := by
  cases step_write h hcommitted with
  | request _ hcall => cases hcall
  | dispatch _ _ _ _ _ hwrite _ => cases hwrite
  | recover _ _ _ _ _ hwrite _ => cases hwrite
  | shim i choice shim shim' _ hshim hid hwrite _ =>
    cases hwrite with
    | started _ hstate =>
      rw [← hid]
      refine hinv.shims shim (List.mem_of_getElem? hshim) path ?_
      simp [Shim.scripts, hstate, hpath]

theorem ScriptsInPlace.step (hinv : w.ScriptsInPlace svc) (hplanned : w.Planned svc)
    (hdirs : w.OwnDirectories svc) (h : w.step svc e = some w') : w'.ScriptsInPlace svc := by
  constructor
  · intro taskId row' hrow'
    cases step_origin h hrow' with
    | inserted new hcommitted hid _ hnew _ =>
      obtain ⟨i, submit, _, hsubmit, hstate, _⟩ := step_insert h hcommitted
      obtain ⟨plan, _, hrecord⟩ := hplanned submit (List.mem_of_getElem? hsubmit) new hstate
      have hsame := (RuntimeService.newTask_paths hrecord).sameId
      rw [hnew, ← hid, hsame]
      exact (RuntimeService.newTask_plan hrecord).2
    | kept hrow _ _ => exact hinv.rows taskId row' hrow
    | written write row hcommitted hrow heffect _ =>
      rw [heffect]
      intro path hpath
      rcases write.effect_scriptPath e.now row with hsame | ⟨pid, pgid, given, rfl, hgiven⟩
      · exact hinv.rows taskId row hrow path (hsame ▸ hpath)
      · rw [hgiven] at hpath
        rcases Option.or_eq_some_iff.mp hpath with hnew | ⟨_, hold⟩
        · exact started_in_place hinv h hcommitted hnew
        · exact hinv.rows taskId row hrow path hold
  · intro shim' hmem path hpath
    obtain ⟨i, hi⟩ := List.mem_iff_getElem?.mp hmem
    cases step_shim h i with
    | same hsame _ => exact hinv.shims shim' (List.mem_of_getElem? (hsame ▸ hi)) path hpath
    | spawned _ _ new _ _ _ hnew _ =>
      rw [hnew] at hi
      cases hi
      cases hpath
    | moved choice shim t _ hshim ht hmove =>
      rw [ht] at hi
      cases hi
      rw [hmove.taskId]
      rcases hmove.scripts hpath with hold | ⟨task, hrow, rfl⟩
      · exact hinv.shims shim (List.mem_of_getElem? hshim) path hold
      · exact TaskRecord.isScriptPath_scriptFile (hdirs.rows _ task hrow)
          (hinv.rows _ task hrow)

theorem scriptsInPlace_of_run (hrun : Run svc init trace last) : last.ScriptsInPlace svc := by
  have hstart : init.Planned svc ∧ init.OwnDirectories svc ∧ init.ScriptsInPlace svc :=
    ⟨planned_serve .empty, ⟨by simp [init, serve, Db.empty], by simp [init, serve]⟩,
      ⟨by simp [init, serve, Db.empty], by simp [init, serve]⟩⟩
  have hall := hrun.invariant
    (I := fun w => w.Planned svc ∧ w.OwnDirectories svc ∧ w.ScriptsInPlace svc)
    (G := fun _ _ => True) hstart ?_ (fun _ _ => trivial)
  · exact hall.2.2
  · rintro w e w' ⟨hplanned, hdirs, hscripts⟩ _ hstep
    exact ⟨hplanned.step hstep, ownDirectories_step hdirs hstep,
      hscripts.step hplanned hdirs hstep⟩

/-- The row that a shim is about to launch was in the store when the shim read it. -/
theorem loaded_of_launching {db : Db} (hrun : Run svc (serve db) trace last) {i : ℕ} {shim : Shim}
    (hshim : last.procs.shims[i]? = some shim) {task : TaskRecord} {plan : ExecutionPlan}
    (hstate : shim.state = .launching task plan) :
    ∃ before w x after, trace = before ++ (w, x) :: after ∧ Run svc (serve db) before w ∧
      w.db.tasks.find shim.taskId = some task ∧
      plan = task.executionPlan.getD (.legacy task.sandbox task.limits) := by
  induction hrun generalizing shim with
  | nil => cases hshim
  | @snoc trace s x s' hbefore hstep ih =>
    have hlater : s.procs.shims[i]? = some shim →
        ∃ before w x' after, trace ++ [(s, x)] = before ++ (w, x') :: after ∧
          Run svc (serve db) before w ∧ w.db.tasks.find shim.taskId = some task ∧
          plan = task.executionPlan.getD (.legacy task.sandbox task.limits) := by
      intro hsame
      obtain ⟨before, w, x', after, rfl, hrun, hrow, hplan⟩ := ih hsame hstate
      exact ⟨before, w, x', after ++ [(s, x)], by simp, hrun, hrow, hplan⟩
    cases step_shim hstep i with
    | same hsame _ => exact hlater (hsame ▸ hshim)
    | spawned _ _ new _ _ _ hnew _ =>
      rw [hnew] at hshim
      cases hshim
      cases hstate
    | moved choice old shim' _ hold hshim' hmove =>
      rw [hshim] at hshim'
      cases hshim'
      obtain ⟨hrow, hplan⟩ := hmove.launching hstate
      rw [← hmove.taskId] at hrow
      exact ⟨trace, s, x, [], rfl, hbefore, hrow, hplan⟩

/-- The task that a shim is about to launch is one that was received, under the plan
resolved for it. -/
structure LaunchesArrival (svc : RuntimeService) (trace : List (World × Event)) (shim : Shim)
    (task : TaskRecord) (plan : ExecutionPlan) (arrival : Arrival) (new : NewTaskRecord)
    (insertedAt : Timestamp) : Prop where
  received : arrival ∈ arrivals trace
  sameId : arrival.taskId = shim.taskId
  checked : svc.checkRequest arrival.request = .ok plan
  record : svc.newTask arrival.request arrival.taskId plan = .ok new
  sameSubmission : TaskWrite.SameSubmission (new.toRow insertedAt) task
  scriptFile : svc.IsScriptPath shim.taskId task.scriptFile

theorem exists_launchesArrival (hrun : Run svc init trace last) {i : ℕ} {shim : Shim}
    (hshim : last.procs.shims[i]? = some shim) {task : TaskRecord} {plan : ExecutionPlan}
    (hstate : shim.state = .launching task plan) :
    ∃ arrival new insertedAt, LaunchesArrival svc trace shim task plan arrival new insertedAt := by
  obtain ⟨before, w, x, after, rfl, hrunLoad, hrow, rfl⟩ := loaded_of_launching hrun hshim hstate
  obtain ⟨first, s, e, middle, arrival, new, rfl, hinserted, hid, hsame, _⟩ :=
    row_origin hrunLoad hrow
  obtain ⟨plan, hcheck, hnew⟩ := hinserted.admitted
  have hplan : task.executionPlan = some plan := by
    rw [hsame.executionPlan, ← (RuntimeService.newTask_plan hnew).1]
    rfl
  have hreceived : arrival ∈ arrivals ((first ++ (s, e) :: middle) ++ (w, x) :: after) := by
    have hmem := hinserted.received
    unfold arrivals at hmem ⊢
    rw [List.append_assoc, List.filterMap_append]
    exact List.mem_append_left _ hmem
  have hdir := taskDir_of_run hrunLoad w (Runs.last_mem_visited _ _) _ task hrow
  have hscript := TaskRecord.isScriptPath_scriptFile hdir
    ((scriptsInPlace_of_run hrunLoad).rows _ task hrow)
  rw [hplan]
  exact ⟨arrival, new, e.now, hreceived, hid, hcheck, hnew, hsame, hscript⟩

section Launching

variable {shim : Shim} {task : TaskRecord} {plan : ExecutionPlan} {arrival : Arrival}
  {new : NewTaskRecord} {insertedAt : Timestamp}

theorem LaunchesArrival.execution
    (h : LaunchesArrival svc trace shim task plan arrival new insertedAt) :
    task.execution = arrival.request.execution := by
  rw [h.sameSubmission.execution, ← (RuntimeService.newTask_paths h.record).sameRequest]
  rfl

theorem LaunchesArrival.complete
    (h : LaunchesArrival svc trace shim task plan arrival new insertedAt) :
    task.execution.Complete := by
  rw [h.execution]
  exact ExecutionSpec.complete_of_validate
    (SubmitTaskRequest.execution_validate (RuntimeService.validate_of_checkRequest h.checked))

end Launching

/-- The command runs what the request asks for, in the workspace of its task. -/
structure RunsRequest (svc : RuntimeService) (hostEnv : String → Option String)
    (encode : String → List β) (arrival : Arrival) (files' : FileTree β)
    (command : WorkloadCommand) : Prop where
  line : ∃ scriptFile, svc.IsScriptPath arrival.taskId scriptFile ∧
    command.program :: command.args = arrival.request.execution.requestedLine scriptFile ∧
    ∀ text, arrival.request.execution.kind = .script →
      arrival.request.execution.script = some text →
      files'.node (resolvePath scriptFile) = some (.file (encode text))
  env : EnvironmentOf hostEnv arrival.request.execution.env command.env
  currentDir : resolveWorkspaceDir (svc.taskDir arrival.taskId) arrival.request.sandbox =
    .ok command.currentDir
  workspace : files'.node (resolvePath command.currentDir) = some .dir
  stdoutPath : command.stdoutPath = joinPath (svc.taskDir arrival.taskId) "stdout.log"
  stderrPath : command.stderrPath = joinPath (svc.taskDir arrival.taskId) "stderr.log"

theorem LaunchesArrival.runsRequest {shim : Shim} {task : TaskRecord} {plan : ExecutionPlan}
    {arrival : Arrival} {new : NewTaskRecord} {insertedAt : Timestamp}
    {hostEnv : String → Option String} {encode : String → List β} {files' : FileTree β}
    {command : WorkloadCommand}
    (h : LaunchesArrival svc trace shim task plan arrival new insertedAt)
    (hprepared : Prepared hostEnv encode task files' command) :
    RunsRequest svc hostEnv encode arrival files' command := by
  have hpaths := RuntimeService.newTask_paths h.record
  have hsame := h.sameSubmission
  have hscript := h.scriptFile
  rw [← h.sameId] at hscript
  have hworkspace : task.workspaceDir = new.workspaceDir := hsame.workspaceDir
  refine ⟨⟨task.scriptFile, hscript, ?_, ?_⟩, ?_, ?_, ?_, ?_, ?_⟩
  · rw [← h.execution]
    exact hprepared.line
  · rw [← h.execution]
    exact hprepared.script
  · rw [← h.execution]
    exact hprepared.env
  · rw [hprepared.currentDir, hworkspace]
    exact hpaths.workspaceDir
  · rw [hprepared.currentDir]
    exact hprepared.workspace
  · rw [hprepared.stdoutPath, hsame.stdoutPath, ← hpaths.stdoutPath]
    rfl
  · rw [hprepared.stderrPath, hsame.stderrPath, ← hpaths.stderrPath]
    rfl

/-- What a shim is about to launch is what a received request asked for, under the
plan resolved for it. The preparation never panics and fails on files only. -/
theorem launched_as_submitted (hrun : Run svc init trace last) {i : ℕ} {shim : Shim}
    (hshim : last.procs.shims[i]? = some shim) {task : TaskRecord} {plan : ExecutionPlan}
    (hstate : shim.state = .launching task plan) :
    ∃ arrival ∈ arrivals trace, arrival.taskId = shim.taskId ∧
      svc.checkRequest arrival.request = .ok plan ∧
      ∀ (hostEnv : String → Option String) (encode : String → List β) (files : FileTree β),
        ∃ files' result, prepareWorkload hostEnv encode task files = some (files', result) ∧
          (∀ err, result = .error err → err.isIo = true) ∧
          ∀ command script, result = .ok (command, script) →
            RunsRequest svc hostEnv encode arrival files' command := by
  obtain ⟨arrival, new, insertedAt, h⟩ := exists_launchesArrival hrun hshim hstate
  refine ⟨arrival, h.received, h.sameId, h.checked, fun hostEnv encode files => ?_⟩
  obtain ⟨files', result, hresult, hio⟩ := prepareWorkload_total h.complete files
  refine ⟨files', result, hresult, hio, ?_⟩
  rintro command script rfl
  exact h.runsRequest (prepareWorkload_ok hresult)

/-- The shim of a submitted script is about to launch it. -/
theorem exists_launching :
    ∃ trace last shim task plan, Run (smallService ⟨1, none, none⟩) init trace last ∧
      last.procs.shims[0]? = some shim ∧ shim.state = .launching task plan ∧
      shim.taskId = "a" := by
  have hexec : (execute (smallService ⟨1, none, none⟩) (fun _ _ => true)
      (events (submitActions 0
          { taskId := some "a"
            execution := { kind := .script, script := some "print(1)"
                           interpreter := some ["python3", "-u"] } } ++
        dispatchActions 10 ++ [.shim 0 .proceed]))).any (fun w =>
        (w.procs.shims[0]?).any (fun shim =>
          match shim.state with
          | .launching _ _ => decide (shim.taskId = "a")
          | _ => false)) = true := by decide +kernel
  obtain ⟨trace, last, hrun, _, _, htest⟩ := Runs.exists_run_of_exec hexec
  obtain ⟨shim, hshim, hlaunching⟩ := (Option.any_eq_true _ _).mp htest
  split at hlaunching
  · rename_i task plan hstate
    exact ⟨trace, last, shim, task, plan, hrun, hshim, hstate, of_decide_eq_true hlaunching⟩
  · cases hlaunching

theorem launched_as_submitted_of_script :
    ∃ trace last shim task plan, Run (smallService ⟨1, none, none⟩) init trace last ∧
      last.procs.shims[0]? = some shim ∧ shim.state = .launching task plan ∧
      ∃ arrival ∈ arrivals trace, arrival.taskId = shim.taskId ∧
        (smallService ⟨1, none, none⟩).checkRequest arrival.request = .ok plan ∧
        ∀ (hostEnv : String → Option String) (encode : String → List Char) (files : FileTree Char),
          ∃ files' result, prepareWorkload hostEnv encode task files = some (files', result) ∧
            (∀ err, result = .error err → err.isIo = true) ∧
            ∀ command script, result = .ok (command, script) →
              RunsRequest (smallService ⟨1, none, none⟩) hostEnv encode arrival files' command := by
  obtain ⟨trace, last, shim, task, plan, hrun, hshim, hstate, _⟩ := exists_launching
  exact ⟨trace, last, shim, task, plan, hrun, hshim, hstate,
    launched_as_submitted hrun hshim hstate⟩

/-- The preparation of a launch changes no file outside the directory of its task,
also when it fails half way. -/
theorem launch_confined (hrun : Run svc init trace last) {i : ℕ} {shim : Shim}
    (hshim : last.procs.shims[i]? = some shim) {task : TaskRecord} {plan : ExecutionPlan}
    (hstate : shim.state = .launching task plan) (hostEnv : String → Option String)
    (encode : String → List β) {files files' : FileTree β}
    {result : AppResult (WorkloadCommand × Option String)}
    (hprepared : prepareWorkload hostEnv encode task files = some (files', result)) :
    FileTree.SameOutside (resolvePath (svc.taskDir shim.taskId)) files files' := by
  obtain ⟨arrival, new, insertedAt, h⟩ := exists_launchesArrival hrun hshim hstate
  have hpaths := RuntimeService.newTask_paths h.record
  rw [h.sameId] at hpaths
  have hchild : ∀ name : List Char, ((resolvePath (svc.taskDir shim.taskId)).child name).Within
      (resolvePath (svc.taskDir shim.taskId)) :=
    fun name => ⟨rfl, rfl, List.prefix_append _ _⟩
  obtain ⟨interpreter, hfile⟩ := h.scriptFile
  refine prepareWorkload_sameOutside ?_ ?_ ?_ hprepared
  · rw [h.sameSubmission.stdoutPath]
    exact hpaths.stdoutLocation ▸ hchild _
  · rw [h.sameSubmission.stderrPath]
    exact hpaths.stderrLocation ▸ hchild _
  · rw [hfile, resolvePath_scriptName]
    exact hchild _

/-- A note beside the directory of the data. -/
private def noteTree : FileTree Char :=
  FileTree.empty.put (resolvePath "/note") (.file "keep".toList) (by decide) rfl
    (fun h => by cases h)

private theorem noteTree_note : noteTree.node (resolvePath "/note") = some (.file "keep".toList) :=
  rfl

/-- The note is still there after the preparation of the script. -/
theorem launch_confined_of_script :
    ∃ trace last shim task plan files' result, Run (smallService ⟨1, none, none⟩) init trace last ∧
      last.procs.shims[0]? = some shim ∧ shim.state = .launching task plan ∧
      prepareWorkload (fun _ => none) String.toList task noteTree = some (files', result) ∧
      FileTree.SameOutside (resolvePath ((smallService ⟨1, none, none⟩).taskDir shim.taskId))
        noteTree files' ∧
      files'.node (resolvePath "/note") = some (.file "keep".toList) := by
  obtain ⟨trace, last, shim, task, plan, hrun, hshim, hstate, hid⟩ := exists_launching
  obtain ⟨_, _, _, h⟩ := exists_launchesArrival hrun hshim hstate
  obtain ⟨files', result, hprepared, _⟩ := prepareWorkload_total h.complete noteTree
  have hconfined := launch_confined hrun hshim hstate _ _ hprepared
  have houtside : ¬ (resolvePath "/note").Within
      (resolvePath ((smallService ⟨1, none, none⟩).taskDir shim.taskId)) := by
    rw [hid]
    rintro ⟨_, _, hprefix⟩
    revert hprefix
    decide
  refine ⟨trace, last, shim, task, plan, files', result, hrun, hshim, hstate, hprepared, hconfined,
    ?_⟩
  exact (hconfined _ houtside (by rw [noteTree_note]; rfl)).trans noteTree_note

end World

end ExecgoRuntime
