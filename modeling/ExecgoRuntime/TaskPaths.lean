import ExecgoRuntime.Lib.Delimited
import ExecgoRuntime.Lib.LexicalPath
import ExecgoRuntime.Requests
import Mathlib.Data.Set.Basic

/-!
The directories that are named after a task. A task id becomes the last part of
two paths as it is, below the directory of all tasks and below the cgroup root.
Validation rejects every separator, so nothing but the two names that a path
walk treats specially can lead anywhere else.
-/
namespace ExecgoRuntime

open LexicalPath

def resolvePath (path : String) : Location := resolve path.toList

/-- The directory that `submit_task` creates and garbage collection removes. -/
def RuntimeService.taskDir (svc : RuntimeService) (taskId : TaskId) : String :=
  joinPath svc.settings.tasksDir taskId

/-- The directory that `setup_cgroup` creates. -/
def cgroupDir (cgroupRoot : String) (taskId : TaskId) : String := joinPath cgroupRoot taskId

theorem RuntimeService.newTask_taskDir {svc : RuntimeService} {request : SubmitTaskRequest}
    {taskId : TaskId} {plan : ExecutionPlan} {new : NewTaskRecord}
    (h : svc.newTask request taskId plan = .ok new) :
    new.taskId = taskId ∧ new.taskDir = svc.taskDir taskId := by
  simp only [newTask, bind, Except.bind] at h
  split at h
  · cases h
  · cases h
    exact ⟨rfl, rfl⟩

theorem resolvePath_join {child : String} (hrelative : isAbsolutePath child = false)
    (base : String) :
    resolvePath (joinPath base child) =
      (components child.toList).foldl Location.enter (resolvePath base) := by
  unfold joinPath resolvePath
  rw [if_neg (by simp [hrelative])]
  by_cases hempty : base.toList = []
  · have hcase : isAbsolute child.toList = isAbsolute [] := hrelative
    have hstart : start child.toList = start [] := by simp only [start, hcase]
    simp [hempty, resolve, hstart, components, Component.ofPart]
  by_cases hsep : base.toList.getLast? = some '/'
  · rw [if_pos (by simp [hsep]), String.toList_append]
    exact resolve_append_of_sep hsep child.toList
  · rw [if_neg (by simp [hempty, hsep]), String.toList_append, String.toList_append]
    have hone : base.toList ++ "/".toList ++ child.toList = base.toList ++ '/' :: child.toList := by
      simp
    rw [hone]
    exact resolve_append_sep hempty child.toList

/-- A file name joined to a directory is a child of it. -/
theorem resolvePath_join_name (dir name : String) (hsep : '/' ∉ name.toList)
    (hpart : Component.ofPart name.toList = some (.normal name.toList)) :
    resolvePath (joinPath dir name) = (resolvePath dir).child name.toList := by
  have hrelative : isAbsolutePath name = false := by
    unfold isAbsolutePath
    rw [beq_eq_false_iff_ne]
    intro hhead
    exact hsep (List.mem_of_mem_head? hhead)
  rw [resolvePath_join hrelative, components_of_single hsep, hpart]
  rfl

/-- The id of a request that passes validation. -/
def AcceptedId (taskId : TaskId) : Prop :=
  ∃ request : SubmitTaskRequest, request.taskId = some taskId ∧ request.validate = .ok ()

theorem AcceptedId.validateTaskId {taskId : TaskId} (h : AcceptedId taskId) :
    validateTaskId taskId = .ok () := by
  obtain ⟨request, hid, hvalid⟩ := h
  simp only [SubmitTaskRequest.validate, hid, bind, Except.bind] at hvalid
  cases hcheck : ExecgoRuntime.validateTaskId taskId with
  | error e =>
    rw [hcheck] at hvalid
    cases hvalid
  | ok value => rfl

/-- Trimming loses white space only. -/
theorem mem_trim {c : Char} {text : String} (hmem : c ∈ text.toList)
    (hc : isWhitespace c = false) : c ∈ trim text :=
  Delimited.mem_strip hmem hc

theorem AcceptedId.trimmed {taskId : TaskId} (h : AcceptedId taskId) :
    trim taskId ≠ [] ∧ '/' ∉ trim taskId := by
  have hcheck := h.validateTaskId
  simp only [ExecgoRuntime.validateTaskId, bind, Except.bind] at hcheck
  split at hcheck
  · cases hcheck
  rename_i hnonempty
  split at hcheck
  · cases hcheck
  rename_i hchars
  refine ⟨by simpa using hnonempty, ?_⟩
  intro hslash
  have hall : (trim taskId).all (fun c =>
      isAsciiAlphanumeric c || c == '-' || c == '_' || c == '.') = true := by
    by_contra hnot
    exact hchars (by simpa using hnot)
  have hone := List.all_eq_true.mp hall '/' hslash
  revert hone
  decide

theorem AcceptedId.no_separator {taskId : TaskId} (h : AcceptedId taskId) :
    '/' ∉ taskId.toList := by
  intro hmem
  have htrimmed : '/' ∈ trim taskId := mem_trim hmem (by decide)
  exact h.trimmed.2 htrimmed

theorem AcceptedId.nonempty {taskId : TaskId} (h : AcceptedId taskId) : taskId.toList ≠ [] := by
  intro hempty
  apply h.trimmed.1
  simp [trim, hempty]

/-- One component, the special names included, is all an accepted id can be. -/
theorem AcceptedId.resolve_join {taskId : TaskId} (h : AcceptedId taskId) (root : String) :
    resolvePath (joinPath root taskId) =
      if taskId = "." then resolvePath root
      else if taskId = ".." then (resolvePath root).parent
      else (resolvePath root).child taskId.toList := by
  have hrelative : isAbsolutePath taskId = false := by
    unfold isAbsolutePath
    rw [beq_eq_false_iff_ne]
    intro hhead
    exact h.no_separator (List.mem_of_mem_head? hhead)
  rw [resolvePath_join hrelative, components_of_single h.no_separator]
  have hdot : taskId.toList = ['.'] ↔ taskId = "." := by
    rw [show ['.'] = ".".toList from rfl, String.toList_inj]
  have hdots : taskId.toList = ['.', '.'] ↔ taskId = ".." := by
    rw [show ['.', '.'] = "..".toList from rfl, String.toList_inj]
  simp only [Component.ofPart, h.nonempty, hdot, hdots, if_false]
  split
  · rfl
  · split <;> rfl

/-- Every task has a child of the root named by its id, and the directories of
different tasks share no location. -/
structure Confined (root : String) (dir : TaskId → String) (ids : Set TaskId) : Prop where
  child : ∀ id ∈ ids, resolvePath (dir id) = (resolvePath root).child id.toList
  apart : ∀ a ∈ ids, ∀ b ∈ ids, a ≠ b → (resolvePath (dir a)).Apart (resolvePath (dir b))

theorem confined_join_iff (root : String) (ids : Set TaskId) (hids : ∀ id ∈ ids, AcceptedId id) :
    Confined root (joinPath root) ids ↔ "." ∉ ids ∧ ".." ∉ ids := by
  constructor
  · intro h
    constructor
    · intro hdot
      have hchild := h.child "." hdot
      rw [(hids "." hdot).resolve_join, if_pos rfl] at hchild
      exact Location.child_ne_self _ _ hchild.symm
    · intro hdots
      have hchild := h.child ".." hdots
      rw [(hids ".." hdots).resolve_join, if_neg (by decide), if_pos rfl] at hchild
      exact Location.child_ne_parent _ _ hchild
  · rintro ⟨hdot, hdots⟩
    have hchild : ∀ id ∈ ids,
        resolvePath (joinPath root id) = (resolvePath root).child id.toList := by
      intro id hid
      have hne : id ≠ "." := fun heq => hdot (heq ▸ hid)
      have hne' : id ≠ ".." := fun heq => hdots (heq ▸ hid)
      rw [(hids id hid).resolve_join, if_neg hne, if_neg hne']
    refine ⟨hchild, fun a ha b hb hab => ?_⟩
    rw [hchild a ha, hchild b hb]
    apply Location.apart_children
    intro hsame
    exact hab (String.toList_inj.mp hsame)

/-- The directories of accepted tasks, below the directory of all tasks and below
the cgroup root, are as intended exactly when no task is called `.` or `..`. -/
theorem task_directories_confined_iff (svc : RuntimeService) (cgroupRoot : String)
    (ids : Set TaskId) (hids : ∀ id ∈ ids, AcceptedId id) :
    (Confined svc.settings.tasksDir svc.taskDir ids ∧
      Confined cgroupRoot (cgroupDir cgroupRoot) ids) ↔ "." ∉ ids ∧ ".." ∉ ids := by
  have htasks := confined_join_iff svc.settings.tasksDir ids hids
  have hcgroups := confined_join_iff cgroupRoot ids hids
  constructor
  · rintro ⟨h, _⟩
    exact htasks.mp h
  · intro h
    exact ⟨htasks.mpr h, hcgroups.mpr h⟩

/-- An ordinary task next to one whose id is padded with a space. -/
theorem two_task_directories_confined :
    Confined "/data/tasks" (smallService ⟨1, none, none⟩).taskDir {"a", " a"} ∧
      Confined "/sys/fs/cgroup" (cgroupDir "/sys/fs/cgroup") {"a", " a"} := by
  refine (task_directories_confined_iff (smallService ⟨1, none, none⟩) "/sys/fs/cgroup" {"a", " a"}
    ?_).mpr ⟨by simp, by simp⟩
  rintro id (rfl | rfl)
  · exact ⟨commandRequest "a", rfl, by decide⟩
  · exact ⟨commandRequest " a", rfl, by decide⟩

/-- The id `..` is accepted, and its task directory is the one that holds all of
the server's data. -/
theorem parent_directory_of_accepted_id :
    ¬ ∀ (svc : RuntimeService) (cgroupRoot : String) (ids : Set TaskId),
      (∀ id ∈ ids, AcceptedId id) → Confined svc.settings.tasksDir svc.taskDir ids ∧
        Confined cgroupRoot (cgroupDir cgroupRoot) ids := by
  intro hall
  have haccepted : AcceptedId ".." := ⟨commandRequest "..", rfl, by decide⟩
  obtain ⟨htasks, _⟩ := hall (smallService ⟨1, none, none⟩) "/sys/fs/cgroup" {".."}
    (by rintro id rfl; exact haccepted)
  have hparent : resolvePath ((smallService ⟨1, none, none⟩).taskDir "..") =
      resolvePath "/data" := by decide
  have hchild := htasks.child ".." rfl
  rw [hparent] at hchild
  revert hchild
  decide

namespace World

/-- The rows and the submissions under way carry the directory of their id. -/
structure OwnDirectories (svc : RuntimeService) (w : World) : Prop where
  rows : ∀ taskId row, w.db.tasks.find taskId = some row → row.taskDir = svc.taskDir taskId
  submits : ∀ submit ∈ w.procs.submits, ∀ new, submit.state = .inserting new →
    new.taskDir = svc.taskDir new.taskId

theorem ownDirectories_step {svc : RuntimeService} {w w' : World} {e : Event}
    (hinv : w.OwnDirectories svc) (h : w.step svc e = some w') : w'.OwnDirectories svc := by
  constructor
  · intro taskId row' hrow'
    cases step_origin h hrow' with
    | inserted new hcommitted hid _ hnew _ =>
      obtain ⟨i, submit, _, hsubmit, hstate, _⟩ := step_insert h hcommitted
      have hdir := hinv.submits submit (List.mem_of_getElem? hsubmit) new hstate
      rw [hnew, ← hid]
      exact hdir
    | kept hrow _ _ => exact hinv.rows taskId row' hrow
    | written write row _ hrow heffect _ =>
      rw [heffect, (write.effect_sameOrigin e.now row).taskDir]
      exact hinv.rows taskId row hrow
  · intro submit' hmem new hstate
    rcases mem_submits_of_step h hmem with hold | ⟨request, generatedId, rfl⟩ | ⟨submit, _, hstep⟩
    · exact hinv.submits submit' hold new hstate
    · cases hstate
    · generalize w.committed svc e = committed at hstep
      generalize w'.db = db' at hstep
      cases hstep with
      | failed _ _ => cases hstate
      | planned _ _ _ _ hnew =>
        cases hstate
        obtain ⟨hid, hdir⟩ := RuntimeService.newTask_taskDir hnew
        rw [hid, hdir]
      | inserted _ _ => cases hstate

/-- The directory that garbage collection removes with a row is the one of its id. -/
theorem taskDir_of_run {svc : RuntimeService} {trace : List (World × Event)} {last : World}
    (h : Run svc init trace last) :
    ∀ s ∈ Runs.visited trace last, ∀ taskId row, s.db.tasks.find taskId = some row →
      row.taskDir = svc.taskDir taskId := by
  have hinit : init.OwnDirectories svc :=
    ⟨by simp [init, serve, Db.empty], by simp [init, serve]⟩
  intro s hs
  have hinv := h.invariant_visited (G := fun _ _ => True) hinit
    (fun _ _ _ hinv _ hstep => ownDirectories_step hinv hstep) (fun _ _ => trivial) s hs
  exact hinv.rows

end World

end ExecgoRuntime
