import ExecgoRuntime.Exclusion
import ExecgoRuntime.Submission

/-!
The result files. An operation that ends a task writes the status snapshot of
the row to the task's result path, each on its own: the dispatch cycle, the
recovery pass and the shim have a state for it. Here one actor moves alone on
the host, with its file work; `kill_task` has no such state.
-/
namespace ExecgoRuntime

open LexicalPath

variable {β : Type}

structure TaskArtifacts where
  taskDir : String
  requestPath : String
  resultPath : String
  stdoutPath : String
  stderrPath : String
  scriptPath : Option String

structure TaskStatusResponse where
  taskId : TaskId
  handleId : TaskId
  status : TaskStatus
  createdAt : Timestamp
  updatedAt : Timestamp
  startedAt : Option Timestamp
  finishedAt : Option Timestamp
  durationMs : Option ℕ
  shimPid : Option ℕ
  pid : Option ℕ
  pgid : Option ℕ
  exitCode : Option ℤ
  exitSignal : Option ℤ
  stdout : String
  stderr : String
  stdoutTruncated : Bool
  stderrTruncated : Bool
  error : Option RuntimeErrorInfo
  usage : Option ResourceUsage
  executionPlan : Option ExecutionPlan
  reservation : Option TaskResourceReservation
  artifacts : TaskArtifacts
  metadata : List (String × String)

/-- The lossy UTF-8 decoder for output and the serialiser for snapshots. -/
structure Codec (β : Type) where
  decodeText : List β → String
  encodeStatus : TaskStatusResponse → List β

/-- The number of bytes that one `read` of Linux returns at most. -/
def maxReadBytes : ℕ := 0x7ffff000

namespace Codec

/-- The head of an output file, as far as one `read` gets, and whether the file is longer
than the limit; an absent file is empty. -/
def readOutputPreview (codec : Codec β) (files : FileTree β) (path : String) (maxBytes : ℕ) :
    AppResult (String × Bool) :=
  match files.readFile (resolvePath path) with
  | .ok content =>
    .ok (codec.decodeText (content.take (min maxBytes maxReadBytes)),
      decide (maxBytes < content.length))
  | .error .notFound => .ok ("", false)
  | .error e => .error (.io e.message)

def buildStatusResponse (codec : Codec β) (now : Timestamp) (files : FileTree β)
    (task : TaskRecord) : AppResult TaskStatusResponse := do
  let (stdout, stdoutTruncated) ← codec.readOutputPreview files task.stdoutPath task.stdoutMaxBytes
  let (stderr, stderrTruncated) ← codec.readOutputPreview files task.stderrPath task.stderrMaxBytes
  let durationMs := task.durationMs.or (task.startedAt.map (fun started => (now - started).toNat))
  return {
    taskId := task.taskId
    handleId := task.handleId
    status := task.status
    createdAt := task.createdAt
    updatedAt := task.updatedAt
    startedAt := task.startedAt
    finishedAt := task.finishedAt
    durationMs
    shimPid := task.shimPid
    pid := task.pid
    pgid := task.pgid
    exitCode := task.exitCode
    exitSignal := task.exitSignal
    stdout
    stderr
    stdoutTruncated
    stderrTruncated
    error := task.error
    usage := task.usage.or (durationMs.map (fun value => { durationMs := value }))
    executionPlan := task.executionPlan.or (some (.legacy task.sandbox task.limits))
    reservation := task.reservation
    artifacts := {
      taskDir := task.taskDir
      requestPath := task.requestPath
      resultPath := task.resultPath
      stdoutPath := task.stdoutPath
      stderrPath := task.stderrPath
      scriptPath := task.scriptPath }
    metadata := task.metadata }

theorem buildStatusResponse_ok {codec : Codec β} {now : Timestamp} {files : FileTree β}
    {task : TaskRecord} {response : TaskStatusResponse}
    (h : codec.buildStatusResponse now files task = .ok response) :
    response.status = task.status ∧ response.error = task.error := by
  simp only [buildStatusResponse, bind, Except.bind] at h
  split at h
  · cases h
  split at h
  · cases h
  · cases h
    exact ⟨rfl, rfl⟩

end Codec

/-- `persist_latest_result`. -/
def Host.persistLatestResult (codec : Codec β) (now : Timestamp) (taskId : TaskId)
    (host : Host β) : FileTree β × AppResult Unit :=
  match host.db.getTask taskId with
  | .error e => (host.files, .error e)
  | .ok task =>
    match codec.buildStatusResponse now host.files task with
    | .error e => (host.files, .error e)
    | .ok response =>
      FileWork.writeJsonFile task.resultPath (codec.encodeStatus response) host.files

/-- The file at the path holds a snapshot with this status and error. -/
def Codec.Snapshot (codec : Codec β) (files : FileTree β) (path : String) (status : TaskStatus)
    (error : Option RuntimeErrorInfo) : Prop :=
  ∃ response, files.node (resolvePath path) = some (.file (codec.encodeStatus response)) ∧
    response.status = status ∧ response.error = error

theorem Host.persistLatestResult_ok {codec : Codec β} {now : Timestamp} {taskId : TaskId}
    {host : Host β} {files' : FileTree β}
    (h : host.persistLatestResult codec now taskId = (files', .ok ())) :
    ∃ row, host.db.tasks.find taskId = some row ∧
      codec.Snapshot files' row.resultPath row.status row.error := by
  unfold persistLatestResult at h
  split at h
  · cases h
  rename_i row hrow
  split at h
  · cases h
  rename_i response hresponse
  obtain ⟨_, _, _, _, hwritten⟩ := FileWork.writeJsonFile_ok h
  obtain ⟨hstatus, herror⟩ := Codec.buildStatusResponse_ok hresponse
  refine ⟨row, (host.db.getTask_eq_ok_iff _ _).mp hrow, response, ?_, hstatus, herror⟩
  rw [hwritten, if_pos rfl]

/-- The actors that end tasks. -/
inductive Actor
  | kill (call : KillCall)
  | dispatch (dispatcher : Dispatcher)
  | recover (recovery : Recovery)
  | shim (shim : Shim)

/-- What the environment answers in a step, and the disk that a workload leaves
behind while its shim makes the step. -/
structure Answers (β : Type) where
  now : Timestamp
  signalError : Option AppError
  outcome : SpawnOutcome
  alive : ℕ → Bool
  choice : ShimChoice
  disk : Option (FileTree β)

namespace Actor

/-- The cycle, or the pass, is at work on the tasks it has listed. -/
def inCycle : Dispatcher → Bool
  | .idle | .listing _ => false
  | _ => true

def inPass : Recovery → Bool
  | .listing => false
  | _ => true

def move (svc : RuntimeService) (a : Answers β) : Actor → Option (Move Actor)
  | kill call => (call.move a.signalError).map (Move.map kill)
  | dispatch d => if inCycle d then some ((d.move svc a.now a.outcome).map dispatch) else none
  | recover r => if inPass r then (r.move a.now a.alive).map (Move.map recover) else none
  | shim s => (s.move svc.settings.terminationGraceMs a.now a.choice).map (Move.map shim)

/-- The task whose result file the actor writes next. -/
def persisting : Actor → Option TaskId
  | kill _ => none
  | dispatch (.persisting _ taskId _) => some taskId
  | dispatch _ => none
  | recover (.persisting taskId _) => some taskId
  | recover _ => none
  | shim s =>
    match s.state with
    | .persisting => some s.taskId
    | _ => none

/-- The disk at the end of a step without file work of the server. -/
def leaves (a : Answers β) (files : FileTree β) : Actor → FileTree β
  | shim _ => a.disk.getD files
  | _ => files

/-- The operation that starts here: a kill, the treatment of one listed task by
the cycle or by the recovery pass, or a shim. -/
def task : Actor → Option TaskId
  | kill call => some call.taskId
  | dispatch (.scanning _ (task :: _)) => some task.taskId
  | dispatch _ => none
  | recover (.scanning (task :: _)) => some task.taskId
  | recover _ => none
  | shim s => some s.taskId

/-- The operation has returned successfully. -/
def returned (start actor : Actor) : Bool :=
  match start, actor with
  | kill _, kill call =>
    match call.state with
    | .returned (.ok _) => true
    | _ => false
  | dispatch (.scanning _ (_ :: rest)), dispatch (.scanning _ rest') => rest'.length = rest.length
  | recover (.scanning (_ :: rest)), recover (.scanning rest') => rest'.length = rest.length
  | shim _, shim s =>
    match s.state with
    | .exited (.ok ()) => true
    | _ => false
  | _, _ => false

end Actor

/-- The actor moves alone; no call fails, but file work may. -/
def Host.step (svc : RuntimeService) (codec : Codec β) (s : Host β × Actor) (a : Answers β) :
    Option (Host β × Actor) :=
  (s.2.move svc a).map (fun m =>
    match s.2.persisting with
    | some taskId =>
      match s.1.persistLatestResult codec a.now taskId with
      | (files, .ok ()) => ({ s.1 with files }, m.ok s.1.db)
      | (files, .error e) => ({ s.1 with files }, m.err e)
    | none =>
      let (db, actor) := m.run a.now none s.1.db
      (⟨db, s.2.leaves a s.1.files⟩, actor))

def TaskWrite.ends : TaskWrite → Bool
  | cancelAcceptedTask _ | completeTask _ => true
  | _ => false

theorem TaskWrite.effect_live {w : TaskWrite} (h : w.ends = false) {row : TaskRecord}
    (hlive : row.status.isTerminal = false) (now : Timestamp) :
    (w.effect now row).status.isTerminal = false := by
  cases w with
  | cancelAcceptedTask _ => cases h
  | completeTask _ => cases h
  | markStarted _ _ _ => rfl
  | markDispatched _ =>
    simp only [effect, TaskRecord.setDispatched]
    split
    · rfl
    · exact hlive
  | releaseResources _ =>
    simp only [effect]
    split <;> exact hlive
  | markRecovered =>
    simp only [effect, TaskRecord.setRecovered]
    split <;> exact hlive
  | reserveResources _ _ => exact hlive
  | setCancelRequested => exact hlive
  | markTimeoutTriggered => exact hlive

/-- If the task ends in this write, the actor persists it next. -/
theorem persisting_of_write {db db' : Db} {now : Timestamp} {taskId j : TaskId} {w : TaskWrite}
    {actor' : Actor}
    (hlive : ∀ row, db.tasks.find taskId = some row → row.status.isTerminal = false)
    (hrun : w.run now j db = .ok db') (hends : w.ends = true → actor'.persisting = some j) :
    ∀ row', db'.tasks.find taskId = some row' → row'.status.isTerminal = true →
      actor'.persisting = some taskId := by
  intro row' hrow' hterminal
  rw [Db.find_write hrun] at hrow'
  by_cases hj : taskId = j
  · subst hj
    rw [if_pos rfl] at hrow'
    obtain ⟨row, hrow, rfl⟩ := Option.map_eq_some_iff.mp hrow'
    apply hends
    by_contra hkeeps
    rw [TaskWrite.effect_live (by simpa using hkeeps) (hlive row hrow)] at hterminal
    cases hterminal
  · rw [if_neg hj] at hrow'
    rw [hlive row' hrow'] at hterminal
    cases hterminal

theorem persisting_of_same {db : Db} {taskId : TaskId} {actor' : Actor}
    (hlive : ∀ row, db.tasks.find taskId = some row → row.status.isTerminal = false) :
    ∀ row', db.tasks.find taskId = some row' → row'.status.isTerminal = true →
      actor'.persisting = some taskId := by
  intro row' hrow' hterminal
  rw [hlive row' hrow'] at hterminal
  cases hterminal

namespace Actor

/-- The actor is still in the operation, or in its failure. -/
inductive Inside : Actor → Actor → Prop
  | cycleHead {totals totals' task rest} : Inside (dispatch (.scanning totals (task :: rest)))
      (dispatch (.scanning totals' (task :: rest)))
  | cycle {totals task} (d : Dispatcher) :
      Inside (dispatch (.scanning totals (task :: d.pending))) (dispatch d)
  | cycleFailed {totals task rest} :
      Inside (dispatch (.scanning totals (task :: rest))) (dispatch .idle)
  | passHead {task rest} :
      Inside (recover (.scanning (task :: rest))) (recover (.scanning (task :: rest)))
  | pass {task} (r : Recovery) : Inside (recover (.scanning (task :: r.pending))) (recover r)
  | passFailed {task rest} (e : AppError) :
      Inside (recover (.scanning (task :: rest))) (recover (.failed e))
  | shim {s s' : Shim} (hid : s'.taskId = s.taskId) : Inside (shim s) (shim s')

/-- The actor makes no further step of the operation. -/
def Stuck (svc : RuntimeService) (actor : Actor) : Prop :=
  ∀ (β : Type) (a : Answers β), actor.move svc a = none

end Actor

/-- Once the task has ended, the actor is about to write its result, has failed to
do so, or has returned with the result written. -/
structure Host.Progress (svc : RuntimeService) (codec : Codec β) (start : Actor) (taskId : TaskId)
    (s : Host β × Actor) : Prop where
  inside : start.Inside s.2
  saved : ∀ row, s.1.db.tasks.find taskId = some row → row.status.isTerminal = true →
    s.2.persisting = some taskId ∨ (s.2.Stuck svc ∧ start.returned s.2 = false) ∨
      (start.returned s.2 = true ∧
        codec.Snapshot s.1.files row.resultPath row.status row.error)

section Steps

variable {svc : RuntimeService} {now : Timestamp} {db db' : Db} {committed : Option StoreCall}
  {taskId : TaskId}

theorem persisting_of_dispatch {outcome : SpawnOutcome} {d d' : Dispatcher}
    (hlive : ∀ row, db.tasks.find taskId = some row → row.status.isTerminal = false)
    (h : DispatchStep svc now outcome db committed db' d d') :
    ∀ row', db'.tasks.find taskId = some row' → row'.status.isTerminal = true →
      (Actor.dispatch d').persisting = some taskId := by
  cases h with
  | cancelled hrun => exact persisting_of_write hlive hrun (fun _ => rfl)
  | failed hrun => exact persisting_of_write hlive hrun (fun _ => rfl)
  | reserved _ hrun => exact persisting_of_write hlive hrun (fun hends => by cases hends)
  | dispatched hrun => exact persisting_of_write hlive hrun (fun hends => by cases hends)
  | _ => exact persisting_of_same hlive

theorem persisting_of_recover {alive : ℕ → Bool} {r r' : Recovery}
    (hlive : ∀ row, db.tasks.find taskId = some row → row.status.isTerminal = false)
    (h : RecoverStep now alive db committed db' r r') :
    ∀ row', db'.tasks.find taskId = some row' → row'.status.isTerminal = true →
      (Actor.recover r').persisting = some taskId := by
  cases h with
  | lost _ _ hrun => exact persisting_of_write hlive hrun (fun _ => rfl)
  | released _ _ hrun => exact persisting_of_write hlive hrun (fun hends => by cases hends)
  | reserved _ _ _ hrun => exact persisting_of_write hlive hrun (fun hends => by cases hends)
  | kept _ _ _ hrun => exact persisting_of_write hlive hrun (fun hends => by cases hends)
  | recovered hrun => exact persisting_of_write hlive hrun (fun hends => by cases hends)
  | _ => exact persisting_of_same hlive

theorem persisting_of_shim {failure : Option AppError} {choice : ShimChoice} {s s' : Shim}
    (hlive : ∀ row, db.tasks.find taskId = some row → row.status.isTerminal = false)
    (h : ShimStep now failure choice db s committed db' s') :
    ∀ row', db'.tasks.find taskId = some row' → row'.status.isTerminal = true →
      (Actor.shim s').persisting = some taskId := by
  cases h with
  | completed _ hrun => exact persisting_of_write hlive hrun (fun _ => rfl)
  | started _ _ _ hrun => exact persisting_of_write hlive hrun (fun hends => by cases hends)
  | timedOut _ _ _ hrun => exact persisting_of_write hlive hrun (fun hends => by cases hends)
  | _ => exact persisting_of_same hlive

theorem inside_of_dispatch {start : Actor} {outcome : SpawnOutcome} {d d' : Dispatcher}
    (hbusy : Actor.inCycle d = true) (hinside : start.Inside (.dispatch d))
    (hopen : start.returned (.dispatch d) = false)
    (h : DispatchStep svc now outcome db committed db' d d') : start.Inside (.dispatch d') := by
  cases hinside with
  | cycleFailed => cases hbusy
  | cycleHead =>
    cases h with
    | stop _ => exact .cycleFailed
    | skipped _ => exact .cycle (.scanning _ _)
    | cancelled _ => exact .cycle (.persisting _ _ _)
    | reserved _ _ => exact .cycle (.launching _ _ _ _)
  | cycle _ =>
    cases h with
    | stop _ => exact .cycleFailed
    | started _ => cases hbusy
    | listed _ => cases hbusy
    | skipped _ => simp [Actor.returned, Dispatcher.pending] at hopen
    | cancelled _ => simp [Actor.returned, Dispatcher.pending] at hopen
    | reserved _ _ => simp [Actor.returned, Dispatcher.pending] at hopen
    | spawned _ _ => exact .cycle (.dispatching _ _ _ _)
    | notSpawned _ _ => exact .cycle (.failing _ _ _ _ _)
    | dispatched _ => exact .cycle (.scanning _ _)
    | failed _ => exact .cycle (.persisting _ _ _)
    | persisted _ => exact .cycle (.scanning _ _)

theorem inside_of_recover {start : Actor} {alive : ℕ → Bool} {r r' : Recovery}
    (hbusy : Actor.inPass r = true) (hinside : start.Inside (.recover r))
    (hopen : start.returned (.recover r) = false)
    (h : RecoverStep now alive db committed db' r r') : start.Inside (.recover r') := by
  cases hinside with
  | passFailed e =>
    cases h with
    | stop e' _ => exact .passFailed e'
  | passHead =>
    cases h with
    | stop e _ => exact .passFailed e
    | skipped _ _ => exact .pass (.scanning _)
    | released _ _ _ => exact .pass (.scanning _)
    | reserved _ _ _ _ => exact .pass (.recovering _ _)
    | kept _ _ _ _ => exact .pass (.scanning _)
    | lost _ _ _ => exact .pass (.persisting _ _)
  | pass _ =>
    cases h with
    | stop e _ => exact .passFailed e
    | listed _ => cases hbusy
    | recovered _ => exact .pass (.scanning _)
    | persisted _ => exact .pass (.scanning _)
    | finished _ => simp [Actor.returned, Recovery.pending] at hopen
    | skipped _ _ => simp [Actor.returned, Recovery.pending] at hopen
    | released _ _ _ => simp [Actor.returned, Recovery.pending] at hopen
    | reserved _ _ _ _ => simp [Actor.returned, Recovery.pending] at hopen
    | kept _ _ _ _ => simp [Actor.returned, Recovery.pending] at hopen
    | lost _ _ _ => simp [Actor.returned, Recovery.pending] at hopen

theorem stuck_idle (svc : RuntimeService) : (Actor.dispatch .idle).Stuck svc := fun _ _ => rfl

theorem stuck_failed (svc : RuntimeService) (e : AppError) :
    (Actor.recover (.failed e)).Stuck svc := fun _ _ => rfl

theorem stuck_exited (svc : RuntimeService) (s : Shim) (result : AppResult Unit) :
    (Actor.shim (s.exit result)).Stuck svc := fun _ _ => rfl

/-- The step that writes a result file leads to the end of the operation. -/
theorem persist_step {start : Actor} {host : Host β} {actor : Actor} {a : Answers β}
    {m : Move Actor} {j : TaskId} (hinside : start.Inside actor)
    (hmove : actor.move svc a = some m) (hj : actor.persisting = some j) :
    (∀ row, host.db.tasks.find j = some row →
      start.Inside (m.ok host.db) ∧ start.returned (m.ok host.db) = true) ∧
    ∀ e, start.Inside (m.err e) ∧ (m.err e).Stuck svc ∧ start.returned (m.err e) = false := by
  have hget : ∀ row, host.db.tasks.find j = some row → host.db.getTask j = .ok row :=
    fun row hrow => (host.db.getTask_eq_ok_iff _ _).mpr hrow
  cases hinside with
  | cycleHead => cases hj
  | cycleFailed => cases hj
  | passHead => cases hj
  | passFailed _ => cases hj
  | cycle d =>
    cases d with
    | persisting totals' taskId' rest' =>
      cases hj
      cases hmove
      constructor
      · intro row hrow
        simp only [Move.map, Dispatcher.move, Move.query, hget row hrow]
        exact ⟨.cycle (.scanning totals' rest'), by simp [Actor.returned, Dispatcher.pending]⟩
      · intro e
        exact ⟨.cycleFailed, stuck_idle svc, rfl⟩
    | _ => cases hj
  | pass r =>
    cases r with
    | persisting taskId' rest' =>
      cases hj
      cases hmove
      constructor
      · intro row hrow
        simp only [Move.map, Move.query, hget row hrow]
        exact ⟨.pass (.scanning rest'), by simp [Actor.returned, Recovery.pending]⟩
      · intro e
        exact ⟨.passFailed e, stuck_failed svc e, rfl⟩
    | _ => cases hj
  | @shim s s' hid =>
    simp only [Actor.persisting] at hj
    split at hj
    · rename_i hstate
      cases hj
      cases hchoice : a.choice <;>
        simp only [Actor.move, Shim.move, hstate, hchoice, Option.map_none, Option.map_some,
          reduceCtorEq, Option.some.injEq] at hmove
      subst hmove
      constructor
      · intro row hrow
        simp only [Move.map, Move.query, hget row hrow]
        exact ⟨.shim hid, rfl⟩
      · intro e
        exact ⟨.shim hid, stuck_exited svc s' _, rfl⟩
    · cases hj

/-- A step without file work keeps the actor in the operation and, if it ends the
task, leads to the state that persists the result. -/
theorem inside_step {start actor actor' : Actor} {a : Answers β} {m : Move Actor}
    (hinside : start.Inside actor) (hopen : start.returned actor = false)
    (hlive : ∀ row, db.tasks.find taskId = some row → row.status.isTerminal = false)
    (hmove : actor.move svc a = some m)
    (hout : Move.Outcome m a.now none db committed db' actor') :
    start.Inside actor' ∧ ∀ row', db'.tasks.find taskId = some row' →
      row'.status.isTerminal = true → actor'.persisting = some taskId := by
  cases actor with
  | kill call => cases hinside
  | dispatch d =>
    simp only [Actor.move] at hmove
    split at hmove
    · rename_i hbusy
      cases hmove
      obtain ⟨d', hmoved, rfl⟩ := Move.outcome_map hout
      have hstep := Dispatcher.move_cases hmoved
      exact ⟨inside_of_dispatch hbusy hinside hopen hstep, persisting_of_dispatch hlive hstep⟩
    · cases hmove
  | recover r =>
    simp only [Actor.move] at hmove
    split at hmove
    · rename_i hbusy
      obtain ⟨m', hm', rfl⟩ := Option.map_eq_some_iff.mp hmove
      obtain ⟨r', hmoved, rfl⟩ := Move.outcome_map hout
      have hstep := Recovery.move_cases hm' hmoved
      exact ⟨inside_of_recover hbusy hinside hopen hstep, persisting_of_recover hlive hstep⟩
    · cases hmove
  | shim s =>
    obtain ⟨m', hm', rfl⟩ := Option.map_eq_some_iff.mp hmove
    obtain ⟨s', hmoved, rfl⟩ := Move.outcome_map hout
    have hstep := Shim.move_cases hm' hmoved
    refine ⟨?_, persisting_of_shim hlive hstep⟩
    cases hinside with
    | shim hid => exact .shim (hstep.taskId.trans hid)

theorem progress_step {codec : Codec β} {start : Actor} {s s' : Host β × Actor} {a : Answers β}
    (hprogress : Host.Progress svc codec start taskId s) (hopen : start.returned s.2 = false)
    (h : Host.step svc codec s a = some s') : Host.Progress svc codec start taskId s' := by
  obtain ⟨m, hmove, hs'⟩ := Option.map_eq_some_iff.mp h
  have hlive : s.2.persisting ≠ some taskId → ∀ row, s.1.db.tasks.find taskId = some row →
      row.status.isTerminal = false := by
    intro hnot row hrow
    by_contra hterminal
    rcases hprogress.saved row hrow (by simpa using hterminal) with hnow | ⟨hstuck, _⟩ | ⟨hdone, _⟩
    · exact hnot hnow
    · rw [hstuck β a] at hmove
      cases hmove
    · rw [hopen] at hdone
      cases hdone
  cases hpersisting : s.2.persisting with
  | none =>
    simp only [hpersisting] at hs'
    subst hs'
    have hnot : s.2.persisting ≠ some taskId := by
      rw [hpersisting]
      simp
    have hout := Move.outcome_run m a.now none s.1.db
    obtain ⟨hinside, hsaved⟩ := inside_step hprogress.inside hopen (hlive hnot) hmove hout
    exact ⟨hinside, fun row hrow hterminal => .inl (hsaved row hrow hterminal)⟩
  | some j =>
    have hpersist := @persist_step _ svc _ s.1 _ _ _ _ hprogress.inside hmove hpersisting
    obtain ⟨hok, herr⟩ := hpersist
    simp only [hpersisting] at hs'
    split at hs'
    · rename_i files hfiles
      subst hs'
      obtain ⟨row, hrow, hsnapshot⟩ := Host.persistLatestResult_ok hfiles
      obtain ⟨hinside, hreturned⟩ := hok row hrow
      refine ⟨hinside, fun row' hrow' hterminal => .inr (.inr ⟨hreturned, ?_⟩)⟩
      by_cases hj : j = taskId
      · subst hj
        rw [hrow] at hrow'
        cases hrow'
        exact hsnapshot
      · have hnot : s.2.persisting ≠ some taskId := by
          rw [hpersisting]
          exact fun heq => hj (Option.some.inj heq)
        rw [hlive hnot row' hrow'] at hterminal
        cases hterminal
    · rename_i files e hfiles
      subst hs'
      obtain ⟨hinside, hstuck, hopen'⟩ := herr e
      exact ⟨hinside, fun _ _ _ => .inr (.inl ⟨hstuck, hopen'⟩)⟩

end Steps

/-- A kill writes no file, and the one status it can end a task with is its own. -/
structure Host.KillProgress (host : Host β) (row : TaskRecord) (taskId : TaskId)
    (s : Host β × Actor) : Prop where
  actor : ∃ call : KillCall, s.2 = .kill call ∧ call.taskId = taskId
  files : s.1.files = host.files
  row : ∀ row', s.1.db.tasks.find taskId = some row' → row'.resultPath = row.resultPath ∧
    (row'.status.isTerminal = true →
      row'.status = .cancelled ∧ row'.error = some cancelledBeforeExecution)

section Kill

variable {svc : RuntimeService} {codec : Codec β} {taskId : TaskId} {row : TaskRecord}
  {host : Host β}

private theorem killProgress_row {db db' : Db} {now : Timestamp} {w : TaskWrite}
    (hw : w = .setCancelRequested ∨ w = .cancelAcceptedTask cancelledBeforeExecution)
    (hall : ∀ row', db.tasks.find taskId = some row' → row'.resultPath = row.resultPath ∧
      (row'.status.isTerminal = true →
        row'.status = .cancelled ∧ row'.error = some cancelledBeforeExecution))
    (hrun : w.run now taskId db = .ok db') :
    ∀ row', db'.tasks.find taskId = some row' → row'.resultPath = row.resultPath ∧
      (row'.status.isTerminal = true →
        row'.status = .cancelled ∧ row'.error = some cancelledBeforeExecution) := by
  intro row' hrow'
  rw [Db.find_write hrun, if_pos rfl] at hrow'
  obtain ⟨old, hold, rfl⟩ := Option.map_eq_some_iff.mp hrow'
  obtain ⟨hpath, hended⟩ := hall old hold
  refine ⟨(w.effect_sameOrigin now old).resultPath.trans hpath, ?_⟩
  rcases hw with rfl | rfl
  · exact hended
  · simp only [TaskWrite.effect, TaskRecord.setCancelled]
    split
    · exact fun _ => ⟨rfl, rfl⟩
    · exact hended

theorem killProgress_step {s s' : Host β × Actor} {a : Answers β}
    (hprogress : host.KillProgress row taskId s) (h : Host.step svc codec s a = some s') :
    host.KillProgress row taskId s' := by
  obtain ⟨call, hactor, hid⟩ := hprogress.actor
  obtain ⟨m, hmove, hs'⟩ := Option.map_eq_some_iff.mp h
  have hpersisting : s.2.persisting = none := by rw [hactor]; rfl
  simp only [hpersisting] at hs'
  subst hs'
  rw [hactor] at hmove
  obtain ⟨m', hm', rfl⟩ := Option.map_eq_some_iff.mp hmove
  obtain ⟨call', hmoved, hcall'⟩ := Move.outcome_map
    (Move.outcome_run (m'.map Actor.kill) a.now none s.1.db)
  have hstep := KillCall.move_cases hm' hmoved
  have hfiles : s.2.leaves a s.1.files = host.files := by
    rw [hactor]
    exact hprogress.files
  have hall := hprogress.row
  generalize (m'.map Actor.kill).committed a.now none s.1.db = committed at hstep
  generalize ((m'.map Actor.kill).run a.now none s.1.db).1 = db' at hstep ⊢
  cases hstep with
  | flagged _ hrun =>
    rw [hid] at hrun
    exact ⟨⟨_, hcall', hid⟩, hfiles, killProgress_row (.inl rfl) hall hrun⟩
  | cancelled _ hrun =>
    rw [hid] at hrun
    exact ⟨⟨_, hcall', hid⟩, hfiles, killProgress_row (.inr rfl) hall hrun⟩
  | authorized _ _ _ =>
    refine ⟨⟨_, hcall', ?_⟩, hfiles, hall⟩
    unfold KillCall.authorize
    split
    · exact hid
    split <;> exact hid
  | requested _ _ _ _ => exact ⟨⟨_, hcall', hid⟩, hfiles, hall⟩
  | failed _ _ _ => exact ⟨⟨_, hcall', hid⟩, hfiles, hall⟩
  | signalled _ _ => exact ⟨⟨_, hcall', hid⟩, hfiles, hall⟩
  | responded _ _ _ => exact ⟨⟨_, hcall', hid⟩, hfiles, hall⟩

end Kill

def Actor.isKill : Actor → Bool
  | kill _ => true
  | _ => false

theorem Actor.not_persisting_of_returned {start actor : Actor}
    (h : start.returned actor = true) : actor.persisting = none := by
  cases actor with
  | kill call => rfl
  | dispatch d =>
    cases d with
    | persisting totals taskId rest =>
      unfold returned at h
      split at h <;> simp_all
    | _ => rfl
  | recover r =>
    cases r with
    | persisting taskId rest =>
      unfold returned at h
      split at h <;> simp_all
    | _ => rfl
  | shim s =>
    unfold persisting
    simp only
    split
    · rename_i hstate
      unfold returned at h
      split at h <;> simp_all
    · rfl

theorem Actor.inside_self {start : Actor} {taskId : TaskId} (htask : start.task = some taskId)
    (hkill : start.isKill = false) : start.Inside start := by
  cases start with
  | kill call => cases hkill
  | dispatch d =>
    cases d with
    | scanning totals tasks =>
      cases tasks with
      | nil => cases htask
      | cons task rest => exact .cycleHead
    | _ => cases htask
  | recover r =>
    cases r with
    | scanning tasks =>
      cases tasks with
      | nil => cases htask
      | cons task rest => exact .passHead
    | _ => cases htask
  | shim s => exact .shim rfl

/-- Whatever moves a task into a terminal status leaves a snapshot of the row at
its result path, except `kill_task`, which leaves what was there. -/
theorem result_saved_iff {svc : RuntimeService} {codec : Codec β} {start final : Actor}
    {host host' : Host β} {trace : List ((Host β × Actor) × Answers β)} {taskId : TaskId}
    {row row' : TaskRecord}
    (h : Runs.Run (Host.step svc codec) (host, start) trace (host', final))
    (hopen : ∀ x ∈ trace, start.returned x.1.2 = false) (hreturned : start.returned final = true)
    (htask : start.task = some taskId) (hrow : host.db.tasks.find taskId = some row)
    (hlive : row.status.isTerminal = false) (hrow' : host'.db.tasks.find taskId = some row')
    (hterminal : row'.status.isTerminal = true) :
    codec.Snapshot host'.files row'.resultPath row'.status row'.error ↔
      (start.isKill = true →
        codec.Snapshot host.files row.resultPath .cancelled (some cancelledBeforeExecution)) := by
  cases hkill : start.isKill with
  | true =>
    have hfirst : host.KillProgress row taskId (host, start) := by
      refine ⟨?_, rfl, ?_⟩
      · cases start with
        | kill call => exact ⟨call, rfl, Option.some.inj htask⟩
        | _ => cases hkill
      · intro row₀ hrow₀
        rw [hrow] at hrow₀
        cases hrow₀
        refine ⟨rfl, fun hended => ?_⟩
        rw [hlive] at hended
        cases hended
    have hlast := h.invariant (G := fun _ _ => True) hfirst
      (fun _ _ _ hprogress _ hstep => killProgress_step hprogress hstep) (fun _ _ => trivial)
    obtain ⟨hpath, hended⟩ := hlast.row row' hrow'
    obtain ⟨hstatus, herror⟩ := hended hterminal
    rw [hpath, hstatus, herror, hlast.files]
    simp
  | false =>
    refine iff_of_true ?_ (by simp)
    have hinside := Actor.inside_self htask hkill
    have hfirst : Host.Progress svc codec start taskId (host, start) := by
      refine ⟨hinside, fun row₀ hrow₀ hended => ?_⟩
      rw [hrow] at hrow₀
      cases hrow₀
      rw [hlive] at hended
      cases hended
    have hlast := h.invariant (G := fun s _ => start.returned s.2 = false) hfirst
      (fun _ _ _ hprogress hstill hstep => progress_step hprogress hstill hstep) hopen
    rcases hlast.saved row' hrow' hterminal with hnow | ⟨_, hstill⟩ | ⟨_, hsnapshot⟩
    · rw [Actor.not_persisting_of_returned hreturned] at hnow
      cases hnow
    · rw [hreturned] at hstill
      cases hstill
    · exact hsnapshot

/-- A serialiser that keeps the fields the result is about. -/
def plainCodec : Codec Char where
  decodeText := String.ofList
  encodeStatus response :=
    (if response.status = .cancelled then "cancelled" else "other").toList ++
      ((response.error.map RuntimeErrorInfo.message).getD "").toList

def oneTaskHost : Host Char :=
  ((smallService ⟨1, none, none⟩).submitTask (fun _ => []) 0 "" (commandRequest "a") Host.fresh).1

private theorem oneTaskHost_live :
    ∃ row, oneTaskHost.db.tasks.find "a" = some row ∧ row.status.isTerminal = false := by
  have hexec : (oneTaskHost.db.tasks.find "a").any (fun row => !row.status.isTerminal) =
      true := by decide +kernel
  obtain ⟨row, hrow, hlive⟩ := (Option.any_eq_true _ _).mp hexec
  exact ⟨row, hrow, by simpa using hlive⟩

/-- Steps at time zero on a host that cannot spawn a shim. -/
def plainAnswers (n : ℕ) : List (Answers Char) :=
  List.replicate n ⟨0, none, .spawnFailed "no memory", fun _ => false, .proceed, none⟩

theorem result_saved_of_failed_spawn :
    ∃ totals trace host' final row',
      Runs.Run (Host.step (smallService ⟨1, none, none⟩) plainCodec)
        (oneTaskHost, .dispatch (.scanning totals (oneTaskHost.db.listAccepted 8))) trace
        (host', final) ∧
      trace.map Prod.snd = plainAnswers 4 ∧ host'.db.tasks.find "a" = some row' ∧
      row'.status = .failed ∧
      plainCodec.Snapshot host'.files row'.resultPath row'.status row'.error := by
  let svc := smallService ⟨1, none, none⟩
  let totals := CycleTotals.ofActive svc.ledger []
  let start := Actor.dispatch (.scanning totals (oneTaskHost.db.listAccepted 8))
  have hexec : (Runs.exec
      (Runs.checked (fun s _ => !(start.returned s.2)) (Host.step svc plainCodec))
      (oneTaskHost, start) (plainAnswers 4)).any (fun last => start.returned last.2 &&
        (last.1.db.tasks.find "a").any (fun row => decide (row.status = .failed))) = true := by
    decide +kernel
  obtain ⟨trace, ⟨host', final⟩, hrun, hlabels, hopen, htest⟩ := Runs.exists_run_of_exec hexec
  obtain ⟨hreturned, hrow'⟩ := Bool.and_eq_true_iff.mp htest
  obtain ⟨row', hfind', hfailed⟩ := (Option.any_eq_true _ _).mp hrow'
  have hstatus : row'.status = .failed := of_decide_eq_true hfailed
  obtain ⟨row, hfind, hlive⟩ := oneTaskHost_live
  refine ⟨totals, trace, host', final, row', hrun, hlabels, hfind', hstatus,
    (result_saved_iff hrun ?_ hreturned (by decide +kernel) hfind hlive hfind'
      ?_).mpr ?_⟩
  · intro x hx
    simpa using hopen x hx
  · rw [hstatus]
    rfl
  · intro hkill
    cases hkill

/-- A kill that ends an accepted task returns without a result file. -/
theorem killed_task_without_result :
    ¬ ∀ (svc : RuntimeService) (codec : Codec Char) (start final : Actor) (host host' : Host Char)
      (trace : List ((Host Char × Actor) × Answers Char)) (taskId : TaskId)
      (row row' : TaskRecord),
      Runs.Run (Host.step svc codec) (host, start) trace (host', final) →
      (∀ x ∈ trace, start.returned x.1.2 = false) → start.returned final = true →
      start.task = some taskId → host.db.tasks.find taskId = some row →
      row.status.isTerminal = false → host'.db.tasks.find taskId = some row' →
      row'.status.isTerminal = true →
      codec.Snapshot host'.files row'.resultPath row'.status row'.error := by
  intro hall
  let svc := smallService ⟨1, none, none⟩
  let start := Actor.kill { taskId := "a", callerOwner := none }
  have hexec : (Runs.exec
      (Runs.checked (fun s _ => !(start.returned s.2)) (Host.step svc plainCodec))
      (oneTaskHost, start) (plainAnswers 5)).any (fun last => start.returned last.2 &&
        (last.1.db.tasks.find "a").any (fun row => row.status.isTerminal &&
          (last.1.files.node (resolvePath row.resultPath)).isNone)) = true := by
    decide +kernel
  obtain ⟨trace, ⟨host', final⟩, hrun, _, hopen, htest⟩ := Runs.exists_run_of_exec hexec
  obtain ⟨hreturned, hrow'⟩ := Bool.and_eq_true_iff.mp htest
  obtain ⟨row', hfind', hended⟩ := (Option.any_eq_true _ _).mp hrow'
  obtain ⟨hterminal, hnone⟩ := Bool.and_eq_true_iff.mp hended
  obtain ⟨row, hfind, hlive⟩ := oneTaskHost_live
  obtain ⟨response, hnode, _⟩ := hall svc plainCodec start final oneTaskHost host' trace "a" row
    row' hrun (fun x hx => by simpa using hopen x hx) hreturned rfl hfind hlive hfind' hterminal
  have habsent : host'.files.node (resolvePath row'.resultPath) = none := by simpa using hnone
  rw [habsent] at hnode
  cases hnode

end ExecgoRuntime
