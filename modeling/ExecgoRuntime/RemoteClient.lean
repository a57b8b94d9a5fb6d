import ExecgoRuntime.Durability
import ExecgoRuntime.Relay
import ExecgoRuntime.Results

/-!
The command line client (`runtime.rs`, `submit_remote` to `run_remote`): it reads
a request, passes it on to the server, and asks for the task until it has ended.
Between two of its requests the system takes any steps, those of other clients
and crashes of the server included.
-/
namespace ExecgoRuntime

variable {β : Type}

/-- `status_code`, as it is shown. -/
def AppError.statusCode : AppError → String
  | invalidInput _ => "400 Bad Request"
  | notFound _ => "404 Not Found"
  | queueFull => "429 Too Many Requests"
  | conflict _ => "409 Conflict"
  | launchFailed _ | sandboxSetup _ | unsupportedCapability _ | insufficientResources _ =>
    "400 Bad Request"
  | permissionDenied _ => "403 Forbidden"
  | io _ | sqlite _ | json _ | internal _ => "500 Internal Server Error"

/-- How the client ends. It is `misrouted` if the address of its task does not lead to
a task. -/
inductive RemoteEnd
  | notLoaded (e : AppError)
  | rejected (rejection : BodyRejection)
  | refused (e : AppError)
  | misrouted (taskId : TaskId)
  | unanswered (taskId : TaskId) (e : AppError)
  | printed (payload : TaskStatusResponse)
  | timedOut (taskId : TaskId)
  | disconnected (message : String)

/-- What `run` returns, with the text of its error. -/
def RemoteEnd.result : RemoteEnd → Except String Unit
  | notLoaded e => .error e.toMessage
  | rejected .tooLarge =>
    .error (AppError.internal "request failed with status 413 Payload Too Large").toMessage
  | rejected (.unreadable status) =>
    .error (AppError.internal ("request failed with status " ++ status)).toMessage
  | misrouted _ => .error (AppError.internal "request failed with status 404 Not Found").toMessage
  | refused e | unanswered _ e =>
    .error (AppError.internal ("request failed with status " ++ e.statusCode)).toMessage
  | printed _ => .ok ()
  | timedOut _ => .error (AppError.internal "wait timeout exceeded").toMessage
  | disconnected message => .error ("http error: " ++ message)

theorem RemoteEnd.printed_of_result {outcome : RemoteEnd} (h : outcome.result = .ok ()) :
    ∃ payload, outcome = .printed payload := by
  cases outcome with
  | printed payload => exact ⟨payload, rfl⟩
  | rejected rejection => cases rejection <;> cases h
  | _ => cases h

/-- `run_remote` between two of its requests; `i` is the number of its submission
among those of the server. -/
inductive RemoteClient
  | loaded (request : SubmitTaskRequest)
  | submitting (request : SubmitTaskRequest) (i : ℕ)
  | waiting (taskId : TaskId)
  | ended (outcome : RemoteEnd)

namespace RemoteClient

def start (host : ClientHost) (args : RemoteTaskArgs) : RemoteClient :=
  match host.loadRequest args with
  | .ok request => loaded request
  | .error e => ended (.notLoaded e)

/-- A submission that waits for its answer is lost with the server process. -/
def afterSystem (procs : Procs) : RemoteClient → RemoteClient
  | submitting request i =>
    match procs.server with
    | .serving _ => submitting request i
    | _ => ended (.disconnected "connection closed before message completed")
  | client => client

end RemoteClient

/-- A failing query of `get_task`. -/
inductive StoreFault
  | sqlite (message : String)
  | join (message : String)

def StoreFault.toError : StoreFault → AppError
  | sqlite message => .sqlite message
  | join message => .internal ("spawn_blocking join: " ++ message)

/-- `get_task_status`, with the disk it finds. -/
def World.getTaskStatus (w : World) (codec : Codec β) (now : Timestamp) (files : FileTree β)
    (fault : Option StoreFault) (taskId : TaskId) : AppResult TaskStatusResponse :=
  match fault with
  | some fault => .error fault.toError
  | none => do
    let task ← w.db.getTask taskId
    codec.buildStatusResponse now files task

/-- The system and one client of it. -/
structure Session where
  world : World
  client : RemoteClient

inductive SessionEvent (β : Type)
  | system (e : Event)
  | post (generatedId : TaskId) (now : Timestamp)
  | answer
  | poll (now : Timestamp) (files : FileTree β) (fault : Option StoreFault) (elapsedMs : ℕ)
  | disconnect (message : String)

namespace Session

/-- The step of the system in a step of the session. -/
def systemEvent (host : ClientHost) (server : RequestReader host.text) (s : Session) :
    SessionEvent β → Option Event
  | .system e => some e
  | .post generatedId now =>
    match s.client with
    | .loaded request => (server.extract (host.body request)).toOption.map fun received =>
        { action := .receiveSubmit received generatedId, now }
    | _ => none
  | _ => none

/-- A poll, the client waiting for the task. -/
def poll (args : RemoteTaskArgs) (taskId : TaskId) (elapsedMs : ℕ) :
    AppResult TaskStatusResponse → RemoteClient
  | .error e => .ended (.unanswered taskId e)
  | .ok payload =>
    if payload.status.isTerminal then .ended (.printed payload)
    else if args.timeoutMs.any (fun timeout => decide (timeout ≤ elapsedMs)) then
      .ended (.timedOut taskId)
    else .waiting taskId

def step (svc : RuntimeService) (host : ClientHost) (server : RequestReader host.text)
    (codec : Codec β) (args : RemoteTaskArgs) (s : Session) : SessionEvent β → Option Session
  | .system e => (s.world.step svc e).map fun world =>
      { world, client := s.client.afterSystem world.procs }
  | .post generatedId now =>
    match s.client with
    | .loaded request =>
      match server.extract (host.body request) with
      | .ok received =>
        (s.world.step svc { action := .receiveSubmit received generatedId, now }).map fun world =>
          { world, client := .submitting request s.world.procs.submits.length }
      | .error rejection => some { s with client := .ended (.rejected rejection) }
    | _ => none
  | .answer =>
    match s.client with
    | .submitting _ i =>
      match (s.world.procs.submits[i]?).map SubmitCall.state with
      | some (.returned (.ok response)) => some { s with client := .waiting response.taskId }
      | some (.returned (.error e)) => some { s with client := .ended (.refused e) }
      | _ => none
    | _ => none
  | .poll now files fault elapsedMs =>
    match s.client, s.world.procs.server with
    | .waiting taskId, .serving _ =>
      -- The id is pasted into the address, and the server looks up what it finds there.
      match host.routed taskId with
      | some asked =>
        let status := s.world.getTaskStatus codec now files fault asked
        some { s with client := poll args taskId elapsedMs status }
      | none => some { s with client := .ended (.misrouted taskId) }
    | _, _ => none
  | .disconnect message =>
    match s.client with
    | .ended _ => none
    | _ => some { s with client := .ended (.disconnected message) }

/-- A fresh system, and a client that starts with these arguments. -/
def start (host : ClientHost) (args : RemoteTaskArgs) : Session where
  world := .init
  client := .start host args

abbrev Run (svc : RuntimeService) (host : ClientHost) (server : RequestReader host.text)
    (codec : Codec β) (args : RemoteTaskArgs) (trace : List (Session × SessionEvent β))
    (last : Session) : Prop :=
  Runs.Run (step svc host server codec args) (start host args) trace last

/-- The run of the system inside a run of the session. -/
def systemTrace (host : ClientHost) (server : RequestReader host.text)
    (trace : List (Session × SessionEvent β)) : List (World × Event) :=
  trace.filterMap fun x => (x.1.systemEvent host server x.2).map fun e => (x.1.world, e)

/-- If the client posts its request in this step, the task gets an id of this kind. -/
def PostsNamed (P : TaskId → Prop) (s : Session) : SessionEvent β → Prop
  | .post generatedId _ =>
    ∀ request, s.client = .loaded request → World.Names P request generatedId
  | _ => True

end Session

section Justified

variable (svc : RuntimeService) (host : ClientHost) (codec : Codec β) (args : RemoteTaskArgs)
variable (run : List (World × Event))

/-- The run has inserted the row of the client's request. -/
def Submitted (request : SubmitTaskRequest) (taskId : TaskId) : Prop :=
  ∃ before w e after new, run = before ++ (w, e) :: after ∧
    World.InsertedBy svc before w e ⟨request, taskId⟩ new

/-- The client that loaded its request asks in the state `y` of the run for the task
of its request, whose row was inserted as `original` before the steps `after`. -/
def Asked (taskId : TaskId) (y : World) (original : TaskRecord) (after : List (World × Event)) :
    Prop :=
  ∃ request before w e rest new, host.loadRequest args = .ok request ∧
    run = before ++ (w, e) :: after ++ rest ∧ World.Run svc .init (before ++ (w, e) :: after) y ∧
    World.InsertedBy svc before w e ⟨request, taskId⟩ new ∧ original = new.toRow e.now

/-- The row is that of the client's task, or this was collected after its end. -/
def OwnOrReplaced (original : TaskRecord) (after : List (World × Event)) (row : TaskRecord) :
    Prop :=
  TaskWrite.SameSubmission original row ∨ World.Collected svc original after

/-- What has happened when the client ends in this way. -/
def RemoteEnd.Justified : RemoteEnd → Prop
  | notLoaded e => host.loadRequest args = .error e
  | rejected rejection => rejection = .tooLarge ∧ ∃ request, host.loadRequest args = .ok request ∧
      bodyLimit < (host.body request).utf8ByteSize
  | misrouted _ => False
  | refused _ => ∃ request taskId, host.loadRequest args = .ok request ∧
      ⟨request, taskId⟩ ∈ World.refusals svc run
  | unanswered taskId e => ∃ y original after, Asked svc host args run taskId y original after ∧
      (e = .notFound taskId → World.Collected svc original after)
  | printed payload => ∃ y original after row,
      Asked svc host args run payload.taskId y original after ∧
      y.db.tasks.find payload.taskId = some row ∧
      (∃ now files, codec.buildStatusResponse now files row = .ok payload) ∧
      payload.status.isTerminal = true ∧ OwnOrReplaced svc original after row
  | timedOut taskId => ∃ y original after row, Asked svc host args run taskId y original after ∧
      y.db.tasks.find taskId = some row ∧ row.status.isTerminal = false ∧
      OwnOrReplaced svc original after row
  | disconnected _ => True

def RemoteClient.Justified : RemoteClient → Prop
  | loaded request => host.loadRequest args = .ok request
  | submitting request _ => host.loadRequest args = .ok request
  | waiting taskId => ∃ request, host.loadRequest args = .ok request ∧
      Submitted svc run request taskId ∧ BareId taskId
  | ended outcome => outcome.Justified svc host codec args run

end Justified

section Growth

variable {svc : RuntimeService} {host : ClientHost} {codec : Codec β} {args : RemoteTaskArgs}
variable {run : List (World × Event)}

theorem Submitted.grow {request : SubmitTaskRequest} {taskId : TaskId}
    (h : Submitted svc run request taskId) (more : List (World × Event)) :
    Submitted svc (run ++ more) request taskId := by
  obtain ⟨before, w, e, after, new, rfl, hinserted⟩ := h
  exact ⟨before, w, e, after ++ more, new, by simp, hinserted⟩

theorem Asked.grow {taskId : TaskId} {y : World} {original : TaskRecord}
    {after : List (World × Event)} (h : Asked svc host args run taskId y original after)
    (more : List (World × Event)) : Asked svc host args (run ++ more) taskId y original after := by
  obtain ⟨request, before, w, e, rest, new, hload, rfl, hy, hinserted, horiginal⟩ := h
  exact ⟨request, before, w, e, rest ++ more, new, hload, by simp, hy, hinserted, horiginal⟩

theorem RemoteClient.Justified.grow {client : RemoteClient}
    (h : client.Justified svc host codec args run) (more : List (World × Event)) :
    client.Justified svc host codec args (run ++ more) := by
  cases client with
  | loaded request => exact h
  | submitting request i => exact h
  | waiting taskId =>
    obtain ⟨request, hload, hsubmitted, hbare⟩ := h
    exact ⟨request, hload, hsubmitted.grow more, hbare⟩
  | ended outcome =>
    cases outcome with
    | notLoaded e => exact h
    | rejected rejection => exact h
    | misrouted taskId => exact h
    | refused e =>
      obtain ⟨request, taskId, hload, hrefused⟩ := h
      refine ⟨request, taskId, hload, ?_⟩
      rw [World.refusals, List.filterMap_append]
      exact List.mem_append_left _ hrefused
    | unanswered taskId e =>
      obtain ⟨y, original, after, hasked, hcollected⟩ := h
      exact ⟨y, original, after, hasked.grow more, hcollected⟩
    | printed payload =>
      obtain ⟨y, original, after, row, hasked, hshown⟩ := h
      exact ⟨y, original, after, row, hasked.grow more, hshown⟩
    | timedOut taskId =>
      obtain ⟨y, original, after, row, hasked, hlive⟩ := h
      exact ⟨y, original, after, row, hasked.grow more, hlive⟩
    | disconnected message => exact h

/-- The client asks now: its row is there, or was collected. -/
theorem Submitted.asked {request : SubmitTaskRequest} {taskId : TaskId}
    (hload : host.loadRequest args = .ok request) (h : Submitted svc run request taskId)
    {w : World} (hrun : World.Run svc .init run w) :
    ∃ original after, Asked svc host args run taskId w original after ∧
      ((∃ row, w.db.tasks.find taskId = some row ∧ TaskWrite.SameSubmission original row) ∨
        World.Collected svc original after) := by
  obtain ⟨before, v, e, after, new, rfl, hinserted⟩ := h
  obtain ⟨v', hbefore, hstep, hafter⟩ := hrun.split
  refine ⟨new.toRow e.now, after,
    ⟨request, before, v, e, [], new, hload, by simp, hrun, hinserted, rfl⟩, ?_⟩
  have hid : taskId = new.taskId := hinserted.admitted.arrival.2.symm
  rw [hid]
  exact (World.kept_or_collected hbefore hstep hinserted.committed hafter).imp_left
    (fun hkept => hkept.1)

/-- The row that is found is the client's own, or this was collected. -/
theorem Submitted.asked_row {request : SubmitTaskRequest} {taskId : TaskId}
    (hload : host.loadRequest args = .ok request) (h : Submitted svc run request taskId)
    {w : World} (hrun : World.Run svc .init run w) {row : TaskRecord}
    (hrow : w.db.tasks.find taskId = some row) :
    ∃ original after, Asked svc host args run taskId w original after ∧
      OwnOrReplaced svc original after row := by
  obtain ⟨original, after, hasked, ⟨own, hown, hsame⟩ | hcollected⟩ := h.asked hload hrun
  · rw [hrow] at hown
    cases hown
    exact ⟨original, after, hasked, .inl hsame⟩
  · exact ⟨original, after, hasked, .inr hcollected⟩

end Growth

namespace Codec

variable {codec : Codec β} {now : Timestamp} {files : FileTree β} {task : TaskRecord}

theorem buildStatusResponse_taskId {response : TaskStatusResponse}
    (h : codec.buildStatusResponse now files task = .ok response) :
    response.taskId = task.taskId := by
  simp only [buildStatusResponse, bind, Except.bind] at h
  split at h
  · cases h
  split at h
  · cases h
  · cases h
    rfl

theorem readOutputPreview_error {path : String} {maxBytes : ℕ} {e : AppError}
    (h : codec.readOutputPreview files path maxBytes = .error e) : ∃ message, e = .io message := by
  unfold readOutputPreview at h
  split at h
  · cases h
  · cases h
  · cases h
    exact ⟨_, rfl⟩

/-- A snapshot fails on the disk alone. -/
theorem buildStatusResponse_error {e : AppError}
    (h : codec.buildStatusResponse now files task = .error e) : ∃ message, e = .io message := by
  simp only [buildStatusResponse, bind, Except.bind] at h
  split at h
  · rename_i hread
    cases h
    exact readOutputPreview_error hread
  split at h
  · rename_i hread
    cases h
    exact readOutputPreview_error hread
  · cases h

end Codec

namespace World

variable {svc : RuntimeService} {w w' : World} {e : Event}

/-- What becomes of a submission in a step. -/
theorem submit_after_step (h : w.step svc e = some w') {i : ℕ} {call : SubmitCall}
    (hcall : w.procs.submits[i]? = some call) :
    w'.procs = w.procs.crash ∨ w'.procs.submits[i]? = some call ∨
      ∃ call', e.action = .submit i ∧ w'.procs.submits[i]? = some call' ∧
        SubmitStep svc e.now w.db call (w.committed svc e) w'.db call' := by
  have hlt := (List.getElem?_eq_some_iff.mp hcall).1
  cases step_requests h with
  | same _ hsubmits _ _ => exact .inr (.inl (hsubmits ▸ hcall))
  | lost _ _ hprocs => exact .inl hprocs
  | submitReceived _ _ _ _ hprocs =>
    refine .inr (.inl ?_)
    rw [hprocs]
    exact (List.getElem?_append_left hlt).trans hcall
  | submit j submit submit' haction hsubmit hstep hprocs =>
    right
    by_cases hij : j = i
    · subst hij
      rw [hcall] at hsubmit
      cases hsubmit
      exact .inr ⟨submit', haction, by simp [hprocs, hlt], hstep⟩
    · exact .inl (by simp [hprocs, List.getElem?_set_ne hij, hcall])
  | killReceived _ _ _ _ hprocs => exact .inr (.inl (by rw [hprocs]; exact hcall))
  | kill _ _ _ _ _ _ _ hprocs => exact .inr (.inl (by rw [hprocs]; exact hcall))
  | escalate _ _ _ _ _ _ hprocs => exact .inr (.inl (by rw [hprocs]; exact hcall))

end World

namespace Session

variable {svc : RuntimeService} {host : ClientHost} {server : RequestReader host.text}
  {codec : Codec β} {args : RemoteTaskArgs}

/-- The submission that the client waits for is its own, and an answer to it says
what has happened. -/
def InFlight (svc : RuntimeService) (run : List (World × Event)) (w : World)
    (request : SubmitTaskRequest) (i : ℕ) : Prop :=
  ∃ call, w.procs.submits[i]? = some call ∧
    (call.request = request ∧ World.Names BareId request call.generatedId) ∧
    (∀ response, call.state = .returned (.ok response) →
      Submitted svc run request response.taskId ∧ BareId response.taskId) ∧
    ∀ e, call.state = .returned (.error e) →
      ∃ taskId, ⟨request, taskId⟩ ∈ World.refusals svc run

theorem InFlight.step {run : List (World × Event)} {w w' : World} {e : Event}
    {request : SubmitTaskRequest} {i : ℕ} (h : InFlight svc run w request i)
    (hrun : World.Run svc .init run w) (hstep : w.step svc e = some w') :
    w'.procs = w.procs.crash ∨ InFlight svc (run ++ [(w, e)]) w' request i := by
  obtain ⟨call, hcall, hrequest, hok, herr⟩ := h
  rcases World.submit_after_step hstep hcall with hcrash | hsame | ⟨call', haction, hcall', hmove⟩
  · exact .inl hcrash
  · refine .inr ⟨call, hsame, hrequest, fun response hstate => ?_, fun err hstate => ?_⟩
    · exact (hok response hstate).imp_left (fun hsubmitted => hsubmitted.grow _)
    · obtain ⟨taskId, hmem⟩ := herr err hstate
      refine ⟨taskId, ?_⟩
      rw [World.refusals, List.filterMap_append]
      exact List.mem_append_left _ hmem
  · right
    have hplanned := World.planned_of_run hrun call (List.mem_of_getElem? hcall)
    generalize hcommitted : w.committed svc e = committed at hmove
    generalize w'.db = db' at hmove
    cases hmove with
    | failed err _ =>
      refine ⟨_, hcall', hrequest, fun response hstate => ?_, fun _ _ => ?_⟩
      · cases hstate
      · refine ⟨call.arrival.taskId, List.mem_filterMap.mpr ⟨(w, e), by simp, ?_⟩⟩
        simp only [World.refusalOf, haction, hstep, Option.bind_some, hcall', ← hrequest.1]
        rfl
    | planned _ _ _ _ _ =>
      refine ⟨_, hcall', hrequest, fun _ hanswer => ?_, fun _ hanswer => ?_⟩ <;> cases hanswer
    | @inserted new _ hstate _ =>
      refine ⟨_, hcall', hrequest, fun response hanswer => ?_, fun _ hanswer => by cases hanswer⟩
      cases hanswer
      obtain ⟨arrival, hinserted⟩ := World.insertedBy_of_step hrun hstep hcommitted
      have howner : arrival = ⟨request, new.taskId⟩ := by
        obtain ⟨hnew, hid⟩ := hinserted.admitted.arrival
        have hrequested := (hplanned new hstate).arrival.1
        cases arrival
        rw [Arrival.mk.injEq]
        exact ⟨hnew.symm.trans (hrequested.trans hrequest.1), hid.symm⟩
      refine ⟨⟨run, w, e, [], new, rfl, howner ▸ hinserted⟩, ?_⟩
      obtain ⟨plan, hplan, hmade⟩ := hplanned new hstate
      rw [(RuntimeService.newTask_taskDir hmade).1]
      obtain ⟨rfl, hnames⟩ := hrequest
      exact World.named_of_checkRequest hnames hplan

/-- What holds of a session after its run. -/
def Sound (svc : RuntimeService) (host : ClientHost) (codec : Codec β) (args : RemoteTaskArgs)
    (run : List (World × Event)) (s : Session) : Prop :=
  s.client.Justified svc host codec args run ∧
    ∀ request i, s.client = .submitting request i → InFlight svc run s.world request i

/-- A step of the system, whatever it is, while the client does nothing. -/
theorem Sound.system {run : List (World × Event)} {s : Session}
    (h : s.Sound svc host codec args run) (hrun : World.Run svc .init run s.world) {e : Event}
    {world : World} (hstep : s.world.step svc e = some world) :
    Sound svc host codec args (run ++ [(s.world, e)])
      ⟨world, s.client.afterSystem world.procs⟩ := by
  obtain ⟨hjustified, hflight⟩ := h
  cases hclient : s.client with
  | submitting request i =>
    rw [hclient] at hjustified
    have hload : host.loadRequest args = .ok request := hjustified
    cases hserver : world.procs.server with
    | serving dispatcher =>
      have hstays : (RemoteClient.submitting request i).afterSystem world.procs =
          .submitting request i := by rw [RemoteClient.afterSystem, hserver]
      rw [hstays]
      refine ⟨hload, fun request' i' heq => ?_⟩
      cases heq
      rcases (hflight request i hclient).step hrun hstep with hcrash | hflying
      · rw [hcrash] at hserver
        cases hserver
      · exact hflying
    | down =>
      rw [RemoteClient.afterSystem, hserver]
      exact ⟨trivial, fun _ _ heq => by cases heq⟩
    | recovering recovery =>
      rw [RemoteClient.afterSystem, hserver]
      exact ⟨trivial, fun _ _ heq => by cases heq⟩
  | loaded _ | waiting _ | ended _ =>
    exact ⟨(hclient ▸ hjustified).grow _, fun _ _ heq => by cases heq⟩

/-- The submission reaches the server. -/
theorem Sound.posted {run : List (World × Event)} {w w' : World} {request : SubmitTaskRequest}
    (hload : host.loadRequest args = .ok request) {generatedId : TaskId}
    (hnames : World.Names BareId request generatedId) {now : Timestamp}
    (hstep : w.step svc { action := .receiveSubmit request generatedId, now } = some w') :
    Sound svc host codec args run ⟨w', .submitting request w.procs.submits.length⟩ := by
  refine ⟨hload, fun request' i heq => ?_⟩
  cases heq
  cases World.step_requests hstep with
  | submitReceived _ _ haction _ hprocs =>
    cases haction
    refine ⟨{ request, generatedId }, by simp [hprocs], ⟨rfl, hnames⟩, fun _ hstate => ?_,
      fun _ hstate => ?_⟩ <;> cases hstate
  | same haction _ _ _ => cases haction
  | lost haction _ _ => cases haction
  | submit _ _ _ haction _ _ _ => cases haction
  | killReceived _ _ haction _ _ => cases haction
  | kill _ _ _ _ haction _ _ _ => cases haction
  | escalate _ _ _ haction _ _ _ => cases haction

/-- The client gets an answer to a poll. -/
theorem justified_poll {run : List (World × Event)} {w : World} {request : SubmitTaskRequest}
    {taskId : TaskId} (hload : host.loadRequest args = .ok request)
    (h : Submitted svc run request taskId) (hbare : BareId taskId)
    (hrun : World.Run svc .init run w) (now : Timestamp)
    (files : FileTree β) (fault : Option StoreFault) (elapsedMs : ℕ) :
    (poll args taskId elapsedMs
      (w.getTaskStatus codec now files fault taskId)).Justified svc host codec args run := by
  cases hstatus : w.getTaskStatus codec now files fault taskId with
  | error err =>
    obtain ⟨original, after, hasked, hfound⟩ := h.asked hload hrun
    refine ⟨w, original, after, hasked, fun hnotFound => ?_⟩
    rcases hfound with ⟨row, hrow, _⟩ | hcollected
    · subst hnotFound
      have hget := (w.db.getTask_eq_ok_iff taskId row).mpr hrow
      cases fault with
      | some fault => cases fault <;> cases hstatus
      | none =>
        simp only [World.getTaskStatus, hget] at hstatus
        obtain ⟨message, hio⟩ := Codec.buildStatusResponse_error hstatus
        cases hio
    · exact hcollected
  | ok payload =>
    cases fault with
    | some fault => cases hstatus
    | none =>
      simp only [World.getTaskStatus, bind, Except.bind] at hstatus
      split at hstatus
      · cases hstatus
      rename_i row hget
      have hrow := (w.db.getTask_eq_ok_iff taskId row).mp hget
      obtain ⟨original, after, hasked, hown⟩ := h.asked_row hload hrun hrow
      have hid : payload.taskId = taskId := by
        rw [Codec.buildStatusResponse_taskId hstatus]
        exact w.db.tasks.find_key hrow
      have hsame := (Codec.buildStatusResponse_ok hstatus).1
      unfold poll
      dsimp only
      split
      · rename_i hterminal
        exact ⟨w, original, after, row, hid ▸ hasked, hid ▸ hrow, ⟨now, files, hstatus⟩,
          hterminal, hown⟩
      · rename_i hlive
        rw [hsame] at hlive
        split
        · exact ⟨w, original, after, row, hasked, hrow, by simpa using hlive, hown⟩
        · exact ⟨request, hload, h, hbare⟩

section Runs

variable {trace : List (Session × SessionEvent β)} {last : Session}

/-- A step of the session is one of the system, or leaves the system alone. -/
theorem step_world {s s' : Session} {event : SessionEvent β}
    (h : s.step svc host server codec args event = some s') :
    (∃ e, s.systemEvent host server event = some e ∧ s.world.step svc e = some s'.world) ∨
      (s.systemEvent host server event = none ∧ s'.world = s.world) := by
  unfold step at h
  split at h
  · obtain ⟨world, hworld, rfl⟩ := Option.map_eq_some_iff.mp h
    exact .inl ⟨_, rfl, hworld⟩
  · split at h
    · rename_i request hclient
      split at h
      · rename_i received hreceived
        obtain ⟨world, hworld, rfl⟩ := Option.map_eq_some_iff.mp h
        exact .inl ⟨_, by simp [systemEvent, hclient, hreceived, Except.toOption], hworld⟩
      · rename_i hrejected
        cases h
        exact .inr ⟨by simp [systemEvent, hclient, hrejected, Except.toOption], rfl⟩
    · cases h
  · right
    split at h
    · split at h <;> cases h <;> exact ⟨rfl, rfl⟩
    · cases h
  · right
    split at h
    · split at h <;> cases h <;> exact ⟨rfl, rfl⟩
    · cases h
  · right
    split at h
    · cases h
    · cases h
      exact ⟨rfl, rfl⟩

theorem run_system (hrun : Run svc host server codec args trace last) :
    World.Run svc .init (systemTrace host server trace) last.world :=
  Runs.Run.project Session.world (systemEvent host server) (fun _ _ _ => step_world) hrun

theorem systemTrace_snoc (trace : List (Session × SessionEvent β)) (s : Session)
    (event : SessionEvent β) :
    systemTrace host server (trace ++ [(s, event)]) = systemTrace host server trace ++
      ((s.systemEvent host server event).map fun e => (s.world, e)).toList := by
  rw [systemTrace, List.filterMap_append]
  cases hevent : s.systemEvent host server event <;> simp [systemTrace, hevent]

theorem poll_ne_submitting (args : RemoteTaskArgs) (taskId : TaskId) (elapsedMs : ℕ)
    (answer : AppResult TaskStatusResponse) (request : SubmitTaskRequest) (i : ℕ) :
    poll args taskId elapsedMs answer ≠ .submitting request i := by
  unfold poll
  split
  · exact RemoteClient.noConfusion
  · split
    · exact RemoteClient.noConfusion
    · split <;> exact RemoteClient.noConfusion

theorem Sound.step (htext : host.text.Lossless) {run : List (World × Event)} {s s' : Session}
    {event : SessionEvent β} (h : s.Sound svc host codec args run)
    (hrun : World.Run svc .init run s.world) (hnames : s.PostsNamed BareId event)
    (hstep : s.step svc host server codec args event = some s') :
    s'.Sound svc host codec args
      (run ++ ((s.systemEvent host server event).map fun e => (s.world, e)).toList) := by
  have ⟨hjustified, hflight⟩ := h
  cases event with
  | system e =>
    obtain ⟨world, hworld, rfl⟩ := Option.map_eq_some_iff.mp hstep
    exact h.system hrun hworld
  | post generatedId now =>
    cases hclient : s.client with
    | loaded request =>
      have hload : host.loadRequest args = .ok request := by
        rw [hclient] at hjustified
        exact hjustified
      have hextract := ClientHost.extract_body server htext hload
      by_cases hlarge : bodyLimit < (host.body request).utf8ByteSize
      · rw [if_pos hlarge] at hextract
        simp only [Session.step, hclient, hextract] at hstep
        cases hstep
        exact ⟨⟨rfl, request, hload, hlarge⟩, fun _ _ heq => by cases heq⟩
      · rw [if_neg hlarge] at hextract
        simp only [Session.step, hclient, hextract] at hstep
        obtain ⟨world, hworld, rfl⟩ := Option.map_eq_some_iff.mp hstep
        exact Sound.posted hload (hnames request hclient) hworld
    | submitting _ _ | waiting _ | ended _ =>
      simp only [Session.step, hclient] at hstep
      cases hstep
  | answer =>
    have hown : s.systemEvent host server (.answer : SessionEvent β) = none := rfl
    rw [hown, Option.map_none, Option.toList_none, List.append_nil]
    cases hclient : s.client with
    | submitting request i =>
      have hload : host.loadRequest args = .ok request := by
        rw [hclient] at hjustified
        exact hjustified
      obtain ⟨call, hcall, _, hok, herr⟩ := hflight request i hclient
      simp only [Session.step, hclient, hcall, Option.map_some] at hstep
      split at hstep
      · rename_i response hstate
        cases hstep
        refine ⟨⟨request, hload, hok response (Option.some.inj hstate)⟩, fun _ _ heq => ?_⟩
        cases heq
      · rename_i err hstate
        cases hstep
        obtain ⟨taskId, hrefused⟩ := herr err (Option.some.inj hstate)
        exact ⟨⟨request, taskId, hload, hrefused⟩, fun _ _ heq => by cases heq⟩
      · cases hstep
    | loaded _ | waiting _ | ended _ =>
      simp only [Session.step, hclient] at hstep
      cases hstep
  | poll now files fault elapsedMs =>
    have hown : s.systemEvent host server (.poll now files fault elapsedMs) = none := rfl
    rw [hown, Option.map_none, Option.toList_none, List.append_nil]
    simp only [Session.step] at hstep
    split at hstep
    · rename_i taskId dispatcher hclient hserver
      rw [hclient] at hjustified
      obtain ⟨request, hload, hsubmitted, hbare⟩ := hjustified
      rw [host.routed_bare taskId hbare] at hstep
      cases hstep
      refine ⟨justified_poll hload hsubmitted hbare hrun now files fault elapsedMs,
        fun _ _ heq => ?_⟩
      exact absurd heq (poll_ne_submitting _ _ _ _ _ _)
    · cases hstep
  | disconnect message =>
    have hown : s.systemEvent host server (.disconnect message : SessionEvent β) = none := rfl
    rw [hown, Option.map_none, Option.toList_none, List.append_nil]
    simp only [Session.step] at hstep
    split at hstep
    · cases hstep
    · cases hstep
      exact ⟨trivial, fun _ _ heq => by cases heq⟩

theorem sound_of_run (htext : host.text.Lossless)
    (hrun : Run svc host server codec args trace last)
    (hown : ∀ x ∈ trace, x.1.PostsNamed BareId x.2) :
    last.Sound svc host codec args (systemTrace host server trace) := by
  induction hrun with
  | nil =>
    refine ⟨?_, fun _ _ heq => ?_⟩
    · unfold start RemoteClient.start
      dsimp only
      split
      · assumption
      · assumption
    · unfold start RemoteClient.start at heq
      dsimp only at heq
      split at heq <;> cases heq
  | @snoc trace s event s' hbefore hstep ih =>
    rw [systemTrace_snoc]
    have hsound := ih (fun x hx => hown x (List.mem_append_left _ hx))
    exact hsound.step htext (run_system hbefore) (hown (s, event) (by simp)) hstep

/-- Every request that was received led to one row or one refusal at most. -/
def SettledOnce (svc : RuntimeService) (run : List (World × Event)) : Prop :=
  (World.insertions svc run ++ World.refusals svc run).Subperm (World.arrivals run)

/-- Where the ids of the tasks name directories of their own, and that of the client's
task stands in an address as it is, a client that runs a task ends with what has
happened: it prints the final state of its own task, unless that was collected
before; it is told that there is no such task only after that; it is refused only if
no row was inserted for its request, and its request is never unreadable, though it
can be too large. It succeeds only if it prints. The store that all of this is about
is not removed meanwhile. -/
theorem run_remote_justified {dataDir : String}
    (hdir : svc.settings.tasksDir = joinPath dataDir "tasks") (htext : host.text.Lossless)
    (hrun : Run svc host server codec args trace last)
    (hplain : ∀ x ∈ systemTrace host server trace, World.ReceivesNamed PlainId x.2)
    (hown : ∀ x ∈ trace, x.1.PostsNamed BareId x.2) :
    last.client.Justified svc host codec args (systemTrace host server trace) ∧
      SettledOnce svc (systemTrace host server trace) ∧
      (∀ outcome, last.client = .ended outcome → outcome.result = .ok () →
        ∃ payload, outcome = .printed payload) ∧
      ∀ x ∈ systemTrace host server trace, ∀ file ∈ databaseFiles dataDir,
        ¬ x.1.Sweeps x.2 file := by
  have hworld := run_system hrun
  have hsettled : SettledOnce svc (systemTrace host server trace) :=
    (List.sublist_append_left _ _).subperm.trans (World.inserted_refused_or_waiting hworld)
  refine ⟨(sound_of_run htext hrun hown).1, hsettled,
    fun _ _ hresult => RemoteEnd.printed_of_result hresult, ?_⟩
  exact World.not_sweeps_of_run hdir (by simp [Db.empty]) hworld hplain

end Runs

private def blankCodec : Codec Unit := ⟨fun _ => "", fun _ => []⟩

private def sparseArgs : RemoteTaskArgs := { json := some ClientHost.sparseDocument }

/-- The client has printed a success. -/
private def sawSuccess : RemoteClient → Bool
  | .ended (.printed payload) => decide (payload.status = .success)
  | _ => false

/-- Nobody brings another id than `a` in this step. -/
private def bringsA (s : Session) (event : SessionEvent Unit) : Bool :=
  (s.systemEvent .plain ClientHost.plainServer event).all (World.brings "a") &&
    match s.client with
    | .loaded request => decide (request.taskId = some "a")
    | _ => true

private theorem bareId_a : BareId "a" := ⟨World.plainId_a, by decide, by decide⟩

private theorem receivesNamed_of_bringsA {trace : List (Session × SessionEvent Unit)}
    (h : ∀ x ∈ trace, bringsA x.1 x.2 = true) :
    ∀ x ∈ systemTrace .plain ClientHost.plainServer trace, World.ReceivesNamed PlainId x.2 := by
  intro x hx
  obtain ⟨y, hy, hevent⟩ := List.mem_filterMap.mp hx
  obtain ⟨e, he, rfl⟩ := Option.map_eq_some_iff.mp hevent
  have hall := (Bool.and_eq_true_iff.mp (h y hy)).1
  rw [he, Option.all_some] at hall
  exact World.receivesNamed_of_brings World.plainId_a hall

private theorem postsNamed_of_bringsA {s : Session} {event : SessionEvent Unit}
    (h : bringsA s event = true) : s.PostsNamed BareId event := by
  cases event with
  | post generatedId now =>
    intro request hclient
    have hgiven := (Bool.and_eq_true_iff.mp h).2
    rw [hclient] at hgiven
    exact World.names_of_given (of_decide_eq_true hgiven) bareId_a generatedId
  | _ => exact trivial

/-- A client that sees its task succeed. -/
theorem run_remote_justified_of_success :
    ∃ (trace : List (Session × SessionEvent Unit)) (last : Session) (payload : TaskStatusResponse),
      Run (smallService ⟨1, none, none⟩) .plain ClientHost.plainServer blankCodec sparseArgs
        trace last ∧
      last.client = .ended (.printed payload) ∧ payload.status = .success ∧
      ClientHost.plain.text.Lossless ∧
      last.client.Justified (smallService ⟨1, none, none⟩) .plain blankCodec sparseArgs
        (systemTrace .plain ClientHost.plainServer trace) ∧
      SettledOnce (smallService ⟨1, none, none⟩)
        (systemTrace .plain ClientHost.plainServer trace) ∧
      (∀ outcome, last.client = .ended outcome → outcome.result = .ok () →
        ∃ payload, outcome = .printed payload) ∧
      ∀ x ∈ systemTrace .plain ClientHost.plainServer trace, ∀ file ∈ databaseFiles "/data",
        ¬ x.1.Sweeps x.2 file := by
  have hexec : (Runs.exec (Runs.checked bringsA
      (step (smallService ⟨1, none, none⟩) .plain ClientHost.plainServer blankCodec sparseArgs))
      (start .plain sparseArgs)
      ([.post "" 0] ++ (events [.submit 0, .submit 0]).map .system ++
        [.answer, .poll 0 .empty none 0] ++
        (events (dispatchActions 7 ++ shimActions 0 8)).map .system ++
        [.poll 0 .empty none 500])).any (fun s => sawSuccess s.client) = true := by
    decide +kernel
  obtain ⟨trace, last, hrun, _, hcheck, htest⟩ := Runs.exists_run_of_exec hexec
  unfold sawSuccess at htest
  split at htest
  · rename_i payload hclient
    have hdir : (smallService ⟨1, none, none⟩).settings.tasksDir = joinPath "/data" "tasks" := rfl
    have hjustified := run_remote_justified hdir JsonText.compact_lossless hrun
      (receivesNamed_of_bringsA hcheck) (fun x hx => postsNamed_of_bringsA (hcheck x hx))
    exact ⟨trace, last, payload, hrun, hclient, of_decide_eq_true htest, JsonText.compact_lossless,
      hjustified⟩
  · cases htest

end Session

end ExecgoRuntime
