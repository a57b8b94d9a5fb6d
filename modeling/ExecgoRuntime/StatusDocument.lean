import ExecgoRuntime.ColumnRefinement
import ExecgoRuntime.Endings
import ExecgoRuntime.OutputPreview
import ExecgoRuntime.RemoteClient

/-!
The document of a status (`TaskStatusResponse`), which a client polls for and which
`persist_latest_result` leaves in the directory of the task. Members without a value
are left out, so what is read back depends on what a row can hold: words where the
type says so, keys that come once, codes that are not negative. All rows of a run
are of this kind. Hence no status loses anything on its way, nor in its file.
-/
namespace ExecgoRuntime

open Serde LexicalPath LossyUtf8

/-- A code that `wait4` reports. -/
def IsCode (code : ℤ) : Prop := 0 ≤ code ∧ code < 2 ^ 31

theorem IsCode.written {code : ℤ} (h : IsCode code) :
    code.toNat < 2 ^ 31 ∧ some (Int.ofNat code.toNat) = some code := by
  obtain ⟨hnonneg, hlt⟩ := h
  exact ⟨by omega, congrArg some (Int.toNat_of_nonneg hnonneg)⟩

/-- A code as an `i32`. Documents with a negative number are left out. -/
def codeCodec : JsonCodec ℤ :=
  (Codec.below (2 ^ 31) (by decide)).via Int.toNat (fun n => some (Int.ofNat n)) IsCode
    (fun _ h => h.written)

/-- The dates of `chrono` as texts. -/
structure DateText where
  write : Timestamp → String
  read : String → Option Timestamp
  read_write : ∀ date, read (write date) = some date

def DateText.codec (dates : DateText) : JsonCodec Timestamp :=
  Codec.string.via dates.write dates.read (fun _ => True)
    (fun date _ => ⟨trivial, dates.read_write date⟩)

def TaskStatus.codec : JsonCodec TaskStatus :=
  .variants encodeStatus [.accepted, .running, .success, .failed, .cancelled]
    (by intro status; cases status <;> rfl)

def TaskArtifacts.codec : JsonCodec TaskArtifacts :=
  Shape.start TaskArtifacts.mk
    |>.field "task_dir" taskDir (.required .string)
    |>.field "request_path" requestPath (.required .string)
    |>.field "result_path" resultPath (.required .string)
    |>.field "stdout_path" stdoutPath (.required .string)
    |>.field "stderr_path" stderrPath (.required .string)
    |>.field "script_path" scriptPath (.optional .string)
    |>.codec (by decide) (by rintro ⟨⟩; rfl)

def TaskStatusResponse.shape (dates : DateText) :
    Shape u64Max TaskStatusResponse TaskStatusResponse :=
  Shape.start TaskStatusResponse.mk
    |>.field "task_id" taskId (.required .string)
    |>.field "handle_id" handleId (.required .string)
    |>.field "status" status (.required TaskStatus.codec)
    |>.field "created_at" createdAt (.required dates.codec)
    |>.field "updated_at" updatedAt (.required dates.codec)
    |>.field "started_at" startedAt (.optional dates.codec)
    |>.field "finished_at" finishedAt (.optional dates.codec)
    |>.field "duration_ms" durationMs (.optional .word)
    |>.field "shim_pid" shimPid (.optional (.below (2 ^ 32) (by decide)))
    |>.field "pid" pid (.optional (.below (2 ^ 32) (by decide)))
    |>.field "pgid" pgid (.optional (.below (2 ^ 31) (by decide)))
    |>.field "exit_code" exitCode (.optional codeCodec)
    |>.field "exit_signal" exitSignal (.optional codeCodec)
    |>.field "stdout" stdout (.required .string)
    |>.field "stderr" stderr (.required .string)
    |>.field "stdout_truncated" stdoutTruncated (.required .bool)
    |>.field "stderr_truncated" stderrTruncated (.required .bool)
    |>.field "error" error (.optional RuntimeErrorInfo.codec)
    |>.field "usage" usage (.optional ResourceUsage.codec)
    |>.field "execution_plan" executionPlan (.optional ExecutionPlan.codec)
    |>.field "reservation" reservation (.optional TaskResourceReservation.codec)
    |>.field "artifacts" artifacts (.required TaskArtifacts.codec)
    |>.field "metadata" metadata (.omittedEmpty metadataCodec)

theorem TaskStatusResponse.build_shape (dates : DateText) (response : TaskStatusResponse) :
    (shape dates).build response = response := rfl

theorem TaskStatusResponse.nodup_names (dates : DateText) : (shape dates).names.Nodup := by
  simp only [shape, Shape.names_field, Shape.names_start, List.nil_append, List.cons_append]
  decide +kernel

def TaskStatusResponse.codec (dates : DateText) : JsonCodec TaskStatusResponse :=
  (shape dates).codec (nodup_names dates) (build_shape dates)

theorem TaskStatusResponse.height_codec (dates : DateText) :
    (codec dates).height ≤ JsonText.recursionLimit := by
  have hshape : (shape dates).height ≤ 126 := by
    unfold shape
    repeat refine Shape.height_field_le ?_ (Nat.le_of_ble_eq_true rfl)
    exact Nat.zero_le _
  exact Nat.succ_le_succ hshape

/-- The columns hold values of their types. -/
structure TaskRecord.WellTyped (row : TaskRecord) : Prop where
  limits : row.limits.Words
  metadata : DistinctKeys row.metadata
  enforcement : ∀ plan ∈ row.executionPlan, plan.resourceEnforcement.Words
  durationMs : ∀ n ∈ row.durationMs, n ≤ u64Max
  shimPid : ∀ n ∈ row.shimPid, n < 2 ^ 32
  pid : ∀ n ∈ row.pid, n < 2 ^ 32
  pgid : ∀ n ∈ row.pgid, n < 2 ^ 31
  exitCode : ∀ code ∈ row.exitCode, IsCode code
  exitSignal : ∀ signal ∈ row.exitSignal, IsCode signal
  usage : ∀ usage ∈ row.usage, usage.Words
  reservation : ∀ reservation ∈ row.reservation, reservation.Words

/-- The same of a status. -/
structure TaskStatusResponse.WellTyped (response : TaskStatusResponse) : Prop where
  metadata : DistinctKeys response.metadata
  enforcement : ∀ plan ∈ response.executionPlan, plan.resourceEnforcement.Words
  durationMs : ∀ n ∈ response.durationMs, n ≤ u64Max
  shimPid : ∀ n ∈ response.shimPid, n < 2 ^ 32
  pid : ∀ n ∈ response.pid, n < 2 ^ 32
  pgid : ∀ n ∈ response.pgid, n < 2 ^ 31
  exitCode : ∀ code ∈ response.exitCode, IsCode code
  exitSignal : ∀ signal ∈ response.exitSignal, IsCode signal
  usage : ∀ usage ∈ response.usage, usage.Words
  reservation : ∀ reservation ∈ response.reservation, reservation.Words

theorem DateText.valid_codec (dates : DateText) (date : Timestamp) : dates.codec.Valid date :=
  trivial

theorem TaskStatus.valid_codec (status : TaskStatus) : TaskStatus.codec.Valid status := trivial

theorem TaskArtifacts.valid_codec (artifacts : TaskArtifacts) :
    TaskArtifacts.codec.Valid artifacts := by
  simp [TaskArtifacts.codec]

theorem TaskStatusResponse.valid_codec (dates : DateText) {response : TaskStatusResponse}
    (h : response.WellTyped) : (codec dates).Valid response := by
  have hplan : ∀ plan ∈ response.executionPlan, ExecutionPlan.codec.Valid plan :=
    fun plan hplan => ExecutionPlan.valid_codec (h.enforcement plan hplan)
  have husage : ∀ usage ∈ response.usage, ResourceUsage.codec.Valid usage :=
    fun usage husage => ResourceUsage.valid_codec (h.usage usage husage)
  have hreservation : ∀ r ∈ response.reservation, TaskResourceReservation.codec.Valid r :=
    fun r hr => TaskResourceReservation.valid_codec (h.reservation r hr)
  have hmetadata := metadataCodec_valid h.metadata
  simp only [codec, shape, Serde.valid_codec, valid_field, valid_start, valid_required,
    valid_optional, valid_omittedEmpty, valid_string, valid_bool, valid_word,
    DateText.valid_codec, TaskStatus.valid_codec, TaskArtifacts.valid_codec,
    RuntimeErrorInfo.valid_codec, implies_true, true_and, and_true, and_assoc]
  exact ⟨h.durationMs, h.shimPid, h.pid, h.pgid, h.exitCode, h.exitSignal, husage, hplan,
    hreservation, hmetadata⟩

theorem TaskRecord.WellTyped.response {β : Type} {row : TaskRecord} (h : row.WellTyped)
    {codec : Codec β} {now : Timestamp} {files : FileTree β} {response : TaskStatusResponse}
    (helapsed : ∀ started ∈ row.startedAt, now - started ≤ i64Max)
    (hbuild : codec.buildStatusResponse now files row = .ok response) : response.WellTyped := by
  have hduration : ∀ n ∈ row.durationMs.or
      (row.startedAt.map (fun started => (now - started).toNat)), n ≤ u64Max := by
    intro n hn
    rcases Option.or_eq_some_iff.mp hn with hstored | ⟨_, hrunning⟩
    · exact h.durationMs n hstored
    · obtain ⟨started, hstarted, rfl⟩ := Option.map_eq_some_iff.mp hrunning
      exact Nat.le_trans (Int.toNat_le.mpr (helapsed started hstarted)) (by decide)
  simp only [Codec.buildStatusResponse, bind, Except.bind] at hbuild
  split at hbuild
  · cases hbuild
  split at hbuild
  · cases hbuild
  cases hbuild
  refine { h with enforcement := ?_, durationMs := hduration, usage := ?_ }
  · intro plan hplan
    rcases Option.or_eq_some_iff.mp hplan with hstored | ⟨_, hlegacy⟩
    · exact h.enforcement plan hstored
    · cases hlegacy
      exact ⟨h.limits.1, h.limits.2.1, h.limits.2.2.1, h.limits.2.2.2.1⟩
  · intro usage husage
    rcases Option.or_eq_some_iff.mp husage with hstored | ⟨_, hderived⟩
    · exact h.usage usage hstored
    · obtain ⟨n, hn, rfl⟩ := Option.map_eq_some_iff.mp hderived
      exact ⟨hduration n hn, by simp⟩

theorem TaskWrite.persistable_of_run {w : TaskWrite} {now : Timestamp} {taskId : TaskId}
    {db db' : Db} (h : w.run now taskId db = .ok db') : w.persistable = true := by
  cases w with
  | completeTask update =>
    simp only [run, Db.completeTask] at h
    split at h
    · cases h
    · rename_i hfits
      simpa [persistable] using hfits
  | _ => rfl

theorem Explained.codes {trace : List (World × Event)} {taskId : TaskId} {status : TaskStatus}
    {errorCode : Option ErrorCode} {exitCode exitSignal : Option ℤ} {usage : Option ResourceUsage}
    (h : Explained trace taskId status errorCode exitCode exitSignal usage) :
    (∀ code ∈ exitCode, IsCode code) ∧ ∀ signal ∈ exitSignal, IsCode signal := by
  cases h with
  | unreported _ hcode hsignal =>
    subst hcode hsignal
    exact ⟨by simp, by simp⟩
  | ended ending _ _ _ _ _ hcode hsignal _ _ _ =>
    subst hcode hsignal
    cases ending with
    | exited code =>
      refine ⟨?_, by simp [Ending.signal]⟩
      rintro _ ⟨⟩
      have hlt := code.isLt
      unfold IsCode
      omega
    | killed signal core =>
      refine ⟨by simp [Ending.code], ?_⟩
      rintro _ ⟨⟩
      have hlt := signal.isLt
      unfold IsCode
      omega

theorem NewTaskRecord.WellTyped.toRow {new : NewTaskRecord} (h : new.WellTyped)
    (now : Timestamp) : (new.toRow now).WellTyped where
  limits := h.limits
  metadata := h.metadata
  enforcement := by
    rintro _ ⟨⟩
    exact h.enforcement
  durationMs := by rintro _ ⟨⟩
  shimPid := by rintro _ ⟨⟩
  pid := by rintro _ ⟨⟩
  pgid := by rintro _ ⟨⟩
  exitCode := by rintro _ ⟨⟩
  exitSignal := by rintro _ ⟨⟩
  usage := by rintro _ ⟨⟩
  reservation := by rintro _ ⟨⟩

theorem TaskRecord.WellTyped.effect {row : TaskRecord} (h : row.WellTyped) {w : TaskWrite}
    (hw : w.WellTyped) (hfits : w.persistable = true)
    (hcodes : ∀ update, w = .completeTask update →
      (∀ code ∈ update.exitCode, IsCode code) ∧ ∀ signal ∈ update.exitSignal, IsCode signal)
    (now : Timestamp) : (w.effect now row).WellTyped := by
  cases w with
  | markDispatched shimPid =>
    simp only [TaskWrite.effect, setDispatched]
    split
    · refine { h with shimPid := ?_ }
      rintro _ ⟨⟩
      exact hw
    · exact h
  | markStarted pid pgid scriptPath =>
    refine { h with pid := ?_, pgid := ?_ }
    · rintro _ ⟨⟩
      exact hw.1
    · rintro _ ⟨⟩
      exact hw.2
  | reserveResources reservation message =>
    refine { h with reservation := ?_ }
    rintro _ ⟨⟩
    exact hw
  | releaseResources message =>
    simp only [TaskWrite.effect]
    split
    · exact { h with }
    · exact h
  | setCancelRequested => exact { h with }
  | markTimeoutTriggered => exact { h with }
  | cancelAcceptedTask error =>
    simp only [TaskWrite.effect, setCancelled]
    split
    · refine { h with durationMs := ?_ }
      rintro _ ⟨⟩
      exact Nat.zero_le _
    · exact h
  | completeTask update =>
    obtain ⟨hcode, hsignal⟩ := hcodes update rfl
    refine { h with durationMs := ?_, exitCode := hcode, exitSignal := hsignal, usage := hw.usage }
    intro n hn
    have hle : ¬ i64Max < n := by
      simp only [TaskWrite.persistable, Bool.not_eq_true', Option.any_eq_false] at hfits
      simpa using hfits n hn
    have hbound : i64Max ≤ u64Max := by decide
    omega
  | markRecovered =>
    simp only [TaskWrite.effect, setRecovered]
    split
    · exact { h with }
    · exact h

namespace World

variable {svc : RuntimeService}

theorem wellTyped_of_run {trace : List (World × Event)} {last : World}
    (hrun : Run svc init trace last) (htyped : TypedCalls svc trace)
    (hreal : ∀ x ∈ trace, x.2.action.Real) {taskId : TaskId} {row : TaskRecord}
    (hrow : last.db.tasks.find taskId = some row) : row.WellTyped := by
  induction hrun generalizing taskId row with
  | nil => cases hrow
  | @snoc trace w e w' hbefore hstep ih =>
    have hrealBefore : ∀ x ∈ trace, x.2.action.Real :=
      fun x hx => hreal x (List.mem_append_left _ hx)
    have hrows : ∀ {taskId row}, w.db.tasks.find taskId = some row → TaskRecord.WellTyped row :=
      ih (fun x hx => htyped x (List.mem_append_left _ hx)) hrealBefore
    have hcall := htyped (w, e) (List.mem_append_right _ (List.mem_singleton_self _))
    cases step_origin hstep hrow with
    | inserted new hcommitted _ _ hnew _ =>
      rw [hnew]
      exact NewTaskRecord.WellTyped.toRow (hcall _ hcommitted) e.now
    | kept hold _ _ => exact hrows hold
    | written write old hcommitted hold heffect _ =>
      have hfits : write.persistable = true := by
        rcases step_db hstep with ⟨hnone, _⟩ | ⟨call, hcall, hexec⟩
        · rw [hnone] at hcommitted
          cases hcommitted
        · rw [hcommitted] at hcall
          cases hcall
          exact TaskWrite.persistable_of_run hexec
      rw [heffect]
      refine (hrows hold).effect (hcall _ hcommitted) hfits (fun update hwrite => ?_) e.now
      exact Explained.codes
        ((allExplained_of_run hbefore hrealBefore).explained hstep (hwrite ▸ hcommitted))

end World

section Text

variable (text : JsonText) (dates : DateText)

/-- A status as bytes, with the previews of `read_output_preview` in it. -/
def statusCodec : Codec UInt8 :=
  utf8Codec fun response => encode (text.toJson (TaskStatusResponse.codec dates) response).toList

/-- What a reader makes of the bytes. -/
def readStatus (bytes : List UInt8) : Except ColumnError TaskStatusResponse :=
  text.fromJson (TaskStatusResponse.codec dates) (String.ofList (lossy bytes))

variable {text}

theorem readStatus_encodeStatus (htext : text.Lossless) {response : TaskStatusResponse}
    (h : response.WellTyped) :
    readStatus text dates ((statusCodec text dates).encodeStatus response) = .ok response := by
  have hread := JsonText.fromJson_toJson htext (TaskStatusResponse.valid_codec dates h)
    (TaskStatusResponse.height_codec dates)
  rw [readStatus, statusCodec, utf8Codec, lossy_encode, String.ofList_toList]
  exact hread

end Text

namespace World

variable {svc : RuntimeService} {text : JsonText}

/-- Statuses survive their documents. In every state of a run whose calls are typed and whose
shims are answered by the kernel, a client reads the status that was built for it, and the
file that `persist_latest_result` leaves is read as the status of the row. -/
theorem status_survives_document (htext : text.Lossless) (dates : DateText)
    {trace : List (World × Event)} {last : World} (hrun : Run svc init trace last)
    (htyped : TypedCalls svc trace) (hreal : ∀ x ∈ trace, x.2.action.Real) {taskId : TaskId}
    {row : TaskRecord} (hrow : last.db.tasks.find taskId = some row) {now : Timestamp}
    (helapsed : ∀ started ∈ row.startedAt, now - started ≤ i64Max) :
    (∀ files fault response,
      last.getTaskStatus (statusCodec text dates) now files fault taskId = .ok response →
        readStatus text dates ((statusCodec text dates).encodeStatus response) = .ok response) ∧
    ∀ files files', Host.persistLatestResult (statusCodec text dates) now taskId
        { db := last.db, files } = (files', .ok ()) →
      ∃ response content,
        (statusCodec text dates).buildStatusResponse now files row = .ok response ∧
        files'.readFile (resolvePath row.resultPath) = .ok content ∧
        readStatus text dates content = .ok response := by
  have hwell := wellTyped_of_run hrun htyped hreal hrow
  have hget : last.db.getTask taskId = .ok row := (last.db.getTask_eq_ok_iff taskId row).mpr hrow
  refine ⟨fun files fault response hstatus => ?_, fun files files' hpersist => ?_⟩
  · cases fault with
    | some fault => cases hstatus
    | none =>
      simp only [getTaskStatus, hget, bind, Except.bind] at hstatus
      exact readStatus_encodeStatus dates htext (hwell.response helapsed hstatus)
  · simp only [Host.persistLatestResult, hget] at hpersist
    split at hpersist
    · cases hpersist
    · rename_i response hbuild
      obtain ⟨_, _, _, _, hwritten⟩ := FileWork.writeJsonFile_ok hpersist
      refine ⟨response, (statusCodec text dates).encodeStatus response, hbuild, ?_,
        readStatus_encodeStatus dates htext (hwell.response helapsed hbuild)⟩
      rw [FileTree.readFile, hwritten, if_pos rfl]

private def countedDates : DateText where
  write := dateText
  read raw := some (readDate raw)
  read_write date := congrArg some (readDate_dateText date)

private def labelled : SubmitTaskRequest :=
  { commandRequest "a" with metadata := [("purpose", "test"), ("owner", "a")] }

/-- A task is cancelled before it starts, and its result is written. -/
theorem status_survives_document_of_cancelled :
    ∃ trace last row files', Run (smallService ⟨1, none, none⟩) init trace last ∧
      last.db.tasks.find "a" = some row ∧ row.status = .cancelled ∧
      Host.persistLatestResult (statusCodec .compact countedDates) 5 "a"
        { db := last.db, files := FileTree.empty } = (files', .ok ()) ∧
      ∃ response content,
        (statusCodec .compact countedDates).buildStatusResponse 5 FileTree.empty row =
          .ok response ∧
        files'.readFile (resolvePath row.resultPath) = .ok content ∧
        readStatus .compact countedDates content = .ok response := by
  have hexec : (execute (smallService ⟨1, none, none⟩)
      (fun w e => decide ((∀ call ∈ w.committed (smallService ⟨1, none, none⟩) e, call.WellTyped) ∧
        e.action.asksKernel = false))
      (events (submitActions 0 labelled ++
        [.receiveKill "a" none, .kill 0 none, .kill 0 none, .kill 0 none, .kill 0 none,
          .kill 0 none]))).any
      (fun w => (w.db.tasks.find "a").any (fun row =>
        decide (row.status = .cancelled ∧ row.startedAt = none) &&
          match Host.persistLatestResult (statusCodec .compact countedDates) 5 "a"
            { db := w.db, files := FileTree.empty } with
          | (_, .ok ()) => true
          | (_, .error _) => false)) = true := by
    decide +kernel
  obtain ⟨trace, last, hrun, _, hcheck, htest⟩ := Runs.exists_run_of_exec hexec
  have htyped : TypedCalls (smallService ⟨1, none, none⟩) trace :=
    fun x hx => (of_decide_eq_true (hcheck x hx)).1
  have hreal : ∀ x ∈ trace, x.2.action.Real :=
    fun x hx => Action.real_of_not_asks (of_decide_eq_true (hcheck x hx)).2
  obtain ⟨row, hrow, hrest⟩ := (Option.any_eq_true _ _).mp htest
  obtain ⟨hstatus, hpersist⟩ := Bool.and_eq_true_iff.mp hrest
  obtain ⟨hcancelled, hunstarted⟩ := of_decide_eq_true hstatus
  split at hpersist
  · rename_i files' hwritten
    have helapsed : ∀ started ∈ row.startedAt, (5 : Timestamp) - started ≤ i64Max := by
      simp [hunstarted]
    have hboth := status_survives_document JsonText.compact_lossless countedDates hrun htyped
      hreal hrow helapsed
    exact ⟨trace, last, row, files', hrun, hrow, hcancelled, hwritten, hboth.2 _ _ hwritten⟩
  · cases hpersist

end World

end ExecgoRuntime
