import ExecgoRuntime.Admission
import ExecgoRuntime.ColumnStore
import ExecgoRuntime.EventLog
import ExecgoRuntime.Lib.TableRelation

/-!
The columns refine the decoded database. A row of columns stands for a record; a
method succeeds or fails alike on both levels and leaves rows that stand for the
records, and a query gives the same answer. So the columns of a run are those
that its calls make of an empty file, every reader decodes every row, and what
is proved of the decoded database holds of the file.
-/
namespace ExecgoRuntime

open KeyedTable

def IsI32 (value : ℤ) : Prop := -2 ^ 31 ≤ value ∧ value < 2 ^ 31

instance (value : ℤ) : Decidable (IsI32 value) := inferInstanceAs (Decidable (_ ∧ _))

def ResourceUsage.Words (usage : ResourceUsage) : Prop :=
  usage.durationMs ≤ u64Max ∧ (∀ n ∈ usage.userCpuMs, n ≤ u64Max) ∧
    (∀ n ∈ usage.systemCpuMs, n ≤ u64Max) ∧ (∀ n ∈ usage.maxRssBytes, n ≤ u64Max) ∧
    ∀ n ∈ usage.memoryPeakBytes, n ≤ u64Max

structure CompletionUpdate.WellTyped (update : CompletionUpdate) : Prop where
  exitCode : ∀ code ∈ update.exitCode, IsI32 code
  exitSignal : ∀ signal ∈ update.exitSignal, IsI32 signal
  usage : ∀ usage ∈ update.usage, usage.Words

def TaskWrite.WellTyped : TaskWrite → Prop
  | markDispatched shimPid => shimPid < 2 ^ 32
  | markStarted pid pgid _ => pid < 2 ^ 32 ∧ pgid < 2 ^ 31
  | reserveResources reservation _ => reservation.Words
  | completeTask update => update.WellTyped
  | _ => True

def StoreCall.WellTyped : StoreCall → Prop
  | insertTask new => new.WellTyped
  | write _ w => w.WellTyped
  | _ => True

theorem TaskResourceReservation.words_iff (reservation : TaskResourceReservation) :
    reservation.Words ↔ reservation.taskSlots ≤ u64Max ∧
      (∀ n ∈ reservation.memoryBytes, n ≤ u64Max) ∧ ∀ n ∈ reservation.pids, n ≤ u64Max := by
  constructor
  · intro h
    exact ⟨h .taskSlots _ rfl, fun n hn => h .memoryBytes n hn, fun n hn => h .pids n hn⟩
  · rintro ⟨hslots, hmemory, hpids⟩ c value hvalue
    cases c with
    | taskSlots =>
      cases hvalue
      exact hslots
    | memoryBytes => exact hmemory value hvalue
    | pids => exact hpids value hvalue

theorem TaskResourceReservation.valid_codec {reservation : TaskResourceReservation}
    (h : reservation.Words) : TaskResourceReservation.codec.Valid reservation := by
  simpa [TaskResourceReservation.codec, and_assoc] using reservation.words_iff.mp h

theorem ResourceUsage.valid_codec {usage : ResourceUsage} (h : usage.Words) :
    ResourceUsage.codec.Valid usage := by
  simpa [ResourceUsage.codec, ResourceUsage.Words, and_assoc] using h

theorem RuntimeErrorInfo.valid_codec (error : RuntimeErrorInfo) :
    RuntimeErrorInfo.codec.Valid error := by
  simp [RuntimeErrorInfo.codec, ErrorCode.codec]

section Relation

variable (text : JsonText) (cancelResult : Json.Value → CancelResult)

/-- How `row_to_task_record` reads the column `result_json`. -/
def readResult (raw : String) : Except ColumnError CancelResult :=
  match text.ofText raw with
  | some document => .ok (cancelResult document)
  | none => .error .conversionFailure

/-- The columns of the row hold the record. -/
structure StoredRow.Encodes (row : StoredRow) (record : TaskRecord) : Prop where
  taskId : row.taskId = record.taskId
  handleId : row.handleId = record.handleId
  status : decodeStatus row.status = .ok record.status
  execution : text.fromJson ExecutionSpec.codec row.executionJson = .ok record.execution
  limits : text.fromJson ResourceLimits.codec row.limitsJson = .ok record.limits
  sandbox : text.fromJson SandboxPolicy.codec row.sandboxJson = .ok record.sandbox
  metadata : text.fromJson metadataCodec row.metadataJson = .ok record.metadata
  createdAt : row.createdAtMs = record.createdAt
  updatedAt : row.updatedAtMs = record.updatedAt
  startedAt : row.startedAtMs = record.startedAt
  finishedAt : row.finishedAtMs = record.finishedAt
  durationMs : row.durationMs = record.durationMs.map Int.ofNat
  shimPid : row.shimPid.map asU32 = record.shimPid
  pid : row.pid.map asU32 = record.pid
  pgid : (row.pgid.mapM getI32).map (Option.map Int.toNat) = .ok record.pgid
  exitCode : row.exitCode.mapM getI32 = .ok record.exitCode
  exitSignal : row.exitSignal.mapM getI32 = .ok record.exitSignal
  errorCode : row.errorCode.mapM decodeErrorCode = .ok record.errorCode
  error : row.errorJson.mapM (text.fromJson RuntimeErrorInfo.codec) = .ok record.error
  usage : row.usageJson.mapM (text.fromJson ResourceUsage.codec) = .ok record.usage
  taskDir : row.taskDir = record.taskDir
  workspaceDir : row.workspaceDir = record.workspaceDir
  requestPath : row.requestPath = record.requestPath
  resultPath : row.resultPath = record.resultPath
  stdoutPath : row.stdoutPath = record.stdoutPath
  stderrPath : row.stderrPath = record.stderrPath
  scriptPath : row.scriptPath = record.scriptPath
  stdoutMaxBytes : widen row.stdoutMaxBytes = record.stdoutMaxBytes
  stderrMaxBytes : widen row.stderrMaxBytes = record.stderrMaxBytes
  killRequested : decide (row.killRequested ≠ 0) = record.killRequested
  killRequestedAt : row.killRequestedAtMs = record.killRequestedAt
  timeoutTriggered : decide (row.timeoutTriggered ≠ 0) = record.timeoutTriggered
  resultJson : row.resultJson.mapM (readResult text cancelResult) = .ok record.resultJson
  executionPlan : row.executionPlanJson.mapM (text.fromJson ExecutionPlan.codec) =
    .ok record.executionPlan
  controlContext : row.controlContextJson.mapM (text.fromJson ControlContext.codec) =
    .ok record.controlContext
  reservation : row.reservationJson.mapM (text.fromJson TaskResourceReservation.codec) =
    .ok record.reservation
  words : ∀ reservation ∈ record.reservation, reservation.Words
  reservedAt : row.reservedAtMs = record.reservedAt
  releasedAt : row.releasedAtMs = record.releasedAt

variable {text cancelResult}

theorem map_eq_ok {ε α β : Type} {x : Except ε α} {f : α → β} {b : β} (h : x.map f = .ok b) :
    ∃ a, x = .ok a ∧ f a = b := by
  cases x with
  | error e => cases h
  | ok a => exact ⟨a, rfl, Except.ok.inj h⟩

theorem bind_eq_ok {ε α β : Type} {x : Except ε α} {f : α → Except ε β} {b : β} :
    (x >>= f) = .ok b ↔ ∃ a, x = .ok a ∧ f a = .ok b := by
  cases x <;> simp [bind, Except.bind]

theorem StoredRow.Encodes.read {row : StoredRow} {record : TaskRecord}
    (h : row.Encodes text cancelResult record) :
    rowToTaskRecord text cancelResult row = .ok record := by
  obtain ⟨pgid, hpgid, hnat⟩ := map_eq_ok h.pgid
  have hduration : row.durationMs.map widen = record.durationMs := by
    rw [h.durationMs, Option.map_map]
    exact Option.map_id'
  simp only [rowToTaskRecord, h.status, h.execution, h.limits, h.sandbox, h.metadata, hpgid,
    h.exitCode, h.exitSignal, h.errorCode, h.error, h.usage, h.executionPlan, h.controlContext,
    h.reservation, bind, Except.bind, pure, Except.pure,
    h.taskId, h.handleId, h.createdAt, h.updatedAt, h.startedAt, h.finishedAt, hduration, h.shimPid,
    h.pid, hnat, h.taskDir, h.workspaceDir, h.requestPath, h.resultPath, h.stdoutPath, h.stderrPath,
    h.scriptPath, h.stdoutMaxBytes, h.stderrMaxBytes, h.killRequested, h.killRequestedAt,
    h.timeoutTriggered, h.reservedAt, h.releasedAt]
  have hresult := h.resultJson
  split
  · rename_i hcase
    cases hcase.symm.trans hresult
  · rename_i hcase
    rw [Except.ok.inj (hcase.symm.trans hresult)]

theorem StoredRow.Encodes.of_read {row : StoredRow} {record : TaskRecord}
    (h : rowToTaskRecord text cancelResult row = .ok record)
    (hduration : row.durationMs = record.durationMs.map Int.ofNat)
    (hwords : ∀ reservation ∈ record.reservation, reservation.Words) :
    row.Encodes text cancelResult record := by
  simp only [rowToTaskRecord, bind_eq_ok] at h
  obtain ⟨status, hstatus, execution, hexecution, limits, hlimits, sandbox, hsandbox, metadata,
    hmetadata, pgid, hpgid, exitCode, hexitCode, exitSignal, hexitSignal, errorCode, herrorCode,
    error, herror, usage, husage, resultJson, hresultJson, executionPlan, hexecutionPlan,
    controlContext, hcontrolContext, reservation, hreservation, hrecord⟩ := h
  cases hrecord
  constructor <;> first | assumption | rfl | simp [hpgid, Except.map]

namespace StoredRow.Encodes

theorem eq_encodeStatus {raw : String} {status : TaskStatus} (h : decodeStatus raw = .ok status) :
    raw = encodeStatus status := by
  unfold decodeStatus at h
  split at h <;> cases h <;> rfl

theorem eq_encodeErrorCode {raw : String} {code : ErrorCode} (h : decodeErrorCode raw = .ok code) :
    raw = encodeErrorCode code := by
  unfold decodeErrorCode at h
  split at h <;> cases h <;> rfl

theorem encodeStatus_injective : Function.Injective encodeStatus := by
  intro a b h
  have hdecode := congrArg decodeStatus h
  rw [decodeStatus_encodeStatus, decodeStatus_encodeStatus] at hdecode
  exact Except.ok.inj hdecode

theorem isSome_of_mapM {α β ε : Type} {f : α → Except ε β} {a : Option α} {b : Option β}
    (h : a.mapM f = .ok b) : a.isSome = b.isSome := by
  cases a with
  | none =>
    cases Except.ok.inj h
    rfl
  | some a =>
    obtain ⟨b, _, rfl⟩ := map_eq_ok h
    rfl

variable {row : StoredRow} {record : TaskRecord} (h : row.Encodes text cancelResult record)

include h

theorem status_text : row.status = encodeStatus record.status := eq_encodeStatus h.status

theorem errorCode_text : row.errorCode = record.errorCode.map encodeErrorCode := by
  have hread := h.errorCode
  cases hraw : row.errorCode with
  | none =>
    rw [hraw, Option.mapM_none] at hread
    rw [← Except.ok.inj hread]
    rfl
  | some raw =>
    rw [hraw, Option.mapM_some] at hread
    obtain ⟨code, hcode, hstored⟩ := map_eq_ok hread
    rw [← hstored, eq_encodeErrorCode hcode]
    rfl

/-- The guard `status = ..` of a statement. -/
theorem status_iff (status : TaskStatus) :
    row.status = encodeStatus status ↔ record.status = status := by
  rw [h.status_text]
  exact encodeStatus_injective.eq_iff

/-- A statement with the guard changes the row and the record alike. -/
theorem guarded (status : TaskStatus) {row' : StoredRow} {record' : TaskRecord}
    (h' : row'.Encodes text cancelResult record') :
    (if row.status = encodeStatus status then row' else row).Encodes text cancelResult
      (if record.status = status then record' else record) := by
  have hguard := h.status_iff status
  by_cases hstatus : record.status = status
  · rw [if_pos (hguard.mpr hstatus), if_pos hstatus]
    exact h'
  · rw [if_neg (fun hrow => hstatus (hguard.mp hrow)), if_neg hstatus]
    exact h

theorem hasActiveReservation : row.activeReservation = record.hasActiveReservation := by
  rw [activeReservation, TaskRecord.hasActiveReservation, h.releasedAt,
    isSome_of_mapM h.reservation]

theorem releasedAtOr (now : Timestamp) : row.releasedAtOr now = record.releasedAtOr now := by
  rw [StoredRow.releasedAtOr, TaskRecord.releasedAtOr, h.hasActiveReservation, h.releasedAt]

variable (now : Timestamp)

theorem setDispatched {shimPid : ℕ} (hpid : shimPid < 2 ^ 32) :
    (row.setDispatched shimPid now).Encodes text cancelResult
      (record.setDispatched shimPid now) := by
  have hread : Option.map asU32 (some (shimPid : ℤ)) = some shimPid := by
    simp only [Option.map_some, asU32]
    congr 1
    omega
  exact h.guarded .accepted { h with status := rfl, shimPid := hread, updatedAt := rfl }

theorem setStarted {pid pgid : ℕ} (hpid : pid < 2 ^ 32) (hpgid : pgid < 2 ^ 31)
    (scriptPath : Option String) :
    (row.setStarted pid pgid scriptPath now).Encodes text cancelResult
      (record.setStarted pid pgid scriptPath now) := by
  have hread : Option.map asU32 (some (pid : ℤ)) = some pid := by
    simp only [Option.map_some, asU32]
    congr 1
    omega
  have hgroup : ((some (pgid : ℤ)).mapM getI32).map (Option.map Int.toNat) = .ok (some pgid) := by
    have hget : getI32 (pgid : ℤ) = .ok (pgid : ℤ) := if_pos (by omega)
    rw [Option.mapM_some, hget]
    rfl
  have hscript : scriptPath.or row.scriptPath = scriptPath.or record.scriptPath := by
    rw [h.scriptPath]
  exact { h with status := rfl, pid := hread, pgid := hgroup, startedAt := rfl, updatedAt := rfl,
                 scriptPath := hscript }

theorem setReserved (htext : text.Lossless) {reservation : TaskResourceReservation}
    (hwords : reservation.Words) :
    (row.setReserved (text.toJson TaskResourceReservation.codec reservation) now).Encodes text
      cancelResult (record.setReserved reservation now) := by
  have hread := JsonText.fromJson_toJson htext (TaskResourceReservation.valid_codec hwords)
    (by decide)
  refine { h with reservation := ?_, words := ?_, reservedAt := rfl, releasedAt := rfl,
                  updatedAt := rfl }
  · simp only [StoredRow.setReserved, TaskRecord.setReserved, Option.mapM_some, hread]
    rfl
  · intro stored hstored
    cases hstored
    exact hwords

theorem setReleased :
    (row.setReleased now).Encodes text cancelResult (record.setReleased now) :=
  { h with updatedAt := rfl, releasedAt := rfl }

theorem setCancelRequested :
    (row.setCancelRequested now).Encodes text cancelResult (record.setCancelRequested now) :=
  { h with killRequested := rfl, killRequestedAt := rfl, updatedAt := rfl }

theorem setTimeoutTriggered :
    (row.setTimeoutTriggered now).Encodes text cancelResult (record.setTimeoutTriggered now) :=
  { h with timeoutTriggered := rfl, updatedAt := rfl }

theorem setRecovered :
    (row.setRecovered now).Encodes text cancelResult (record.setRecovered now) :=
  h.guarded .running { h with updatedAt := rfl }

end StoredRow.Encodes

/-- What is written is read back, also the date of a cancellation. -/
structure Readable (text : JsonText) (rfc3339 : Timestamp → String)
    (cancelResult : Json.Value → CancelResult) : Prop where
  lossless : text.Lossless
  cancelled : ∀ result, cancelResult (result.document rfc3339) = result

/-- The document fits the reader, and its members are by name already. -/
structure Kept (document : Json.Value) : Prop where
  within : document.Within u64Max JsonText.recursionLimit
  sorted : document.sorted = document

theorem kept_sorted {document : Json.Value} {depth : ℕ} (h : document.Within u64Max depth)
    (hdepth : depth ≤ JsonText.recursionLimit) : Kept document.sorted :=
  ⟨h.sorted.mono hdepth, Json.Value.sorted_sorted h⟩

theorem kept_toValue {α : Type} {codec : JsonCodec α} {a : α} (ha : codec.Valid a)
    (hheight : codec.height ≤ JsonText.recursionLimit) : Kept (toValue codec a) :=
  kept_sorted (codec.within a ha) hheight

theorem CancelResult.kept_document (rfc3339 : Timestamp → String) (result : CancelResult) :
    Kept (result.document rfc3339) := by
  have herror := RuntimeErrorInfo.codec.within result.error (RuntimeErrorInfo.valid_codec _)
  refine kept_sorted
    (show Json.Value.Within u64Max (RuntimeErrorInfo.codec.height + 1) _ from ?_) (by decide)
  intro m hm
  simp only [List.mem_cons, List.not_mem_nil, or_false] at hm
  rcases hm with rfl | rfl | rfl | rfl | rfl
  · trivial
  · trivial
  · trivial
  · trivial
  · exact herror

/-- The values of the source's types. -/
def EventData.WellTyped : EventData → Prop
  | plan executionPlan => executionPlan.resourceEnforcement.Words
  | degradation _ _ => True
  | reservation reserved => reserved.Words

theorem EventData.kept_document {data : EventData} (h : data.WellTyped) : Kept data.document := by
  cases data with
  | plan executionPlan => exact kept_toValue (ExecutionPlan.valid_codec h) (by decide)
  | reservation reserved => exact kept_toValue (TaskResourceReservation.valid_codec h) (by decide)
  | degradation reasons sandbox =>
    have hsandbox := SandboxPolicy.codec.within sandbox (SandboxPolicy.valid_codec sandbox)
    refine kept_sorted
      (show Json.Value.Within u64Max (SandboxPolicy.codec.height + 1) _ from ?_) (by decide)
    intro m hm
    simp only [List.mem_cons, List.not_mem_nil, or_false] at hm
    rcases hm with rfl | rfl
    · intro item hitem
      obtain ⟨reason, _, rfl⟩ := List.mem_map.mp hitem
      trivial
    · exact hsandbox

theorem jsonValue_toText (htext : text.Lossless) {document : Json.Value} (h : Kept document) :
    jsonValue text (text.toText document) = .ok document := by
  simp only [jsonValue, htext document h.within, h.sorted]

namespace StoredRow.Encodes

variable {row : StoredRow} {record : TaskRecord} (h : row.Encodes text cancelResult record)

include h

theorem setCancelled {rfc3339 : Timestamp → String} (hread : Readable text rfc3339 cancelResult)
    (error : RuntimeErrorInfo) (now : Timestamp) :
    (row.setCancelled (encodeErrorCode error.code) (text.toJson RuntimeErrorInfo.codec error)
      (text.toText (CancelResult.document rfc3339
        ⟨record.taskId, record.taskId, .cancelled, now, error⟩)) now).Encodes text cancelResult
      (record.setCancelled error now) := by
  refine h.guarded .accepted { h with
    status := rfl, updatedAt := rfl, finishedAt := rfl, releasedAt := h.releasedAtOr now
    errorCode := ?_, error := ?_, durationMs := rfl, resultJson := ?_ }
  · rw [Option.mapM_some, decodeErrorCode_encodeErrorCode]
    rfl
  · rw [Option.mapM_some, JsonText.fromJson_toJson hread.lossless (RuntimeErrorInfo.valid_codec _)
      (by decide)]
    rfl
  · have hkept := CancelResult.kept_document rfc3339
      ⟨record.taskId, record.taskId, .cancelled, now, error⟩
    rw [Option.mapM_some, readResult, hread.lossless _ hkept.within]
    simp only [hread.cancelled]
    rfl

theorem setCompleted (htext : text.Lossless) {update : CompletionUpdate}
    (hupdate : update.WellTyped) {durationMs : Option ℤ}
    (hduration : durationMs = update.durationMs.map Int.ofNat) :
    (row.setCompleted text update durationMs).Encodes text cancelResult
      (record.setCompleted update) := by
  have hi32 : ∀ {code : Option ℤ}, (∀ value ∈ code, IsI32 value) →
      code.mapM getI32 = .ok code := by
    intro code hcode
    cases code with
    | none => rfl
    | some value =>
      have hget : getI32 value = .ok value := if_pos (hcode value rfl)
      rw [Option.mapM_some, hget]
      rfl
  refine { h with
    status := decodeStatus_encodeStatus _, updatedAt := rfl, finishedAt := rfl
    releasedAt := h.releasedAtOr _, durationMs := hduration
    exitCode := hi32 hupdate.exitCode, exitSignal := hi32 hupdate.exitSignal
    errorCode := ?_, error := ?_, usage := ?_, resultJson := rfl }
  · simp only [StoredRow.setCompleted, TaskRecord.setCompleted]
    cases update.error with
    | none => rfl
    | some error =>
      rw [Option.map_some, Option.mapM_some, decodeErrorCode_encodeErrorCode]
      rfl
  · exact mapM_fromJson_toJson htext (fun error _ => RuntimeErrorInfo.valid_codec error)
      (by decide)
  · exact mapM_fromJson_toJson htext
      (fun usage hmem => ResourceUsage.valid_codec (hupdate.usage usage hmem)) (by decide)

end StoredRow.Encodes

namespace StoredDb

variable (text) (cancelResult)

structure Represents (store : StoredDb) (db : Db) : Prop where
  tasks : store.tasks.Related (StoredRow.Encodes text cancelResult) db.tasks
  events : List.Forall₂ (fun row event => rowToEventRecord text row = .ok event.document)
    store.taskEvents db.taskEvents
  lastSeq : store.lastSeq = db.lastSeq

variable {text cancelResult} {store : StoredDb} {db : Db}

theorem sameKeys : SameKeys StoredRow.taskId TaskRecord.taskId
    (StoredRow.Encodes text cancelResult) := fun _ _ h => h.taskId

/-- The two databases after a method, or its two errors. -/
abbrev Simulates (text : JsonText) (cancelResult : Json.Value → CancelResult)
    (result : AppResult StoredDb) (result' : AppResult Db) : Prop :=
  Outcome (Represents text cancelResult) result result'

theorem represents_empty : (empty).Represents text cancelResult .empty :=
  ⟨Table.related_empty, .nil, rfl⟩

theorem eventTaskId {row : StoredEvent} {event : EventRecord}
    (h : rowToEventRecord text row = .ok event.document) : row.taskId = event.taskId := by
  simp only [rowToEventRecord, bind_eq_ok] at h
  obtain ⟨_, _, _, _, hdocument⟩ := h
  exact congrArg EventDocument.taskId (Except.ok.inj hdocument)

namespace Represents

variable (h : store.Represents text cancelResult db)

include h

theorem find (taskId : TaskId) :
    Option.Rel (StoredRow.Encodes text cancelResult) (store.tasks.find taskId)
      (db.tasks.find taskId) :=
  h.tasks.find sameKeys taskId

theorem updateTask {taskId : TaskId} {set : StoredRow → StoredRow}
    (hset : KeepsKey StoredRow.taskId set) {set' : TaskRecord → TaskRecord}
    (hset' : KeepsKey TaskRecord.taskId set')
    (heffect : ∀ row record, StoredRow.Encodes text cancelResult row record →
      record.taskId = taskId → (set row).Encodes text cancelResult (set' record)) :
    (store.updateTask taskId set hset).Represents text cancelResult
      (db.updateTask taskId set' hset') where
  tasks := h.tasks.update sameKeys taskId hset hset'
    (fun row record hrow hid => heffect row record hrow (hrow.taskId.symm.trans hid))
  events := h.events
  lastSeq := h.lastSeq

theorem insertEvent (htext : text.Lossless) (now : Timestamp) (taskId : TaskId)
    (eventType : EventType) (message : Option String) (data : Option EventData)
    (hdata : ∀ value ∈ data, value.WellTyped) :
    Simulates text cancelResult
      (store.insertEvent text now taskId eventType message (data.map EventData.document))
      (db.insertEvent now taskId eventType message data) := by
  have hsome := h.tasks.find_isSome sameKeys taskId
  unfold StoredDb.insertEvent Db.insertEvent
  by_cases hrow : (db.tasks.find taskId).isSome = true
  · rw [dif_pos (hsome.trans hrow), dif_pos hrow]
    refine .ok ⟨h.tasks, List.rel_append h.events (.cons ?_ .nil),
      congrArg (· + 1) h.lastSeq⟩
    have hread : (Option.map text.toText (data.map EventData.document)).mapM (jsonValue text) =
        .ok (data.map EventData.document) := by
      cases data with
      | none => rfl
      | some value =>
        simp only [Option.map_some, Option.mapM_some,
          jsonValue_toText htext (EventData.kept_document (hdata value rfl))]
        rfl
    simp only [rowToEventRecord, decodeEventType_encodeEventType, hread, bind, Except.bind, pure,
      Except.pure, h.lastSeq]
    rfl
  · rw [dif_neg (fun hstored => hrow (hsome.symm.trans hstored)), dif_neg hrow]
    exact .error _

/-- The text of an active reservation reads as the reservation. -/
theorem activeReservation (taskId : TaskId) :
    Option.Rel (fun raw (reservation : TaskResourceReservation) =>
        parseReservation text raw = .ok reservation ∧ reservation.Words)
      (store.activeReservationJson taskId) (db.activeReservation taskId) := by
  have hfind := h.find taskId
  unfold activeReservationJson Db.activeReservation
  generalize store.tasks.find taskId = stored at hfind ⊢
  generalize db.tasks.find taskId = found at hfind ⊢
  cases hfind with
  | none => exact .none
  | @some row record hrow =>
    simp only [Option.bind_some, hrow.hasActiveReservation]
    by_cases hactive : record.hasActiveReservation = true
    · rw [if_pos hactive, if_pos hactive]
      have hread := hrow.reservation
      cases hraw : row.reservationJson with
      | none =>
        rw [hraw, Option.mapM_none] at hread
        rw [← Except.ok.inj hread]
        exact .none
      | some raw =>
        rw [hraw, Option.mapM_some] at hread
        obtain ⟨reservation, hparse, hstored⟩ := map_eq_ok hread
        rw [← hstored]
        refine .some ⟨?_, hrow.words reservation hstored.symm⟩
        rw [parseReservation, hparse]
        rfl
    · rw [if_neg hactive, if_neg hactive]
      exact .none

theorem insertReleaseEvent (htext : text.Lossless) (now : Timestamp) (taskId : TaskId)
    {raw : Option String} {active : Option TaskResourceReservation}
    (hactive : Option.Rel (fun raw (reservation : TaskResourceReservation) =>
        parseReservation text raw = .ok reservation ∧ reservation.Words) raw active) :
    Simulates text cancelResult (store.insertReleaseEvent text now taskId raw)
      (db.insertReleaseEvent now taskId active) := by
  cases hactive with
  | none => exact .ok h
  | @some raw reservation hread =>
    obtain ⟨hparse, hwords⟩ := hread
    simp only [StoredDb.insertReleaseEvent, hparse]
    exact h.insertEvent htext now taskId .resourceReleased _ (some (.reservation reservation))
      (by simpa [EventData.WellTyped] using hwords)

theorem deleteTask (taskId : TaskId) :
    Simulates text cancelResult (store.deleteTask taskId) (db.deleteTask taskId) := by
  refine .ok ⟨h.tasks.erase sameKeys taskId, List.rel_filter (fun row event hrow => ?_) h.events,
    h.lastSeq⟩
  simp only [decide_eq_true_eq, eventTaskId hrow]

variable {rfc3339 : Timestamp → String} (hread : Readable text rfc3339 cancelResult)

include hread

theorem insertTask (now : Timestamp) {new : NewTaskRecord} (hnew : new.WellTyped) :
    Simulates text cancelResult (store.insertTask text now new) (db.insertTask now new) := by
  have htext := hread.lossless
  unfold StoredDb.insertTask Db.insertTask
  by_cases hout : i64Max < new.request.limits.stdoutMaxBytes
  · have hnarrow : narrow new.request.limits.stdoutMaxBytes "stdout_max_bytes is too large" =
        .error (.invalidInput "stdout_max_bytes is too large") := if_neg (by omega)
    simp only [NewTaskRecord.toStoredRow, hnarrow, if_pos hout]
    exact .error _
  by_cases herr : i64Max < new.request.limits.stderrMaxBytes
  · have hnarrow : narrow new.request.limits.stderrMaxBytes "stderr_max_bytes is too large" =
        .error (.invalidInput "stderr_max_bytes is too large") := if_neg (by omega)
    simp only [NewTaskRecord.toStoredRow, hnarrow, if_pos herr, if_neg hout,
      narrow_eq_ok (not_lt.mp hout)]
    exact .error _
  have hrow : ∃ row, new.toStoredRow text now = .ok row ∧ row.durationMs = none := by
    simp only [NewTaskRecord.toStoredRow, narrow_eq_ok (not_lt.mp hout),
      narrow_eq_ok (not_lt.mp herr)]
    exact ⟨_, rfl, rfl⟩
  obtain ⟨row, hrow, hduration⟩ := hrow
  obtain ⟨hid, hrecord⟩ := rowToTaskRecord_toStoredRow htext cancelResult hnew hrow
  have hencodes : row.Encodes text cancelResult (new.toRow now) :=
    .of_read hrecord hduration (by simp [NewTaskRecord.toRow])
  have hfree : store.tasks.find row.taskId = none ↔
      db.tasks.find (new.toRow now).taskId = none := by
    rw [hid]
    exact h.tasks.find_none sameKeys new.taskId
  simp only [hrow, if_neg hout, if_neg herr]
  change Simulates text cancelResult (dite (store.tasks.find row.taskId = none) _ _)
    (dite (db.tasks.find (new.toRow now).taskId = none) _ _)
  by_cases hnone : db.tasks.find (new.toRow now).taskId = none
  · rw [dif_pos (hfree.mpr hnone), dif_pos hnone]
    have hinserted : (store.insertRow row (hfree.mpr hnone)).Represents text cancelResult
        (db.insertRow (new.toRow now) hnone) :=
      ⟨h.tasks.insert hencodes (hfree.mpr hnone) hnone, h.events, h.lastSeq⟩
    have hplan : new.executionPlan.resourceEnforcement.Words := hnew.enforcement
    refine (hinserted.insertEvent htext now new.taskId .submitted _ none (by simp)).bind
      (fun _ _ h₁ => (h₁.insertEvent htext now new.taskId .accepted _ none (by simp)).bind
        (fun _ _ h₂ => (h₂.insertEvent htext now new.taskId .planned _
          (some (.plan new.executionPlan)) (by simpa [EventData.WellTyped] using hplan)).bind
            (fun _ _ h₃ => ?_)))
    by_cases hdegraded : new.executionPlan.degraded = true
    · rw [if_pos hdegraded, if_pos hdegraded]
      exact h₃.insertEvent htext now new.taskId .degraded _ (some (.degradation _ _))
        (by simp [EventData.WellTyped])
    · rw [if_neg hdegraded, if_neg hdegraded]
      exact .ok h₃
  · rw [dif_neg (fun hstored => hnone (hfree.mp hstored)), dif_neg hnone]
    exact .error _

theorem write (now : Timestamp) (taskId : TaskId) {w : TaskWrite} (hw : w.WellTyped) :
    Simulates text cancelResult (store.write text rfc3339 w now taskId) (w.run now taskId db) := by
  have htext := hread.lossless
  have hactive := h.activeReservation taskId
  cases w with
  | markDispatched shimPid =>
    exact .ok (h.updateTask _ _ (fun _ _ hrow _ => hrow.setDispatched now hw))
  | markStarted pid pgid scriptPath =>
    exact (h.updateTask _ _
      (fun _ _ hrow _ => hrow.setStarted now hw.1 hw.2 scriptPath)).insertEvent htext now taskId
        .started _ none (by simp)
  | reserveResources reservation message =>
    have hwords : reservation.Words := hw
    exact (h.updateTask _ _ (fun _ _ hrow _ => hrow.setReserved now htext hwords)).insertEvent
      htext now taskId .resourceReserved _ (some (.reservation reservation))
      (by simpa [EventData.WellTyped] using hwords)
  | releaseResources message =>
    simp only [StoredDb.write, TaskWrite.run, StoredDb.releaseResources, Db.releaseResources]
    generalize store.activeReservationJson taskId = raw at hactive ⊢
    generalize db.activeReservation taskId = active at hactive ⊢
    cases hactive with
    | none => exact .ok h
    | @some raw reservation hraw =>
      obtain ⟨hparse, hwords⟩ := hraw
      simp only [hparse]
      exact (h.updateTask _ _ (fun _ _ hrow _ => hrow.setReleased now)).insertEvent htext now taskId
        .resourceReleased _ (some (.reservation reservation))
        (by simpa [EventData.WellTyped] using hwords)
  | setCancelRequested =>
    exact (h.updateTask _ _ (fun _ _ hrow _ => hrow.setCancelRequested now)).insertEvent htext now
      taskId .killRequested _ none (by simp)
  | markTimeoutTriggered =>
    exact (h.updateTask _ _ (fun _ _ hrow _ => hrow.setTimeoutTriggered now)).insertEvent htext now
      taskId .timeoutTriggered _ none (by simp)
  | cancelAcceptedTask error =>
    have heffect : ∀ row record, StoredRow.Encodes text cancelResult row record →
        record.taskId = taskId → (row.setCancelled (encodeErrorCode error.code)
          (text.toJson RuntimeErrorInfo.codec error) (text.toText (CancelResult.document rfc3339
            ⟨taskId, taskId, .cancelled, now, error⟩)) now).Encodes text cancelResult
          (record.setCancelled error now) := by
      intro row record hrow hid
      have hset := hrow.setCancelled hread error now
      rwa [hid] at hset
    have hupdated := h.updateTask
      (StoredRow.keeps_setCancelled _ _ _ now) (Db.keeps_setCancelled error now) heffect
    exact (hupdated.insertReleaseEvent htext now taskId hactive).bind
      (fun _ _ h' => h'.insertEvent htext now taskId .cancelled _ none (by simp))
  | completeTask update =>
    simp only [StoredDb.write, TaskWrite.run, StoredDb.completeTask, Db.completeTask]
    cases hlarge : update.durationMs.any (fun duration => decide (i64Max < duration)) with
    | true =>
      obtain ⟨duration, hduration, hlt⟩ := (Option.any_eq_true _ _).mp hlarge
      have hnarrow : narrow duration "duration_ms is too large to persist" =
          .error (.invalidInput "duration_ms is too large to persist") :=
        if_neg (by simpa using hlt)
      rw [hduration, Option.mapM_some, hnarrow]
      exact .error _
    | false =>
      have hnarrow : update.durationMs.mapM
          (fun duration => narrow duration "duration_ms is too large to persist") =
            .ok (update.durationMs.map Int.ofNat) := by
        cases hduration : update.durationMs with
        | none => rfl
        | some duration =>
          rw [hduration] at hlarge
          have hle : duration ≤ i64Max := by simpa using hlarge
          rw [Option.mapM_some, narrow_eq_ok hle]
          rfl
      rw [hnarrow]
      have hupdated : (store.updateTask taskId
          (.setCompleted text update (update.durationMs.map Int.ofNat)) (fun _ => rfl)).Represents
            text cancelResult (db.updateTask taskId (.setCompleted update) (fun _ => rfl)) :=
        h.updateTask _ _ (fun _ _ hrow _ => hrow.setCompleted htext hw rfl)
      exact (hupdated.insertReleaseEvent htext now taskId hactive).bind
        (fun _ _ h' => h'.insertEvent htext now taskId _ _ none (by simp))
  | markRecovered =>
    exact (h.updateTask _ _ (fun _ _ hrow _ => hrow.setRecovered now)).insertEvent htext now
      taskId .recovered _ none (by simp)

/-- A method has the same outcome on the columns. -/
theorem exec (call : StoreCall) (now : Timestamp) (hcall : call.WellTyped) :
    Simulates text cancelResult (store.exec text rfc3339 call now) (call.exec now db) := by
  cases call with
  | read => exact .ok h
  | insertTask new => exact h.insertTask hread now hcall
  | write taskId w => exact h.write hread now taskId hcall
  | deleteTask taskId => exact h.deleteTask taskId

end Represents

variable (text) (cancelResult)

/-- Every reading method gives the answer of the decoded database. -/
structure AnswersAs (store : StoredDb) (db : Db) : Prop where
  getTask : ∀ taskId, store.tasks.getTask text cancelResult taskId = db.getTask taskId
  listEvents : ∀ taskId,
    store.listEvents text taskId = .ok ((db.listEvents taskId).map EventRecord.document)
  countByStatus : ∀ status, store.countByStatus status = db.countByStatus status
  listAccepted : ∀ limit, store.listAccepted text cancelResult limit = .ok (db.listAccepted limit)
  listNonTerminal : store.listNonTerminal text cancelResult = .ok db.listNonTerminal
  listActiveReservations :
    store.listActiveReservations text cancelResult = .ok db.listActiveReservations
  countAcceptedWaiting : store.countAcceptedWaiting = db.countAcceptedWaiting
  isCancelRequested : ∀ taskId, store.isCancelRequested taskId = db.isCancelRequested taskId
  listGcCandidates : ∀ bound,
    store.listGcCandidates text cancelResult bound = .ok (db.listGcCandidates bound)
  metrics : ∀ rows, store.Answers rows ↔ db.Answers rows

variable {text cancelResult}

theorem readRows_ok {rows : List StoredRow} {records : List TaskRecord}
    (h : List.Forall₂ (StoredRow.Encodes text cancelResult) rows records) :
    readRows text cancelResult rows = .ok records := by
  rw [readRows, mapM_of_forall₂ (h.imp fun _ _ hrow => hrow.read)]
  rfl

theorem forall₂_byCreation {rows : List StoredRow} {records : List TaskRecord}
    (h : List.Forall₂ (StoredRow.Encodes text cancelResult) rows records) :
    List.Forall₂ (StoredRow.Encodes text cancelResult) (byCreation rows) (Db.byCreation records) :=
  forall₂_insertionSort (fun _ _ _ _ hr hr' => by rw [hr.createdAt, hr'.createdAt]) h

namespace Represents

variable (h : store.Represents text cancelResult db)

include h

theorem select {p : StoredRow → Bool} {q : TaskRecord → Bool}
    (hpq : ∀ row record, StoredRow.Encodes text cancelResult row record → p row = q record) :
    List.Forall₂ (StoredRow.Encodes text cancelResult) (store.tasks.select p)
      (db.tasks.select q) :=
  h.tasks.select hpq

theorem getTask (taskId : TaskId) :
    store.tasks.getTask text cancelResult taskId = db.getTask taskId := by
  have hfind := h.find taskId
  unfold StoredTable.getTask Db.getTask
  generalize store.tasks.find taskId = stored at hfind ⊢
  generalize db.tasks.find taskId = found at hfind ⊢
  cases hfind with
  | none => rfl
  | some hrow => simp only [hrow.read, Except.mapError]

theorem isCancelRequested (taskId : TaskId) :
    store.isCancelRequested taskId = db.isCancelRequested taskId := by
  have hfind := h.find taskId
  unfold StoredDb.isCancelRequested Db.isCancelRequested
  generalize store.tasks.find taskId = stored at hfind ⊢
  generalize db.tasks.find taskId = found at hfind ⊢
  cases hfind with
  | none => rfl
  | some hrow => simp only [hrow.killRequested]

/-- The rows are sorted by number already. -/
theorem listEvents (hnumbered : db.Numbered) (taskId : TaskId) :
    store.listEvents text taskId = .ok ((db.listEvents taskId).map EventRecord.document) := by
  have hselected : List.Forall₂ (fun row event => rowToEventRecord text row = .ok event.document)
      (store.taskEvents.filter (fun event => decide (event.taskId = taskId)))
      (db.listEvents taskId) :=
    List.rel_filter (fun row event hrow => by simp only [decide_eq_true_eq, eventTaskId hrow])
      h.events
  have hseq : ∀ row event, rowToEventRecord text row = .ok (EventRecord.document event) →
      row.seq = event.seq := by
    intro row event hrow
    simp only [rowToEventRecord, bind_eq_ok] at hrow
    obtain ⟨_, _, _, _, hdocument⟩ := hrow
    exact congrArg EventDocument.seq (Except.ok.inj hdocument)
  have hle : ∀ (r r' : StoredEvent) (s s' : EventRecord),
      rowToEventRecord text r = .ok s.document → rowToEventRecord text r' = .ok s'.document →
        (r.seq ≤ r'.seq ↔ s.seq ≤ s'.seq) := by
    intro r r' s s' hr hr'
    rw [hseq r s hr, hseq r' s' hr']
  have hsorted := forall₂_insertionSort hle hselected
  have hordered : (db.listEvents taskId).Pairwise (fun a b => a.seq ≤ b.seq) :=
    (List.pairwise_map.mp (hnumbered.listEvents taskId)).imp Nat.le_of_lt
  rw [hordered.insertionSort_eq] at hsorted
  have hread : List.Forall₂ (fun row document => rowToEventRecord text row = .ok document) _
      ((db.listEvents taskId).map EventRecord.document) :=
    List.forall₂_map_right_iff.mpr hsorted
  rw [StoredDb.listEvents, mapM_of_forall₂ hread]
  rfl

theorem countByStatus (status : TaskStatus) :
    store.countByStatus status = db.countByStatus status :=
  (h.select fun _ _ hrow => by rw [decide_eq_decide]; exact hrow.status_iff status).length_eq

theorem listAccepted (limit : ℕ) :
    store.listAccepted text cancelResult limit = .ok (db.listAccepted limit) := by
  have hrows := forall₂_byCreation (h.select
    (p := fun row => decide (row.status = "accepted"))
    (q := fun record => decide (record.status = .accepted))
    (fun _ _ hrow => by rw [decide_eq_decide]; exact hrow.status_iff .accepted))
  apply readRows_ok
  unfold Db.listAccepted Db.limitRows
  split
  · exact List.forall₂_take limit hrows
  · exact hrows

theorem listNonTerminal : store.listNonTerminal text cancelResult = .ok db.listNonTerminal := by
  refine readRows_ok (forall₂_byCreation (h.select fun row record hrow => ?_))
  rw [hrow.status_text]
  cases record.status <;> rfl

theorem listActiveReservations :
    store.listActiveReservations text cancelResult = .ok db.listActiveReservations := by
  refine readRows_ok (forall₂_insertionSort (fun r r' s s' hr hr' => ?_)
    (forall₂_byCreation (h.select fun _ _ hrow => hrow.hasActiveReservation)))
  rw [reservedBefore, Db.reservedBefore, hr.reservedAt, hr'.reservedAt]
  exact Iff.rfl

theorem countAcceptedWaiting : store.countAcceptedWaiting = db.countAcceptedWaiting := by
  refine (h.select fun row record hrow => ?_).length_eq
  have hsome := StoredRow.Encodes.isSome_of_mapM hrow.reservation
  rw [hrow.status_text, hrow.releasedAt, TaskRecord.hasActiveReservation, ← hsome]
  cases record.status <;> cases row.reservationJson <;> cases record.releasedAt <;> rfl

theorem listGcCandidates (bound : Timestamp) :
    store.listGcCandidates text cancelResult bound = .ok (db.listGcCandidates bound) := by
  refine readRows_ok (forall₂_insertionSort
    (fun r r' s s' hr hr' => by rw [hr.finishedAt, hr'.finishedAt])
    (h.select fun row record hrow => ?_))
  rw [hrow.status_text, hrow.finishedAt]
  cases record.status <;> rfl

theorem metrics (rows : MetricsRows) : store.Answers rows ↔ db.Answers rows := by
  have hstatuses := map_eq_of_forall₂ (fun _ _ hrow => StoredRow.Encodes.status_text hrow) h.tasks
  have hcodes := filterMap_eq_of_forall₂ (fun _ _ hrow => StoredRow.Encodes.errorCode_text hrow)
    h.tasks
  have hdurations := filterMap_eq_of_forall₂ (fun _ _ hrow => StoredRow.Encodes.durationMs hrow)
    h.tasks
  constructor
  · rintro ⟨hs, hc, hd⟩
    exact ⟨hstatuses ▸ hs, hcodes ▸ hc, hdurations ▸ hd⟩
  · rintro ⟨hs, hc, hd⟩
    exact ⟨hstatuses ▸ hs, hcodes ▸ hc, hdurations ▸ hd⟩

theorem answersAs (hnumbered : db.Numbered) : store.AnswersAs text cancelResult db where
  getTask := h.getTask
  listEvents := h.listEvents hnumbered
  countByStatus := h.countByStatus
  listAccepted := h.listAccepted
  listNonTerminal := h.listNonTerminal
  listActiveReservations := h.listActiveReservations
  countAcceptedWaiting := h.countAcceptedWaiting
  isCancelRequested := h.isCancelRequested
  listGcCandidates := h.listGcCandidates
  metrics := h.metrics

end Represents

end StoredDb

end Relation

namespace World

variable {svc : RuntimeService} {text : JsonText} {rfc3339 : Timestamp → String}
  {cancelResult : Json.Value → CancelResult}

/-- The calls that a run committed, on an empty file. -/
def replay (text : JsonText) (rfc3339 : Timestamp → String) (svc : RuntimeService)
    (trace : List (World × Event)) : AppResult StoredDb :=
  trace.foldlM (fun store x =>
    match x.1.committed svc x.2 with
    | some call => store.exec text rfc3339 call x.2.now
    | none => .ok store) .empty

/-- The arguments of the committed calls are values of the source's types. -/
def TypedCalls (svc : RuntimeService) (trace : List (World × Event)) : Prop :=
  ∀ x ∈ trace, ∀ call ∈ x.1.committed svc x.2, call.WellTyped

theorem replay_represents (hread : Readable text rfc3339 cancelResult)
    {trace : List (World × Event)} {last : World} (hrun : Run svc init trace last)
    (htyped : TypedCalls svc trace) :
    ∃ store, replay text rfc3339 svc trace = .ok store ∧
      store.Represents text cancelResult last.db := by
  induction hrun with
  | nil => exact ⟨.empty, rfl, StoredDb.represents_empty⟩
  | @snoc trace w e w' _ hstep ih =>
    obtain ⟨store, hreplay, hrepresents⟩ := ih (fun x hx => htyped x (List.mem_append_left _ hx))
    have hlast : replay text rfc3339 svc (trace ++ [(w, e)]) =
        match w.committed svc e with
        | some call => store.exec text rfc3339 call e.now
        | none => .ok store := by
      rw [replay, List.foldlM_append]
      change (replay text rfc3339 svc trace).bind _ = _
      rw [hreplay]
      exact bind_pure _
    rcases step_db hstep with ⟨hnone, hdb⟩ | ⟨call, hcall, hexec⟩
    · rw [hlast, hnone, hdb]
      exact ⟨store, rfl, hrepresents⟩
    · rw [hlast, hcall]
      exact (hrepresents.exec hread call e.now (htyped (w, e) (by simp) call hcall)).exists_of_ok
        hexec

/-- The columns refine the decoded database over whole runs. The calls that a run
commits succeed on the file too; then every query on the file decodes and gives the
answer of the decoded database, and any next call has the same outcome on both. -/
theorem columns_refine (hread : Readable text rfc3339 cancelResult)
    {trace : List (World × Event)} {last : World} (hrun : Run svc init trace last)
    (htyped : TypedCalls svc trace) :
    ∃ store, replay text rfc3339 svc trace = .ok store ∧
      store.AnswersAs text cancelResult last.db ∧
      ∀ (call : StoreCall) (now : Timestamp), call.WellTyped →
        StoredDb.Simulates text cancelResult (store.exec text rfc3339 call now)
          (call.exec now last.db) := by
  obtain ⟨store, hreplay, hrepresents⟩ := replay_represents hread hrun htyped
  exact ⟨store, hreplay, hrepresents.answersAs (numbered_of_run hrun),
    fun call now hcall => hrepresents.exec hread call now hcall⟩

end World

theorem CancelResult.document_eq (rfc3339 : Timestamp → String) (result : CancelResult) :
    result.document rfc3339 = .object [
      ("error", RuntimeErrorInfo.codec.encode result.error),
      ("finished_at", .string (rfc3339 result.finishedAt)),
      ("handle_id", .string result.handleId),
      ("status", .string (encodeStatus result.status)),
      ("task_id", .string result.taskId)] := by
  have herror : (RuntimeErrorInfo.codec.encode result.error).sorted =
      RuntimeErrorInfo.codec.encode result.error := by
    cases result.error with
    | mk code message =>
      simp [RuntimeErrorInfo.codec, Serde.Shape.codec, Serde.written, Serde.Shape.field,
        Serde.Shape.start, Serde.Slot.required, Serde.Slot.skipped, Json.Value.sorted,
        Json.sortedMembers, Json.insertMember, Json.NameLE, ErrorCode.codec,
        Serde.Codec.variants, Serde.Codec.string]
  simp [document, Json.Value.sorted, Json.sortedMembers, Json.insertMember, Json.NameLE, herror]

/-- Dates by their distance from the first, which alone is written in full. -/
def dateText (date : ℤ) : String :=
  if date = 0 then "1970-01-01T00:00:00Z"
  else String.ofList (List.replicate date.natAbs (if 0 < date then '+' else '-'))

def readDate (raw : String) : ℤ :=
  if raw = "1970-01-01T00:00:00Z" then 0
  else if raw.toList.head? = some '-' then -raw.toList.length else raw.toList.length

theorem readDate_dateText (date : ℤ) : readDate (dateText date) = date := by
  unfold dateText readDate
  by_cases hzero : date = 0
  · simp [hzero]
  · have hpos : 0 < date.natAbs := Int.natAbs_pos.mpr hzero
    obtain ⟨n, hn⟩ : ∃ n, date.natAbs = n + 1 := ⟨date.natAbs - 1, by omega⟩
    rw [if_neg hzero, hn]
    have hfull : ∀ sign : Char, sign ≠ '1' →
        String.ofList (List.replicate (n + 1) sign) ≠ "1970-01-01T00:00:00Z" := by
      intro sign hsign heq
      have hhead := congrArg (fun raw : String => raw.toList.head?) heq
      rw [String.toList_ofList, List.replicate_succ, List.head?_cons] at hhead
      exact hsign (Option.some.inj hhead)
    by_cases hsign : 0 < date
    · rw [if_pos hsign, if_neg (hfull '+' (by decide)), String.toList_ofList,
        List.head?_replicate, List.length_replicate, if_neg (by simp)]
      omega
    · rw [if_neg hsign, if_neg (hfull '-' (by decide)), String.toList_ofList,
        List.head?_replicate, List.length_replicate, if_pos (by simp)]
      omega

def readCancelResult : Json.Value → CancelResult
  | .object [(_, error), (_, .string date), (_, .string handleId), (_, .string status),
      (_, .string taskId)] =>
    ⟨taskId, handleId, (decodeStatus status).toOption.getD .cancelled, readDate date,
      (RuntimeErrorInfo.codec.decode error).getD ⟨.internal, ""⟩⟩
  | _ => ⟨"", "", .cancelled, 0, ⟨.internal, ""⟩⟩

theorem readable_compact : Readable .compact dateText readCancelResult where
  lossless := JsonText.compact_lossless
  cancelled := by
    intro result
    rw [CancelResult.document_eq]
    simp [readCancelResult, readDate_dateText, decodeStatus_encodeStatus,
      RuntimeErrorInfo.codec.decode_encode _ (RuntimeErrorInfo.valid_codec _), Except.toOption]

instance : DecidablePred TaskResourceReservation.Words := fun reservation =>
  decidable_of_iff (reservation.taskSlots ≤ u64Max ∧ (∀ n ∈ reservation.memoryBytes, n ≤ u64Max) ∧
    ∀ n ∈ reservation.pids, n ≤ u64Max) (reservation.words_iff).symm

instance : DecidablePred ResourceLimits.Words := fun _ => inferInstanceAs (Decidable (_ ∧ _))

instance : DecidablePred ResourceEnforcementPlan.Words := fun _ =>
  inferInstanceAs (Decidable (_ ∧ _))

instance : DecidablePred ResourceUsage.Words := fun _ => inferInstanceAs (Decidable (_ ∧ _))

instance : DecidablePred NewTaskRecord.WellTyped := fun new =>
  decidable_of_iff (DistinctKeys new.request.execution.env ∧ new.request.limits.Words ∧
    DistinctKeys new.request.metadata ∧ new.executionPlan.resourceEnforcement.Words ∧
      ∀ context ∈ new.controlContext, DistinctKeys context.labels)
    ⟨fun ⟨env, limits, metadata, enforcement, labels⟩ =>
        ⟨env, limits, metadata, enforcement, labels⟩,
      fun h => ⟨h.env, h.limits, h.metadata, h.enforcement, h.labels⟩⟩

instance : DecidablePred CompletionUpdate.WellTyped := fun update =>
  decidable_of_iff ((∀ code ∈ update.exitCode, IsI32 code) ∧
    (∀ signal ∈ update.exitSignal, IsI32 signal) ∧ ∀ usage ∈ update.usage, usage.Words)
    ⟨fun ⟨code, signal, usage⟩ => ⟨code, signal, usage⟩,
      fun h => ⟨h.exitCode, h.exitSignal, h.usage⟩⟩

instance : DecidablePred TaskWrite.WellTyped
  | .markDispatched _ => inferInstanceAs (Decidable (_ < _))
  | .markStarted _ _ _ => inferInstanceAs (Decidable (_ ∧ _))
  | .reserveResources reservation _ => inferInstanceAs (Decidable reservation.Words)
  | .completeTask update => inferInstanceAs (Decidable update.WellTyped)
  | .releaseResources _ | .setCancelRequested | .markTimeoutTriggered | .cancelAcceptedTask _
  | .markRecovered => isTrue trivial

instance : DecidablePred StoreCall.WellTyped
  | .insertTask new => inferInstanceAs (Decidable new.WellTyped)
  | .write _ w => inferInstanceAs (Decidable w.WellTyped)
  | .read | .deleteTask _ => isTrue trivial

namespace World

private def slotService : RuntimeService := smallService ⟨1, none, none⟩

/-- One task is cancelled before it starts, another runs to its end. -/
theorem columns_refine_of_two_tasks :
    ∃ trace last store, Run slotService init trace last ∧ TypedCalls slotService trace ∧
      (last.db.tasks.rows.map TaskRecord.status = [.cancelled, .success]) ∧
      replay .compact dateText slotService trace = .ok store ∧
      store.AnswersAs .compact readCancelResult last.db ∧
      ∀ (call : StoreCall) (now : Timestamp), call.WellTyped →
        StoredDb.Simulates .compact readCancelResult (store.exec .compact dateText call now)
          (call.exec now last.db) := by
  have hexec : (execute slotService
      (fun w e => decide (∀ call ∈ w.committed slotService e, call.WellTyped))
      (events (submitActions 0 (commandRequest "a") ++
        [.receiveKill "a" none, .kill 0 none, .kill 0 none, .kill 0 none, .kill 0 none,
          .kill 0 none] ++
        submitActions 1 (commandRequest "b") ++ dispatchActions 7 ++ shimActions 0 8))).any
      (fun w =>
        decide (w.db.tasks.rows.map TaskRecord.status = [.cancelled, .success])) = true := by
    decide +kernel
  obtain ⟨trace, last, hrun, _, hcheck, htest⟩ := Runs.exists_run_of_exec hexec
  have htyped : TypedCalls slotService trace := fun x hx => of_decide_eq_true (hcheck x hx)
  obtain ⟨store, hreplay, hanswers, hnext⟩ := columns_refine readable_compact hrun htyped
  exact ⟨trace, last, store, hrun, htyped, of_decide_eq_true htest, hreplay, hanswers, hnext⟩

end World

end ExecgoRuntime
