import ExecgoRuntime.Lib.Serde
import ExecgoRuntime.StoreCalls

/-!
The columns of the task table: how a row is written by `insert_task` and read by
`row_to_task_record` (`repo.rs`), over the documents that the types of `types.rs`
are written as. The text of a document is the business of `serde_json`, which
stays a parameter. It reads back what it wrote, as long as the document is not
nested beyond its recursion limit and its integers are words.
-/
namespace ExecgoRuntime

open Serde KeyedTable

abbrev JsonCodec (α : Type) := Codec u64Max α

def ExecutionKind.codec : JsonCodec ExecutionKind :=
  .variants (fun | .command => "command" | .script => "script") [.command, .script]
    (by intro kind; cases kind <;> rfl)

def ExecutionSpec.codec : JsonCodec ExecutionSpec :=
  Shape.start ExecutionSpec.mk
    |>.field "kind" kind (.required ExecutionKind.codec)
    |>.field "program" program (.optional .string)
    |>.field "args" args (.defaulted [] (.list .string))
    |>.field "script" script (.optional .string)
    |>.field "interpreter" interpreter (.optional (.list .string))
    |>.field "env" env (.defaulted [] (.map .string))
    |>.codec (by decide) (by rintro ⟨⟩; rfl)

def CapabilityMode.codec : JsonCodec CapabilityMode :=
  .variants (fun | .adaptive => "adaptive" | .strict => "strict") [.adaptive, .strict]
    (by intro mode; cases mode <;> rfl)

def ControlContext.codec : JsonCodec ControlContext :=
  Shape.start ControlContext.mk
    |>.field "control_plane_mode" controlPlaneMode (.optional .string)
    |>.field "tenant" tenant (.optional .string)
    |>.field "owner" owner (.optional .string)
    |>.field "expected_runtime_profile" expectedRuntimeProfile (.optional .string)
    |>.field "requires_strict_sandbox" requiresStrictSandbox (.defaulted false .bool)
    |>.field "requires_resource_reservation" requiresResourceReservation (.defaulted false .bool)
    |>.field "labels" labels (.omittedEmpty (.map .string))
    |>.codec (by decide) (by rintro ⟨⟩; rfl)

def SandboxProfile.codec : JsonCodec SandboxProfile :=
  .variants (fun | .process => "process" | .linuxSandbox => "linux_sandbox")
    [.process, .linuxSandbox] (by intro profile; cases profile <;> rfl)

def NamespaceConfig.codec : JsonCodec NamespaceConfig :=
  Shape.start NamespaceConfig.mk
    |>.field "mount" mount (.defaulted true .bool)
    |>.field "pid" pid (.defaulted true .bool)
    |>.field "uts" uts (.defaulted true .bool)
    |>.field "ipc" ipc (.defaulted true .bool)
    |>.field "net" net (.defaulted false .bool)
    |>.codec (by decide) (by rintro ⟨⟩; rfl)

def SandboxPolicy.codec : JsonCodec SandboxPolicy :=
  Shape.start SandboxPolicy.mk
    |>.field "profile" profile (.defaulted .process SandboxProfile.codec)
    |>.field "workspace_subdir" workspaceSubdir (.optional .string)
    |>.field "rootfs" rootfs (.optional .string)
    |>.field "chroot" chroot (.defaulted false .bool)
    |>.field "namespaces" namespaces (.optional NamespaceConfig.codec)
    |>.codec (by decide) (by rintro ⟨⟩; rfl)

def ResourceLimits.codec : JsonCodec ResourceLimits :=
  Shape.start ResourceLimits.mk
    |>.field "wall_time_ms" wallTimeMs (.defaulted defaultWallTimeMs .word)
    |>.field "cpu_time_sec" cpuTimeSec (.optional .word)
    |>.field "memory_bytes" memoryBytes (.optional .word)
    |>.field "pids_max" pidsMax (.optional .word)
    |>.field "stdout_max_bytes" stdoutMaxBytes (.defaulted defaultOutputInlineBytes .word)
    |>.field "stderr_max_bytes" stderrMaxBytes (.defaulted defaultOutputInlineBytes .word)
    |>.codec (by decide) (by rintro ⟨⟩; rfl)

def ResourceEnforcementPlan.codec : JsonCodec ResourceEnforcementPlan :=
  Shape.start ResourceEnforcementPlan.mk
    |>.field "wall_time_ms" wallTimeMs (.required .word)
    |>.field "cpu_time_sec" cpuTimeSec (.optional .word)
    |>.field "cpu_time_enforced" cpuTimeEnforced (.defaulted false .bool)
    |>.field "memory_bytes" memoryBytes (.optional .word)
    |>.field "memory_enforced" memoryEnforced (.defaulted false .bool)
    |>.field "pids_max" pidsMax (.optional .word)
    |>.field "pids_enforced" pidsEnforced (.defaulted false .bool)
    |>.field "cgroup_enforced" cgroupEnforced (.defaulted false .bool)
    |>.field "oom_detection" oomDetection (.defaulted false .bool)
    |>.codec (by decide) (by rintro ⟨⟩; rfl)

def ExecutionPlan.codec : JsonCodec ExecutionPlan :=
  Shape.start ExecutionPlan.mk
    |>.field "capability_mode" capabilityMode (.defaulted .adaptive CapabilityMode.codec)
    |>.field "requested_sandbox" requestedSandbox (.required SandboxPolicy.codec)
    |>.field "effective_sandbox" effectiveSandbox (.required SandboxPolicy.codec)
    |>.field "resource_enforcement" resourceEnforcement (.required ResourceEnforcementPlan.codec)
    |>.field "degraded" degraded (.defaulted false .bool)
    |>.field "fallback_reasons" fallbackReasons (.omittedEmpty (.list .string))
    |>.field "capability_warnings" capabilityWarnings (.omittedEmpty (.list .string))
    |>.codec (by decide) (by rintro ⟨⟩; rfl)

def TaskResourceReservation.codec : JsonCodec TaskResourceReservation :=
  Shape.start TaskResourceReservation.mk
    |>.field "task_slots" taskSlots (.required .word)
    |>.field "memory_bytes" memoryBytes (.optional .word)
    |>.field "pids" pids (.optional .word)
    |>.codec (by decide) (by rintro ⟨⟩; rfl)

def metadataCodec : JsonCodec (List (String × String)) := .map .string

/-- In documents; the column `error_code` has names of its own. -/
def ErrorCode.codec : JsonCodec ErrorCode :=
  .variants
    (fun
      | .invalidInput => "invalid_input"
      | .launchFailed => "launch_failed"
      | .timeout => "timeout"
      | .cancelled => "cancelled"
      | .memoryLimitExceeded => "memory_limit_exceeded"
      | .cpuLimitExceeded => "cpu_limit_exceeded"
      | .resourceLimitExceeded => "resource_limit_exceeded"
      | .sandboxSetupFailed => "sandbox_setup_failed"
      | .exitNonZero => "exit_non_zero"
      | .unsupportedCapability => "unsupported_capability"
      | .insufficientResources => "insufficient_resources"
      | .notFound => "not_found"
      | .conflict => "conflict"
      | .permissionDenied => "permission_denied"
      | .internal => "internal")
    [.invalidInput, .launchFailed, .timeout, .cancelled, .memoryLimitExceeded, .cpuLimitExceeded,
      .resourceLimitExceeded, .sandboxSetupFailed, .exitNonZero, .unsupportedCapability,
      .insufficientResources, .notFound, .conflict, .permissionDenied, .internal]
    (by intro code; cases code <;> rfl)

def RuntimeErrorInfo.codec : JsonCodec RuntimeErrorInfo :=
  Shape.start RuntimeErrorInfo.mk
    |>.field "code" code (.required ErrorCode.codec)
    |>.field "message" message (.required .string)
    |>.codec (by decide) (by rintro ⟨⟩; rfl)

def ResourceUsage.codec : JsonCodec ResourceUsage :=
  Shape.start ResourceUsage.mk
    |>.field "duration_ms" durationMs (.required .word)
    |>.field "user_cpu_ms" userCpuMs (.optional .word)
    |>.field "system_cpu_ms" systemCpuMs (.optional .word)
    |>.field "max_rss_bytes" maxRssBytes (.optional .word)
    |>.field "memory_peak_bytes" memoryPeakBytes (.optional .word)
    |>.codec (by decide) (by rintro ⟨⟩; rfl)

inductive ColumnError
  | invalidColumnType (value : String)
  | conversionFailure
  | integralValueOutOfRange (value : ℤ)

namespace ColumnError

def toMessage : ColumnError → String
  | invalidColumnType value => "Invalid column type Text at index: 0, name: " ++ value
  | conversionFailure => "Conversion error from type Text at index: 0"
  | integralValueOutOfRange value => "Integer " ++ toString value ++ " out of range"

end ColumnError

def encodeStatus : TaskStatus → String
  | .accepted => "accepted"
  | .running => "running"
  | .success => "success"
  | .failed => "failed"
  | .cancelled => "cancelled"

def decodeStatus : String → Except ColumnError TaskStatus
  | "accepted" => .ok .accepted
  | "running" => .ok .running
  | "success" => .ok .success
  | "failed" => .ok .failed
  | "cancelled" => .ok .cancelled
  | other => .error (.invalidColumnType other)

theorem decodeStatus_encodeStatus (status : TaskStatus) :
    decodeStatus (encodeStatus status) = .ok status := by
  cases status <;> rfl

def encodeErrorCode : ErrorCode → String
  | .invalidInput => "invalid_input"
  | .launchFailed => "launch_failed"
  | .timeout => "timeout"
  | .cancelled => "cancelled"
  | .memoryLimitExceeded => "memory_limit_exceeded"
  | .cpuLimitExceeded => "cpu_limit_exceeded"
  | .resourceLimitExceeded => "resource_limit_exceeded"
  | .sandboxSetupFailed => "sandbox_setup_failed"
  | .exitNonZero => "exit_nonzero"
  | .unsupportedCapability => "unsupported_capability"
  | .insufficientResources => "insufficient_resources"
  | .notFound => "not_found"
  | .conflict => "conflict"
  | .permissionDenied => "permission_denied"
  | .internal => "internal"

def decodeErrorCode : String → Except ColumnError ErrorCode
  | "invalid_input" => .ok .invalidInput
  | "launch_failed" => .ok .launchFailed
  | "timeout" => .ok .timeout
  | "cancelled" => .ok .cancelled
  | "memory_limit_exceeded" => .ok .memoryLimitExceeded
  | "cpu_limit_exceeded" => .ok .cpuLimitExceeded
  | "resource_limit_exceeded" => .ok .resourceLimitExceeded
  | "sandbox_setup_failed" => .ok .sandboxSetupFailed
  | "exit_nonzero" => .ok .exitNonZero
  | "unsupported_capability" => .ok .unsupportedCapability
  | "insufficient_resources" => .ok .insufficientResources
  | "not_found" => .ok .notFound
  | "conflict" => .ok .conflict
  | "permission_denied" => .ok .permissionDenied
  | "internal" => .ok .internal
  | other => .error (.invalidColumnType other)

theorem decodeErrorCode_encodeErrorCode (code : ErrorCode) :
    decodeErrorCode (encodeErrorCode code) = .ok code := by
  cases code <;> rfl

/-- `serde_json`: a document as text, and a text as a document. -/
structure JsonText where
  toText : Json.Value → String
  ofText : String → Option Json.Value

namespace JsonText

/-- The nesting at which the parser of `serde_json` still returns. -/
def recursionLimit : ℕ := 127

/-- What is written is read back. -/
def Lossless (text : JsonText) : Prop :=
  ∀ v : Json.Value, v.Within u64Max recursionLimit → text.ofText (text.toText v) = some v

/-- Compact texts, read down to the limit. -/
def compact : JsonText where
  toText v := String.ofList v.write
  ofText := Json.read recursionLimit

theorem compact_lossless : compact.Lossless := fun _ h => Json.read_write h

variable (text : JsonText) {α : Type} (codec : JsonCodec α)

def toJson (a : α) : String := text.toText (codec.encode a)

def fromJson (raw : String) : Except ColumnError α :=
  match (text.ofText raw).bind codec.decode with
  | some a => .ok a
  | none => .error .conversionFailure

theorem fromJson_toJson {text : JsonText} (h : text.Lossless) {codec : JsonCodec α} {a : α}
    (ha : codec.Valid a) (hheight : codec.height ≤ recursionLimit) :
    text.fromJson codec (text.toJson codec a) = .ok a := by
  have hread := h (codec.encode a) ((codec.within a ha).mono hheight)
  simp [fromJson, toJson, hread, codec.decode_encode a ha]

end JsonText

/-- `i64::try_from(..).map_err(..)`. -/
def narrow (value : ℕ) (tooLarge : String) : AppResult ℤ :=
  if value ≤ i64Max then .ok value else .error (.invalidInput tooLarge)

/-- `value.max(0) as u64`. -/
def widen (value : ℤ) : ℕ := value.toNat

/-- `value as u32`. -/
def asU32 (value : ℤ) : ℕ := (value % 2 ^ 32).toNat

/-- `row.get` of an `i32`. -/
def getI32 (value : ℤ) : Except ColumnError ℤ :=
  if -2 ^ 31 ≤ value ∧ value < 2 ^ 31 then .ok value else .error (.integralValueOutOfRange value)

/-- The columns of the table `tasks`, with the defaults of its `CREATE TABLE`. -/
structure StoredRow where
  taskId : String
  handleId : String
  status : String
  executionJson : String
  limitsJson : String
  sandboxJson : String
  metadataJson : String
  createdAtMs : ℤ
  updatedAtMs : ℤ
  startedAtMs : Option ℤ := none
  finishedAtMs : Option ℤ := none
  durationMs : Option ℤ := none
  shimPid : Option ℤ := none
  pid : Option ℤ := none
  pgid : Option ℤ := none
  exitCode : Option ℤ := none
  exitSignal : Option ℤ := none
  errorCode : Option String := none
  errorJson : Option String := none
  usageJson : Option String := none
  taskDir : String
  workspaceDir : String
  requestPath : String
  resultPath : String
  stdoutPath : String
  stderrPath : String
  scriptPath : Option String := none
  stdoutMaxBytes : ℤ
  stderrMaxBytes : ℤ
  killRequested : ℤ := 0
  killRequestedAtMs : Option ℤ := none
  timeoutTriggered : ℤ := 0
  resultJson : Option String := none
  executionPlanJson : Option String := none
  controlContextJson : Option String := none
  reservationJson : Option String := none
  reservedAtMs : Option ℤ := none
  releasedAtMs : Option ℤ := none

abbrev StoredTable := Table StoredRow.taskId

section Store

variable (text : JsonText)

/-- The parameters of the `INSERT` of `insert_task`. -/
def NewTaskRecord.toStoredRow (new : NewTaskRecord) (now : Timestamp) : AppResult StoredRow := do
  let stdoutMaxBytes ← narrow new.request.limits.stdoutMaxBytes "stdout_max_bytes is too large"
  let stderrMaxBytes ← narrow new.request.limits.stderrMaxBytes "stderr_max_bytes is too large"
  pure {
    taskId := new.taskId
    handleId := new.taskId
    status := encodeStatus .accepted
    executionJson := text.toJson ExecutionSpec.codec new.request.execution
    limitsJson := text.toJson ResourceLimits.codec new.request.limits
    sandboxJson := text.toJson SandboxPolicy.codec new.request.sandbox
    metadataJson := text.toJson metadataCodec new.request.metadata
    createdAtMs := now
    updatedAtMs := now
    taskDir := new.taskDir
    workspaceDir := new.workspaceDir
    requestPath := new.requestPath
    resultPath := new.resultPath
    stdoutPath := new.stdoutPath
    stderrPath := new.stderrPath
    scriptPath := new.scriptPath
    stdoutMaxBytes
    stderrMaxBytes
    executionPlanJson := some (text.toJson ExecutionPlan.codec new.executionPlan)
    controlContextJson := new.controlContext.map (text.toJson ControlContext.codec) }

/-- `row_to_task_record`. `cancelResult` views a document of the column
`result_json` as what `cancel_accepted_task` stores there. -/
def rowToTaskRecord (cancelResult : Json.Value → CancelResult) (row : StoredRow) :
    Except ColumnError TaskRecord := do
  let status ← decodeStatus row.status
  let execution ← text.fromJson ExecutionSpec.codec row.executionJson
  let limits ← text.fromJson ResourceLimits.codec row.limitsJson
  let sandbox ← text.fromJson SandboxPolicy.codec row.sandboxJson
  let metadata ← text.fromJson metadataCodec row.metadataJson
  let pgid ← row.pgid.mapM getI32
  let exitCode ← row.exitCode.mapM getI32
  let exitSignal ← row.exitSignal.mapM getI32
  let errorCode ← row.errorCode.mapM decodeErrorCode
  let error ← row.errorJson.mapM (text.fromJson RuntimeErrorInfo.codec)
  let usage ← row.usageJson.mapM (text.fromJson ResourceUsage.codec)
  let resultJson ← row.resultJson.mapM fun raw =>
    match text.ofText raw with
    | some document => .ok (cancelResult document)
    | none => .error .conversionFailure
  let executionPlan ← row.executionPlanJson.mapM (text.fromJson ExecutionPlan.codec)
  let controlContext ← row.controlContextJson.mapM (text.fromJson ControlContext.codec)
  let reservation ← row.reservationJson.mapM (text.fromJson TaskResourceReservation.codec)
  pure {
    taskId := row.taskId
    handleId := row.handleId
    status, execution, limits, sandbox, metadata
    createdAt := row.createdAtMs
    updatedAt := row.updatedAtMs
    startedAt := row.startedAtMs
    finishedAt := row.finishedAtMs
    durationMs := row.durationMs.map widen
    shimPid := row.shimPid.map asU32
    pid := row.pid.map asU32
    pgid := pgid.map Int.toNat
    exitCode, exitSignal, errorCode, error, usage
    taskDir := row.taskDir
    workspaceDir := row.workspaceDir
    requestPath := row.requestPath
    resultPath := row.resultPath
    stdoutPath := row.stdoutPath
    stderrPath := row.stderrPath
    scriptPath := row.scriptPath
    stdoutMaxBytes := widen row.stdoutMaxBytes
    stderrMaxBytes := widen row.stderrMaxBytes
    killRequested := decide (row.killRequested ≠ 0)
    killRequestedAt := row.killRequestedAtMs
    timeoutTriggered := decide (row.timeoutTriggered ≠ 0)
    resultJson, executionPlan, controlContext, reservation
    reservedAt := row.reservedAtMs
    releasedAt := row.releasedAtMs }

end Store

namespace StoredTable

variable (text : JsonText)

/-- `insert_task` on the task table; its events are those of `Db.insertTask`. -/
def insertTask (rows : StoredTable) (now : Timestamp) (new : NewTaskRecord) :
    AppResult StoredTable := do
  let row ← new.toStoredRow text now
  if h : rows.find row.taskId = none then pure (rows.insert row h)
  else throw (.conflict ("task " ++ new.taskId ++ " already exists"))

def getTask (cancelResult : Json.Value → CancelResult) (rows : StoredTable) (taskId : TaskId) :
    AppResult TaskRecord :=
  match rows.find taskId with
  | some row => (rowToTaskRecord text cancelResult row).mapError fun e => .sqlite e.toMessage
  | none => .error (.notFound taskId)

end StoredTable

def DistinctKeys (entries : List (String × String)) : Prop := (entries.map Prod.fst).Nodup

instance (entries : List (String × String)) : Decidable (DistinctKeys entries) :=
  inferInstanceAs (Decidable (List.Nodup _))

def ResourceLimits.Words (limits : ResourceLimits) : Prop :=
  limits.wallTimeMs ≤ u64Max ∧ (∀ n ∈ limits.cpuTimeSec, n ≤ u64Max) ∧
    (∀ n ∈ limits.memoryBytes, n ≤ u64Max) ∧ (∀ n ∈ limits.pidsMax, n ≤ u64Max) ∧
    limits.stdoutMaxBytes ≤ u64Max ∧ limits.stderrMaxBytes ≤ u64Max

def ResourceEnforcementPlan.Words (plan : ResourceEnforcementPlan) : Prop :=
  plan.wallTimeMs ≤ u64Max ∧ (∀ n ∈ plan.cpuTimeSec, n ≤ u64Max) ∧
    (∀ n ∈ plan.memoryBytes, n ≤ u64Max) ∧ ∀ n ∈ plan.pidsMax, n ≤ u64Max

structure NewTaskRecord.WellTyped (new : NewTaskRecord) : Prop where
  env : DistinctKeys new.request.execution.env
  limits : new.request.limits.Words
  metadata : DistinctKeys new.request.metadata
  enforcement : new.executionPlan.resourceEnforcement.Words
  labels : ∀ context ∈ new.controlContext, DistinctKeys context.labels

theorem ExecutionSpec.valid_codec {spec : ExecutionSpec} (h : DistinctKeys spec.env) :
    ExecutionSpec.codec.Valid spec := by
  simpa [ExecutionSpec.codec, ExecutionKind.codec, DistinctKeys] using h

theorem SandboxPolicy.valid_codec (sandbox : SandboxPolicy) :
    SandboxPolicy.codec.Valid sandbox := by
  simp [SandboxPolicy.codec, SandboxProfile.codec, NamespaceConfig.codec]

theorem ResourceLimits.valid_codec {limits : ResourceLimits} (h : limits.Words) :
    ResourceLimits.codec.Valid limits := by
  simpa [ResourceLimits.codec, ResourceLimits.Words, and_assoc] using h

theorem ResourceEnforcementPlan.valid_codec {plan : ResourceEnforcementPlan} (h : plan.Words) :
    ResourceEnforcementPlan.codec.Valid plan := by
  simpa [ResourceEnforcementPlan.codec, ResourceEnforcementPlan.Words, and_assoc] using h

theorem ExecutionPlan.valid_codec {plan : ExecutionPlan} (h : plan.resourceEnforcement.Words) :
    ExecutionPlan.codec.Valid plan := by
  have henforcement := ResourceEnforcementPlan.valid_codec h
  simp [ExecutionPlan.codec, CapabilityMode.codec, SandboxPolicy.valid_codec, henforcement]

theorem ControlContext.valid_codec {context : ControlContext} (h : DistinctKeys context.labels) :
    ControlContext.codec.Valid context := by
  simpa [ControlContext.codec, DistinctKeys] using h

theorem metadataCodec_valid {metadata : List (String × String)} (h : DistinctKeys metadata) :
    metadataCodec.Valid metadata := by
  simpa [metadataCodec, DistinctKeys] using h

theorem narrow_eq_ok {value : ℕ} {tooLarge : String} (h : value ≤ i64Max) :
    narrow value tooLarge = .ok (value : ℤ) := if_pos h

theorem narrow_ok {value : ℕ} {tooLarge : String} {column : ℤ}
    (h : narrow value tooLarge = .ok column) : column = value ∧ value ≤ i64Max := by
  unfold narrow at h
  split at h
  · rename_i hle
    cases h
    exact ⟨rfl, hle⟩
  · cases h

theorem mapM_fromJson_toJson {text : JsonText} (h : text.Lossless) {α : Type} {codec : JsonCodec α}
    {a : Option α} (ha : ∀ value ∈ a, codec.Valid value)
    (hheight : codec.height ≤ JsonText.recursionLimit) :
    (a.map (text.toJson codec)).mapM (text.fromJson codec) = .ok a := by
  cases a with
  | none => rfl
  | some value =>
    have hread := JsonText.fromJson_toJson h (ha value rfl) hheight
    simp [hread]

/-- Each column of a new row decodes to what it was encoded from. -/
theorem rowToTaskRecord_toStoredRow {text : JsonText} (htext : text.Lossless)
    (cancelResult : Json.Value → CancelResult) {new : NewTaskRecord} (hnew : new.WellTyped)
    {now : Timestamp} {row : StoredRow} (h : new.toStoredRow text now = .ok row) :
    row.taskId = new.taskId ∧ rowToTaskRecord text cancelResult row = .ok (new.toRow now) := by
  have hexecution := JsonText.fromJson_toJson htext (ExecutionSpec.valid_codec hnew.env)
    (by decide)
  have hlimits := JsonText.fromJson_toJson htext (ResourceLimits.valid_codec hnew.limits)
    (by decide)
  have hsandbox := JsonText.fromJson_toJson htext (SandboxPolicy.valid_codec new.request.sandbox)
    (by decide)
  have hmetadata := JsonText.fromJson_toJson htext (metadataCodec_valid hnew.metadata) (by decide)
  have hplan := JsonText.fromJson_toJson htext (ExecutionPlan.valid_codec hnew.enforcement)
    (by decide)
  have hcontext := mapM_fromJson_toJson htext
    (fun context hmem => ControlContext.valid_codec (hnew.labels context hmem)) (by decide)
  cases hout : narrow new.request.limits.stdoutMaxBytes "stdout_max_bytes is too large" with
  | error e => simp [NewTaskRecord.toStoredRow, hout, bind, Except.bind] at h
  | ok stdoutColumn =>
    cases herr : narrow new.request.limits.stderrMaxBytes "stderr_max_bytes is too large" with
    | error e => simp [NewTaskRecord.toStoredRow, hout, herr, bind, Except.bind] at h
    | ok stderrColumn =>
      obtain ⟨rfl, -⟩ := narrow_ok hout
      obtain ⟨rfl, -⟩ := narrow_ok herr
      simp only [NewTaskRecord.toStoredRow, hout, herr, bind, Except.bind, pure, Except.pure,
        Except.ok.injEq] at h
      subst h
      refine ⟨rfl, ?_⟩
      -- the columns the `INSERT` does not name hold their defaults
      simp only [rowToTaskRecord, decodeStatus_encodeStatus, hexecution, hlimits, hsandbox,
        hmetadata, Option.mapM_none, Option.mapM_some, hplan, hcontext, bind, Except.bind, pure,
        Except.pure, Functor.map, Except.map]
      rfl

namespace StoredTable

variable {text : JsonText} {cancelResult : Json.Value → CancelResult} {rows rows' : StoredTable}
  {now : Timestamp} {new : NewTaskRecord}

theorem insertTask_ok (h : insertTask text rows now new = .ok rows') :
    ∃ row, new.toStoredRow text now = .ok row ∧
      ∃ hfree : rows.find row.taskId = none, rows' = rows.insert row hfree := by
  cases hrow : new.toStoredRow text now with
  | error e => simp [insertTask, hrow, bind, Except.bind] at h
  | ok row =>
    by_cases hfree : rows.find row.taskId = none
    · refine ⟨row, rfl, hfree, ?_⟩
      simpa [insertTask, hrow, hfree, bind, Except.bind, pure, Except.pure] using h.symm
    · simp [insertTask, hrow, hfree, bind, Except.bind, throw, throwThe,
        MonadExceptOf.throw] at h

/-- The inserted row is the one read, and no other row changes. -/
theorem find_insertTask (htext : text.Lossless) (hnew : new.WellTyped)
    (h : insertTask text rows now new = .ok rows') (taskId : TaskId) :
    (rows'.find taskId).map (rowToTaskRecord text cancelResult) =
      if taskId = new.taskId then some (.ok (new.toRow now))
      else (rows.find taskId).map (rowToTaskRecord text cancelResult) := by
  obtain ⟨row, hrow, hfree, rfl⟩ := insertTask_ok h
  obtain ⟨hid, hread⟩ := rowToTaskRecord_toStoredRow htext cancelResult hnew hrow
  rw [Table.find_insert, hid]
  by_cases htask : taskId = new.taskId
  · rw [if_pos htask, if_pos htask, Option.map_some, hread]
  · rw [if_neg htask, if_neg htask]

end StoredTable

/-- The record is the submission, accepted and untouched. -/
structure TaskRecord.Carries (record : TaskRecord) (new : NewTaskRecord) : Prop where
  execution : record.execution = new.request.execution
  limits : record.limits = new.request.limits
  sandbox : record.sandbox = new.request.sandbox
  metadata : record.metadata = new.request.metadata
  executionPlan : record.executionPlan = some new.executionPlan
  controlContext : record.controlContext = new.controlContext
  taskDir : record.taskDir = new.taskDir
  workspaceDir : record.workspaceDir = new.workspaceDir
  requestPath : record.requestPath = new.requestPath
  resultPath : record.resultPath = new.resultPath
  stdoutPath : record.stdoutPath = new.stdoutPath
  stderrPath : record.stderrPath = new.stderrPath
  scriptPath : record.scriptPath = new.scriptPath
  stdoutMaxBytes : record.stdoutMaxBytes = new.request.limits.stdoutMaxBytes
  stderrMaxBytes : record.stderrMaxBytes = new.request.limits.stderrMaxBytes
  status : record.status = .accepted
  killRequested : record.killRequested = false
  timeoutTriggered : record.timeoutTriggered = false
  reservation : record.reservation = none

theorem NewTaskRecord.carries_toRow (new : NewTaskRecord) (now : Timestamp) :
    (new.toRow now).Carries new := by
  constructor <;> rfl

/-- What is submitted is what the shim loads. -/
theorem submitted_is_loaded (text : JsonText) (htext : text.Lossless)
    (cancelResult : Json.Value → CancelResult) (rows rows' : StoredTable) (now : Timestamp)
    (new : NewTaskRecord) (hnew : new.WellTyped)
    (hinsert : rows.insertTask text now new = .ok rows') :
    ∃ record, rows'.getTask text cancelResult new.taskId = .ok record ∧ record.Carries new := by
  refine ⟨new.toRow now, ?_, new.carries_toRow now⟩
  have hfind : (rows'.find new.taskId).map (rowToTaskRecord text cancelResult) =
      some (.ok (new.toRow now)) := by
    rw [StoredTable.find_insertTask htext hnew hinsert, if_pos rfl]
  obtain ⟨row, hrow, hread⟩ := Option.map_eq_some_iff.mp hfind
  simp [StoredTable.getTask, hrow, hread, Except.mapError]

/-- A script in a sandbox with a network, without the defaults of its namespaces. -/
def sandboxedScript : NewTaskRecord where
  taskId := "t"
  request := {
    execution := {
      kind := .script
      script := some "echo \"$A\"\n"
      interpreter := some ["sh", "-e"]
      env := [("A", "1"), ("B", "\t")] }
    limits := { wallTimeMs := 1000, memoryBytes := some u64Max, stdoutMaxBytes := i64Max }
    sandbox := {
      profile := .linuxSandbox
      rootfs := some "/srv"
      chroot := true
      namespaces := some { mount := false, net := true } }
    metadata := [("team", "ops")] }
  taskDir := "/tasks/t"
  workspaceDir := "/tasks/t/workspace"
  requestPath := "/tasks/t/request.json"
  resultPath := "/tasks/t/result.json"
  stdoutPath := "/tasks/t/stdout.log"
  stderrPath := "/tasks/t/stderr.log"
  scriptPath := some "/tasks/t/script.sh"
  executionPlan := {
    requestedSandbox := { profile := .linuxSandbox, namespaces := some { net := true } }
    effectiveSandbox := {}
    resourceEnforcement := { wallTimeMs := 1000, memoryEnforced := true }
    degraded := true
    fallbackReasons := ["chroot"] }
  controlContext := some { tenant := some "acme", labels := [("k", "v")] }

theorem sandboxedScript_wellTyped : sandboxedScript.WellTyped where
  env := by decide
  limits := by
    simp [sandboxedScript, ResourceLimits.Words, u64Max, i64Max, defaultOutputInlineBytes]
  metadata := by decide
  enforcement := by simp [sandboxedScript, ResourceEnforcementPlan.Words, u64Max]
  labels := by
    intro context hcontext
    cases hcontext
    decide

theorem sandboxed_script_is_loaded : ∃ rows' : StoredTable,
    StoredTable.insertTask .compact Table.empty 5 sandboxedScript = .ok rows' ∧
      ∃ record, rows'.getTask .compact (fun _ => ⟨"", "", .cancelled, 0, ⟨.cancelled, ""⟩⟩) "t" =
        .ok record ∧ record.Carries sandboxedScript := by
  have hinsert : ∃ rows' : StoredTable,
      StoredTable.insertTask .compact Table.empty 5 sandboxedScript = .ok rows' := ⟨_, rfl⟩
  obtain ⟨rows', hinsert⟩ := hinsert
  exact ⟨rows', hinsert, submitted_is_loaded .compact JsonText.compact_lossless _ Table.empty rows'
    5 sandboxedScript sandboxedScript_wellTyped hinsert⟩

end ExecgoRuntime
