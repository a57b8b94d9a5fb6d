import Mathlib.Algebra.Group.Nat.Defs
import Mathlib.Data.Int.Notation
import Mathlib.Data.List.Basic
import Mathlib.Data.Option.Basic

/-!
The request, policy and persistence types of the runtime with their validation
(`types.rs`) and the error type its operations return (`error.rs`).
Words of 64 bits are natural numbers; the places where their width matters cap
or reject explicitly. Ordered and hashed maps of strings are association lists.
-/
namespace ExecgoRuntime

abbrev TaskId := String

/-- Milliseconds since the epoch, the form in which every time is stored. -/
abbrev Timestamp := ℤ

/-- `u64::MAX`. -/
def u64Max : ℕ := 2 ^ 64 - 1

/-- `i64::MAX`, the largest integer a column holds. -/
def i64Max : ℕ := 2 ^ 63 - 1

inductive ErrorCode
  | invalidInput
  | launchFailed
  | timeout
  | cancelled
  | memoryLimitExceeded
  | cpuLimitExceeded
  | resourceLimitExceeded
  | sandboxSetupFailed
  | exitNonZero
  | unsupportedCapability
  | insufficientResources
  | notFound
  | conflict
  | permissionDenied
  | internal
  deriving DecidableEq, Repr

/-- The error envelope. `details` is never set by the runtime and is left out. -/
structure RuntimeErrorInfo where
  code : ErrorCode
  message : String
  deriving DecidableEq, Repr

inductive AppError
  | invalidInput (message : String)
  | notFound (taskId : TaskId)
  | queueFull
  | conflict (message : String)
  | launchFailed (message : String)
  | sandboxSetup (message : String)
  | unsupportedCapability (message : String)
  | insufficientResources (message : String)
  | permissionDenied (message : String)
  | io (message : String)
  | sqlite (message : String)
  | json (message : String)
  | internal (message : String)
  deriving DecidableEq, Repr

namespace AppError

def code : AppError → ErrorCode
  | invalidInput _ => .invalidInput
  | notFound _ => .notFound
  | queueFull => .resourceLimitExceeded
  | conflict _ => .conflict
  | launchFailed _ => .launchFailed
  | sandboxSetup _ => .sandboxSetupFailed
  | unsupportedCapability _ => .unsupportedCapability
  | insufficientResources _ => .insufficientResources
  | permissionDenied _ => .permissionDenied
  | io _ | sqlite _ | json _ => .internal
  | internal _ => .internal

/-- The `Display` text of the error. -/
def toMessage : AppError → String
  | invalidInput message => "invalid input: " ++ message
  | notFound taskId => "task not found: " ++ taskId
  | queueFull => "queue is full"
  | conflict message => "task is already terminal: " ++ message
  | launchFailed message => "launch failed: " ++ message
  | sandboxSetup message => "sandbox setup failed: " ++ message
  | unsupportedCapability message => "unsupported capability: " ++ message
  | insufficientResources message => "insufficient resources: " ++ message
  | permissionDenied message => "permission denied: " ++ message
  | io message => "io error: " ++ message
  | sqlite message => "sqlite error: " ++ message
  | json message => "json error: " ++ message
  | internal message => "internal error: " ++ message

end AppError

abbrev AppResult (α : Type) := Except AppError α

/-- The Unicode `White_Space` characters, which `str::trim` removes. -/
def isWhitespace (c : Char) : Bool :=
  let n := c.toNat
  (9 ≤ n && n ≤ 13) || n == 0x20 || n == 0x85 || n == 0xA0 || n == 0x1680 ||
    (0x2000 ≤ n && n ≤ 0x200A) || n == 0x2028 || n == 0x2029 || n == 0x202F ||
    n == 0x205F || n == 0x3000

/-- `str::trim` on the characters of a string. -/
def trim (text : String) : List Char :=
  ((text.toList.dropWhile isWhitespace).reverse.dropWhile isWhitespace).reverse

def isBlank (text : String) : Bool := (trim text).isEmpty

/-- `char::is_ascii_alphanumeric`. -/
def isAsciiAlphanumeric (c : Char) : Bool :=
  ('0' ≤ c && c ≤ '9') || ('A' ≤ c && c ≤ 'Z') || ('a' ≤ c && c ≤ 'z')

inductive TaskStatus
  | accepted
  | running
  | success
  | failed
  | cancelled
  deriving DecidableEq, Repr

namespace TaskStatus

def isTerminal : TaskStatus → Bool
  | success | failed | cancelled => true
  | accepted | running => false

theorem isTerminal_failed : failed.isTerminal = true := rfl

theorem eq_running {status : TaskStatus} (haccepted : status ≠ .accepted)
    (hlive : status.isTerminal = false) : status = .running := by
  cases status with
  | running => rfl
  | accepted => exact absurd rfl haccepted
  | _ => cases hlive

end TaskStatus

inductive EventType
  | submitted
  | accepted
  | planned
  | degraded
  | resourceReserved
  | resourceReleased
  | started
  | killRequested
  | timeoutTriggered
  | finished
  | failed
  | cancelled
  | recovered
  deriving DecidableEq, Repr

inductive ExecutionKind
  | command
  | script
  deriving DecidableEq, Repr

structure ExecutionSpec where
  kind : ExecutionKind
  program : Option String := none
  args : List String := []
  script : Option String := none
  interpreter : Option (List String) := none
  env : List (String × String) := []

/-- Environment and label keys share one rule. -/
def validKey (key : String) : Bool := !(isBlank key) && !(key.toList.contains '=')

namespace ExecutionSpec

def validate (spec : ExecutionSpec) : AppResult Unit := do
  match spec.kind with
  | .command =>
    if (spec.program.map isBlank).getD true then
      throw (.invalidInput "execution.program is required for command tasks")
    if spec.script.any (fun v => !(isBlank v)) then
      throw (.invalidInput "execution.script must be empty for command tasks")
  | .script =>
    if (spec.script.map isBlank).getD true then
      throw (.invalidInput "execution.script is required for script tasks")
    if spec.program.any (fun v => !(isBlank v)) then
      throw (.invalidInput "execution.program must be empty for script tasks")
    if spec.interpreter.any (fun items => (items.head?.map isBlank).getD true) then
      throw (.invalidInput "execution.interpreter must contain at least one non-empty value")
  if spec.env.any (fun entry => !(validKey entry.1)) then
    throw (.invalidInput "execution.env keys must be non-empty and cannot contain '='")

end ExecutionSpec

inductive CapabilityMode
  | adaptive
  | strict
  deriving DecidableEq, Repr

structure TaskPolicy where
  capabilityMode : CapabilityMode := .adaptive

namespace TaskPolicy

def validate (_policy : TaskPolicy) : AppResult Unit := pure ()

end TaskPolicy

structure ControlContext where
  controlPlaneMode : Option String := none
  tenant : Option String := none
  owner : Option String := none
  expectedRuntimeProfile : Option String := none
  requiresStrictSandbox : Bool := false
  requiresResourceReservation : Bool := false
  labels : List (String × String) := []

namespace ControlContext

def validate (context : ControlContext) : AppResult Unit := do
  if context.labels.any (fun entry => !(validKey entry.1)) then
    throw (.invalidInput "control_context.labels keys must be non-empty and cannot contain '='")
  let values := [context.controlPlaneMode, context.tenant, context.owner,
    context.expectedRuntimeProfile]
  if values.any (fun value => value.any isBlank) then
    throw (.invalidInput "control_context values cannot be empty strings")

end ControlContext

inductive SandboxProfile
  | process
  | linuxSandbox
  deriving DecidableEq, Repr

structure NamespaceConfig where
  mount : Bool := true
  pid : Bool := true
  uts : Bool := true
  ipc : Bool := true
  net : Bool := false
  deriving DecidableEq, Repr

structure SandboxPolicy where
  profile : SandboxProfile := .process
  workspaceSubdir : Option String := none
  rootfs : Option String := none
  chroot : Bool := false
  namespaces : Option NamespaceConfig := none
  deriving DecidableEq, Repr

/-- The `/`-separated components of a path. -/
def pathComponents (path : String) : List (List Char) := path.toList.splitOn '/'

def isAbsolutePath (path : String) : Bool := path.toList.head? == some '/'

/-- `Path::join`: an absolute child replaces the base. -/
def joinPath (base child : String) : String :=
  if isAbsolutePath child then child
  else if base.toList.isEmpty || base.toList.getLast? == some '/' then base ++ child
  else base ++ "/" ++ child

def validateRelativeWorkspaceSubdir (subdir : String) : AppResult Unit := do
  if isAbsolutePath subdir then
    throw (.invalidInput "sandbox.workspace_subdir must be relative")
  if (pathComponents subdir).contains ['.', '.'] then
    throw (.invalidInput "sandbox.workspace_subdir cannot contain parent traversal")

namespace SandboxPolicy

def validate (sandbox : SandboxPolicy) : AppResult Unit := do
  if let some subdir := sandbox.workspaceSubdir then
    validateRelativeWorkspaceSubdir subdir
  if sandbox.chroot && (sandbox.rootfs.map isBlank).getD true then
    throw (.invalidInput "sandbox.rootfs is required when sandbox.chroot=true")
  if sandbox.profile == .process && sandbox.chroot then
    throw (.invalidInput "sandbox.chroot requires sandbox.profile=linux_sandbox")

/-- A sandbox is accepted when its subdirectory is and when a root comes with the
profile. -/
theorem validate_eq_ok_iff (sandbox : SandboxPolicy) :
    sandbox.validate = .ok () ↔
      (∀ subdir ∈ sandbox.workspaceSubdir, validateRelativeWorkspaceSubdir subdir = .ok ()) ∧
      (sandbox.chroot = true → (sandbox.rootfs.map isBlank).getD true = false ∧
        sandbox.profile = .linuxSandbox) := by
  have hrest : ∀ (chroot blank : Bool) (profile : SandboxProfile),
      (do
        if chroot && blank then
          throw (.invalidInput "sandbox.rootfs is required when sandbox.chroot=true")
        if profile == .process && chroot then
          throw (.invalidInput "sandbox.chroot requires sandbox.profile=linux_sandbox") :
            AppResult Unit) = .ok () ↔
        (chroot = true → blank = false ∧ profile = .linuxSandbox) := by
    intro chroot blank profile
    cases chroot <;> cases blank <;> cases profile <;>
      simp [throw, throwThe, MonadExceptOf.throw, bind, Except.bind, pure, Except.pure]
  unfold validate
  cases hsubdir : sandbox.workspaceSubdir with
  | none =>
    simp only [Option.mem_def, reduceCtorEq, false_implies, implies_true, true_and]
    exact hrest _ _ _
  | some subdir =>
    cases hcheck : validateRelativeWorkspaceSubdir subdir with
    | error e => simp [hcheck, bind, Except.bind]
    | ok _ =>
      simp only [Option.mem_def, Option.some.injEq, forall_eq', hcheck, true_and, bind, Except.bind]
      exact hrest _ _ _

def effectiveNamespaces (sandbox : SandboxPolicy) : NamespaceConfig :=
  sandbox.namespaces.getD {}

end SandboxPolicy

def resolveWorkspaceDir (taskDir : String) (sandbox : SandboxPolicy) : AppResult String := do
  let base := joinPath taskDir "workspace"
  match sandbox.workspaceSubdir with
  | some subdir =>
    validateRelativeWorkspaceSubdir subdir
    pure (joinPath base subdir)
  | none => pure base

def defaultOutputInlineBytes : ℕ := 4 * 1024 * 1024

def defaultWallTimeMs : ℕ := 5 * 60 * 1000

structure ResourceLimits where
  wallTimeMs : ℕ := defaultWallTimeMs
  cpuTimeSec : Option ℕ := none
  memoryBytes : Option ℕ := none
  pidsMax : Option ℕ := none
  stdoutMaxBytes : ℕ := defaultOutputInlineBytes
  stderrMaxBytes : ℕ := defaultOutputInlineBytes
  deriving DecidableEq, Repr

namespace ResourceLimits

def validate (limits : ResourceLimits) : AppResult Unit := do
  if limits.wallTimeMs == 0 then
    throw (.invalidInput "limits.wall_time_ms must be greater than 0")
  if limits.stdoutMaxBytes == 0 || limits.stderrMaxBytes == 0 then
    throw (.invalidInput
      "limits.stdout_max_bytes and limits.stderr_max_bytes must be greater than 0")

end ResourceLimits

structure ResourceEnforcementPlan where
  wallTimeMs : ℕ
  cpuTimeSec : Option ℕ := none
  cpuTimeEnforced : Bool := false
  memoryBytes : Option ℕ := none
  memoryEnforced : Bool := false
  pidsMax : Option ℕ := none
  pidsEnforced : Bool := false
  cgroupEnforced : Bool := false
  oomDetection : Bool := false
  deriving DecidableEq, Repr

structure ExecutionPlan where
  capabilityMode : CapabilityMode := .adaptive
  requestedSandbox : SandboxPolicy
  effectiveSandbox : SandboxPolicy
  resourceEnforcement : ResourceEnforcementPlan
  degraded : Bool := false
  fallbackReasons : List String := []
  capabilityWarnings : List String := []

namespace ExecutionPlan

/-- The plan of a row that was stored without one. -/
def legacy (sandbox : SandboxPolicy) (limits : ResourceLimits) : ExecutionPlan :=
  let cgroupEnforced := sandbox.profile == .linuxSandbox
  { capabilityMode := .adaptive
    requestedSandbox := sandbox
    effectiveSandbox := sandbox
    resourceEnforcement := {
      wallTimeMs := limits.wallTimeMs
      cpuTimeSec := limits.cpuTimeSec
      cpuTimeEnforced := limits.cpuTimeSec.isSome
      memoryBytes := limits.memoryBytes
      memoryEnforced := limits.memoryBytes.isSome
      pidsMax := limits.pidsMax
      pidsEnforced := limits.pidsMax.isSome && cgroupEnforced
      cgroupEnforced := cgroupEnforced
      oomDetection := limits.memoryBytes.isSome && cgroupEnforced
    }
    degraded := false
    fallbackReasons := []
    capabilityWarnings := [] }

end ExecutionPlan

structure TaskResourceReservation where
  taskSlots : ℕ
  memoryBytes : Option ℕ := none
  pids : Option ℕ := none
  deriving DecidableEq, Repr

namespace TaskResourceReservation

def fromLimits (limits : ResourceLimits) : TaskResourceReservation where
  taskSlots := 1
  memoryBytes := limits.memoryBytes
  pids := limits.pidsMax

end TaskResourceReservation

structure ResourceCapacity where
  taskSlots : ℕ
  memoryBytes : Option ℕ := none
  pids : Option ℕ := none
  deriving DecidableEq, Repr

def validateTaskId (taskId : TaskId) : AppResult Unit := do
  let trimmed := trim taskId
  if trimmed.isEmpty then
    throw (.invalidInput "task_id cannot be empty")
  if !(trimmed.all (fun c => isAsciiAlphanumeric c || c == '-' || c == '_' || c == '.')) then
    throw (.invalidInput "task_id may only contain letters, digits, '-', '_' and '.'")

structure SubmitTaskRequest where
  taskId : Option TaskId := none
  execution : ExecutionSpec
  limits : ResourceLimits := {}
  sandbox : SandboxPolicy := {}
  policy : Option TaskPolicy := none
  controlContext : Option ControlContext := none
  metadata : List (String × String) := []

namespace SubmitTaskRequest

def validate (request : SubmitTaskRequest) : AppResult Unit := do
  if let some taskId := request.taskId then
    validateTaskId taskId
  request.execution.validate
  request.limits.validate
  request.sandbox.validate
  if let some policy := request.policy then
    policy.validate
  if let some context := request.controlContext then
    context.validate

theorem sandbox_validate {request : SubmitTaskRequest} (h : request.validate = .ok ()) :
    request.sandbox.validate = .ok () := by
  simp only [validate, bind, Except.bind] at h
  revert h
  repeat' split
  all_goals
    intro h
    first | assumption | cases h

def tenant (request : SubmitTaskRequest) : Option String :=
  request.controlContext.bind ControlContext.tenant

end SubmitTaskRequest

structure SubmitTaskResponse where
  taskId : TaskId
  handleId : TaskId
  status : TaskStatus
  deriving DecidableEq, Repr

structure ResourceUsage where
  durationMs : ℕ
  userCpuMs : Option ℕ := none
  systemCpuMs : Option ℕ := none
  maxRssBytes : Option ℕ := none
  memoryPeakBytes : Option ℕ := none
  deriving DecidableEq, Repr

structure NamespaceCapabilities where
  mount : Bool
  pid : Bool
  uts : Bool
  ipc : Bool
  net : Bool
  deriving DecidableEq, Repr

structure SandboxCapabilities where
  process : Bool
  linuxSandbox : Bool
  chroot : Bool
  namespaces : NamespaceCapabilities
  deriving DecidableEq, Repr

structure ResourceCapabilities where
  rlimitCpu : Bool
  rlimitMemory : Bool
  cgroupWritable : Bool
  pidsLimit : Bool
  oomDetection : Bool
  capacity : ResourceCapacity
  deriving DecidableEq, Repr

structure RuntimeCapabilities where
  sandbox : SandboxCapabilities
  resources : ResourceCapabilities
  warnings : List String := []
  deriving DecidableEq, Repr

end ExecgoRuntime
