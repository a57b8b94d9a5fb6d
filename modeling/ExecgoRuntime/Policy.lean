import ExecgoRuntime.Types

/-!
Plan negotiation (`policy.rs`): a request is resolved against the capability
snapshot of the host. What is missing is an error in strict mode; in adaptive
mode it is dropped from the effective sandbox, with a reason, and the plan is
marked degraded.
-/
namespace ExecgoRuntime.Policy

/-- The accumulators `degraded` and `fallback_reasons` of the negotiation. -/
structure Negotiation where
  degraded : Bool := false
  fallbackReasons : List String := []

namespace Negotiation

def degrade (n : Negotiation) (reason : String) : Negotiation where
  degraded := true
  fallbackReasons := n.fallbackReasons ++ [reason]

end Negotiation

def effectiveCapabilityMode (request : SubmitTaskRequest) (defaultMode : CapabilityMode) :
    CapabilityMode :=
  (request.policy.map TaskPolicy.capabilityMode).getD defaultMode

/-- Strictness comes from the mode or from the control context. -/
def isStrict (request : SubmitTaskRequest) (defaultMode : CapabilityMode) : Bool :=
  effectiveCapabilityMode request defaultMode == .strict ||
    (request.controlContext.map ControlContext.requiresStrictSandbox).getD false

def namespaceOrFallback (requested supported strict : Bool) (n : Negotiation)
    (namespaceName : String) : AppResult (Bool × Negotiation) :=
  if !requested then .ok (false, n)
  else if supported then .ok (true, n)
  else if strict then
    .error (.unsupportedCapability (namespaceName ++ " namespace is unavailable on this runtime"))
  else .ok (false, n.degrade (namespaceName ++ " namespace is unavailable; running without it"))

/-- A limit that cannot be enforced: an error in strict mode, a reason otherwise. -/
def limitOrFallback (requested enforced strict : Bool) (n : Negotiation)
    (reason onThisRuntime : String) : AppResult Negotiation :=
  if requested && !enforced then
    if strict then .error (.unsupportedCapability (reason ++ onThisRuntime))
    else .ok (n.degrade reason)
  else .ok n

def resolveExecutionPlan (request : SubmitTaskRequest) (capabilities : RuntimeCapabilities)
    (defaultMode : CapabilityMode) : AppResult ExecutionPlan := do
  let strict := isStrict request defaultMode
  let mut n : Negotiation := {}
  let mut sandbox := request.sandbox
  if sandbox.profile == .linuxSandbox && !capabilities.sandbox.linuxSandbox then
    if strict then
      throw (.unsupportedCapability "sandbox.profile=linux_sandbox is unavailable on this runtime")
    n := n.degrade "linux_sandbox is unavailable; falling back to process sandbox"
    sandbox := { sandbox with profile := .process, chroot := false, rootfs := none,
                              namespaces := none }
  if sandbox.chroot && !capabilities.sandbox.chroot then
    if strict then
      throw (.unsupportedCapability "sandbox.chroot is unavailable on this runtime")
    n := n.degrade "chroot is unavailable; running without chroot"
    sandbox := { sandbox with chroot := false, rootfs := none }
  if sandbox.profile == .linuxSandbox then
    let requested := sandbox.effectiveNamespaces
    let supported := capabilities.sandbox.namespaces
    let (mount, n₁) ← namespaceOrFallback requested.mount supported.mount strict n "mount"
    let (pid, n₂) ← namespaceOrFallback requested.pid supported.pid strict n₁ "pid"
    let (uts, n₃) ← namespaceOrFallback requested.uts supported.uts strict n₂ "uts"
    let (ipc, n₄) ← namespaceOrFallback requested.ipc supported.ipc strict n₃ "ipc"
    let (net, n₅) ← namespaceOrFallback requested.net supported.net strict n₄ "net"
    n := n₅
    sandbox := { sandbox with namespaces := some ⟨mount, pid, uts, ipc, net⟩ }
  let limits := request.limits
  let cgroupEnforced := sandbox.profile == .linuxSandbox && capabilities.resources.cgroupWritable
  let cpuTimeEnforced := limits.cpuTimeSec.isNone || capabilities.resources.rlimitCpu
  let memoryEnforced := limits.memoryBytes.isNone || capabilities.resources.rlimitMemory
  let pidsEnforced :=
    limits.pidsMax.isNone || (cgroupEnforced && capabilities.resources.pidsLimit)
  let oomDetection :=
    limits.memoryBytes.isSome && cgroupEnforced && capabilities.resources.oomDetection
  n ← limitOrFallback limits.cpuTimeSec.isSome cpuTimeEnforced strict n
    "cpu_time_sec enforcement is unavailable" " on this runtime"
  n ← limitOrFallback limits.memoryBytes.isSome memoryEnforced strict n
    "memory_bytes enforcement is unavailable" " on this runtime"
  n ← limitOrFallback limits.pidsMax.isSome pidsEnforced strict n
    "pids_max enforcement requires writable cgroup support" ""
  return {
    capabilityMode := effectiveCapabilityMode request defaultMode
    requestedSandbox := request.sandbox
    effectiveSandbox := sandbox
    resourceEnforcement := {
      wallTimeMs := limits.wallTimeMs
      cpuTimeSec := limits.cpuTimeSec
      cpuTimeEnforced := limits.cpuTimeSec.isSome && cpuTimeEnforced
      memoryBytes := limits.memoryBytes
      memoryEnforced := limits.memoryBytes.isSome && memoryEnforced
      pidsMax := limits.pidsMax
      pidsEnforced := limits.pidsMax.isSome && pidsEnforced
      cgroupEnforced := cgroupEnforced
      oomDetection := oomDetection
    }
    degraded := n.degraded
    fallbackReasons := n.fallbackReasons
    capabilityWarnings := capabilities.warnings
  }

end ExecgoRuntime.Policy
