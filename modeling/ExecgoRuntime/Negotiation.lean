import ExecgoRuntime.Policy

/-!
What plan negotiation amounts to. A capability that a request needs and the host
lacks is a feature to be dropped. The list of these features depends on the
request and the capabilities alone, the effective sandbox too. A strict
negotiation fails with the first feature of the list, an adaptive one gives a
reason for each; an empty list makes no difference between the two.
-/
namespace ExecgoRuntime

inductive Namespace
  | mount
  | pid
  | uts
  | ipc
  | net
  deriving DecidableEq, Repr

namespace Namespace

def name : Namespace → String
  | mount => "mount"
  | pid => "pid"
  | uts => "uts"
  | ipc => "ipc"
  | net => "net"

/-- In the order in which they are negotiated. -/
def all : List Namespace := [mount, pid, uts, ipc, net]

theorem mem_all (space : Namespace) : space ∈ all := by
  cases space <;> decide

def of (config : NamespaceConfig) : Namespace → Bool
  | mount => config.mount
  | pid => config.pid
  | uts => config.uts
  | ipc => config.ipc
  | net => config.net

def supported (capabilities : NamespaceCapabilities) : Namespace → Bool
  | mount => capabilities.mount
  | pid => capabilities.pid
  | uts => capabilities.uts
  | ipc => capabilities.ipc
  | net => capabilities.net

end Namespace

namespace Policy

/-- What a request can ask for and a host can lack. -/
inductive Feature
  | linuxSandbox
  | chroot
  | unshared (space : Namespace)
  | cpuTime
  | memory
  | pids
  deriving DecidableEq, Repr

namespace Feature

/-- The entry of `fallback_reasons`. -/
def reason : Feature → String
  | linuxSandbox => "linux_sandbox is unavailable; falling back to process sandbox"
  | chroot => "chroot is unavailable; running without chroot"
  | unshared space => space.name ++ " namespace is unavailable; running without it"
  | cpuTime => "cpu_time_sec enforcement is unavailable"
  | memory => "memory_bytes enforcement is unavailable"
  | pids => "pids_max enforcement requires writable cgroup support"

/-- The text of the strict error. -/
def refusal : Feature → String
  | linuxSandbox => "sandbox.profile=linux_sandbox is unavailable on this runtime"
  | chroot => "sandbox.chroot is unavailable on this runtime"
  | unshared space => space.name ++ " namespace is unavailable on this runtime"
  | cpuTime => "cpu_time_sec enforcement is unavailable on this runtime"
  | memory => "memory_bytes enforcement is unavailable on this runtime"
  | pids => "pids_max enforcement requires writable cgroup support"

end Feature

namespace Negotiation

/-- The negotiation after all of these features have been dropped. -/
def drop (n : Negotiation) (dropped : List Feature) : Negotiation :=
  dropped.foldl (fun n feature => n.degrade feature.reason) n

theorem drop_append (n : Negotiation) (dropped more : List Feature) :
    n.drop (dropped ++ more) = (n.drop dropped).drop more := List.foldl_append

/-- A reason is given for every feature, and the mark is set by the first. -/
theorem drop_eq (n : Negotiation) (dropped : List Feature) :
    n.drop dropped =
      { degraded := n.degraded || !dropped.isEmpty
        fallbackReasons := n.fallbackReasons ++ dropped.map Feature.reason } := by
  induction dropped generalizing n with
  | nil => simp [drop]
  | cons feature rest ih =>
    have hhead : n.drop (feature :: rest) = (n.degrade feature.reason).drop rest := rfl
    rw [hhead, ih]
    simp [degrade]

/-- A strict negotiation ends at the first feature it would have to drop. -/
def settle (strict : Bool) (n : Negotiation) (dropped : List Feature) : AppResult Negotiation :=
  match strict, dropped with
  | true, feature :: _ => .error (.unsupportedCapability feature.refusal)
  | _, _ => .ok (n.drop dropped)

@[simp]
theorem settle_nil (strict : Bool) (n : Negotiation) : settle strict n [] = pure n := by
  cases strict <;> rfl

theorem settle_adaptive (n : Negotiation) (dropped : List Feature) :
    settle false n dropped = .ok (n.drop dropped) := by
  cases dropped <;> rfl

theorem settle_append (strict : Bool) (n : Negotiation) (dropped more : List Feature) :
    settle strict n (dropped ++ more) =
      settle strict n dropped >>= fun n => settle strict n more := by
  cases strict with
  | false => simp only [settle_adaptive, drop_append, bind, Except.bind]
  | true =>
    cases dropped with
    | nil => simp only [List.nil_append, settle_nil, pure_bind]
    | cons feature rest => rfl

end Negotiation

open Negotiation

theorem namespaceOrFallback_eq (requested supported strict : Bool) (n : Negotiation)
    (space : Namespace) :
    namespaceOrFallback requested supported strict n space.name =
      (fun n => (requested && supported, n)) <$>
        settle strict n (if requested && !supported then [.unshared space] else []) := by
  cases requested <;> cases supported <;> cases strict <;> rfl

theorem limitOrFallback_eq (requested enforced strict : Bool) (n : Negotiation) (feature : Feature)
    (onThisRuntime : String) (h : feature.refusal = feature.reason ++ onThisRuntime) :
    limitOrFallback requested enforced strict n feature.reason onThisRuntime =
      settle strict n (if requested && !enforced then [feature] else []) := by
  unfold limitOrFallback
  rw [← h]
  cases requested <;> cases enforced <;> cases strict <;> rfl

def profileFallbacks (capabilities : RuntimeCapabilities) (sandbox : SandboxPolicy) :
    List Feature :=
  if sandbox.profile == .linuxSandbox && !capabilities.sandbox.linuxSandbox then [.linuxSandbox]
  else []

/-- Without the profile there is neither a root nor a namespace. -/
def withProfile (capabilities : RuntimeCapabilities) (sandbox : SandboxPolicy) : SandboxPolicy :=
  if sandbox.profile == .linuxSandbox && !capabilities.sandbox.linuxSandbox then
    { sandbox with profile := .process, chroot := false, rootfs := none, namespaces := none }
  else sandbox

def chrootFallbacks (capabilities : RuntimeCapabilities) (sandbox : SandboxPolicy) :
    List Feature :=
  if sandbox.chroot && !capabilities.sandbox.chroot then [.chroot] else []

def withChroot (capabilities : RuntimeCapabilities) (sandbox : SandboxPolicy) : SandboxPolicy :=
  if sandbox.chroot && !capabilities.sandbox.chroot then
    { sandbox with chroot := false, rootfs := none }
  else sandbox

/-- The sandbox asks for the namespace and the host does not have it. -/
def lacks (capabilities : RuntimeCapabilities) (sandbox : SandboxPolicy) (space : Namespace) :
    Bool :=
  space.of sandbox.effectiveNamespaces && !space.supported capabilities.sandbox.namespaces

def namespaceFallbacks (capabilities : RuntimeCapabilities) (sandbox : SandboxPolicy) :
    List Feature :=
  if sandbox.profile == .linuxSandbox then
    Namespace.all.flatMap (fun space =>
      if lacks capabilities sandbox space then [.unshared space] else [])
  else []

/-- The namespaces that are asked for and supported. -/
def grantedNamespaces (capabilities : RuntimeCapabilities) (sandbox : SandboxPolicy) :
    NamespaceConfig :=
  let requested := sandbox.effectiveNamespaces
  let supported := capabilities.sandbox.namespaces
  { mount := requested.mount && supported.mount
    pid := requested.pid && supported.pid
    uts := requested.uts && supported.uts
    ipc := requested.ipc && supported.ipc
    net := requested.net && supported.net }

def withNamespaces (capabilities : RuntimeCapabilities) (sandbox : SandboxPolicy) :
    SandboxPolicy :=
  if sandbox.profile == .linuxSandbox then
    { sandbox with namespaces := some (grantedNamespaces capabilities sandbox) }
  else sandbox

def grantedSandbox (capabilities : RuntimeCapabilities) (sandbox : SandboxPolicy) :
    SandboxPolicy :=
  withNamespaces capabilities (withChroot capabilities (withProfile capabilities sandbox))

/-- What the plan enforces of the limits inside this effective sandbox. -/
def enforcement (capabilities : RuntimeCapabilities) (effective : SandboxPolicy)
    (limits : ResourceLimits) : ResourceEnforcementPlan :=
  let cgroupEnforced :=
    effective.profile == .linuxSandbox && capabilities.resources.cgroupWritable
  let cpuTimeEnforced := limits.cpuTimeSec.isNone || capabilities.resources.rlimitCpu
  let memoryEnforced := limits.memoryBytes.isNone || capabilities.resources.rlimitMemory
  let pidsEnforced :=
    limits.pidsMax.isNone || (cgroupEnforced && capabilities.resources.pidsLimit)
  { wallTimeMs := limits.wallTimeMs
    cpuTimeSec := limits.cpuTimeSec
    cpuTimeEnforced := limits.cpuTimeSec.isSome && cpuTimeEnforced
    memoryBytes := limits.memoryBytes
    memoryEnforced := limits.memoryBytes.isSome && memoryEnforced
    pidsMax := limits.pidsMax
    pidsEnforced := limits.pidsMax.isSome && pidsEnforced
    cgroupEnforced := cgroupEnforced
    oomDetection :=
      limits.memoryBytes.isSome && cgroupEnforced && capabilities.resources.oomDetection }

def limitFallbacks (limits : ResourceLimits) (enforcement : ResourceEnforcementPlan) :
    List Feature :=
  (if limits.cpuTimeSec.isSome && !enforcement.cpuTimeEnforced then [.cpuTime] else []) ++
    (if limits.memoryBytes.isSome && !enforcement.memoryEnforced then [.memory] else []) ++
    (if limits.pidsMax.isSome && !enforcement.pidsEnforced then [.pids] else [])

/-- The features to drop, in the order in which they are noticed. -/
def fallbacks (capabilities : RuntimeCapabilities) (sandbox : SandboxPolicy)
    (limits : ResourceLimits) : List Feature :=
  let profiled := withProfile capabilities sandbox
  let rooted := withChroot capabilities profiled
  profileFallbacks capabilities sandbox ++ chrootFallbacks capabilities profiled ++
    namespaceFallbacks capabilities rooted ++
    limitFallbacks limits
      (enforcement capabilities (withNamespaces capabilities rooted) limits)

/-- The plan for this effective sandbox. -/
def planFor (request : SubmitTaskRequest) (capabilities : RuntimeCapabilities)
    (mode : CapabilityMode) (effective : SandboxPolicy) (n : Negotiation) : ExecutionPlan where
  capabilityMode := mode
  requestedSandbox := request.sandbox
  effectiveSandbox := effective
  resourceEnforcement := enforcement capabilities effective request.limits
  degraded := n.degraded
  fallbackReasons := n.fallbackReasons
  capabilityWarnings := capabilities.warnings

section Stages

variable (request : SubmitTaskRequest) (capabilities : RuntimeCapabilities)
  (mode : CapabilityMode) (strict : Bool) (n : Negotiation) (sandbox : SandboxPolicy)

def fromLimits : AppResult ExecutionPlan := do
  let limits := request.limits
  let cgroupEnforced := sandbox.profile == .linuxSandbox && capabilities.resources.cgroupWritable
  let n ← limitOrFallback limits.cpuTimeSec.isSome
    (limits.cpuTimeSec.isNone || capabilities.resources.rlimitCpu) strict n
    Feature.cpuTime.reason " on this runtime"
  let n ← limitOrFallback limits.memoryBytes.isSome
    (limits.memoryBytes.isNone || capabilities.resources.rlimitMemory) strict n
    Feature.memory.reason " on this runtime"
  let n ← limitOrFallback limits.pidsMax.isSome
    (limits.pidsMax.isNone || (cgroupEnforced && capabilities.resources.pidsLimit)) strict n
    Feature.pids.reason ""
  return planFor request capabilities mode sandbox n

def fromNamespaces : AppResult ExecutionPlan :=
  if sandbox.profile == .linuxSandbox then do
    let requested := sandbox.effectiveNamespaces
    let supported := capabilities.sandbox.namespaces
    let (mount, n) ←
      namespaceOrFallback requested.mount supported.mount strict n Namespace.mount.name
    let (pid, n) ← namespaceOrFallback requested.pid supported.pid strict n Namespace.pid.name
    let (uts, n) ← namespaceOrFallback requested.uts supported.uts strict n Namespace.uts.name
    let (ipc, n) ← namespaceOrFallback requested.ipc supported.ipc strict n Namespace.ipc.name
    let (net, n) ← namespaceOrFallback requested.net supported.net strict n Namespace.net.name
    fromLimits request capabilities mode strict n
      { sandbox with namespaces := some ⟨mount, pid, uts, ipc, net⟩ }
  else fromLimits request capabilities mode strict n sandbox

def fromChroot : AppResult ExecutionPlan := do
  let n ← settle strict n (chrootFallbacks capabilities sandbox)
  fromNamespaces request capabilities mode strict n (withChroot capabilities sandbox)

theorem fromLimits_eq :
    fromLimits request capabilities mode strict n sandbox =
      planFor request capabilities mode sandbox <$>
        settle strict n (limitFallbacks request.limits
          (enforcement capabilities sandbox request.limits)) := by
  have hflag : ∀ given enforced : Bool, (given && !(given && enforced)) = (given && !enforced) := by
    decide
  unfold fromLimits
  simp only [limitOrFallback_eq _ _ _ _ .cpuTime " on this runtime" rfl,
    limitOrFallback_eq _ _ _ _ .memory " on this runtime" rfl,
    limitOrFallback_eq _ _ _ _ .pids "" (String.append_empty).symm, limitFallbacks, enforcement,
    settle_append, hflag, map_eq_pure_bind, bind_assoc]

theorem fromNamespaces_eq :
    fromNamespaces request capabilities mode strict n sandbox =
      settle strict n (namespaceFallbacks capabilities sandbox) >>= fun n =>
        fromLimits request capabilities mode strict n (withNamespaces capabilities sandbox) := by
  unfold fromNamespaces
  by_cases h : (sandbox.profile == .linuxSandbox) = true
  · rw [if_pos h]
    simp only [namespaceOrFallback_eq, namespaceFallbacks, h, if_true, Namespace.all, lacks,
      Namespace.of, Namespace.supported, List.flatMap_cons, List.flatMap_nil, settle_append,
      withNamespaces, grantedNamespaces, map_eq_pure_bind, bind_assoc, pure_bind, settle_nil]
    rfl
  · rw [if_neg h]
    simp [namespaceFallbacks, withNamespaces, h]

end Stages

theorem resolveExecutionPlan_stages (request : SubmitTaskRequest)
    (capabilities : RuntimeCapabilities) (defaultMode : CapabilityMode) :
    resolveExecutionPlan request capabilities defaultMode =
      settle (isStrict request defaultMode) {}
        (profileFallbacks capabilities request.sandbox) >>= fun n =>
          fromChroot request capabilities (effectiveCapabilityMode request defaultMode)
            (isStrict request defaultMode) n (withProfile capabilities request.sandbox) := by
  unfold resolveExecutionPlan
  generalize isStrict request defaultMode = strict
  cases hprofile : request.sandbox.profile == .linuxSandbox &&
      !capabilities.sandbox.linuxSandbox with
  | true =>
    cases strict with
    | true =>
      simp only [profileFallbacks, hprofile]
      rfl
    | false =>
      simp only [profileFallbacks, hprofile, withProfile]
      rfl
  | false =>
    simp only [profileFallbacks, hprofile, withProfile, Bool.false_eq_true, if_false, settle_nil,
      pure_bind, fromChroot]
    cases hchroot : request.sandbox.chroot && !capabilities.sandbox.chroot with
    | true =>
      cases strict with
      | true =>
        simp only [chrootFallbacks, hchroot, if_true]
        rfl
      | false =>
        simp only [chrootFallbacks, hchroot, withChroot, Bool.false_eq_true, if_true, if_false]
        rfl
    | false =>
      simp only [chrootFallbacks, hchroot, withChroot, Bool.false_eq_true, if_false, settle_nil,
        pure_bind]
      rfl

theorem resolveExecutionPlan_eq (request : SubmitTaskRequest) (capabilities : RuntimeCapabilities)
    (defaultMode : CapabilityMode) :
    resolveExecutionPlan request capabilities defaultMode =
      planFor request capabilities (effectiveCapabilityMode request defaultMode)
          (grantedSandbox capabilities request.sandbox) <$>
        settle (isStrict request defaultMode) {}
          (fallbacks capabilities request.sandbox request.limits) := by
  rw [resolveExecutionPlan_stages]
  simp only [fromChroot, fromNamespaces_eq, fromLimits_eq, fallbacks, settle_append,
    grantedSandbox, map_eq_pure_bind, bind_assoc]

/-- A returned plan grants what is left after all features of the list are dropped. -/
theorem eq_of_resolveExecutionPlan {request : SubmitTaskRequest}
    {capabilities : RuntimeCapabilities} {defaultMode : CapabilityMode} {plan : ExecutionPlan}
    (h : resolveExecutionPlan request capabilities defaultMode = .ok plan) :
    plan = planFor request capabilities (effectiveCapabilityMode request defaultMode)
      (grantedSandbox capabilities request.sandbox)
      (Negotiation.drop {} (fallbacks capabilities request.sandbox request.limits)) := by
  rw [resolveExecutionPlan_eq] at h
  generalize fallbacks capabilities request.sandbox request.limits = dropped at h ⊢
  generalize isStrict request defaultMode = strict at h
  cases strict with
  | false => exact (Except.ok.inj h).symm
  | true =>
    cases dropped with
    | nil => exact (Except.ok.inj h).symm
    | cons feature rest => cases h

theorem degraded_planFor (request : SubmitTaskRequest) (capabilities : RuntimeCapabilities)
    (mode : CapabilityMode) (effective : SandboxPolicy) (dropped : List Feature) :
    (planFor request capabilities mode effective (Negotiation.drop {} dropped)).degraded = true ↔
      dropped ≠ [] := by
  have hdegraded : (planFor request capabilities mode effective
      (Negotiation.drop {} dropped)).degraded = !dropped.isEmpty := by
    rw [planFor, drop_eq]
    rfl
  rw [hdegraded]
  cases dropped <;> simp

/-- A plan is marked degraded exactly when it gives a reason. -/
theorem degraded_iff {request : SubmitTaskRequest} {capabilities : RuntimeCapabilities}
    {defaultMode : CapabilityMode} {plan : ExecutionPlan}
    (h : resolveExecutionPlan request capabilities defaultMode = .ok plan) :
    plan.degraded = true ↔ plan.fallbackReasons ≠ [] := by
  rw [eq_of_resolveExecutionPlan h, degraded_planFor]
  simp [planFor, drop_eq]

/-- The request with every reason to be strict taken out. -/
def madeAdaptive (request : SubmitTaskRequest) : SubmitTaskRequest :=
  { request with
    policy := some ⟨.adaptive⟩
    controlContext := request.controlContext.map (fun context =>
      { context with requiresStrictSandbox := false }) }

inductive StrictThrough
  | policy
  | defaultMode
  | controlContext
  deriving DecidableEq, Repr

def madeStrict (request : SubmitTaskRequest) : StrictThrough → SubmitTaskRequest
  | .policy => { request with policy := some ⟨.strict⟩ }
  | .defaultMode => { request with policy := none }
  | .controlContext =>
    { request with
      controlContext :=
        some { request.controlContext.getD {} with requiresStrictSandbox := true } }

/-- The default mode of a service that is strict in this way. -/
def StrictThrough.mode (way : StrictThrough) (defaultMode : CapabilityMode) : CapabilityMode :=
  match way with
  | .defaultMode => .strict
  | .policy | .controlContext => defaultMode

theorem isStrict_madeAdaptive (request : SubmitTaskRequest) (defaultMode : CapabilityMode) :
    isStrict (madeAdaptive request) defaultMode = false := by
  cases hcontext : request.controlContext <;>
    simp [isStrict, madeAdaptive, effectiveCapabilityMode, hcontext]

theorem isStrict_madeStrict (request : SubmitTaskRequest) (way : StrictThrough)
    (defaultMode : CapabilityMode) :
    isStrict (madeStrict request way) (way.mode defaultMode) = true := by
  cases way <;> simp [isStrict, madeStrict, effectiveCapabilityMode, StrictThrough.mode]

theorem resolve_madeAdaptive (request : SubmitTaskRequest) (capabilities : RuntimeCapabilities)
    (defaultMode : CapabilityMode) :
    resolveExecutionPlan (madeAdaptive request) capabilities defaultMode =
      .ok (planFor request capabilities .adaptive (grantedSandbox capabilities request.sandbox)
        (Negotiation.drop {} (fallbacks capabilities request.sandbox request.limits))) := by
  rw [resolveExecutionPlan_eq, isStrict_madeAdaptive, settle_adaptive]
  rfl

/-- A strict resolution returns the plan in which nothing is dropped, or refuses. -/
theorem resolve_madeStrict (request : SubmitTaskRequest) (capabilities : RuntimeCapabilities)
    (defaultMode : CapabilityMode) (way : StrictThrough) :
    resolveExecutionPlan (madeStrict request way) capabilities (way.mode defaultMode) =
      match fallbacks capabilities request.sandbox request.limits with
      | [] =>
        .ok (planFor request capabilities
          (effectiveCapabilityMode (madeStrict request way) (way.mode defaultMode))
          (grantedSandbox capabilities request.sandbox) {})
      | feature :: _ => .error (.unsupportedCapability feature.refusal) := by
  have hsandbox : (madeStrict request way).sandbox = request.sandbox := by
    cases way <;> rfl
  have hlimits : (madeStrict request way).limits = request.limits := by
    cases way <;> rfl
  have hplan : planFor (madeStrict request way) = planFor request := by
    funext capabilities mode effective n
    simp only [planFor, hsandbox, hlimits]
  rw [resolveExecutionPlan_eq, isStrict_madeStrict, hsandbox, hlimits, hplan]
  cases fallbacks capabilities request.sandbox request.limits <;> rfl

/-- Strict and adaptive resolution agree. The adaptive one always gives a plan;
the strict one gives the same plan if it is not degraded, and refuses otherwise. -/
theorem strict_agrees_with_adaptive (request : SubmitTaskRequest)
    (capabilities : RuntimeCapabilities) (defaultMode : CapabilityMode) (way : StrictThrough) :
    (∀ plan, resolveExecutionPlan request capabilities defaultMode = .ok plan →
      (plan.degraded = true ↔ plan.fallbackReasons ≠ [])) ∧
    ∃ a, resolveExecutionPlan (madeAdaptive request) capabilities defaultMode = .ok a ∧
      ((∃ s, resolveExecutionPlan (madeStrict request way) capabilities (way.mode defaultMode) =
        .ok s) ↔ a.degraded = false) ∧
      (∀ s, resolveExecutionPlan (madeStrict request way) capabilities (way.mode defaultMode) =
        .ok s → s = { a with capabilityMode := s.capabilityMode }) ∧
      (a.degraded = true → ∃ message,
        resolveExecutionPlan (madeStrict request way) capabilities (way.mode defaultMode) =
          .error (.unsupportedCapability message)) := by
  refine ⟨fun plan h => degraded_iff h, _,
    resolve_madeAdaptive request capabilities defaultMode, ?_⟩
  have hdegraded := degraded_planFor request capabilities .adaptive
    (grantedSandbox capabilities request.sandbox)
    (fallbacks capabilities request.sandbox request.limits)
  rw [resolve_madeStrict]
  cases hdropped : fallbacks capabilities request.sandbox request.limits with
  | nil =>
    refine ⟨⟨fun _ => rfl, fun _ => ⟨_, rfl⟩⟩, fun s hs => ?_, fun hmark => ?_⟩
    · cases hs
      rfl
    · cases hmark
  | cons feature rest =>
    rw [hdropped] at hdegraded
    have hmark := hdegraded.mpr (List.cons_ne_nil feature rest)
    refine ⟨⟨fun ⟨_, hs⟩ => ?_, fun hclear => ?_⟩, fun s hs => ?_, fun _ => ⟨_, rfl⟩⟩
    · cases hs
    · rw [hmark] at hclear
      cases hclear
    · cases hs

/-- A host that can do everything but `chroot`. -/
def chrootless : RuntimeCapabilities where
  sandbox := ⟨true, true, false, ⟨true, true, true, true, true⟩⟩
  resources := ⟨true, true, true, true, true, ⟨1, none, none⟩⟩

def rootedRequest : SubmitTaskRequest where
  execution := { kind := .command, program := some "true" }
  sandbox := { profile := .linuxSandbox, rootfs := some "/srv/root", chroot := true }

/-- A reason in one mode, an error in the other. -/
theorem strict_agrees_without_chroot :
    ∃ a message, resolveExecutionPlan (madeAdaptive rootedRequest) chrootless .adaptive = .ok a ∧
      a.degraded = true ∧
      resolveExecutionPlan (madeStrict rootedRequest .policy) chrootless .adaptive =
        .error (.unsupportedCapability message) := by
  obtain ⟨_, a, ha, _, _, herror⟩ :=
    strict_agrees_with_adaptive rootedRequest chrootless .adaptive .policy
  have hmark : a.degraded = true := by
    rw [resolve_madeAdaptive] at ha
    cases ha
    rfl
  obtain ⟨message, hmessage⟩ := herror hmark
  exact ⟨a, message, ha, hmark, hmessage⟩

end Policy

end ExecgoRuntime
