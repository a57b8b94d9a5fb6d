import ExecgoRuntime.Negotiation
import ExecgoRuntime.Shim

/-!
What the launch path applies of a plan (`spawn_task_process`), as the system
calls it makes when all of them succeed, on Linux. The child limits itself and
enters its sandbox before it executes the workload; the shim then moves it into
a cgroup. A feature is granted when it is requested and the host has it. The
launch of a resolved plan applies exactly what is granted, and the plan is marked
degraded exactly when that is less than what was requested.
-/
namespace ExecgoRuntime

open Policy

inductive Rlimit
  | cpu
  | addressSpace
  deriving DecidableEq, Repr

/-- The files of a cgroup that the launch writes. -/
inductive CgroupFile
  | memoryMax
  | pidsMax
  | cgroupProcs
  deriving DecidableEq, Repr

inductive SystemCall
  | setpgid (pid pgid : ℕ)
  | setrlimit (resource : Rlimit) (soft hard : ℕ)
  | unshare (flags : NamespaceConfig)
  | chroot (root : String)
  | chdir (path : String)
  | createDirAll (dir : String)
  | write (dir : String) (file : CgroupFile) (text : String)
  deriving DecidableEq, Repr

def applyResourceEnforcement (enforcement : ResourceEnforcementPlan) : List SystemCall :=
  (match enforcement.cpuTimeEnforced, enforcement.cpuTimeSec with
    | true, some cpuTimeSec => [.setrlimit .cpu cpuTimeSec cpuTimeSec]
    | _, _ => []) ++
  (match enforcement.memoryEnforced, enforcement.memoryBytes with
    | true, some memoryBytes => [.setrlimit .addressSpace memoryBytes memoryBytes]
    | _, _ => [])

/-- `CloneFlags::is_empty`. -/
def noFlags (flags : NamespaceConfig) : Bool :=
  !(flags.mount || flags.pid || flags.uts || flags.ipc || flags.net)

/-- Nothing at all is done for the process profile. -/
def applyLinuxSandbox (sandbox : SandboxPolicy) (rootfs : Option String) :
    Option (List SystemCall) :=
  if sandbox.profile == .linuxSandbox then
    let flags := sandbox.effectiveNamespaces
    some ((if !noFlags flags then [.unshare flags] else []) ++
      (match sandbox.chroot, rootfs with
        | true, some root => [.chroot root, .chdir "/"]
        | _, _ => []))
  else none

def setupCgroup (cgroupRoot : String) (taskId : TaskId) (pid : ℕ)
    (enforcement : ResourceEnforcementPlan) : List SystemCall :=
  let dir := joinPath cgroupRoot taskId
  [.createDirAll dir] ++
  (match enforcement.memoryEnforced, enforcement.memoryBytes with
    | true, some memoryBytes => [.write dir .memoryMax (toString memoryBytes)]
    | _, _ => []) ++
  (match enforcement.pidsEnforced, enforcement.pidsMax with
    | true, some pidsMax => [.write dir .pidsMax (toString pidsMax)]
    | _, _ => []) ++
  [.write dir .cgroupProcs (toString pid)]

/-- What a launch has done, by the function that did it. -/
structure Launch where
  pid : ℕ
  limits : List SystemCall
  sandbox : Option (List SystemCall)
  cgroup : Option (List SystemCall)

namespace Launch

def calls (launch : Launch) : List SystemCall :=
  [.setpgid 0 0] ++ launch.limits ++ launch.sandbox.getD [] ++ launch.cgroup.getD []

end Launch

/-- `pid` is the process that `command.spawn()` starts. -/
def spawnTaskProcess (taskId : TaskId) (plan : ExecutionPlan) (cgroupRoot : String) (pid : ℕ) :
    Launch where
  pid := pid
  limits := applyResourceEnforcement plan.resourceEnforcement
  sandbox := applyLinuxSandbox plan.effectiveSandbox plan.effectiveSandbox.rootfs
  cgroup :=
    if plan.resourceEnforcement.cgroupEnforced then
      some (setupCgroup cgroupRoot taskId pid plan.resourceEnforcement)
    else none

namespace Policy.Feature

/-- The request asks for the feature; a root and namespaces belong to the profile. -/
def Requested (request : SubmitTaskRequest) : Feature → Prop
  | linuxSandbox => request.sandbox.profile = .linuxSandbox
  | chroot => request.sandbox.profile = .linuxSandbox ∧ request.sandbox.chroot = true
  | unshared space =>
    request.sandbox.profile = .linuxSandbox ∧
      space.of request.sandbox.effectiveNamespaces = true
  | cpuTime => request.limits.cpuTimeSec.isSome = true
  | memory => request.limits.memoryBytes.isSome = true
  | pids => request.limits.pidsMax.isSome = true

/-- The host can provide the feature for this request. -/
def Available (capabilities : RuntimeCapabilities) (request : SubmitTaskRequest) : Feature → Prop
  | linuxSandbox => capabilities.sandbox.linuxSandbox = true
  | chroot => capabilities.sandbox.linuxSandbox = true ∧ capabilities.sandbox.chroot = true
  | unshared space =>
    capabilities.sandbox.linuxSandbox = true ∧
      space.supported capabilities.sandbox.namespaces = true
  | cpuTime => capabilities.resources.rlimitCpu = true
  | memory => capabilities.resources.rlimitMemory = true
  | pids =>
    (request.sandbox.profile = .linuxSandbox ∧ capabilities.sandbox.linuxSandbox = true) ∧
      capabilities.resources.cgroupWritable = true ∧ capabilities.resources.pidsLimit = true

end Policy.Feature

namespace Launch

/-- The launch applies the feature as the request gives it. -/
def Applies (launch : Launch) (request : SubmitTaskRequest) : Feature → Prop
  | .linuxSandbox => launch.sandbox.isSome = true
  | .chroot => ∃ root, request.sandbox.rootfs = some root ∧ .chroot root ∈ launch.calls
  | .unshared space => ∃ flags, .unshare flags ∈ launch.calls ∧ space.of flags = true
  | .cpuTime =>
    ∃ value, request.limits.cpuTimeSec = some value ∧
      .setrlimit .cpu value value ∈ launch.calls
  | .memory =>
    ∃ value, request.limits.memoryBytes = some value ∧
      .setrlimit .addressSpace value value ∈ launch.calls
  | .pids =>
    ∃ value dir, request.limits.pidsMax = some value ∧
      .write dir .pidsMax (toString value) ∈ launch.calls ∧
      .write dir .cgroupProcs (toString launch.pid) ∈ launch.calls

/-- The launch does something of the kind of the feature. -/
def Touches (launch : Launch) : Feature → Prop
  | .linuxSandbox => launch.sandbox.isSome = true
  | .chroot => ∃ root, .chroot root ∈ launch.calls
  | .unshared space => ∃ flags, .unshare flags ∈ launch.calls ∧ space.of flags = true
  | .cpuTime => ∃ soft hard, .setrlimit .cpu soft hard ∈ launch.calls
  | .memory =>
    (∃ soft hard, .setrlimit .addressSpace soft hard ∈ launch.calls) ∨
      ∃ dir text, .write dir .memoryMax text ∈ launch.calls
  | .pids => ∃ dir text, .write dir .pidsMax text ∈ launch.calls

end Launch

theorem mem_applyResourceEnforcement (enforcement : ResourceEnforcementPlan) (call : SystemCall) :
    call ∈ applyResourceEnforcement enforcement ↔
      (∃ value, (enforcement.cpuTimeEnforced = true ∧ enforcement.cpuTimeSec = some value) ∧
        call = .setrlimit .cpu value value) ∨
      ∃ value, (enforcement.memoryEnforced = true ∧ enforcement.memoryBytes = some value) ∧
        call = .setrlimit .addressSpace value value := by
  unfold applyResourceEnforcement
  rw [List.mem_append]
  refine or_congr ?_ ?_
  · cases enforcement.cpuTimeEnforced <;> cases enforcement.cpuTimeSec <;> simp
  · cases enforcement.memoryEnforced <;> cases enforcement.memoryBytes <;> simp

theorem mem_setupCgroup (cgroupRoot : String) (taskId : TaskId) (pid : ℕ)
    (enforcement : ResourceEnforcementPlan) (call : SystemCall) :
    call ∈ setupCgroup cgroupRoot taskId pid enforcement ↔
      call = .createDirAll (joinPath cgroupRoot taskId) ∨
      (∃ value, (enforcement.memoryEnforced = true ∧ enforcement.memoryBytes = some value) ∧
        call = .write (joinPath cgroupRoot taskId) .memoryMax (toString value)) ∨
      (∃ value, (enforcement.pidsEnforced = true ∧ enforcement.pidsMax = some value) ∧
        call = .write (joinPath cgroupRoot taskId) .pidsMax (toString value)) ∨
      call = .write (joinPath cgroupRoot taskId) .cgroupProcs (toString pid) := by
  unfold setupCgroup
  simp only [List.mem_append, List.mem_singleton, or_assoc]
  refine or_congr Iff.rfl (or_congr ?_ (or_congr ?_ Iff.rfl))
  · cases enforcement.memoryEnforced <;> cases enforcement.memoryBytes <;> simp
  · cases enforcement.pidsEnforced <;> cases enforcement.pidsMax <;> simp

theorem noFlags_eq_false {flags : NamespaceConfig} {space : Namespace}
    (h : space.of flags = true) : noFlags flags = false := by
  cases space <;> simp_all [noFlags, Namespace.of]

/-- The calls of a sandbox that is entered. -/
theorem mem_applyLinuxSandbox (sandbox : SandboxPolicy) (rootfs : Option String)
    (call : SystemCall) :
    call ∈ (applyLinuxSandbox sandbox rootfs).getD [] ↔
      sandbox.profile = .linuxSandbox ∧
        ((noFlags sandbox.effectiveNamespaces = false ∧
            call = .unshare sandbox.effectiveNamespaces) ∨
          ∃ root, (sandbox.chroot = true ∧ rootfs = some root) ∧
            (call = .chroot root ∨ call = .chdir "/")) := by
  unfold applyLinuxSandbox
  cases hprofile : sandbox.profile with
  | process => simp
  | linuxSandbox =>
    simp only [beq_self_eq_true, if_true, Option.getD_some, List.mem_append, true_and]
    refine or_congr ?_ ?_
    · cases noFlags sandbox.effectiveNamespaces <;> simp
    · cases sandbox.chroot <;> cases rootfs <;> simp

theorem applyLinuxSandbox_isSome (sandbox : SandboxPolicy) (rootfs : Option String) :
    (applyLinuxSandbox sandbox rootfs).isSome = true ↔ sandbox.profile = .linuxSandbox := by
  unfold applyLinuxSandbox
  cases sandbox.profile <;> simp

theorem chroot_of_validate {sandbox : SandboxPolicy} (h : sandbox.validate = .ok ())
    (hchroot : sandbox.chroot = true) :
    sandbox.profile = .linuxSandbox ∧ ∃ root, sandbox.rootfs = some root := by
  obtain ⟨hroot, hprofile⟩ := (sandbox.validate_eq_ok_iff.mp h).2 hchroot
  refine ⟨hprofile, ?_⟩
  cases hcase : sandbox.rootfs with
  | some root => exact ⟨root, rfl⟩
  | none => simp [hcase] at hroot

theorem chroot_of_process {sandbox : SandboxPolicy} (h : sandbox.validate = .ok ())
    (hprofile : sandbox.profile = .process) : sandbox.chroot = false := by
  by_contra hchroot
  rw [(chroot_of_validate h (by simpa using hchroot)).1] at hprofile
  cases hprofile

theorem granted_refused {capabilities : RuntimeCapabilities} {sandbox : SandboxPolicy}
    (hprofile : sandbox.profile = .linuxSandbox)
    (hlinux : capabilities.sandbox.linuxSandbox = false) :
    grantedSandbox capabilities sandbox = { workspaceSubdir := sandbox.workspaceSubdir } := by
  simp [grantedSandbox, withNamespaces, withChroot, withProfile, hprofile, hlinux]

theorem granted_linuxSandbox {capabilities : RuntimeCapabilities} {sandbox : SandboxPolicy}
    (hprofile : sandbox.profile = .linuxSandbox)
    (hlinux : capabilities.sandbox.linuxSandbox = true) :
    grantedSandbox capabilities sandbox =
      { sandbox with
        rootfs :=
          if sandbox.chroot && !capabilities.sandbox.chroot then none else sandbox.rootfs
        chroot := sandbox.chroot && capabilities.sandbox.chroot
        namespaces := some (grantedNamespaces capabilities sandbox) } := by
  cases hchroot : sandbox.chroot <;> cases hcan : capabilities.sandbox.chroot <;>
    simp [grantedSandbox, withNamespaces, withChroot, withProfile, hprofile, hlinux, hchroot, hcan,
      grantedNamespaces, SandboxPolicy.effectiveNamespaces]

theorem of_grantedNamespaces (capabilities : RuntimeCapabilities) (sandbox : SandboxPolicy)
    (space : Namespace) :
    space.of (grantedNamespaces capabilities sandbox) =
      (space.of sandbox.effectiveNamespaces &&
        space.supported capabilities.sandbox.namespaces) := by
  cases space <;> rfl

theorem cpuTimeEnforced_iff (capabilities : RuntimeCapabilities) (effective : SandboxPolicy)
    (limits : ResourceLimits) :
    (enforcement capabilities effective limits).cpuTimeEnforced = true ↔
      limits.cpuTimeSec.isSome = true ∧ capabilities.resources.rlimitCpu = true := by
  cases hgiven : limits.cpuTimeSec <;> simp [enforcement, hgiven]

theorem memoryEnforced_iff (capabilities : RuntimeCapabilities) (effective : SandboxPolicy)
    (limits : ResourceLimits) :
    (enforcement capabilities effective limits).memoryEnforced = true ↔
      limits.memoryBytes.isSome = true ∧ capabilities.resources.rlimitMemory = true := by
  cases hgiven : limits.memoryBytes <;> simp [enforcement, hgiven]

theorem cgroupEnforced_iff (capabilities : RuntimeCapabilities) (effective : SandboxPolicy)
    (limits : ResourceLimits) :
    (enforcement capabilities effective limits).cgroupEnforced = true ↔
      effective.profile = .linuxSandbox ∧ capabilities.resources.cgroupWritable = true := by
  simp [enforcement]

theorem pidsEnforced_iff (capabilities : RuntimeCapabilities) (effective : SandboxPolicy)
    (limits : ResourceLimits) :
    (enforcement capabilities effective limits).pidsEnforced = true ↔
      limits.pidsMax.isSome = true ∧ effective.profile = .linuxSandbox ∧
        capabilities.resources.cgroupWritable = true ∧
        capabilities.resources.pidsLimit = true := by
  cases hgiven : limits.pidsMax <;> simp [enforcement, hgiven, and_assoc]

theorem granted_profile_iff (capabilities : RuntimeCapabilities) (sandbox : SandboxPolicy) :
    (grantedSandbox capabilities sandbox).profile = .linuxSandbox ↔
      sandbox.profile = .linuxSandbox ∧ capabilities.sandbox.linuxSandbox = true := by
  cases hprofile : sandbox.profile with
  | process =>
    have hkept : (grantedSandbox capabilities sandbox).profile = .process := by
      cases hchroot : sandbox.chroot && !capabilities.sandbox.chroot <;>
        simp [grantedSandbox, withNamespaces, withChroot, withProfile, hprofile, hchroot]
    simp [hkept]
  | linuxSandbox =>
    cases hlinux : capabilities.sandbox.linuxSandbox with
    | false => simp [granted_refused hprofile hlinux]
    | true => simp [granted_linuxSandbox hprofile hlinux, hprofile]

section Calls

variable (taskId : TaskId) (plan : ExecutionPlan) (cgroupRoot : String) (pid : ℕ)

theorem mem_calls (call : SystemCall) :
    call ∈ (spawnTaskProcess taskId plan cgroupRoot pid).calls ↔
      call = .setpgid 0 0 ∨ call ∈ applyResourceEnforcement plan.resourceEnforcement ∨
      call ∈ (applyLinuxSandbox plan.effectiveSandbox plan.effectiveSandbox.rootfs).getD [] ∨
      (plan.resourceEnforcement.cgroupEnforced = true ∧
        call ∈ setupCgroup cgroupRoot taskId pid plan.resourceEnforcement) := by
  have hcgroup : call ∈ (spawnTaskProcess taskId plan cgroupRoot pid).cgroup.getD [] ↔
      plan.resourceEnforcement.cgroupEnforced = true ∧
        call ∈ setupCgroup cgroupRoot taskId pid plan.resourceEnforcement := by
    unfold spawnTaskProcess
    cases plan.resourceEnforcement.cgroupEnforced <;> simp
  unfold Launch.calls
  rw [List.mem_append, hcgroup, List.mem_append, List.mem_append, List.mem_singleton, or_assoc,
    or_assoc]
  rfl

theorem mem_calls_chroot (root : String) :
    .chroot root ∈ (spawnTaskProcess taskId plan cgroupRoot pid).calls ↔
      plan.effectiveSandbox.profile = .linuxSandbox ∧ plan.effectiveSandbox.chroot = true ∧
        plan.effectiveSandbox.rootfs = some root := by
  simp [mem_calls, mem_applyResourceEnforcement, mem_applyLinuxSandbox, mem_setupCgroup]

theorem mem_calls_unshare (space : Namespace) :
    (∃ flags, .unshare flags ∈ (spawnTaskProcess taskId plan cgroupRoot pid).calls ∧
        space.of flags = true) ↔
      plan.effectiveSandbox.profile = .linuxSandbox ∧
        space.of plan.effectiveSandbox.effectiveNamespaces = true := by
  constructor
  · rintro ⟨flags, hcall, hspace⟩
    have hentered : plan.effectiveSandbox.profile = .linuxSandbox ∧
        noFlags plan.effectiveSandbox.effectiveNamespaces = false ∧
          flags = plan.effectiveSandbox.effectiveNamespaces := by
      simpa [mem_calls, mem_applyResourceEnforcement, mem_applyLinuxSandbox, mem_setupCgroup]
        using hcall
    obtain ⟨hprofile, _, rfl⟩ := hentered
    exact ⟨hprofile, hspace⟩
  · rintro ⟨hprofile, hspace⟩
    refine ⟨_, (mem_calls taskId plan cgroupRoot pid _).mpr (.inr (.inr (.inl ?_))), hspace⟩
    exact (mem_applyLinuxSandbox _ _ _).mpr ⟨hprofile, .inl ⟨noFlags_eq_false hspace, rfl⟩⟩

theorem mem_calls_cpu (soft hard : ℕ) :
    .setrlimit .cpu soft hard ∈ (spawnTaskProcess taskId plan cgroupRoot pid).calls ↔
      plan.resourceEnforcement.cpuTimeEnforced = true ∧
        plan.resourceEnforcement.cpuTimeSec = some soft ∧ hard = soft := by
  simp [mem_calls, mem_applyResourceEnforcement, mem_applyLinuxSandbox, mem_setupCgroup, and_assoc]

theorem mem_calls_addressSpace (soft hard : ℕ) :
    .setrlimit .addressSpace soft hard ∈ (spawnTaskProcess taskId plan cgroupRoot pid).calls ↔
      plan.resourceEnforcement.memoryEnforced = true ∧
        plan.resourceEnforcement.memoryBytes = some soft ∧ hard = soft := by
  simp [mem_calls, mem_applyResourceEnforcement, mem_applyLinuxSandbox, mem_setupCgroup, and_assoc]

/-- The files are written only in the cgroup of the task. -/
theorem mem_calls_write (dir : String) (file : CgroupFile) (text : String) :
    .write dir file text ∈ (spawnTaskProcess taskId plan cgroupRoot pid).calls ↔
      plan.resourceEnforcement.cgroupEnforced = true ∧ dir = joinPath cgroupRoot taskId ∧
        match file with
        | .memoryMax => plan.resourceEnforcement.memoryEnforced = true ∧
            ∃ value, plan.resourceEnforcement.memoryBytes = some value ∧ text = toString value
        | .pidsMax => plan.resourceEnforcement.pidsEnforced = true ∧
            ∃ value, plan.resourceEnforcement.pidsMax = some value ∧ text = toString value
        | .cgroupProcs => text = toString pid := by
  simp only [mem_calls, mem_applyResourceEnforcement, mem_applyLinuxSandbox, mem_setupCgroup]
  cases file <;> simp
  all_goals
    intro _
    constructor
    · rintro ⟨value, ⟨henforced, hvalue⟩, hdir, htext⟩
      exact ⟨hdir, henforced, value, hvalue, htext⟩
    · rintro ⟨hdir, henforced, value, hvalue, htext⟩
      exact ⟨value, ⟨henforced, hvalue⟩, hdir, htext⟩

end Calls

section Resolved

variable {request : SubmitTaskRequest} {capabilities : RuntimeCapabilities}
  {mode : CapabilityMode} {n : Negotiation} {taskId : TaskId} {cgroupRoot : String} {pid : ℕ}
  {feature : Feature}

theorem Launch.Applies.touches {launch : Launch} (h : launch.Applies request feature) :
    launch.Touches feature := by
  cases feature with
  | linuxSandbox => exact h
  | chroot =>
    obtain ⟨root, _, hcall⟩ := h
    exact ⟨root, hcall⟩
  | unshared space => exact h
  | cpuTime =>
    obtain ⟨value, _, hcall⟩ := h
    exact ⟨value, value, hcall⟩
  | memory =>
    obtain ⟨value, _, hcall⟩ := h
    exact .inl ⟨value, value, hcall⟩
  | pids =>
    obtain ⟨value, dir, _, hcall, _⟩ := h
    exact ⟨dir, toString value, hcall⟩

/-- Nothing but what is requested and available is touched. -/
theorem requested_of_touches
    (h : (spawnTaskProcess taskId
      (planFor request capabilities mode (grantedSandbox capabilities request.sandbox) n)
      cgroupRoot pid).Touches feature) :
    feature.Requested request ∧ feature.Available capabilities request := by
  cases feature with
  | linuxSandbox => exact (granted_profile_iff _ _).mp ((applyLinuxSandbox_isSome _ _).mp h)
  | chroot =>
    obtain ⟨root, hcall⟩ := h
    obtain ⟨hprofile, hchroot, _⟩ := (mem_calls_chroot _ _ _ _ _).mp hcall
    obtain ⟨hrequested, hlinux⟩ := (granted_profile_iff _ _).mp hprofile
    simp only [planFor, granted_linuxSandbox hrequested hlinux, Bool.and_eq_true] at hchroot
    exact ⟨⟨hrequested, hchroot.1⟩, hlinux, hchroot.2⟩
  | unshared space =>
    obtain ⟨hprofile, hspace⟩ := (mem_calls_unshare _ _ _ _ _).mp h
    obtain ⟨hrequested, hlinux⟩ := (granted_profile_iff _ _).mp hprofile
    simp only [planFor, granted_linuxSandbox hrequested hlinux,
      SandboxPolicy.effectiveNamespaces, Option.getD_some, of_grantedNamespaces,
      Bool.and_eq_true] at hspace
    exact ⟨⟨hrequested, hspace.1⟩, hlinux, hspace.2⟩
  | cpuTime =>
    obtain ⟨soft, hard, hcall⟩ := h
    exact (cpuTimeEnforced_iff _ _ _).mp ((mem_calls_cpu _ _ _ _ _ _).mp hcall).1
  | memory =>
    rcases h with ⟨soft, hard, hcall⟩ | ⟨dir, text, hcall⟩
    · exact (memoryEnforced_iff _ _ _).mp ((mem_calls_addressSpace _ _ _ _ _ _).mp hcall).1
    · exact (memoryEnforced_iff _ _ _).mp ((mem_calls_write _ _ _ _ _ _ _).mp hcall).2.2.1
  | pids =>
    obtain ⟨dir, text, hcall⟩ := h
    have henforced := ((mem_calls_write _ _ _ _ _ _ _).mp hcall).2.2.1
    obtain ⟨hgiven, hprofile, hwritable, hlimit⟩ := (pidsEnforced_iff _ _ _).mp henforced
    exact ⟨hgiven, (granted_profile_iff _ _).mp hprofile, hwritable, hlimit⟩

/-- What is requested and available is applied, a root as long as there is one. -/
theorem applies_of_available
    (hroot : feature = .chroot → ∃ root, request.sandbox.rootfs = some root)
    (hrequested : feature.Requested request)
    (havailable : feature.Available capabilities request) :
    (spawnTaskProcess taskId
      (planFor request capabilities mode (grantedSandbox capabilities request.sandbox) n)
      cgroupRoot pid).Applies request feature := by
  cases feature with
  | linuxSandbox =>
    exact (applyLinuxSandbox_isSome _ _).mpr
      ((granted_profile_iff _ _).mpr ⟨hrequested, havailable⟩)
  | chroot =>
    obtain ⟨hprofile, hchroot⟩ := hrequested
    obtain ⟨hlinux, hcan⟩ := havailable
    obtain ⟨root, hroot⟩ := hroot rfl
    refine ⟨root, hroot, (mem_calls_chroot _ _ _ _ _).mpr ?_⟩
    simp [planFor, granted_linuxSandbox hprofile hlinux, hprofile, hchroot, hcan, hroot]
  | unshared space =>
    obtain ⟨hprofile, hspace⟩ := hrequested
    obtain ⟨hlinux, hsupported⟩ := havailable
    refine (mem_calls_unshare _ _ _ _ _).mpr ?_
    simp [planFor, granted_linuxSandbox hprofile hlinux, hprofile,
      SandboxPolicy.effectiveNamespaces, of_grantedNamespaces, hsupported]
    exact hspace
  | cpuTime =>
    obtain ⟨value, hvalue⟩ := Option.isSome_iff_exists.mp hrequested
    exact ⟨value, hvalue, (mem_calls_cpu _ _ _ _ _ _).mpr
      ⟨(cpuTimeEnforced_iff _ _ _).mpr ⟨hrequested, havailable⟩, hvalue, rfl⟩⟩
  | memory =>
    obtain ⟨value, hvalue⟩ := Option.isSome_iff_exists.mp hrequested
    exact ⟨value, hvalue, (mem_calls_addressSpace _ _ _ _ _ _).mpr
      ⟨(memoryEnforced_iff _ _ _).mpr ⟨hrequested, havailable⟩, hvalue, rfl⟩⟩
  | pids =>
    obtain ⟨value, hvalue⟩ := Option.isSome_iff_exists.mp hrequested
    obtain ⟨hgranted, hwritable, hlimit⟩ := havailable
    have hprofile := (granted_profile_iff _ _).mpr hgranted
    have hcgroup := (cgroupEnforced_iff capabilities _ request.limits).mpr ⟨hprofile, hwritable⟩
    exact ⟨value, _, hvalue,
      (mem_calls_write _ _ _ _ _ _ _).mpr ⟨hcgroup, rfl,
        (pidsEnforced_iff _ _ _).mpr ⟨hrequested, hprofile, hwritable, hlimit⟩, value, hvalue, rfl⟩,
      (mem_calls_write _ _ _ _ _ _ _).mpr ⟨hcgroup, rfl, rfl⟩⟩

theorem mem_limitFallbacks (effective : SandboxPolicy) :
    feature ∈ limitFallbacks request.limits (enforcement capabilities effective request.limits) ↔
      (feature = .cpuTime ∧ request.limits.cpuTimeSec.isSome = true ∧
        ¬ capabilities.resources.rlimitCpu = true) ∨
      (feature = .memory ∧ request.limits.memoryBytes.isSome = true ∧
        ¬ capabilities.resources.rlimitMemory = true) ∨
      (feature = .pids ∧ request.limits.pidsMax.isSome = true ∧
        ¬ (effective.profile = .linuxSandbox ∧ capabilities.resources.cgroupWritable = true ∧
          capabilities.resources.pidsLimit = true)) := by
  have hone : ∀ (given enforced : Bool) (dropped : Feature),
      feature ∈ (if given && !enforced then [dropped] else []) ↔
        feature = dropped ∧ given = true ∧ ¬ enforced = true := by
    intro given enforced dropped
    cases given <;> cases enforced <;> simp
  simp only [limitFallbacks, List.mem_append, hone, cpuTimeEnforced_iff, memoryEnforced_iff,
    pidsEnforced_iff, or_assoc]
  grind

/-- As long as the profile is not refused, exactly the features that are requested
and not available are dropped. -/
theorem mem_fallbacks (hvalid : request.sandbox.validate = .ok ())
    (hprofile : request.sandbox.profile = .linuxSandbox →
      capabilities.sandbox.linuxSandbox = true) :
    feature ∈ fallbacks capabilities request.sandbox request.limits ↔
      feature.Requested request ∧ ¬ feature.Available capabilities request := by
  unfold fallbacks
  simp only [List.mem_append, mem_limitFallbacks, or_assoc]
  cases hcase : request.sandbox.profile with
  | process =>
    have hchroot := chroot_of_process hvalid hcase
    have hprofiled : withProfile capabilities request.sandbox = request.sandbox := by
      simp [withProfile, hcase]
    have hrooted : withChroot capabilities request.sandbox = request.sandbox := by
      simp [withChroot, hchroot]
    have hgranted : withNamespaces capabilities request.sandbox = request.sandbox := by
      simp [withNamespaces, hcase]
    rw [hprofiled, hrooted, hgranted]
    cases feature <;>
      simp [profileFallbacks, chrootFallbacks, namespaceFallbacks, Feature.Requested,
        Feature.Available, hcase, hchroot]
  | linuxSandbox =>
    have hlinux := hprofile hcase
    have hrooted : (withChroot capabilities request.sandbox).profile = .linuxSandbox ∧
        (withChroot capabilities request.sandbox).effectiveNamespaces =
          request.sandbox.effectiveNamespaces := by
      unfold withChroot
      split <;> exact ⟨hcase, rfl⟩
    have hspaces : feature ∈ namespaceFallbacks capabilities
        (withChroot capabilities request.sandbox) ↔
          ∃ space : Namespace, feature = .unshared space ∧
            space.of request.sandbox.effectiveNamespaces = true ∧
            ¬ space.supported capabilities.sandbox.namespaces = true := by
      simp only [namespaceFallbacks, hrooted, lacks, beq_self_eq_true, if_true, List.mem_flatMap]
      constructor
      · rintro ⟨space, _, hmem⟩
        split at hmem
        · rename_i hlacks
          refine ⟨space, List.mem_singleton.mp hmem, by simpa using hlacks⟩
        · cases hmem
      · rintro ⟨space, rfl, hof, hsupported⟩
        exact ⟨space, space.mem_all, by simp [hof, hsupported]⟩
    have hgranted : (withNamespaces capabilities
        (withChroot capabilities request.sandbox)).profile = .linuxSandbox := by
      simp [withNamespaces, hrooted.1]
    have hprofiled : withProfile capabilities request.sandbox = request.sandbox := by
      simp [withProfile, hlinux]
    rw [hprofiled, hspaces, hgranted]
    simp only [profileFallbacks, chrootFallbacks, hcase, hlinux]
    cases feature <;> simp [Feature.Requested, Feature.Available, hcase, hlinux]

/-- Something is dropped exactly when something requested is not available. -/
theorem fallbacks_ne_nil_iff (hvalid : request.sandbox.validate = .ok ()) :
    fallbacks capabilities request.sandbox request.limits ≠ [] ↔
      ∃ feature : Feature, feature.Requested request ∧
        ¬ feature.Available capabilities request := by
  by_cases hprofile : request.sandbox.profile = .linuxSandbox →
      capabilities.sandbox.linuxSandbox = true
  · simp only [← mem_fallbacks hvalid hprofile]
    refine ⟨List.exists_mem_of_ne_nil _, ?_⟩
    rintro ⟨feature, hmem⟩
    exact List.ne_nil_of_mem hmem
  · obtain ⟨hlinux, hrefused⟩ := Classical.not_imp.mp hprofile
    refine iff_of_true ?_ ⟨.linuxSandbox, hlinux, hrefused⟩
    simp [fallbacks, profileFallbacks, hlinux, hrefused]

theorem applies_iff (hvalid : request.sandbox.validate = .ok ()) :
    (spawnTaskProcess taskId
      (planFor request capabilities mode (grantedSandbox capabilities request.sandbox) n)
      cgroupRoot pid).Applies request feature ↔
        feature.Requested request ∧ feature.Available capabilities request := by
  constructor
  · intro h
    exact requested_of_touches h.touches
  · rintro ⟨hrequested, havailable⟩
    refine applies_of_available ?_ hrequested havailable
    rintro rfl
    exact (chroot_of_validate hvalid hrequested.2).2

end Resolved

/-- The shim sets up a cgroup exactly when the launch has one. -/
theorem Shim.spawn_confining_iff (shim : Shim) (task : TaskRecord) (plan : ExecutionPlan)
    (cgroupRoot : String) (pid : ℕ) :
    (shim.spawn task plan pid).state = .confining plan (Shim.scriptPathOf task) ↔
      (spawnTaskProcess task.taskId plan cgroupRoot pid).cgroup.isSome = true := by
  unfold Shim.spawn spawnTaskProcess
  cases plan.resourceEnforcement.cgroupEnforced <;> simp

/-- No silent weakening: the plan of an accepted request is marked degraded
exactly when the launch leaves out something that was requested, its enforcement
flags say which limits the launch applies, and nothing else is applied. -/
theorem no_silent_weakening {request : SubmitTaskRequest} {capabilities : RuntimeCapabilities}
    {defaultMode : CapabilityMode} {plan : ExecutionPlan} (hvalid : request.validate = .ok ())
    (hplan : resolveExecutionPlan request capabilities defaultMode = .ok plan)
    (taskId : TaskId) (cgroupRoot : String) (pid : ℕ) :
    (plan.degraded = true ↔ ∃ feature : Feature, feature.Requested request ∧
      ¬ (spawnTaskProcess taskId plan cgroupRoot pid).Applies request feature) ∧
    (plan.resourceEnforcement.cpuTimeEnforced = true ↔
      (spawnTaskProcess taskId plan cgroupRoot pid).Applies request .cpuTime) ∧
    (plan.resourceEnforcement.memoryEnforced = true ↔
      (spawnTaskProcess taskId plan cgroupRoot pid).Applies request .memory) ∧
    (plan.resourceEnforcement.pidsEnforced = true ↔
      (spawnTaskProcess taskId plan cgroupRoot pid).Applies request .pids) ∧
    ∀ feature : Feature, (spawnTaskProcess taskId plan cgroupRoot pid).Touches feature →
      feature.Requested request ∧
        (spawnTaskProcess taskId plan cgroupRoot pid).Applies request feature := by
  have hsandbox := SubmitTaskRequest.sandbox_validate hvalid
  have hplan := eq_of_resolveExecutionPlan hplan
  subst hplan
  simp only [applies_iff hsandbox]
  refine ⟨?_, cpuTimeEnforced_iff _ _ _, memoryEnforced_iff _ _ _, ?_, ?_⟩
  · rw [degraded_planFor, fallbacks_ne_nil_iff hsandbox]
    grind
  · refine (pidsEnforced_iff _ _ _).trans ?_
    rw [granted_profile_iff]
    rfl
  · intro feature htouched
    obtain ⟨hrequested, havailable⟩ := requested_of_touches htouched
    exact ⟨hrequested, hrequested, havailable⟩

/-- A host without `chroot`: the plan says so, and limits that were not given are left alone. -/
theorem no_silent_weakening_without_chroot :
    ∃ plan, resolveExecutionPlan rootedRequest chrootless .adaptive = .ok plan ∧
      plan.degraded = true ∧
      (∃ feature : Feature, feature.Requested rootedRequest ∧
        ¬ (spawnTaskProcess "a" plan "/sys/fs/cgroup" 20).Applies rootedRequest feature) ∧
      ¬ (spawnTaskProcess "a" plan "/sys/fs/cgroup" 20).Touches .cpuTime := by
  have hplan := resolveExecutionPlan_eq rootedRequest chrootless .adaptive
  have hadaptive : isStrict rootedRequest .adaptive = false := rfl
  rw [hadaptive, Negotiation.settle_adaptive] at hplan
  obtain ⟨hdegraded, _, _, _, honly⟩ :=
    no_silent_weakening (by decide) hplan "a" "/sys/fs/cgroup" 20
  refine ⟨_, hplan, rfl, hdegraded.mp rfl, fun htouched => ?_⟩
  cases (honly _ htouched).1

end ExecgoRuntime
