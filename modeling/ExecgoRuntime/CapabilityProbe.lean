import ExecgoRuntime.Admission
import ExecgoRuntime.CapabilityOrder
import ExecgoRuntime.TenantQuota
import ExecgoRuntime.Workspace

/-!
The capability probe (`capabilities.rs`) on Linux, and what is negotiated against
the snapshot it takes. All that a launch can do beyond a plain process rests on
two findings: that the server may enter namespaces, and that it may write cgroups.
The snapshot lists these as enhanced semantics. It lists the limits of a cgroup
also on a host that offers no sandbox, where no task gets one.
-/
namespace ExecgoRuntime

open Policy

/-- What the probe asks the operating system. `write` tells whether a file can be
written, `readonly` what the metadata of a path say, if there are any. -/
structure HostSystem where
  processId : ℕ
  euid : ℕ
  arch : String
  now : Timestamp
  pathExists : List PathComponent → Bool
  readonly : List PathComponent → Option Bool
  write : List PathComponent → Bool
  readToString : String → Option String
  hasVar : String → Bool
  physPages : ℤ
  pageSize : ℤ

structure CapabilityProbeInput where
  runtimeId : String
  dataDir : String
  cgroupRoot : String
  maxRunningTasks : ℕ
  disableLinuxSandbox : Bool
  disableCgroup : Bool
  capacityMemoryBytes : Option ℕ
  capacityPids : Option ℕ

structure RuntimePlatform where
  os : String
  arch : String
  containerized : Bool
  kubernetes : Bool
  deriving DecidableEq, Repr

structure ExecutionCapabilities where
  command : Bool
  script : Bool
  processGroup : Bool
  deriving DecidableEq, Repr

structure StorageCapabilities where
  dataDirWritable : Bool
  deriving DecidableEq, Repr

/-- The whole snapshot; the part that it extends is what negotiation reads. -/
structure CapabilitySnapshot extends RuntimeCapabilities where
  runtimeId : String
  snapshotVersion : String
  collectedAt : Timestamp
  platform : RuntimePlatform
  execution : ExecutionCapabilities
  storage : StorageCapabilities
  cgroupV2 : Bool
  memoryLimit : Bool
  cpuQuota : Bool
  ledger : Bool
  stableSemantics : List String
  enhancedSemantics : List String
  degraded : Bool
  overrides : AList (fun _ : String => String)

/-- `Path::parent`: a path that ends at the root has none. -/
def parentPath (path : List PathComponent) : Option (List PathComponent) :=
  match path.getLast? with
  | none | some .rootDir => none
  | some _ => some path.dropLast

namespace HostSystem

variable (host : HostSystem)

def dataDirWritable (dataDir : String) : Bool :=
  host.write (stdComponents
    (joinPath dataDir (".execgo-runtime-probe-" ++ toString host.processId)).toList)

def pathLikelyWritable (path : List PathComponent) : Bool :=
  let candidate := if host.pathExists path then path else (parentPath path).getD path
  ((host.readonly candidate).map (fun readonly => !readonly)).getD false

def detectContainerized : Bool :=
  host.pathExists (stdComponents "/.dockerenv".toList) ||
  host.pathExists (stdComponents "/run/.containerenv".toList) ||
  (host.readToString "/proc/1/cgroup").any (fun contents =>
    containsText contents "docker" || containsText contents "containerd" ||
      containsText contents "kubepods")

def detectKubernetes : Bool :=
  host.hasVar "KUBERNETES_SERVICE_HOST" ||
  (host.readToString "/proc/1/cgroup").any (fun contents => containsText contents "kubepods")

def detectMemoryBytes : Option ℕ :=
  if 0 < host.physPages ∧ 0 < host.pageSize then
    some (min (host.physPages.toNat * host.pageSize.toNat) u64Max)
  else none

def detectPidsCapacity : Option ℕ :=
  (host.readToString "/proc/sys/kernel/pid_max").bind (fun value => parseU64 (trim value))

/-- The variable `linux_sandbox` of the probe. -/
def linuxSandbox (input : CapabilityProbeInput) : Bool :=
  decide (host.euid = 0) && !input.disableLinuxSandbox

def cgroupV2 : Bool := host.pathExists (stdComponents "/sys/fs/cgroup/cgroup.controllers".toList)

/-- The variable `cgroup_writable` of the probe. -/
def cgroupWritable (input : CapabilityProbeInput) : Bool :=
  host.cgroupV2 && !input.disableCgroup &&
    host.pathLikelyWritable (stdComponents input.cgroupRoot.toList)

end HostSystem

def snapshotVersion : String := "v1"

def stableSemantics : List String :=
  ["submit", "status", "events", "stdout_stderr", "timeout", "kill", "artifacts",
    "result_persistence", "recovery"]

def enhancedSemantics (linuxSandbox cgroupWritable : Bool) : List String :=
  ["resource_ledger"] ++
  (if linuxSandbox then ["linux_sandbox", "namespaces", "chroot"] else []) ++
  (if cgroupWritable then ["cgroup_memory", "cgroup_pids", "oom_detection"] else [])

namespace CapabilityProbeInput

def overrides (input : CapabilityProbeInput) : AList (fun _ : String => String) :=
  let flag (overrides : AList (fun _ : String => String)) (set : Bool) (name : String) :=
    if set then overrides.insert name "disabled" else overrides
  let value (overrides : AList (fun _ : String => String)) (given : Option ℕ) (name : String) :=
    (given.map (fun n => overrides.insert name (toString n))).getD overrides
  value (value (flag (flag ∅ input.disableLinuxSandbox "linux_sandbox")
    input.disableCgroup "cgroup") input.capacityMemoryBytes "capacity_memory_bytes")
    input.capacityPids "capacity_pids"

def warnings (host : HostSystem) (input : CapabilityProbeInput) : List String :=
  (if host.dataDirWritable input.dataDir then []
    else ["data-dir is not writable: " ++ input.dataDir]) ++
  (if host.linuxSandbox input then []
    else ["linux_sandbox is unavailable without root-equivalent namespace permissions"]) ++
  (if host.cgroupV2 && !host.cgroupWritable input then
      ["cgroup v2 detected but cgroup root is not writable: " ++ input.cgroupRoot]
    else [])

end CapabilityProbeInput

def probeRuntimeCapabilities (host : HostSystem) (input : CapabilityProbeInput) :
    CapabilitySnapshot where
  runtimeId := input.runtimeId
  snapshotVersion := snapshotVersion
  collectedAt := host.now
  platform :=
    { os := "linux", arch := host.arch
      containerized := host.detectContainerized, kubernetes := host.detectKubernetes }
  execution := { command := true, script := true, processGroup := true }
  sandbox :=
    { process := true, linuxSandbox := host.linuxSandbox input
      chroot := host.linuxSandbox input
      namespaces :=
        { mount := host.linuxSandbox input, pid := host.linuxSandbox input
          uts := host.linuxSandbox input, ipc := host.linuxSandbox input
          net := host.linuxSandbox input } }
  storage := { dataDirWritable := host.dataDirWritable input.dataDir }
  resources :=
    { rlimitCpu := true, rlimitMemory := true, cgroupWritable := host.cgroupWritable input
      pidsLimit := host.cgroupWritable input, oomDetection := host.cgroupWritable input
      capacity :=
        { taskSlots := input.maxRunningTasks
          memoryBytes := input.capacityMemoryBytes.or host.detectMemoryBytes
          pids := input.capacityPids.or host.detectPidsCapacity } }
  cgroupV2 := host.cgroupV2
  memoryLimit := true
  cpuQuota := false
  ledger := true
  stableSemantics := stableSemantics
  enhancedSemantics := enhancedSemantics (host.linuxSandbox input) (host.cgroupWritable input)
  warnings := input.warnings host
  degraded := !(input.warnings host).isEmpty
  overrides := input.overrides

/-- The launch of the plan makes use of an enhanced semantic. -/
inductive Launch.Exercises (launch : Launch) (plan : ExecutionPlan) : String → Prop
  | sandboxed (h : launch.sandbox.isSome = true) : Exercises launch plan "linux_sandbox"
  | unshared (flags : NamespaceConfig) (h : .unshare flags ∈ launch.calls) :
      Exercises launch plan "namespaces"
  | rooted (root : String) (h : .chroot root ∈ launch.calls) : Exercises launch plan "chroot"
  | memory (dir text : String) (h : .write dir .memoryMax text ∈ launch.calls) :
      Exercises launch plan "cgroup_memory"
  | pids (dir text : String) (h : .write dir .pidsMax text ∈ launch.calls) :
      Exercises launch plan "cgroup_pids"
  | oomDetection (h : plan.resourceEnforcement.oomDetection = true) :
      Exercises launch plan "oom_detection"

/-- The service of a server that has taken this snapshot: it negotiates against the
snapshot, and its ledger has the capacity of the snapshot. -/
def RuntimeService.new (settings : Settings) (tenantQuotas : TenantMap)
    (snapshot : CapabilitySnapshot) : RuntimeService where
  settings := settings
  capabilities := snapshot.toRuntimeCapabilities
  ledger := { capacity := snapshot.resources.capacity, tenantQuotas }

/-- `submit_task` accepts the request while the queue is empty. -/
structure RuntimeService.Accepts (svc : RuntimeService) (request : SubmitTaskRequest)
    (taskId : TaskId) (plan : ExecutionPlan) : Prop where
  checked : svc.checkRequest request = .ok plan
  queued : 0 < svc.settings.maxQueuedTasks
  recorded : ∃ new, svc.newTask request taskId plan = .ok new

/-- Some accepted request is launched with the semantic. -/
def RuntimeService.Exercised (svc : RuntimeService) (semantic : String) : Prop :=
  ∃ request taskId plan cgroupRoot pid, svc.Accepts request taskId plan ∧
    (spawnTaskProcess taskId plan cgroupRoot pid).Exercises plan semantic

theorem Launch.Exercises.of_plan {capabilities : RuntimeCapabilities} {request : SubmitTaskRequest}
    {mode : CapabilityMode} {n : Negotiation} {taskId : TaskId} {cgroupRoot : String} {pid : ℕ}
    {semantic : String} {plan : ExecutionPlan}
    (hplan : plan =
      planFor request capabilities mode (grantedSandbox capabilities request.sandbox) n)
    (h : (spawnTaskProcess taskId plan cgroupRoot pid).Exercises plan semantic) :
    capabilities.sandbox.linuxSandbox = true ∧
      (semantic = "linux_sandbox" ∨ semantic = "namespaces" ∨ semantic = "chroot" ∨
        (capabilities.resources.cgroupWritable = true ∧ (semantic = "cgroup_memory" ∨
          semantic = "cgroup_pids" ∨ semantic = "oom_detection"))) := by
  have hprofile : (grantedSandbox capabilities request.sandbox).profile = .linuxSandbox →
      capabilities.sandbox.linuxSandbox = true := fun h => ((granted_profile_iff _ _).mp h).2
  have hcgroup : plan.resourceEnforcement.cgroupEnforced = true →
      capabilities.sandbox.linuxSandbox = true ∧ capabilities.resources.cgroupWritable = true := by
    intro henforced
    rw [hplan] at henforced
    obtain ⟨hgranted, hwritable⟩ := (cgroupEnforced_iff _ _ _).mp henforced
    exact ⟨hprofile hgranted, hwritable⟩
  cases h with
  | sandboxed hentered =>
    rw [hplan] at hentered
    exact ⟨hprofile ((applyLinuxSandbox_isSome _ _).mp hentered), .inl rfl⟩
  | unshared flags hcall =>
    have hentered : plan.effectiveSandbox.profile = .linuxSandbox := by
      have hmem := (mem_calls _ _ _ _ _).mp hcall
      simp [mem_applyResourceEnforcement, mem_applyLinuxSandbox, mem_setupCgroup] at hmem
      exact hmem.1
    rw [hplan] at hentered
    exact ⟨hprofile hentered, .inr (.inl rfl)⟩
  | rooted root hcall =>
    have hentered := ((mem_calls_chroot _ _ _ _ _).mp hcall).1
    rw [hplan] at hentered
    exact ⟨hprofile hentered, .inr (.inr (.inl rfl))⟩
  | memory dir text hcall =>
    obtain ⟨hlinux, hwritable⟩ := hcgroup ((mem_calls_write _ _ _ _ _ _ _).mp hcall).1
    exact ⟨hlinux, .inr (.inr (.inr ⟨hwritable, .inl rfl⟩))⟩
  | pids dir text hcall =>
    obtain ⟨hlinux, hwritable⟩ := hcgroup ((mem_calls_write _ _ _ _ _ _ _).mp hcall).1
    exact ⟨hlinux, .inr (.inr (.inr ⟨hwritable, .inr (.inl rfl)⟩))⟩
  | oomDetection hdetects =>
    rw [hplan] at hdetects
    obtain ⟨_, henforced, _⟩ := (oomDetection_iff _ _).mp hdetects
    obtain ⟨hgranted, hwritable⟩ := (cgroupEnforced_iff _ _ _).mp henforced
    exact ⟨hprofile hgranted, .inr (.inr (.inr ⟨hwritable, .inr (.inr rfl)⟩))⟩

/-- A request that asks for all that a host may offer, and for all of its capacity. -/
def fullRequest (capacity : ResourceCapacity) : SubmitTaskRequest where
  execution := { kind := .command, program := some "true" }
  sandbox := { profile := .linuxSandbox, rootfs := some "/srv/root", chroot := true }
  limits :=
    { memoryBytes := some (capacity.memoryBytes.getD 4096), pidsMax := some (capacity.pids.getD 2) }
  policy := some { capabilityMode := .adaptive }

/-- The full request is accepted by a service that runs any task at all. -/
theorem exists_accepts_fullRequest {svc : RuntimeService}
    (hslots : 0 < svc.ledger.capacity.taskSlots)
    (hqueue : 0 < svc.settings.maxQueuedTasks) :
    ∃ plan, svc.Accepts (fullRequest svc.ledger.capacity) "a" plan := by
  obtain ⟨plan, hplan⟩ := resolve_of_adaptive svc.capabilities
    (show isStrict (fullRequest svc.ledger.capacity) svc.settings.defaultCapabilityMode = false
      from rfl)
  have hcapacity : RequestedWithin svc.ledger.capacity
      (.fromLimits (fullRequest svc.ledger.capacity).limits) := by
    intro c value bound hvalue hbound
    cases c with
    | taskSlots =>
      cases hvalue
      cases hbound
      exact hslots
    | memoryBytes =>
      have hsome : svc.ledger.capacity.memoryBytes = some bound := hbound
      have hvalue' : some (svc.ledger.capacity.memoryBytes.getD 4096) = some value := hvalue
      rw [hsome] at hvalue'
      exact le_of_eq (Option.some.inj hvalue').symm
    | pids =>
      have hsome : svc.ledger.capacity.pids = some bound := hbound
      have hvalue' : some (svc.ledger.capacity.pids.getD 2) = some value := hvalue
      rw [hsome] at hvalue'
      exact le_of_eq (Option.some.inj hvalue').symm
  have hledger : svc.PassesLedger (fullRequest svc.ledger.capacity) :=
    ⟨(ensureWithin_eq_ok_iff _ _ _ _).mpr hcapacity, rfl⟩
  exact ⟨plan, (checkRequest_eq_ok_iff _ _ _).mpr ⟨rfl, hplan, hledger⟩, hqueue, ⟨_, rfl⟩⟩

/-- The launch of the full request has all that the host offers. -/
theorem exercises_fullRequest {capabilities : RuntimeCapabilities} {mode : CapabilityMode}
    {n : Negotiation} {plan : ExecutionPlan} (capacity : ResourceCapacity) (taskId : TaskId)
    (cgroupRoot : String) (pid : ℕ)
    (hplan : plan = planFor (fullRequest capacity) capabilities mode
      (grantedSandbox capabilities (fullRequest capacity).sandbox) n)
    (hlinux : capabilities.sandbox.linuxSandbox = true)
    (hchroot : capabilities.sandbox.chroot = true)
    (hmount : Namespace.mount.supported capabilities.sandbox.namespaces = true) :
    let launch := spawnTaskProcess taskId plan cgroupRoot pid
    launch.Exercises plan "linux_sandbox" ∧ launch.Exercises plan "namespaces" ∧
      launch.Exercises plan "chroot" ∧
      (capabilities.resources.cgroupWritable = true →
        capabilities.resources.rlimitMemory = true → launch.Exercises plan "cgroup_memory") ∧
      (capabilities.resources.cgroupWritable = true → capabilities.resources.pidsLimit = true →
        launch.Exercises plan "cgroup_pids") ∧
      (capabilities.resources.cgroupWritable = true → capabilities.resources.oomDetection = true →
        launch.Exercises plan "oom_detection") := by
  subst hplan
  have happlies : ∀ feature : Feature, feature.Requested (fullRequest capacity) →
      feature.Available capabilities (fullRequest capacity) →
      (spawnTaskProcess taskId (planFor (fullRequest capacity) capabilities mode
        (grantedSandbox capabilities (fullRequest capacity).sandbox) n) cgroupRoot pid).Applies
          (fullRequest capacity) feature :=
    fun _ hrequested havailable =>
      applies_of_available (fun _ => ⟨_, rfl⟩) hrequested havailable
  have hprofile :
      (grantedSandbox capabilities (fullRequest capacity).sandbox).profile = .linuxSandbox :=
    (granted_profile_iff _ _).mpr ⟨rfl, hlinux⟩
  have hcgroup : capabilities.resources.cgroupWritable = true →
      (enforcement capabilities (grantedSandbox capabilities (fullRequest capacity).sandbox)
        (fullRequest capacity).limits).cgroupEnforced = true :=
    fun hwritable => (cgroupEnforced_iff _ _ _).mpr ⟨hprofile, hwritable⟩
  refine ⟨.sandboxed (happlies .linuxSandbox rfl hlinux), ?_, ?_, fun hwritable hlimit => ?_,
    fun hwritable hlimit => ?_, fun hwritable hdetects => ?_⟩
  · obtain ⟨flags, hcall, _⟩ := happlies (.unshared .mount) ⟨rfl, rfl⟩ ⟨hlinux, hmount⟩
    exact .unshared flags hcall
  · obtain ⟨root, _, hcall⟩ := happlies .chroot ⟨rfl, rfl⟩ ⟨hlinux, hchroot⟩
    exact .rooted root hcall
  · exact .memory _ _ ((mem_calls_write _ _ _ _ _ .memoryMax _).mpr ⟨hcgroup hwritable, rfl,
      (memoryEnforced_iff _ _ _).mpr ⟨rfl, hlimit⟩, _, rfl, rfl⟩)
  · obtain ⟨_, dir, _, hcall, _⟩ := happlies .pids rfl ⟨⟨rfl, hlinux⟩, hwritable, hlimit⟩
    exact .pids dir _ hcall
  · exact .oomDetection ((oomDetection_iff _ _).mpr ⟨rfl, hcgroup hwritable, hdetects⟩)

section Probed

variable (host : HostSystem) (input : CapabilityProbeInput)

/-- What a request needs of a probed host. -/
theorem fits_probe_iff (request : SubmitTaskRequest) :
    Fits (probeRuntimeCapabilities host input).toRuntimeCapabilities request ↔
      (request.sandbox.profile = .linuxSandbox ∨ request.sandbox.chroot = true →
        host.linuxSandbox input = true) ∧
      (request.limits.pidsMax.isSome = true →
        request.sandbox.profile = .linuxSandbox ∧ host.cgroupWritable input = true) := by
  constructor
  · intro hfits
    refine ⟨?_, fun hpids => ⟨(hfits.pids hpids).1, (hfits.pids hpids).2.1⟩⟩
    rintro (hprofile | hchroot)
    · exact hfits.profile hprofile
    · exact hfits.chroot hchroot
  · rintro ⟨hsandbox, hpids⟩
    refine ⟨fun h => hsandbox (.inl h), fun h => hsandbox (.inr h), fun h space _ => ?_,
      fun _ => rfl, fun _ => rfl, fun h => ?_⟩
    · have hlinux := hsandbox (.inl h)
      cases space <;> exact hlinux
    · obtain ⟨hprofile, hwritable⟩ := hpids h
      exact ⟨hprofile, hwritable, hwritable⟩

theorem mem_enhancedSemantics_iff (linuxSandbox cgroupWritable : Bool) (semantic : String) :
    semantic ∈ enhancedSemantics linuxSandbox cgroupWritable ↔ semantic = "resource_ledger" ∨
      (linuxSandbox = true ∧
        (semantic = "linux_sandbox" ∨ semantic = "namespaces" ∨ semantic = "chroot")) ∨
      (cgroupWritable = true ∧
        (semantic = "cgroup_memory" ∨ semantic = "cgroup_pids" ∨ semantic = "oom_detection")) := by
  cases linuxSandbox <;> cases cgroupWritable <;> simp [enhancedSemantics, or_assoc]

/-- The service of a server with these settings on the probed host. -/
def probedService (settings : Settings) (tenantQuotas : TenantMap) : RuntimeService :=
  .new settings tenantQuotas (probeRuntimeCapabilities host input)

variable (settings : Settings) (tenantQuotas : TenantMap)

/-- Only on a host with the sandbox is an enhanced semantic ever exercised, and there
each that the snapshot lists, if the server runs any task at all. -/
theorem exercised_probe_iff (semantic : String) :
    (probedService host input settings tenantQuotas).Exercised semantic ↔
      (semantic ∈ (probeRuntimeCapabilities host input).enhancedSemantics ∧
        semantic ≠ "resource_ledger" ∧ host.linuxSandbox input = true) ∧
      0 < input.maxRunningTasks ∧ 0 < settings.maxQueuedTasks := by
  constructor
  · rintro ⟨request, taskId, plan, cgroupRoot, pid, haccepts, hexercises⟩
    obtain ⟨_, hplan, hcapacity, _⟩ := (checkRequest_eq_ok_iff _ _ _).mp haccepts.checked
    have hslots : 1 ≤ input.maxRunningTasks :=
      (ensureWithin_eq_ok_iff _ _ _ _).mp hcapacity .taskSlots _ _ rfl rfl
    obtain ⟨hlinux, hlisted⟩ := hexercises.of_plan (eq_of_resolveExecutionPlan hplan)
    refine ⟨⟨(mem_enhancedSemantics_iff _ _ _).mpr ?_, ?_, hlinux⟩, hslots, haccepts.queued⟩
    · rcases hlisted with h | h | h | ⟨hwritable, h⟩
      · exact .inr (.inl ⟨hlinux, .inl h⟩)
      · exact .inr (.inl ⟨hlinux, .inr (.inl h)⟩)
      · exact .inr (.inl ⟨hlinux, .inr (.inr h)⟩)
      · exact .inr (.inr ⟨hwritable, h⟩)
    · rcases hlisted with rfl | rfl | rfl | ⟨_, rfl | rfl | rfl⟩ <;> decide
  · rintro ⟨⟨hlisted, hnot, hlinux⟩, hslots, hqueue⟩
    obtain ⟨plan, haccepts⟩ := @exists_accepts_fullRequest
      (probedService host input settings tenantQuotas) hslots hqueue
    obtain ⟨_, hplan, _⟩ := (checkRequest_eq_ok_iff _ _ _).mp haccepts.checked
    refine ⟨_, "a", plan, "", 0, haccepts, ?_⟩
    obtain ⟨hsandbox, hspaces, hroot, hmemory, hpids, hoom⟩ := exercises_fullRequest _ "a" "" 0
      (eq_of_resolveExecutionPlan hplan) hlinux hlinux hlinux
    rcases (mem_enhancedSemantics_iff _ _ _).mp hlisted with
      rfl | ⟨_, rfl | rfl | rfl⟩ | ⟨hwritable, rfl | rfl | rfl⟩
    · exact absurd rfl hnot
    · exact hsandbox
    · exact hspaces
    · exact hroot
    · exact hmemory hwritable rfl
    · exact hpids hwritable hwritable
    · exact hoom hwritable hwritable

end Probed

/-- A server without root on a host whose cgroups it may write. -/
private def unprivileged : HostSystem where
  processId := 1
  euid := 1000
  arch := "x86_64"
  now := 0
  pathExists _ := true
  readonly _ := some false
  write _ := true
  readToString _ := none
  hasVar _ := false
  physPages := 1
  pageSize := 4096

private def plainInput : CapabilityProbeInput :=
  ⟨"", "data", "/sys/fs/cgroup/execgo-runtime", 4, false, false, none, none⟩

/-- The limit on processes is listed, and no task gets it. -/
example (settings : Settings) :
    "cgroup_pids" ∈ (probeRuntimeCapabilities unprivileged plainInput).enhancedSemantics ∧
      ¬ (probedService unprivileged plainInput settings ∅).Exercised "cgroup_pids" :=
  ⟨by decide, fun h => absurd ((exercised_probe_iff _ _ _ _ _).mp h).1.2.2 (by decide)⟩

section Probed

variable (host : HostSystem) (input : CapabilityProbeInput) (settings : Settings)
  (tenantQuotas : TenantMap)

/-- A snapshot without a warning is of a host with the sandbox. -/
theorem linuxSandbox_of_not_degraded
    (h : (probeRuntimeCapabilities host input).degraded = false) :
    host.linuxSandbox input = true := by
  by_contra hnone
  have hnone' : host.linuxSandbox input = false := by simpa using hnone
  have hwarns : (input.warnings host).isEmpty = true := by
    simpa [probeRuntimeCapabilities] using h
  simp [CapabilityProbeInput.warnings, hnone'] at hwarns

/-- What a strict request has to bring to pass the checks of a probed host. -/
theorem checkRequest_of_strict (request : SubmitTaskRequest)
    (hstrict : isStrict request settings.defaultCapabilityMode = true) :
    (∃ plan, (probedService host input settings tenantQuotas).checkRequest request = .ok plan) ↔
      request.validate = .ok () ∧
      (probedService host input settings tenantQuotas).PassesLedger request ∧
      (request.sandbox.profile = .linuxSandbox ∨ request.sandbox.chroot = true →
        host.linuxSandbox input = true) ∧
      (request.limits.pidsMax.isSome = true →
        request.sandbox.profile = .linuxSandbox ∧ host.cgroupWritable input = true) := by
  rw [← fits_probe_iff, ← resolve_of_strict hstrict]
  constructor
  · rintro ⟨plan, hplan⟩
    obtain ⟨hvalid, hresolved, hledger⟩ := (checkRequest_eq_ok_iff _ _ _).mp hplan
    exact ⟨hvalid, hledger, plan, hresolved⟩
  · rintro ⟨hvalid, hledger, plan, hresolved⟩
    exact ⟨plan, (checkRequest_eq_ok_iff _ _ _).mpr ⟨hvalid, hresolved, hledger⟩⟩

/-- What the snapshot of a host tells its clients: an enhanced semantic that it does
not list is exercised by no launch of an accepted request; one that it lists is, if the
server runs any task at all, as long as the snapshot is not marked degraded, and else
exactly if the host has the sandbox; and what a strict request asks of the host is
what it asks alone, beside a valid form and room in the ledger. -/
theorem probe_advertises :
    (∀ semantic, (probedService host input settings tenantQuotas).Exercised semantic ↔
      (semantic ∈ (probeRuntimeCapabilities host input).enhancedSemantics ∧
        semantic ≠ "resource_ledger" ∧ host.linuxSandbox input = true) ∧
      0 < input.maxRunningTasks ∧ 0 < settings.maxQueuedTasks) ∧
    ((probeRuntimeCapabilities host input).degraded = false → 0 < input.maxRunningTasks →
      0 < settings.maxQueuedTasks →
      ∀ semantic ∈ (probeRuntimeCapabilities host input).enhancedSemantics,
        semantic ≠ "resource_ledger" →
        (probedService host input settings tenantQuotas).Exercised semantic) ∧
    ∀ request : SubmitTaskRequest, isStrict request settings.defaultCapabilityMode = true →
      ((∃ plan, (probedService host input settings tenantQuotas).checkRequest request =
          .ok plan) ↔
        request.validate = .ok () ∧
        (probedService host input settings tenantQuotas).PassesLedger request ∧
        (request.sandbox.profile = .linuxSandbox ∨ request.sandbox.chroot = true →
          host.linuxSandbox input = true) ∧
        (request.limits.pidsMax.isSome = true →
          request.sandbox.profile = .linuxSandbox ∧ host.cgroupWritable input = true)) := by
  refine ⟨exercised_probe_iff host input settings tenantQuotas,
    fun hclean hslots hqueue semantic hlisted hnot => ?_,
    fun request hstrict => checkRequest_of_strict host input settings tenantQuotas request hstrict⟩
  exact (exercised_probe_iff host input settings tenantQuotas semantic).mpr
    ⟨⟨hlisted, hnot, linuxSandbox_of_not_degraded host input hclean⟩, hslots, hqueue⟩

end Probed

end ExecgoRuntime
