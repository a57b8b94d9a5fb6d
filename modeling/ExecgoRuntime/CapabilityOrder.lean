import ExecgoRuntime.Launch

/-!
Negotiation against hosts of different strength. A request fits a host when
nothing of it is dropped there, which is a condition on each capability the
request needs. A stronger host may reach checks that a weaker one never makes,
so its plan is not the weaker plan with more added: what is compared is what fits,
and what the launch does of the two plans.
-/
namespace ExecgoRuntime

open Policy

/-- The stronger snapshot offers every capability that the weaker one offers. -/
structure RuntimeCapabilities.OfferedBy (weak strong : RuntimeCapabilities) : Prop where
  linuxSandbox : weak.sandbox.linuxSandbox = true → strong.sandbox.linuxSandbox = true
  chroot : weak.sandbox.chroot = true → strong.sandbox.chroot = true
  namespaces : ∀ space : Namespace, space.supported weak.sandbox.namespaces = true →
    space.supported strong.sandbox.namespaces = true
  rlimitCpu : weak.resources.rlimitCpu = true → strong.resources.rlimitCpu = true
  rlimitMemory : weak.resources.rlimitMemory = true → strong.resources.rlimitMemory = true
  cgroupWritable : weak.resources.cgroupWritable = true → strong.resources.cgroupWritable = true
  pidsLimit : weak.resources.pidsLimit = true → strong.resources.pidsLimit = true
  oomDetection : weak.resources.oomDetection = true → strong.resources.oomDetection = true

/-- A host that offers everything. -/
def fullCapabilities (capacity : ResourceCapacity) : RuntimeCapabilities where
  sandbox :=
    { process := true, linuxSandbox := true, chroot := true
      namespaces := { mount := true, pid := true, uts := true, ipc := true, net := true } }
  resources :=
    { rlimitCpu := true, rlimitMemory := true, cgroupWritable := true, pidsLimit := true
      oomDetection := true, capacity }

theorem offeredBy_fullCapabilities (weak : RuntimeCapabilities) (capacity : ResourceCapacity) :
    weak.OfferedBy (fullCapabilities capacity) where
  linuxSandbox _ := rfl
  chroot _ := rfl
  namespaces space _ := by cases space <;> rfl
  rlimitCpu _ := rfl
  rlimitMemory _ := rfl
  cgroupWritable _ := rfl
  pidsLimit _ := rfl
  oomDetection _ := rfl

namespace Policy

variable {request : SubmitTaskRequest} {capabilities weak strong : RuntimeCapabilities}

/-- The host has all that the request needs. -/
structure Fits (capabilities : RuntimeCapabilities) (request : SubmitTaskRequest) : Prop where
  profile : request.sandbox.profile = .linuxSandbox → capabilities.sandbox.linuxSandbox = true
  chroot : request.sandbox.chroot = true → capabilities.sandbox.chroot = true
  namespaces : request.sandbox.profile = .linuxSandbox → ∀ space : Namespace,
    space.of request.sandbox.effectiveNamespaces = true →
      space.supported capabilities.sandbox.namespaces = true
  cpuTime : request.limits.cpuTimeSec.isSome = true → capabilities.resources.rlimitCpu = true
  memory : request.limits.memoryBytes.isSome = true → capabilities.resources.rlimitMemory = true
  pids : request.limits.pidsMax.isSome = true → request.sandbox.profile = .linuxSandbox ∧
    capabilities.resources.cgroupWritable = true ∧ capabilities.resources.pidsLimit = true

theorem profileFallbacks_eq_nil_iff (sandbox : SandboxPolicy) :
    profileFallbacks capabilities sandbox = [] ↔
      (sandbox.profile = .linuxSandbox → capabilities.sandbox.linuxSandbox = true) := by
  unfold profileFallbacks
  cases sandbox.profile <;> cases capabilities.sandbox.linuxSandbox <;> simp

theorem chrootFallbacks_eq_nil_iff (sandbox : SandboxPolicy) :
    chrootFallbacks capabilities sandbox = [] ↔
      (sandbox.chroot = true → capabilities.sandbox.chroot = true) := by
  unfold chrootFallbacks
  cases sandbox.chroot <;> cases capabilities.sandbox.chroot <;> simp

theorem namespaceFallbacks_eq_nil_iff (sandbox : SandboxPolicy) :
    namespaceFallbacks capabilities sandbox = [] ↔
      (sandbox.profile = .linuxSandbox → ∀ space : Namespace,
        space.of sandbox.effectiveNamespaces = true →
          space.supported capabilities.sandbox.namespaces = true) := by
  unfold namespaceFallbacks
  cases sandbox.profile with
  | process => simp
  | linuxSandbox =>
    simp only [beq_self_eq_true, if_true, List.flatMap_eq_nil_iff, forall_const]
    refine ⟨fun h space hof => ?_, fun h space _ => ?_⟩
    · have hnone := h space space.mem_all
      by_contra hsupported
      have hlacks : lacks capabilities sandbox space = true := by
        simpa [lacks, hof] using hsupported
      rw [if_pos hlacks] at hnone
      cases hnone
    · rw [if_neg]
      intro hlacks
      simp only [lacks, Bool.and_eq_true, Bool.not_eq_true'] at hlacks
      rw [h space hlacks.1] at hlacks
      cases hlacks.2

theorem limitFallbacks_eq_nil_iff (sandbox : SandboxPolicy) (limits : ResourceLimits) :
    limitFallbacks limits (enforcement capabilities sandbox limits) = [] ↔
      (limits.cpuTimeSec.isSome = true → capabilities.resources.rlimitCpu = true) ∧
      (limits.memoryBytes.isSome = true → capabilities.resources.rlimitMemory = true) ∧
      (limits.pidsMax.isSome = true → sandbox.profile = .linuxSandbox ∧
        capabilities.resources.cgroupWritable = true ∧
        capabilities.resources.pidsLimit = true) := by
  have hone : ∀ (given enforced : Bool) (dropped : Feature),
      (if given && !enforced then [dropped] else []) = [] ↔ (given = true → enforced = true) := by
    intro given enforced dropped
    cases given <;> cases enforced <;> simp
  simp only [limitFallbacks, List.append_eq_nil_iff, hone, cpuTimeEnforced_iff, memoryEnforced_iff,
    pidsEnforced_iff, and_assoc]
  tauto

theorem withProfile_eq_self {sandbox : SandboxPolicy}
    (h : sandbox.profile = .linuxSandbox → capabilities.sandbox.linuxSandbox = true) :
    withProfile capabilities sandbox = sandbox := by
  unfold withProfile
  rw [if_neg]
  intro hrefused
  simp only [Bool.and_eq_true, beq_iff_eq, Bool.not_eq_true'] at hrefused
  rw [h hrefused.1] at hrefused
  cases hrefused.2

theorem withChroot_eq_self {sandbox : SandboxPolicy}
    (h : sandbox.chroot = true → capabilities.sandbox.chroot = true) :
    withChroot capabilities sandbox = sandbox := by
  unfold withChroot
  rw [if_neg]
  intro hrefused
  simp only [Bool.and_eq_true, Bool.not_eq_true'] at hrefused
  rw [h hrefused.1] at hrefused
  cases hrefused.2

theorem profile_withNamespaces (sandbox : SandboxPolicy) :
    (withNamespaces capabilities sandbox).profile = sandbox.profile := by
  unfold withNamespaces
  split <;> rfl

/-- Nothing is dropped exactly when the request fits. The stages after a drop
see an edited sandbox; when nothing is dropped they all see the requested one. -/
theorem fallbacks_eq_nil_iff :
    fallbacks capabilities request.sandbox request.limits = [] ↔ Fits capabilities request := by
  unfold fallbacks
  simp only [List.append_eq_nil_iff, limitFallbacks_eq_nil_iff, profile_withNamespaces]
  constructor
  · rintro ⟨⟨⟨hprofile, hchroot⟩, hspaces⟩, hcpu, hmemory, hpids⟩
    rw [profileFallbacks_eq_nil_iff] at hprofile
    rw [withProfile_eq_self hprofile] at hchroot hspaces hpids
    rw [chrootFallbacks_eq_nil_iff] at hchroot
    rw [withChroot_eq_self hchroot] at hspaces hpids
    rw [namespaceFallbacks_eq_nil_iff] at hspaces
    exact ⟨hprofile, hchroot, hspaces, hcpu, hmemory, hpids⟩
  · rintro ⟨hprofile, hchroot, hspaces, hcpu, hmemory, hpids⟩
    rw [withProfile_eq_self hprofile, withChroot_eq_self hchroot, profileFallbacks_eq_nil_iff,
      chrootFallbacks_eq_nil_iff, namespaceFallbacks_eq_nil_iff]
    exact ⟨⟨⟨hprofile, hchroot⟩, hspaces⟩, hcpu, hmemory, hpids⟩

theorem Fits.mono (hfits : Fits weak request) (hle : weak.OfferedBy strong) :
    Fits strong request where
  profile h := hle.linuxSandbox (hfits.profile h)
  chroot h := hle.chroot (hfits.chroot h)
  namespaces h space hof := hle.namespaces space (hfits.namespaces h space hof)
  cpuTime h := hle.rlimitCpu (hfits.cpuTime h)
  memory h := hle.rlimitMemory (hfits.memory h)
  pids h := by
    obtain ⟨hprofile, hwritable, hlimit⟩ := hfits.pids h
    exact ⟨hprofile, hle.cgroupWritable hwritable, hle.pidsLimit hlimit⟩

theorem resolve_of_strict {defaultMode : CapabilityMode}
    (hstrict : isStrict request defaultMode = true) :
    (∃ plan, resolveExecutionPlan request capabilities defaultMode = .ok plan) ↔
      Fits capabilities request := by
  rw [resolveExecutionPlan_eq, hstrict, ← fallbacks_eq_nil_iff]
  cases fallbacks capabilities request.sandbox request.limits with
  | nil => exact ⟨fun _ => rfl, fun _ => ⟨_, rfl⟩⟩
  | cons feature rest =>
    refine ⟨?_, fun h => by cases h⟩
    rintro ⟨plan, hplan⟩
    cases hplan

theorem resolve_of_adaptive (capabilities : RuntimeCapabilities) {defaultMode : CapabilityMode}
    (hadaptive : isStrict request defaultMode = false) :
    ∃ plan, resolveExecutionPlan request capabilities defaultMode = .ok plan := by
  rw [resolveExecutionPlan_eq, hadaptive, Negotiation.settle_adaptive]
  exact ⟨_, rfl⟩

theorem degraded_eq_true_iff {defaultMode : CapabilityMode} {plan : ExecutionPlan}
    (hplan : resolveExecutionPlan request capabilities defaultMode = .ok plan) :
    plan.degraded = true ↔ ¬ Fits capabilities request := by
  rw [eq_of_resolveExecutionPlan hplan, degraded_planFor, ne_eq, fallbacks_eq_nil_iff]

theorem Feature.Available.mono {feature : Feature} (h : feature.Available weak request)
    (hle : weak.OfferedBy strong) : feature.Available strong request := by
  cases feature with
  | linuxSandbox => exact hle.linuxSandbox h
  | chroot => exact ⟨hle.linuxSandbox h.1, hle.chroot h.2⟩
  | unshared space => exact ⟨hle.linuxSandbox h.1, hle.namespaces space h.2⟩
  | cpuTime => exact hle.rlimitCpu h
  | memory => exact hle.rlimitMemory h
  | pids =>
    obtain ⟨⟨hprofile, hlinux⟩, hwritable, hlimit⟩ := h
    exact ⟨⟨hprofile, hle.linuxSandbox hlinux⟩, hle.cgroupWritable hwritable,
      hle.pidsLimit hlimit⟩

section Plans

variable {mode : CapabilityMode} {n : Negotiation} {taskId : TaskId} {cgroupRoot : String}
  {pid : ℕ}

theorem root_of_touches
    (h : (spawnTaskProcess taskId
      (planFor request capabilities mode (grantedSandbox capabilities request.sandbox) n)
      cgroupRoot pid).Touches .chroot) : ∃ root, request.sandbox.rootfs = some root := by
  obtain ⟨root, hcall⟩ := h
  obtain ⟨hprofile, _, hroot⟩ := (mem_calls_chroot _ _ _ _ _).mp hcall
  obtain ⟨hrequested, hlinux⟩ := (granted_profile_iff _ _).mp hprofile
  simp only [planFor, granted_linuxSandbox hrequested hlinux] at hroot
  split at hroot
  · cases hroot
  · exact ⟨root, hroot⟩

/-- What the launch of the weaker plan touches, the launch of the stronger one applies. -/
theorem applies_of_touches_weaker {feature : Feature} (hle : weak.OfferedBy strong)
    (h : (spawnTaskProcess taskId
      (planFor request weak mode (grantedSandbox weak request.sandbox) n)
      cgroupRoot pid).Touches feature) (m : Negotiation) :
    (spawnTaskProcess taskId
      (planFor request strong mode (grantedSandbox strong request.sandbox) m)
      cgroupRoot pid).Applies request feature := by
  obtain ⟨hrequested, havailable⟩ := requested_of_touches h
  refine applies_of_available ?_ hrequested (havailable.mono hle)
  rintro rfl
  exact root_of_touches h

end Plans

/-- Every flag that is on in the first enforcement is on in the second. -/
structure FlagsKept (first second : ResourceEnforcementPlan) : Prop where
  cpuTime : first.cpuTimeEnforced = true → second.cpuTimeEnforced = true
  memory : first.memoryEnforced = true → second.memoryEnforced = true
  pids : first.pidsEnforced = true → second.pidsEnforced = true
  cgroup : first.cgroupEnforced = true → second.cgroupEnforced = true
  oomDetection : first.oomDetection = true → second.oomDetection = true

theorem oomDetection_iff (effective : SandboxPolicy) (limits : ResourceLimits) :
    (enforcement capabilities effective limits).oomDetection = true ↔
      limits.memoryBytes.isSome = true ∧
        (enforcement capabilities effective limits).cgroupEnforced = true ∧
        capabilities.resources.oomDetection = true := by
  simp [enforcement, and_assoc]

theorem granted_profile_mono (hle : weak.OfferedBy strong) {sandbox : SandboxPolicy}
    (h : (grantedSandbox weak sandbox).profile = .linuxSandbox) :
    (grantedSandbox strong sandbox).profile = .linuxSandbox := by
  rw [granted_profile_iff] at h ⊢
  exact ⟨h.1, hle.linuxSandbox h.2⟩

theorem flagsKept (hle : weak.OfferedBy strong) (sandbox : SandboxPolicy)
    (limits : ResourceLimits) :
    FlagsKept (enforcement weak (grantedSandbox weak sandbox) limits)
      (enforcement strong (grantedSandbox strong sandbox) limits) := by
  have hcgroup : (enforcement weak (grantedSandbox weak sandbox) limits).cgroupEnforced = true →
      (enforcement strong (grantedSandbox strong sandbox) limits).cgroupEnforced = true := by
    simp only [cgroupEnforced_iff]
    rintro ⟨hprofile, hwritable⟩
    exact ⟨granted_profile_mono hle hprofile, hle.cgroupWritable hwritable⟩
  refine ⟨?_, ?_, ?_, hcgroup, ?_⟩
  · simp only [cpuTimeEnforced_iff]
    exact And.imp_right hle.rlimitCpu
  · simp only [memoryEnforced_iff]
    exact And.imp_right hle.rlimitMemory
  · simp only [pidsEnforced_iff]
    rintro ⟨hgiven, hprofile, hwritable, hlimit⟩
    exact ⟨hgiven, granted_profile_mono hle hprofile, hle.cgroupWritable hwritable,
      hle.pidsLimit hlimit⟩
  · simp only [oomDetection_iff]
    rintro ⟨hgiven, henforced, hdetects⟩
    exact ⟨hgiven, hcgroup henforced, hle.oomDetection hdetects⟩

end Policy

/-- A stronger host serves every request at least as well: it accepts what the
weaker one accepts strictly, and where both negotiate it degrades no more, applies
every feature and sets every flag. -/
theorem resolution_monotone (request : SubmitTaskRequest) (defaultMode : CapabilityMode)
    {weak strong : RuntimeCapabilities} (hle : weak.OfferedBy strong) :
    (isStrict request defaultMode = true →
      (∃ plan, resolveExecutionPlan request weak defaultMode = .ok plan) →
      ∃ plan, resolveExecutionPlan request strong defaultMode = .ok plan) ∧
    (isStrict request defaultMode = false → ∃ p q,
      resolveExecutionPlan request weak defaultMode = .ok p ∧
      resolveExecutionPlan request strong defaultMode = .ok q ∧
      (q.degraded = true → p.degraded = true) ∧
      (∀ (taskId : TaskId) (cgroupRoot : String) (pid : ℕ) (feature : Feature),
        (spawnTaskProcess taskId p cgroupRoot pid).Touches feature →
        (spawnTaskProcess taskId q cgroupRoot pid).Touches feature) ∧
      FlagsKept p.resourceEnforcement q.resourceEnforcement) := by
  constructor
  · intro hstrict
    rw [resolve_of_strict hstrict, resolve_of_strict hstrict]
    exact fun hfits => hfits.mono hle
  · intro hadaptive
    obtain ⟨p, hp⟩ := resolve_of_adaptive weak hadaptive
    obtain ⟨q, hq⟩ := resolve_of_adaptive strong hadaptive
    refine ⟨p, q, hp, hq, ?_, fun taskId cgroupRoot pid feature htouched => ?_, ?_⟩
    · rw [degraded_eq_true_iff hp, degraded_eq_true_iff hq]
      exact mt (fun hfits => hfits.mono hle)
    · rw [eq_of_resolveExecutionPlan hp] at htouched
      rw [eq_of_resolveExecutionPlan hq]
      exact (applies_of_touches_weaker hle htouched _).touches
    · rw [eq_of_resolveExecutionPlan hp, eq_of_resolveExecutionPlan hq]
      exact flagsKept hle request.sandbox request.limits

/-- A host that gains `chroot` still unshares what it unshared without. -/
theorem resolution_monotone_of_chrootless :
    ∃ q, resolveExecutionPlan rootedRequest (fullCapabilities ⟨1, none, none⟩) .adaptive = .ok q ∧
      (spawnTaskProcess "a" q "/sys/fs/cgroup" 20).Touches (.unshared .mount) := by
  obtain ⟨p, q, hp, hq, _, htouches, _⟩ :=
    (resolution_monotone rootedRequest .adaptive
      (offeredBy_fullCapabilities chrootless ⟨1, none, none⟩)).2 rfl
  refine ⟨q, hq, htouches "a" "/sys/fs/cgroup" 20 _ ?_⟩
  rw [eq_of_resolveExecutionPlan hp]
  exact (mem_calls_unshare _ _ _ _ _).mpr ⟨rfl, rfl⟩

end ExecgoRuntime
