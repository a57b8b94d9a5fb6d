import ExecgoRuntime.CapabilityOrder

/-!
The effective sandbox as a request. What negotiation leaves of a sandbox is a
sandbox again: it is accepted, it asks for nothing that was not asked for, and
under the Linux profile for nothing that the host lacks. Negotiated once more on
the same host it stays as it is, and only limits can still give a reason. On a host
that lacks nothing it is launched like the requested sandbox itself, which is what
a row without a plan runs in.
-/
namespace ExecgoRuntime

open Policy

/-- The effective sandbox is accepted and asks for no more than the requested one
and the host allow. Namespaces count under the Linux profile only; the process
profile has none or keeps those that were written down. -/
structure SoundlyGranted (capabilities : RuntimeCapabilities)
    (requested effective : SandboxPolicy) : Prop where
  valid : effective.validate = .ok ()
  workspaceSubdir : effective.workspaceSubdir = requested.workspaceSubdir
  profile : effective.profile = .linuxSandbox →
    requested.profile = .linuxSandbox ∧ capabilities.sandbox.linuxSandbox = true
  chroot : effective.chroot = true →
    requested.chroot = true ∧ capabilities.sandbox.chroot = true
  rootfs : ∀ root, effective.rootfs = some root → requested.rootfs = some root
  namespaces : effective.profile = .linuxSandbox → ∀ space : Namespace,
    space.of effective.effectiveNamespaces = true →
      space.of requested.effectiveNamespaces = true ∧
        space.supported capabilities.sandbox.namespaces = true
  written : effective.profile = .process →
    effective.namespaces = none ∨ effective.namespaces = requested.namespaces

namespace Policy

variable {capabilities : RuntimeCapabilities} {sandbox : SandboxPolicy}

theorem granted_process (hvalid : sandbox.validate = .ok ())
    (hprofile : sandbox.profile = .process) : grantedSandbox capabilities sandbox = sandbox := by
  have hchroot := chroot_of_process hvalid hprofile
  simp [grantedSandbox, withNamespaces, withChroot, withProfile, hprofile, hchroot]

/-- The three ways a sandbox is granted. -/
theorem granted_cases (capabilities : RuntimeCapabilities) (hvalid : sandbox.validate = .ok ()) :
    (sandbox.profile = .process ∧ grantedSandbox capabilities sandbox = sandbox) ∨
    (sandbox.profile = .linuxSandbox ∧ capabilities.sandbox.linuxSandbox = false ∧
      grantedSandbox capabilities sandbox = { workspaceSubdir := sandbox.workspaceSubdir }) ∨
    (sandbox.profile = .linuxSandbox ∧ capabilities.sandbox.linuxSandbox = true ∧
      grantedSandbox capabilities sandbox =
        { sandbox with
          rootfs :=
            if sandbox.chroot && !capabilities.sandbox.chroot then none else sandbox.rootfs
          chroot := sandbox.chroot && capabilities.sandbox.chroot
          namespaces := some (grantedNamespaces capabilities sandbox) }) := by
  by_cases hprocess : sandbox.profile = .process
  · exact .inl ⟨hprocess, granted_process hvalid hprocess⟩
  · have hprofile : sandbox.profile = .linuxSandbox := by
      cases hcase : sandbox.profile with
      | process => exact absurd hcase hprocess
      | linuxSandbox => rfl
    by_cases hlinux : capabilities.sandbox.linuxSandbox = true
    · exact .inr (.inr ⟨hprofile, hlinux, granted_linuxSandbox hprofile hlinux⟩)
    · have hlacks : capabilities.sandbox.linuxSandbox = false := by simpa using hlinux
      exact .inr (.inl ⟨hprofile, hlacks, granted_refused hprofile hlacks⟩)

theorem grantedNamespaces_of_written (capabilities : RuntimeCapabilities)
    {sandbox granted : SandboxPolicy}
    (h : granted.namespaces = some (grantedNamespaces capabilities sandbox)) :
    grantedNamespaces capabilities granted = grantedNamespaces capabilities sandbox := by
  simp [grantedNamespaces, SandboxPolicy.effectiveNamespaces, h]

theorem soundlyGranted (capabilities : RuntimeCapabilities) (hvalid : sandbox.validate = .ok ()) :
    SoundlyGranted capabilities sandbox (grantedSandbox capabilities sandbox) := by
  obtain ⟨hsubdir, hroot⟩ := sandbox.validate_eq_ok_iff.mp hvalid
  rcases granted_cases capabilities hvalid with
    ⟨hprofile, hgranted⟩ | ⟨_, _, hgranted⟩ | ⟨hprofile, hlinux, hgranted⟩
  · have hchroot := chroot_of_process hvalid hprofile
    rw [hgranted]
    refine ⟨hvalid, rfl, ?_, ?_, fun root h => h, ?_, fun _ => .inr rfl⟩
    · intro hother
      rw [hprofile] at hother
      cases hother
    · intro hother
      rw [hchroot] at hother
      cases hother
    · intro hother
      rw [hprofile] at hother
      cases hother
  · rw [hgranted]
    refine ⟨?_, rfl, ?_, ?_, ?_, ?_, fun _ => .inl rfl⟩
    · rw [SandboxPolicy.validate_eq_ok_iff]
      exact ⟨hsubdir, by simp⟩
    · rintro ⟨⟩
    · rintro ⟨⟩
    · rintro root ⟨⟩
    · rintro ⟨⟩
  · rw [hgranted]
    refine ⟨?_, rfl, fun _ => ⟨hprofile, hlinux⟩, ?_, ?_, ?_, ?_⟩
    · rw [SandboxPolicy.validate_eq_ok_iff]
      refine ⟨hsubdir, fun hchroot => ?_⟩
      obtain ⟨hrequested, hcan⟩ := Bool.and_eq_true_iff.mp hchroot
      simp only [hcan, Bool.not_true, Bool.and_false, Bool.false_eq_true, if_false]
      exact hroot hrequested
    · exact fun hchroot => Bool.and_eq_true_iff.mp hchroot
    · intro root hkept
      simp only at hkept
      split at hkept
      · cases hkept
      · exact hkept
    · intro _ space hof
      simp only [SandboxPolicy.effectiveNamespaces, Option.getD_some, of_grantedNamespaces,
        Bool.and_eq_true] at hof
      exact hof
    · intro hother
      simp only [hprofile, reduceCtorEq] at hother

/-- Negotiated once more, the effective sandbox stays as it is. -/
theorem grantedSandbox_idempotent (capabilities : RuntimeCapabilities)
    (hvalid : sandbox.validate = .ok ()) :
    grantedSandbox capabilities (grantedSandbox capabilities sandbox) =
      grantedSandbox capabilities sandbox := by
  have hsound := soundlyGranted capabilities hvalid
  rcases granted_cases capabilities hvalid with
    ⟨_, hgranted⟩ | ⟨_, _, hgranted⟩ | ⟨hprofile, hlinux, hgranted⟩
  · rw [hgranted, hgranted]
  · rw [hgranted] at hsound ⊢
    exact granted_process hsound.valid rfl
  · have hspaces := grantedNamespaces_of_written capabilities (congrArg _ hgranted)
    have hkept : (grantedSandbox capabilities sandbox).profile = .linuxSandbox := by
      rw [hgranted]
      exact hprofile
    rw [granted_linuxSandbox hkept hlinux, hspaces, hgranted]
    cases sandbox.chroot <;> cases capabilities.sandbox.chroot <;> rfl

/-- Nothing of the effective sandbox is dropped. -/
theorem fallbacks_granted (capabilities : RuntimeCapabilities) (hvalid : sandbox.validate = .ok ())
    (limits : ResourceLimits) :
    fallbacks capabilities (grantedSandbox capabilities sandbox) limits =
      limitFallbacks limits
        (enforcement capabilities (grantedSandbox capabilities sandbox) limits) := by
  have hsound := soundlyGranted capabilities hvalid
  have hidempotent := grantedSandbox_idempotent capabilities hvalid
  generalize grantedSandbox capabilities sandbox = effective at hsound hidempotent ⊢
  have hprofile := fun h => (hsound.profile h).2
  have hchroot := fun h => (hsound.chroot h).2
  have hspaces := fun h space hof => (hsound.namespaces h space hof).2
  rw [grantedSandbox, withProfile_eq_self hprofile, withChroot_eq_self hchroot] at hidempotent
  rw [fallbacks, withProfile_eq_self hprofile, withChroot_eq_self hchroot, hidempotent,
    (profileFallbacks_eq_nil_iff _).mpr hprofile, (chrootFallbacks_eq_nil_iff _).mpr hchroot,
    (namespaceFallbacks_eq_nil_iff _).mpr hspaces]
  rfl

/-- A negotiation that settles also settles with the features it notices last. -/
theorem Negotiation.settle_of_suffix {strict : Bool} {n m : Negotiation}
    {dropped last : List Feature} (h : settle strict n dropped = .ok m)
    (hsuffix : last <:+ dropped) : settle strict n last = .ok (n.drop last) := by
  cases strict with
  | false => exact settle_adaptive n last
  | true =>
    cases dropped with
    | nil =>
      rw [List.suffix_nil.mp hsuffix]
      rfl
    | cons feature rest => cases h

theorem settled_of_resolve {request : SubmitTaskRequest} {capabilities : RuntimeCapabilities}
    {defaultMode : CapabilityMode} {plan : ExecutionPlan}
    (hplan : resolveExecutionPlan request capabilities defaultMode = .ok plan) :
    ∃ m, Negotiation.settle (isStrict request defaultMode) {}
      (fallbacks capabilities request.sandbox request.limits) = .ok m := by
  rw [resolveExecutionPlan_eq] at hplan
  cases hsettle : Negotiation.settle (isStrict request defaultMode) {}
      (fallbacks capabilities request.sandbox request.limits) with
  | ok m => exact ⟨m, rfl⟩
  | error e =>
    rw [hsettle] at hplan
    cases hplan

/-- The plan of the request with its effective sandbox in place of its own. -/
theorem resolve_granted {request : SubmitTaskRequest} {capabilities : RuntimeCapabilities}
    {defaultMode : CapabilityMode} {plan : ExecutionPlan}
    (hvalid : request.sandbox.validate = .ok ())
    (hplan : resolveExecutionPlan request capabilities defaultMode = .ok plan) :
    resolveExecutionPlan
        { request with sandbox := grantedSandbox capabilities request.sandbox } capabilities
        defaultMode =
      .ok (planFor { request with sandbox := grantedSandbox capabilities request.sandbox }
        capabilities (effectiveCapabilityMode request defaultMode)
        (grantedSandbox capabilities request.sandbox)
        (Negotiation.drop {} (limitFallbacks request.limits (enforcement capabilities
          (grantedSandbox capabilities request.sandbox) request.limits)))) := by
  obtain ⟨m, hm⟩ := settled_of_resolve hplan
  have hsuffix : limitFallbacks request.limits
      (enforcement capabilities (grantedSandbox capabilities request.sandbox) request.limits) <:+
        fallbacks capabilities request.sandbox request.limits := List.suffix_append _ _
  have hsettle := Negotiation.settle_of_suffix hm hsuffix
  rw [← fallbacks_granted capabilities hvalid] at hsettle ⊢
  rw [resolveExecutionPlan_eq, grantedSandbox_idempotent capabilities hvalid]
  exact congrArg _ hsettle

def limitFeatures : List Feature := [.cpuTime, .memory, .pids]

theorem mem_limitFeatures {limits : ResourceLimits} {plan : ResourceEnforcementPlan}
    {feature : Feature} (h : feature ∈ limitFallbacks limits plan) : feature ∈ limitFeatures := by
  simp only [limitFallbacks, List.mem_append, List.mem_ite_nil_right, List.mem_singleton] at h
  rcases h with (⟨_, rfl⟩ | ⟨_, rfl⟩) | ⟨_, rfl⟩ <;> decide

/-- No feature of the sandbox shares its reason with a limit. -/
theorem mem_limitFeatures_of_reason {feature : Feature}
    (h : feature.reason ∈ limitFeatures.map Feature.reason) : feature ∈ limitFeatures := by
  revert h
  cases feature with
  | unshared space => cases space <;> decide
  | _ => decide

end Policy

/-- The effective sandbox of a plan is a sound one and a fixpoint of negotiation. -/
theorem effective_sandbox_fixpoint {request : SubmitTaskRequest}
    (hvalid : request.validate = .ok ()) {capabilities : RuntimeCapabilities}
    {defaultMode : CapabilityMode} {plan : ExecutionPlan}
    (hplan : resolveExecutionPlan request capabilities defaultMode = .ok plan) :
    SoundlyGranted capabilities request.sandbox plan.effectiveSandbox ∧
      ∃ again, resolveExecutionPlan { request with sandbox := plan.effectiveSandbox } capabilities
          defaultMode = .ok again ∧
        again.effectiveSandbox = plan.effectiveSandbox ∧
        again.resourceEnforcement = plan.resourceEnforcement ∧
        (∀ reason ∈ again.fallbackReasons, reason ∈ limitFeatures.map Feature.reason) ∧
        ∀ feature : Feature, feature.reason ∈ again.fallbackReasons → feature ∈ limitFeatures := by
  have hsandbox := SubmitTaskRequest.sandbox_validate hvalid
  have hagain := resolve_granted hsandbox hplan
  have hplan := eq_of_resolveExecutionPlan hplan
  subst hplan
  have hreasons : ∀ reason ∈ (Negotiation.drop {} (limitFallbacks request.limits
      (enforcement capabilities (grantedSandbox capabilities request.sandbox)
        request.limits))).fallbackReasons, reason ∈ limitFeatures.map Feature.reason := by
    intro reason hreason
    rw [Negotiation.drop_eq, List.nil_append] at hreason
    obtain ⟨feature, hfeature, rfl⟩ := List.mem_map.mp hreason
    exact List.mem_map_of_mem (mem_limitFeatures hfeature)
  refine ⟨soundlyGranted capabilities hsandbox, _, hagain, rfl, rfl, hreasons, ?_⟩
  intro feature hreason
  exact mem_limitFeatures_of_reason (hreasons _ hreason)

/-- The root is gone, and a second negotiation gives no reason at all. -/
theorem effective_sandbox_fixpoint_without_chroot :
    ∃ plan again, resolveExecutionPlan rootedRequest chrootless .adaptive = .ok plan ∧
      plan.degraded = true ∧
      resolveExecutionPlan { rootedRequest with sandbox := plan.effectiveSandbox } chrootless
        .adaptive = .ok again ∧
      again.effectiveSandbox = plan.effectiveSandbox ∧ again.degraded = false := by
  have hadaptive : isStrict rootedRequest .adaptive = false := rfl
  obtain ⟨plan, hplan⟩ := resolve_of_adaptive chrootless hadaptive
  obtain ⟨_, again, hagain, hsandbox, _⟩ :=
    effective_sandbox_fixpoint (by decide) hplan
  refine ⟨plan, again, hplan, ?_, hagain, hsandbox, ?_⟩
  · rw [eq_of_resolveExecutionPlan hplan]
    rfl
  · rw [eq_of_resolveExecutionPlan hplan] at hagain
    cases hagain
    rfl

/-- The host is at least as strong as any. -/
def RuntimeCapabilities.OffersEverything (capabilities : RuntimeCapabilities) : Prop :=
  ∀ weak : RuntimeCapabilities, weak.OfferedBy capabilities

namespace RuntimeCapabilities.OffersEverything

variable {capabilities : RuntimeCapabilities}

theorem full (h : capabilities.OffersEverything) :
    (fullCapabilities ⟨1, none, none⟩).OfferedBy capabilities := h _

theorem supported (h : capabilities.OffersEverything) (space : Namespace) :
    space.supported capabilities.sandbox.namespaces = true :=
  h.full.namespaces space (by cases space <;> rfl)

theorem grantedNamespaces_eq (h : capabilities.OffersEverything) (sandbox : SandboxPolicy) :
    grantedNamespaces capabilities sandbox = sandbox.effectiveNamespaces := by
  have hmount := h.supported .mount
  have hpid := h.supported .pid
  have huts := h.supported .uts
  have hipc := h.supported .ipc
  have hnet := h.supported .net
  simp only [Namespace.supported] at hmount hpid huts hipc hnet
  simp only [grantedNamespaces, hmount, hpid, huts, hipc, hnet, Bool.and_true]

/-- Only the namespaces are written out. -/
theorem granted_eq (h : capabilities.OffersEverything) {sandbox : SandboxPolicy}
    (hvalid : sandbox.validate = .ok ()) :
    grantedSandbox capabilities sandbox = sandbox ∨
      grantedSandbox capabilities sandbox =
        { sandbox with namespaces := some sandbox.effectiveNamespaces } := by
  rcases granted_cases capabilities hvalid with ⟨_, hgranted⟩ | ⟨_, hlacks, _⟩ | ⟨_, _, hgranted⟩
  · exact .inl hgranted
  · rw [h.full.linuxSandbox rfl] at hlacks
    cases hlacks
  · right
    rw [hgranted, h.grantedNamespaces_eq sandbox, h.full.chroot rfl]
    simp

theorem enforcement_eq (h : capabilities.OffersEverything) {sandbox effective : SandboxPolicy}
    (hprofile : effective.profile = sandbox.profile) (limits : ResourceLimits) :
    enforcement capabilities effective limits =
      (ExecutionPlan.legacy sandbox limits).resourceEnforcement := by
  simp only [enforcement, ExecutionPlan.legacy, hprofile, h.full.rlimitCpu rfl,
    h.full.rlimitMemory rfl, h.full.cgroupWritable rfl, h.full.pidsLimit rfl,
    h.full.oomDetection rfl, Bool.or_true, Bool.and_true]
  cases limits.pidsMax <;> rfl

end RuntimeCapabilities.OffersEverything

theorem applyLinuxSandbox_written (sandbox : SandboxPolicy) (rootfs : Option String) :
    applyLinuxSandbox { sandbox with namespaces := some sandbox.effectiveNamespaces } rootfs =
      applyLinuxSandbox sandbox rootfs := rfl

/-- On a host that offers everything a row without a plan is launched, limited and
flagged like one with the plan of its request. -/
theorem legacy_plan_launches_alike {request : SubmitTaskRequest}
    (hvalid : request.validate = .ok ()) {capabilities : RuntimeCapabilities}
    (hall : capabilities.OffersEverything) {defaultMode : CapabilityMode} {plan : ExecutionPlan}
    (hplan : resolveExecutionPlan request capabilities defaultMode = .ok plan)
    (taskId : TaskId) (cgroupRoot : String) (pid : ℕ) :
    spawnTaskProcess taskId (.legacy request.sandbox request.limits) cgroupRoot pid =
        spawnTaskProcess taskId plan cgroupRoot pid ∧
      (ExecutionPlan.legacy request.sandbox request.limits).resourceEnforcement =
        plan.resourceEnforcement := by
  have hgranted := hall.granted_eq (SubmitTaskRequest.sandbox_validate hvalid)
  have hprofile : (grantedSandbox capabilities request.sandbox).profile =
      request.sandbox.profile := by
    rcases hgranted with h | h <;> rw [h]
  have hlaunch : applyLinuxSandbox (grantedSandbox capabilities request.sandbox)
      (grantedSandbox capabilities request.sandbox).rootfs =
        applyLinuxSandbox request.sandbox request.sandbox.rootfs := by
    rcases hgranted with h | h <;> rw [h]
    exact applyLinuxSandbox_written _ _
  have henforcement := hall.enforcement_eq hprofile request.limits
  rw [eq_of_resolveExecutionPlan hplan]
  refine ⟨?_, henforcement.symm⟩
  simp only [spawnTaskProcess, planFor, hlaunch, henforcement]
  rfl

theorem legacy_plan_launches_rooted_alike :
    ∃ plan, resolveExecutionPlan rootedRequest (fullCapabilities ⟨1, none, none⟩) .strict =
        .ok plan ∧
      (spawnTaskProcess "a" (.legacy rootedRequest.sandbox rootedRequest.limits) "/sys/fs/cgroup"
        20).calls = (spawnTaskProcess "a" plan "/sys/fs/cgroup" 20).calls := by
  have hall : (fullCapabilities ⟨1, none, none⟩).OffersEverything :=
    fun weak => offeredBy_fullCapabilities weak _
  have hplan : ∃ plan,
      resolveExecutionPlan rootedRequest (fullCapabilities ⟨1, none, none⟩) .strict = .ok plan :=
    ⟨_, rfl⟩
  obtain ⟨plan, hplan⟩ := hplan
  refine ⟨plan, hplan, ?_⟩
  rw [(legacy_plan_launches_alike (by decide) hall hplan "a" "/sys/fs/cgroup" 20).1]

end ExecgoRuntime
