import ExecgoRuntime.CapabilityOrder
import ExecgoRuntime.Columns

/-!
The body of a submission, and the mode it ends up with. The default of the server
is used for a request without a policy. A policy without a mode is given one by
the decoder, which does not know the server: it is adaptive. On a strict server
such a request is negotiated adaptively.
-/
namespace ExecgoRuntime

open Serde Policy

def TaskPolicy.codec : JsonCodec TaskPolicy :=
  Shape.start TaskPolicy.mk
    |>.field "capability_mode" capabilityMode (.defaulted .adaptive CapabilityMode.codec)
    |>.codec (by decide) (by rintro ⟨⟩; rfl)

def SubmitTaskRequest.codec : JsonCodec SubmitTaskRequest :=
  Shape.start SubmitTaskRequest.mk
    |>.field "task_id" taskId (.optional .string)
    |>.field "execution" execution (.required ExecutionSpec.codec)
    |>.field "limits" limits (.defaulted {} ResourceLimits.codec)
    |>.field "sandbox" sandbox (.defaulted {} SandboxPolicy.codec)
    |>.field "policy" policy (.optional TaskPolicy.codec)
    |>.field "control_context" controlContext (.optional ControlContext.codec)
    |>.field "metadata" metadata (.defaulted [] metadataCodec)
    |>.codec (by decide) (by rintro ⟨⟩; rfl)

/-- The value of the first member of the name. -/
def valueOf (name : String) (members : List (String × Json.Value)) : Option Json.Value :=
  (members.find? (fun m => m.1 == name)).map Prod.snd

/-- The policy of the body, `null` when it has none. -/
def policyMember (body : List (String × Json.Value)) : Json.Value :=
  (valueOf "policy" body).getD .null

/-- The body gives no mode: its policy is `null` or missing, or an object without one. -/
def GivesNoMode (body : List (String × Json.Value)) : Prop :=
  policyMember body = .null ∨
    ∃ members, policyMember body = .object members ∧ valueOf "capability_mode" members = none

theorem member_eq_valueOf {name : String} {members : List (String × Json.Value)}
    {value : Option Json.Value} (h : member name members = some value) :
    value = valueOf name members := by
  unfold member at h
  unfold valueOf
  rw [← List.head?_filter]
  split at h
  · rename_i hfilter
    rw [hfilter]
    exact (Option.some.inj h).symm
  · rename_i m hfilter
    rw [hfilter]
    exact (Option.some.inj h).symm
  · cases h

theorem decode_policy {body : List (String × Json.Value)} {request : SubmitTaskRequest}
    (h : SubmitTaskRequest.codec.decode (.object body) = some request) :
    (Slot.optional TaskPolicy.codec).read (valueOf "policy" body) = some request.policy := by
  simp only [SubmitTaskRequest.codec, Shape.codec] at h
  obtain ⟨_, _, _, h, -, -, hmetadata⟩ := Shape.of_read_field h
  obtain ⟨_, _, _, h, -, -, hcontext⟩ := Shape.of_read_field h
  obtain ⟨_, _, _, h, hvalue, hread, hpolicy⟩ := Shape.of_read_field h
  obtain ⟨_, _, _, h, -, -, hsandbox⟩ := Shape.of_read_field h
  obtain ⟨_, _, _, h, -, -, hlimits⟩ := Shape.of_read_field h
  obtain ⟨_, _, _, h, -, -, hexecution⟩ := Shape.of_read_field h
  obtain ⟨_, _, _, h, -, -, hid⟩ := Shape.of_read_field h
  cases h
  subst hid hexecution hlimits hsandbox hpolicy hcontext hmetadata
  rw [member_eq_valueOf hvalue] at hread
  exact hread

theorem member_of_valueOf_none {name : String} {members : List (String × Json.Value)}
    (h : valueOf name members = none) : member name members = some none := by
  have hfind : members.find? (fun m => m.1 == name) = none := by simpa [valueOf] using h
  have hfilter : members.filter (fun m => m.1 == name) = [] := by
    rw [← List.head?_eq_none_iff, List.head?_filter, hfind]
  rw [member, hfilter]

theorem decode_empty_policy {members : List (String × Json.Value)}
    (h : valueOf "capability_mode" members = none) :
    TaskPolicy.codec.decode (.object members) = some ⟨.adaptive⟩ := by
  simp only [TaskPolicy.codec, Shape.codec, Shape.field, Shape.start, member_of_valueOf_none h]
  rfl

section Decoded

variable {body : List (String × Json.Value)} {request : SubmitTaskRequest}

theorem policy_of_null (h : SubmitTaskRequest.codec.decode (.object body) = some request)
    (hnull : policyMember body = .null) : request.policy = none := by
  have hread := decode_policy h
  unfold policyMember at hnull
  cases hvalue : valueOf "policy" body with
  | none =>
    rw [hvalue] at hread
    exact (Option.some.inj hread).symm
  | some value =>
    rw [hvalue, Option.getD_some] at hnull
    rw [hvalue, hnull] at hread
    exact (Option.some.inj hread).symm

theorem policy_of_object (h : SubmitTaskRequest.codec.decode (.object body) = some request)
    {members : List (String × Json.Value)} (hobject : policyMember body = .object members)
    (hnone : valueOf "capability_mode" members = none) : request.policy = some ⟨.adaptive⟩ := by
  have hread := decode_policy h
  unfold policyMember at hobject
  cases hvalue : valueOf "policy" body with
  | none =>
    rw [hvalue] at hobject
    cases hobject
  | some value =>
    rw [hvalue, Option.getD_some] at hobject
    rw [hvalue, hobject] at hread
    have hmap : (TaskPolicy.codec.decode (.object members)).map some = some request.policy := hread
    rw [decode_empty_policy hnone] at hmap
    exact (Option.some.inj hmap).symm

end Decoded

/-- Whatever the host, a plan for the request has the mode of the server, and on a
strict server it is not degraded. -/
def DefaultGoverns (request : SubmitTaskRequest) (defaultMode : CapabilityMode) : Prop :=
  ∀ capabilities plan, resolveExecutionPlan request capabilities defaultMode = .ok plan →
    plan.capabilityMode = defaultMode ∧ (defaultMode = .strict → plan.degraded = false)

/-- The request itself asks for strictness and for a limit on processes, which no
host enforces without the sandbox it does not ask for. -/
def RefusedEverywhere (request : SubmitTaskRequest) : Prop :=
  (request.controlContext.map ControlContext.requiresStrictSandbox).getD false = true ∧
    request.sandbox.profile = .process ∧ request.limits.pidsMax.isSome = true

theorem fits_fullCapabilities_iff (request : SubmitTaskRequest) (capacity : ResourceCapacity) :
    Fits (fullCapabilities capacity) request ↔
      (request.limits.pidsMax.isSome = true → request.sandbox.profile = .linuxSandbox) := by
  constructor
  · intro hfits hpids
    exact (hfits.pids hpids).1
  · intro hprofile
    exact {
      profile := fun _ => rfl
      chroot := fun _ => rfl
      namespaces := fun _ space _ => by cases space <;> rfl
      cpuTime := fun _ => rfl
      memory := fun _ => rfl
      pids := fun hpids => ⟨hprofile hpids, rfl, rfl⟩ }

theorem capabilityMode_of_resolve {request : SubmitTaskRequest}
    {capabilities : RuntimeCapabilities} {defaultMode : CapabilityMode} {plan : ExecutionPlan}
    (hplan : resolveExecutionPlan request capabilities defaultMode = .ok plan) :
    plan.capabilityMode = effectiveCapabilityMode request defaultMode := by
  rw [eq_of_resolveExecutionPlan hplan]
  rfl

theorem not_degraded_of_strict {request : SubmitTaskRequest}
    {capabilities : RuntimeCapabilities} {defaultMode : CapabilityMode} {plan : ExecutionPlan}
    (hstrict : isStrict request defaultMode = true)
    (hplan : resolveExecutionPlan request capabilities defaultMode = .ok plan) :
    plan.degraded = false := by
  have hfits := (resolve_of_strict hstrict).mp ⟨plan, hplan⟩
  by_contra hdegraded
  exact (degraded_eq_true_iff hplan).mp (by simpa using hdegraded) hfits

theorem not_resolved_of_refusedEverywhere {request : SubmitTaskRequest}
    (hrefused : RefusedEverywhere request) {capabilities : RuntimeCapabilities}
    {defaultMode : CapabilityMode} {plan : ExecutionPlan}
    (hplan : resolveExecutionPlan request capabilities defaultMode = .ok plan) : False := by
  obtain ⟨hcontext, hprofile, hpids⟩ := hrefused
  have hstrict : isStrict request defaultMode = true := by
    rw [isStrict, hcontext, Bool.or_true]
  have hfits := (resolve_of_strict hstrict).mp ⟨plan, hplan⟩
  have hlinux := (hfits.pids hpids).1
  rw [hprofile] at hlinux
  cases hlinux

/-- An explicit adaptive policy keeps the request adaptive on a strict server,
unless the request is refused on every host. -/
theorem refusedEverywhere_of_governs {request : SubmitTaskRequest}
    (hpolicy : request.policy = some ⟨.adaptive⟩) (h : DefaultGoverns request .strict) :
    RefusedEverywhere request := by
  have hnone : ∀ capabilities plan,
      resolveExecutionPlan request capabilities .strict ≠ .ok plan := by
    intro capabilities plan hplan
    have hmode := (h capabilities plan hplan).1
    rw [capabilityMode_of_resolve hplan, effectiveCapabilityMode, hpolicy] at hmode
    cases hmode
  have hstrict : isStrict request .strict = true := by
    by_contra hadaptive
    obtain ⟨plan, hplan⟩ := resolve_of_adaptive (fullCapabilities ⟨1, none, none⟩)
      (by simpa using hadaptive)
    exact hnone _ plan hplan
  have hfits : ¬ Fits (fullCapabilities ⟨1, none, none⟩) request := by
    intro hfits
    obtain ⟨plan, hplan⟩ := (resolve_of_strict hstrict).mpr hfits
    exact hnone _ plan hplan
  rw [fits_fullCapabilities_iff, Classical.not_imp] at hfits
  refine ⟨?_, ?_, hfits.1⟩
  · simpa [isStrict, effectiveCapabilityMode, hpolicy] using hstrict
  · cases hprofile : request.sandbox.profile with
    | process => rfl
    | linuxSandbox => exact absurd hprofile hfits.2

/-- Which bodies without a mode are governed by the default of the server. -/
theorem default_governs_iff {body : List (String × Json.Value)} {request : SubmitTaskRequest}
    (hdecode : SubmitTaskRequest.codec.decode (.object body) = some request)
    (hnone : GivesNoMode body) (defaultMode : CapabilityMode) :
    DefaultGoverns request defaultMode ↔
      policyMember body = .null ∨ defaultMode = .adaptive ∨ RefusedEverywhere request := by
  rcases hnone with hnull | ⟨members, hobject, hmode⟩
  · have hpolicy := policy_of_null hdecode hnull
    refine iff_of_true (fun capabilities plan hplan => ⟨?_, ?_⟩) (.inl hnull)
    · rw [capabilityMode_of_resolve hplan, effectiveCapabilityMode, hpolicy]
      rfl
    · rintro rfl
      have hstrict : isStrict request .strict = true := by
        simp [isStrict, effectiveCapabilityMode, hpolicy]
      exact not_degraded_of_strict hstrict hplan
  · have hpolicy := policy_of_object hdecode hobject hmode
    have hnotNull : policyMember body ≠ .null := by
      rw [hobject]
      exact Json.Value.noConfusion
    constructor
    · intro hgoverns
      cases defaultMode with
      | adaptive => exact .inr (.inl rfl)
      | strict => exact .inr (.inr (refusedEverywhere_of_governs hpolicy hgoverns))
    · rintro (hnull | rfl | hrefused) capabilities plan hplan
      · exact absurd hnull hnotNull
      · refine ⟨?_, fun h => by cases h⟩
        rw [capabilityMode_of_resolve hplan, effectiveCapabilityMode, hpolicy]
        rfl
      · exact (not_resolved_of_refusedEverywhere hrefused hplan).elim

/-- The body of a command in a root of its own. -/
private def rootedBody (policy : Json.Value) : List (String × Json.Value) :=
  [("execution", .object [("kind", .string "command"), ("program", .string "true")]),
    ("sandbox", .object [("profile", .string "linux_sandbox"), ("rootfs", .string "/srv/root"),
      ("chroot", .bool true)]),
    ("policy", policy)]

/-- A strict server never runs the body with the policy `null` without its root. -/
theorem default_governs_null_policy : DefaultGoverns rootedRequest .strict := by
  have hdecode : SubmitTaskRequest.codec.decode (.object (rootedBody .null)) =
      some rootedRequest := rfl
  exact (default_governs_iff hdecode (.inl rfl) .strict).mpr (.inl rfl)

/-- With the policy `{}` it does, on a host without `chroot`. -/
theorem empty_policy_degraded_on_strict_server :
    ∃ request plan,
      SubmitTaskRequest.codec.decode (.object (rootedBody (.object []))) = some request ∧
      GivesNoMode (rootedBody (.object [])) ∧ request.validate = .ok () ∧
      resolveExecutionPlan request chrootless .strict = .ok plan ∧
      plan.capabilityMode = .adaptive ∧ plan.degraded = true :=
  ⟨{ rootedRequest with policy := some ⟨.adaptive⟩ }, _, rfl, .inr ⟨[], rfl, rfl⟩, by decide, rfl,
    rfl, rfl⟩

end ExecgoRuntime
