import ExecgoRuntime.Lib.Delimited
import ExecgoRuntime.OwnerGate

/-!
How the caller of a kill is named over HTTP. The owner is stored and compared as
it was submitted, any Unicode text that is not blank; the handler reads the
header as ASCII, trims it and takes an empty value for no header at all. The two
agree on the owners that a header line can spell: visible ASCII, spaces and tabs,
with neither at the ends. A task of any other owner cannot be killed by him.
-/
namespace ExecgoRuntime

/-- A byte that `HeaderValue::from_bytes` takes. -/
def isHeaderByte (b : UInt8) : Bool := (32 ≤ b.toNat && b.toNat != 127) || b.toNat == 9

/-- A byte that `HeaderValue::to_str` takes. -/
def isVisibleAscii (b : UInt8) : Bool := (32 ≤ b.toNat && b.toNat < 127) || b.toNat == 9

structure HeaderValue where
  bytes : List UInt8
  valid : bytes.all isHeaderByte = true

/-- The bytes of a Rust string. -/
def utf8 (text : String) : List UInt8 := text.toList.flatMap String.utf8EncodeChar

namespace HeaderValue

def toStr (value : HeaderValue) : Option String :=
  if value.bytes.all isVisibleAscii then
    some (String.ofList (value.bytes.map (fun b => Char.ofNat b.toNat)))
  else none

def Carries (value : HeaderValue) (text : String) : Prop := value.bytes = utf8 text

end HeaderValue

/-- What `kill_task` of the server makes of the `x-execgo-owner` header. -/
def callerOwner (header : Option HeaderValue) : Option String :=
  ((header.bind HeaderValue.toStr).map (fun s => String.ofList (trim s))).filter
    (fun s => !s.isEmpty)

/-- The call of the handler to the service. -/
def killRequest (taskId : TaskId) (header : Option HeaderValue) : KillCall :=
  { taskId, callerOwner := callerOwner header }

/-- A character that a header value spells with the same number. -/
def isHeaderChar (c : Char) : Bool := (32 ≤ c.toNat && c.toNat < 127) || c.toNat == 9

theorem utf8EncodeChar_ascii {c : Char} (h : c.toNat ≤ 127) :
    String.utf8EncodeChar c = [UInt8.ofNat c.toNat] := by
  have hval : c.val.toNat ≤ 127 := h
  simp only [String.utf8EncodeChar, if_pos hval]
  rfl

theorem high_of_mem_utf8EncodeChar {c : Char} (h : 127 < c.toNat) {b : UInt8}
    (hb : b ∈ String.utf8EncodeChar c) : 128 ≤ b.toNat := by
  have hval : ¬ c.val.toNat ≤ 127 := Nat.not_le_of_lt h
  simp only [String.utf8EncodeChar, if_neg hval] at hb
  split at hb
  · simp only [List.mem_cons, List.not_mem_nil, or_false] at hb
    rcases hb with rfl | rfl <;> simp only [UInt8.toNat_ofNat'] <;> omega
  · split at hb
    · simp only [List.mem_cons, List.not_mem_nil, or_false] at hb
      rcases hb with rfl | rfl | rfl <;> simp only [UInt8.toNat_ofNat'] <;> omega
    · simp only [List.mem_cons, List.not_mem_nil, or_false] at hb
      rcases hb with rfl | rfl | rfl | rfl <;> simp only [UInt8.toNat_ofNat'] <;> omega

theorem isHeaderChar_le {c : Char} (h : isHeaderChar c = true) : c.toNat ≤ 127 := by
  simp only [isHeaderChar, Bool.or_eq_true, Bool.and_eq_true, decide_eq_true_eq,
    beq_iff_eq] at h
  omega

theorem toNat_ofNat_ascii {c : Char} (h : c.toNat ≤ 127) :
    (UInt8.ofNat c.toNat).toNat = c.toNat := by
  rw [UInt8.toNat_ofNat']
  omega

/-- `to_str` reads a character of the text iff it is one a header can spell. -/
theorem all_isVisibleAscii_utf8EncodeChar (c : Char) :
    (String.utf8EncodeChar c).all isVisibleAscii = isHeaderChar c := by
  by_cases h : c.toNat ≤ 127
  · rw [utf8EncodeChar_ascii h, List.all_cons, List.all_nil, Bool.and_true, isVisibleAscii,
      toNat_ofNat_ascii h]
    rfl
  · have hchar : isHeaderChar c = false := by
      by_contra htrue
      exact h (isHeaderChar_le (by simpa using htrue))
    have hne : String.utf8EncodeChar c ≠ [] := String.utf8EncodeChar_ne_nil
    obtain ⟨b, hb⟩ := List.exists_mem_of_ne_nil _ hne
    have hhigh : 128 ≤ b.toNat := high_of_mem_utf8EncodeChar (by omega) hb
    rw [hchar, List.all_eq_false]
    refine ⟨b, hb, ?_⟩
    simp only [isVisibleAscii, Bool.or_eq_true, Bool.and_eq_true, decide_eq_true_eq, beq_iff_eq]
    omega

theorem all_isVisibleAscii_utf8 (text : String) :
    (utf8 text).all isVisibleAscii = text.toList.all isHeaderChar := by
  rw [utf8, List.all_flatMap]
  congr 1
  funext c
  exact all_isVisibleAscii_utf8EncodeChar c

theorem map_utf8_ascii {chars : List Char} (h : chars.all isHeaderChar = true) :
    (chars.flatMap String.utf8EncodeChar).map (fun b => Char.ofNat b.toNat) = chars := by
  induction chars with
  | nil => rfl
  | cons c chars ih =>
    rw [List.all_cons, Bool.and_eq_true] at h
    have hc : c.toNat ≤ 127 := isHeaderChar_le h.1
    rw [List.flatMap_cons, utf8EncodeChar_ascii hc, List.map_append, ih h.2, List.map_singleton,
      toNat_ofNat_ascii hc, Char.ofNat_toNat]
    rfl

theorem HeaderValue.toStr_eq {value : HeaderValue} {text : String} (h : value.Carries text) :
    value.toStr = if text.toList.all isHeaderChar then some text else none := by
  rw [toStr, show value.bytes = utf8 text from h, all_isVisibleAscii_utf8]
  split
  · rename_i hall
    rw [utf8, map_utf8_ascii hall, String.ofList_toList]
  · rfl

/-- The owners that a header spells as they are. -/
structure Spellable (owner : String) : Prop where
  chars : ∀ c ∈ owner.toList, isHeaderChar c = true
  stripped : Delimited.Stripped isWhitespace owner.toList

theorem trim_eq_strip (text : String) : trim text = Delimited.strip isWhitespace text.toList := rfl

/-- The caller that the handler names is the owner only when the header spells
him and the trimming leaves him as he is. -/
theorem callerOwner_eq_owner_iff {owner : String} (hblank : isBlank owner = false)
    {header : HeaderValue} (hheader : header.Carries owner) :
    callerOwner (some header) = some owner ↔ Spellable owner := by
  have hstr := header.toStr_eq hheader
  constructor
  · intro h
    by_cases hall : owner.toList.all isHeaderChar = true
    · rw [if_pos hall] at hstr
      rw [callerOwner, Option.bind_some, hstr, Option.map_some, Option.filter_eq_some_iff] at h
      have htrim : String.ofList (trim owner) = owner := Option.some.inj h.1
      have hstrip : Delimited.strip isWhitespace owner.toList = owner.toList := by
        rw [← trim_eq_strip, ← String.toList_ofList (l := trim owner), htrim]
      exact ⟨List.all_eq_true.mp hall, Delimited.strip_eq_self_iff.mp hstrip⟩
    · rw [if_neg hall] at hstr
      rw [callerOwner, Option.bind_some, hstr] at h
      cases h
  · intro h
    rw [if_pos (List.all_eq_true.mpr h.chars)] at hstr
    have htrim : trim owner = owner.toList := Delimited.strip_of_stripped h.stripped
    have hnonempty : owner.isEmpty = false := by
      rw [isBlank, htrim] at hblank
      rw [Bool.eq_false_iff] at hblank ⊢
      intro hempty
      rw [String.isEmpty_iff.mp hempty] at hblank
      exact hblank rfl
    rw [callerOwner, Option.bind_some, hstr, Option.map_some, htrim, String.ofList_toList,
      Option.filter_eq_some_iff]
    exact ⟨rfl, by simp [hnonempty]⟩

theorem ControlContext.isBlank_owner {context : ControlContext} {owner : String}
    (h : context.validate = .ok ()) (howner : context.owner = some owner) :
    isBlank owner = false := by
  by_contra hne
  have hblank : isBlank owner = true := by simpa using hne
  have hvalues : [context.controlPlaneMode, context.tenant, context.owner,
      context.expectedRuntimeProfile].any (fun value => value.any isBlank) = true := by
    simp [howner, hblank]
  unfold validate at h
  simp only [hvalues, if_true] at h
  split at h <;> cases h

namespace KillCall

variable {kill : KillCall} {task : TaskRecord} {owner : String}

theorem authorize_of_ne (howner : task.owner = some owner)
    (hcaller : kill.callerOwner ≠ some owner) :
    (kill.authorize task).state =
      .returned (.error (.permissionDenied ("kill requires owner '" ++ owner ++ "'"))) := by
  unfold authorize
  rw [howner, if_pos (by simpa using hcaller)]
  rfl

theorem passed_authorize_iff (howner : task.owner = some owner) :
    (kill.authorize task).state.passed = true ↔ kill.callerOwner = some owner := by
  constructor
  · intro hpassed
    by_contra hcaller
    rw [authorize_of_ne howner hcaller] at hpassed
    cases hpassed
  · intro hcaller
    unfold authorize
    rw [howner, if_neg (by simp [hcaller])]
    split <;> rfl

end KillCall

theorem passed_authorize_killRequest_iff {context : ControlContext}
    (hcontext : context.validate = .ok ()) {owner : String} (howner : context.owner = some owner)
    {task : TaskRecord} (htask : task.controlContext = some context) {header : HeaderValue}
    (hheader : header.Carries owner) (taskId : TaskId) :
    ((killRequest taskId (some header)).authorize task).state.passed = true ↔
      Spellable owner := by
  have htaskOwner : task.owner = some owner := by
    rw [TaskRecord.owner, htask, Option.bind_some, howner]
  rw [KillCall.passed_authorize_iff htaskOwner]
  exact callerOwner_eq_owner_iff (ControlContext.isBlank_owner hcontext howner) hheader

/-- A kill whose header carries the owner of the task passes the gate exactly
when the header spells him. -/
theorem kill_by_header_passes_iff {context : ControlContext}
    (hcontext : context.validate = .ok ()) {owner : String} (howner : context.owner = some owner)
    {task : TaskRecord} (htask : task.controlContext = some context) {header : HeaderValue}
    (hheader : header.Carries owner) (taskId : TaskId) :
    ((killRequest taskId (some header)).authorize task).state.passed = true ↔
      (∀ c ∈ owner.toList, isHeaderChar c = true) ∧
        Delimited.Stripped isWhitespace owner.toList := by
  rw [passed_authorize_killRequest_iff hcontext howner htask hheader taskId]
  exact ⟨fun h => ⟨h.chars, h.stripped⟩, fun h => ⟨h.1, h.2⟩⟩

private def ownedContext (owner : String) : ControlContext := { owner := some owner }

private def ownedTask (owner : String) : TaskRecord :=
  { taskId := "build-7", handleId := "build-7", status := .running,
    execution := { kind := .command }, limits := {}, sandbox := {}, metadata := [],
    createdAt := 0, updatedAt := 0, taskDir := "/t/build-7",
    workspaceDir := "/t/build-7/workspace", requestPath := "/t/build-7/request.json",
    resultPath := "/t/build-7/result.json", stdoutPath := "/t/build-7/stdout.log",
    stderrPath := "/t/build-7/stderr.log", stdoutMaxBytes := 1024, stderrMaxBytes := 1024,
    controlContext := some (ownedContext owner) }

theorem kill_by_header_of_alice :
    ((killRequest "build-7" (some ⟨utf8 "alice", by decide⟩)).authorize
      (ownedTask "alice")).state.passed = true := by
  have hvalid : (ownedContext "alice").validate = .ok () := by decide
  have hcarries : HeaderValue.Carries ⟨utf8 "alice", by decide⟩ "alice" := rfl
  exact (kill_by_header_passes_iff hvalid rfl rfl hcarries "build-7").mpr
    ⟨List.all_eq_true.mp (by decide), by decide⟩

/-- The owner is accepted, and the header that carries him is refused. -/
private def RefusedByHeader (owner : String) : Prop :=
  (ownedContext owner).validate = .ok () ∧ ∃ header : HeaderValue, header.Carries owner ∧
    ((killRequest "build-7" (some header)).authorize (ownedTask owner)).state =
      .returned (.error (.permissionDenied ("kill requires owner '" ++ owner ++ "'")))

/-- An owner outside ASCII and one with a blank in front. -/
theorem kill_by_header_refused : RefusedByHeader "zoë" ∧ RefusedByHeader " alice" := by
  constructor
  · exact ⟨by decide, ⟨utf8 "zoë", by decide⟩, rfl,
      KillCall.authorize_of_ne rfl (by decide +kernel)⟩
  · exact ⟨by decide, ⟨utf8 " alice", by decide⟩, rfl,
      KillCall.authorize_of_ne rfl (by decide +kernel)⟩

end ExecgoRuntime
