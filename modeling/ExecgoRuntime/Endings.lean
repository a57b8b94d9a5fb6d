import ExecgoRuntime.Supervising
import ExecgoRuntime.TenantQuota

/-!
How a workload ended, from what the kernel says to what the row says. The shim
learns it from the status word and the usage of `wait4` and from two files of the
cgroup. Words and files are read back as the kernel wrote them; so in a run whose
shims get their answers from them, a row that has ended is explained by an ending
of a workload of its task that happened before, or says that there was none.
-/
namespace ExecgoRuntime

open Delimited

/-- A `c_int`. -/
abbrev WaitStatus := BitVec 32

namespace WaitStatus

/-- `WTERMSIG`. -/
def termSig (status : WaitStatus) : WaitStatus := status &&& 0x7f

/-- `WIFEXITED`. -/
def exited (status : WaitStatus) : Bool := status.termSig == 0

/-- `WEXITSTATUS`. -/
def exitStatus (status : WaitStatus) : WaitStatus := status.sshiftRight 8 &&& 0xff

/-- `WIFSIGNALED`; the sum is cast to an `i8`. -/
def signaled (status : WaitStatus) : Bool :=
  decide (2 ≤ ((status.termSig + 1).setWidth 8).toInt)

end WaitStatus

/-- How a process ends. Signal 127 is not one; the word uses it for other things. -/
inductive Ending
  | exited (code : Fin 256)
  | killed (signal : Fin 126) (core : Bool)

namespace Ending

/-- The word that the kernel reports; `signal` counts from 1. -/
def status : Ending → WaitStatus
  | exited code => BitVec.ofNat 32 (code * 256)
  | killed signal core => BitVec.ofNat 32 (signal + 1 + if core then 128 else 0)

def code : Ending → Option ℤ
  | exited code => some code
  | killed _ _ => none

def signal : Ending → Option ℤ
  | exited _ => none
  | killed signal _ => some (signal + 1)

theorem exited_status (code : Fin 256) :
    (exited code).status.exited = true ∧ (exited code).status.signaled = false ∧
      (exited code).status.exitStatus.toInt = code := by
  revert code
  decide +kernel

theorem killed_status (signal : Fin 126) (core : Bool) :
    (killed signal core).status.exited = false ∧ (killed signal core).status.signaled = true ∧
      (killed signal core).status.termSig.toInt = signal + 1 := by
  revert signal core
  decide +kernel

end Ending

structure Timeval where
  sec : ℤ
  usec : ℤ

/-- The fields of `rusage` that are read. -/
structure Rusage where
  utime : Timeval
  stime : Timeval
  maxrss : ℤ

/-- What a call of `wait4` returns. -/
inductive Wait4
  | interrupted
  | failed (message : String)
  | noChild
  | child (status : WaitStatus) (usage : Rusage)

def timevalToMs (tv : Timeval) : ℕ :=
  Saturating.add u64Max (min (tv.sec.toNat * 1000) u64Max) (tv.usec.toNat / 1000)

/-- On Linux `ru_maxrss` counts kilobytes. -/
def convertMaxRss (value : ℤ) : ℕ := min (value.toNat * 1024) u64Max

/-- The calls are made until one is not interrupted. -/
def waitForPid : List Wait4 → Option (AppResult WaitUsage)
  | [] => none
  | .interrupted :: calls => waitForPid calls
  | .failed message :: _ => some (.error (.io message))
  | .noChild :: _ => some (.error (.internal "wait4 returned no child"))
  | .child status usage :: _ => some (.ok {
      exitCode := if status.exited then some status.exitStatus.toInt else none
      exitSignal := if status.signaled then some status.termSig.toInt else none
      userCpuMs := some (timevalToMs usage.utime)
      systemCpuMs := some (timevalToMs usage.stime)
      maxRssBytes := some (convertMaxRss usage.maxrss) })

/-- What the shim learns of an ending. -/
def Ending.report (ending : Ending) (usage : Rusage) : WaitUsage where
  exitCode := ending.code
  exitSignal := ending.signal
  userCpuMs := some (timevalToMs usage.utime)
  systemCpuMs := some (timevalToMs usage.stime)
  maxRssBytes := some (convertMaxRss usage.maxrss)

theorem waitForPid_interrupted (n : ℕ) (calls : List Wait4) :
    waitForPid (List.replicate n .interrupted ++ calls) = waitForPid calls := by
  induction n with
  | zero => rfl
  | succ n ih => exact ih

/-- The word of an ending is read as that ending, however often the call is interrupted. -/
theorem waitForPid_ending (n : ℕ) (ending : Ending) (usage : Rusage) :
    waitForPid (List.replicate n .interrupted ++ [.child ending.status usage]) =
      some (.ok (ending.report usage)) := by
  rw [waitForPid_interrupted]
  cases ending with
  | exited code =>
    obtain ⟨hexited, hsignaled, hcode⟩ := Ending.exited_status code
    simp [waitForPid, Ending.report, hexited, hsignaled, hcode, Ending.code, Ending.signal]
  | killed signal core =>
    obtain ⟨hexited, hsignaled, hsignal⟩ := Ending.killed_status signal core
    simp [waitForPid, Ending.report, hexited, hsignaled, hsignal, Ending.code, Ending.signal]

/-- `memory.peak` and `memory.events`, where they can be read. -/
structure CgroupFiles where
  memoryPeak : Option (List Char) := none
  memoryEvents : Option (List Char) := none

/-- `str::split_whitespace`. -/
def splitWhitespace (text : List Char) : List (List Char) :=
  (text.splitOnP isWhitespace).filter (fun part => !part.isEmpty)

/-- The test of one line in `oom_killed`. -/
def reportsOomKill (line : List Char) : Bool :=
  match splitWhitespace line with
  | key :: value :: _ => key == "oom_kill".toList && decide (0 < (parseU64 value).getD 0)
  | _ => false

namespace CgroupFiles

def readMemoryPeakBytes (files : CgroupFiles) : Option ℕ :=
  files.memoryPeak.bind (fun value => parseU64 (strip isWhitespace value))

/-- A carriage return at the end of a line is white space, so the lines need not lose it. -/
def oomKilled (files : CgroupFiles) : Bool :=
  files.memoryEvents.any (fun contents => (contents.splitOn '\n').any reportsOomKill)

end CgroupFiles

/-- What the kernel keeps in the two files: a number, and counters with a name each. -/
structure CgroupReport where
  peak : Option ℕ
  counters : Option (List (List Char × ℕ))
  peak_le : ∀ n ∈ peak, n ≤ u64Max
  count_le : ∀ entries ∈ counters, ∀ entry ∈ entries, entry.2 ≤ u64Max
  named : ∀ entries ∈ counters, ∀ entry ∈ entries,
    entry.1 ≠ [] ∧ ∀ c ∈ entry.1, isWhitespace c = false

namespace CgroupReport

def line (entry : List Char × ℕ) : List Char := entry.1 ++ ' ' :: Nat.toDigits 10 entry.2

/-- The files as the kernel writes them. -/
def files (report : CgroupReport) : CgroupFiles where
  memoryPeak := report.peak.map (fun n => Nat.toDigits 10 n ++ ['\n'])
  memoryEvents := report.counters.map (fun entries => terminate '\n' (entries.map line))

/-- A process of the group was killed for want of memory. -/
def OomKilled (report : CgroupReport) : Prop :=
  ∃ entries ∈ report.counters, ∃ n, ("oom_kill".toList, n) ∈ entries ∧ 0 < n

theorem readMemoryPeakBytes_files (report : CgroupReport) :
    report.files.readMemoryPeakBytes = report.peak := by
  cases hpeak : report.peak with
  | none => simp [files, CgroupFiles.readMemoryPeakBytes, hpeak]
  | some n =>
    have hdigits : Stripped isWhitespace (Nat.toDigits 10 n) :=
      stripped_of_forall (fun c hc => not_isWhitespace_of_isDigit (isDigit_of_mem_toDigits hc))
    have hstrip : strip isWhitespace (Nat.toDigits 10 n ++ ['\n']) = Nat.toDigits 10 n :=
      strip_padded hdigits ⟨[], ['\n'], rfl, by simp, by simp; decide⟩
    simp [files, CgroupFiles.readMemoryPeakBytes, hpeak, hstrip,
      parseU64_toDigits (report.peak_le n hpeak)]

theorem splitWhitespace_line {entry : List Char × ℕ} (hne : entry.1 ≠ [])
    (hname : ∀ c ∈ entry.1, isWhitespace c = false) :
    splitWhitespace (line entry) = [entry.1, Nat.toDigits 10 entry.2] := by
  have hdigits : ∀ c ∈ Nat.toDigits 10 entry.2, isWhitespace c = false :=
    fun c hc => not_isWhitespace_of_isDigit (isDigit_of_mem_toDigits hc)
  have hsplit : (line entry).splitOnP isWhitespace = [entry.1, Nat.toDigits 10 entry.2] := by
    rw [line, List.splitOnP_append_cons_of_forall_mem hname ' ' (by decide),
      List.splitOnP_eq_singleton hdigits]
  rw [splitWhitespace, hsplit]
  simp [hne, Nat.toDigits_ne_nil]

theorem reportsOomKill_line {entry : List Char × ℕ} (hne : entry.1 ≠ [])
    (hname : ∀ c ∈ entry.1, isWhitespace c = false) (hle : entry.2 ≤ u64Max) :
    reportsOomKill (line entry) = true ↔ entry.1 = "oom_kill".toList ∧ 0 < entry.2 := by
  simp [reportsOomKill, splitWhitespace_line hne hname, parseU64_toDigits hle]

theorem newline_notMem_line {entry : List Char × ℕ}
    (hname : ∀ c ∈ entry.1, isWhitespace c = false) : '\n' ∉ line entry := by
  have hspace : isWhitespace '\n' = true := by decide
  intro hmem
  rw [line, List.mem_append, List.mem_cons] at hmem
  rcases hmem with hkey | heq | hdigit
  · rw [hname _ hkey] at hspace
    cases hspace
  · cases heq
  · rw [not_isWhitespace_of_isDigit (isDigit_of_mem_toDigits hdigit)] at hspace
    cases hspace

theorem oomKilled_files (report : CgroupReport) :
    report.files.oomKilled = true ↔ report.OomKilled := by
  cases hcounters : report.counters with
  | none => simp [files, CgroupFiles.oomKilled, OomKilled, hcounters]
  | some entries =>
    have hlines : ∀ l ∈ entries.map line, '\n' ∉ l := by
      intro l hl
      obtain ⟨entry, hentry, rfl⟩ := List.mem_map.mp hl
      exact newline_notMem_line (report.named entries hcounters entry hentry).2
    have hread : ∀ entry ∈ entries, reportsOomKill (line entry) = true ↔
        entry.1 = "oom_kill".toList ∧ 0 < entry.2 := by
      intro entry hentry
      obtain ⟨hne, hname⟩ := report.named entries hcounters entry hentry
      exact reportsOomKill_line hne hname (report.count_le entries hcounters entry hentry)
    have hempty : reportsOomKill [] = false := by decide
    simp only [files, CgroupFiles.oomKilled, hcounters, Option.map_some, Option.any_some,
      splitOn_terminate hlines, List.any_append, List.any_cons, List.any_nil, hempty,
      Bool.or_false, List.any_map, List.any_eq_true, Function.comp_apply, OomKilled,
      Option.mem_def, Option.some.injEq, exists_eq_left']
    constructor
    · rintro ⟨entry, hentry, hreports⟩
      obtain ⟨hname, hpos⟩ := (hread entry hentry).mp hreports
      exact ⟨entry.2, hname ▸ hentry, hpos⟩
    · rintro ⟨n, hentry, hpos⟩
      exact ⟨_, hentry, (hread _ hentry).mpr ⟨rfl, hpos⟩⟩

end CgroupReport

/-- The status and the error code that an ending leads to by itself. -/
def Ending.verdict : Ending → TaskStatus × Option ErrorCode
  | exited code => if code = 0 then (.success, none) else (.failed, some .exitNonZero)
  | killed signal _ =>
    if signal.val + 1 = 24 then (.failed, some .cpuLimitExceeded) else (.failed, some .internal)

/-- The shim got its answer from the kernel. -/
def ShimChoice.Real : ShimChoice → Prop
  | reaped usage => ∃ n ending rusage,
    waitForPid (List.replicate n .interrupted ++ [.child (Ending.status ending) rusage]) =
      some (.ok usage)
  | collect _ memoryPeakBytes oomKilled => ∃ report : CgroupReport,
    memoryPeakBytes = report.files.readMemoryPeakBytes ∧ oomKilled = report.files.oomKilled
  | _ => True

def Action.Real : Action → Prop
  | .shim _ choice => choice.Real
  | _ => True

/-- The answer is one that the kernel gives. -/
def Action.asksKernel : Action → Bool
  | .shim _ (.reaped _) => true
  | .shim _ (.collect _ _ _) => true
  | _ => false

theorem Action.real_of_not_asks {action : Action} (h : action.asksKernel = false) :
    action.Real := by
  cases action with
  | shim i choice => cases choice <;> trivial
  | _ => trivial

/-- A shim of the task gave this answer in the run. -/
def Answered (trace : List (World × Event)) (taskId : TaskId) (choice : ShimChoice) : Prop :=
  ∃ x ∈ trace, ∃ i shim, x.2.action = .shim i choice ∧ x.1.procs.shims[i]? = some shim ∧
    shim.taskId = taskId

/-- How a task can have come to its end. -/
inductive Explained (trace : List (World × Event)) (taskId : TaskId) (status : TaskStatus)
    (errorCode : Option ErrorCode) (exitCode exitSignal : Option ℤ) : Option ResourceUsage → Prop
  | unreported (hstatus : status ≠ .success) (hcode : exitCode = none)
      (hsignal : exitSignal = none) :
      Explained trace taskId status errorCode exitCode exitSignal none
  | ended (ending : Ending) (rusage : Rusage) (report : CgroupReport) (usage : ResourceUsage)
      (hreaped : Answered trace taskId (.reaped (ending.report rusage)))
      (hcollected : ∃ elapsed oomKilled,
        Answered trace taskId (.collect elapsed report.peak oomKilled) ∧
          (oomKilled = true ↔ report.OomKilled))
      (hcode : exitCode = ending.code) (hsignal : exitSignal = ending.signal)
      (hcpu : usage.userCpuMs = some (timevalToMs rusage.utime) ∧
        usage.systemCpuMs = some (timevalToMs rusage.stime))
      (hmemory : usage.maxRssBytes = some (convertMaxRss rusage.maxrss) ∧
        (usage.memoryPeakBytes = none ∨ usage.memoryPeakBytes = report.peak))
      (hverdict : (status, errorCode) = ending.verdict ∨
        (status, errorCode) = (.failed, some .timeout) ∨
        (status, errorCode) = (.cancelled, some .cancelled) ∨
        ((status, errorCode) = (.failed, some .memoryLimitExceeded) ∧ report.OomKilled)) :
      Explained trace taskId status errorCode exitCode exitSignal (some usage)

def CompletionUpdate.Explained (trace : List (World × Event)) (taskId : TaskId)
    (update : CompletionUpdate) : Prop :=
  ExecgoRuntime.Explained trace taskId update.status (update.error.map RuntimeErrorInfo.code)
    update.exitCode update.exitSignal update.usage

/-- A row that has ended is explained, and one that is accepted reports nothing yet. -/
structure TaskRecord.Accounted (trace : List (World × Event)) (taskId : TaskId)
    (row : TaskRecord) : Prop where
  fresh : row.status = .accepted →
    row.usage = none ∧ row.exitCode = none ∧ row.exitSignal = none
  ended : row.status.isTerminal = true →
    Explained trace taskId row.status row.errorCode row.exitCode row.exitSignal row.usage

section Explained

variable {trace trace' : List (World × Event)} {taskId : TaskId}

theorem Answered.mono {choice : ShimChoice} (h : Answered trace taskId choice)
    (hsub : trace ⊆ trace') : Answered trace' taskId choice := by
  obtain ⟨x, hx, hanswer⟩ := h
  exact ⟨x, hsub hx, hanswer⟩

theorem Explained.mono {status : TaskStatus} {errorCode : Option ErrorCode}
    {exitCode exitSignal : Option ℤ} {usage : Option ResourceUsage}
    (h : Explained trace taskId status errorCode exitCode exitSignal usage)
    (hsub : trace ⊆ trace') :
    Explained trace' taskId status errorCode exitCode exitSignal usage := by
  cases h with
  | unreported hstatus hcode hsignal => exact .unreported hstatus hcode hsignal
  | ended ending rusage report usage hreaped hcollected hcode hsignal hcpu hmemory hverdict =>
    obtain ⟨elapsed, oomKilled, hanswered, hoom⟩ := hcollected
    exact .ended ending rusage report usage (hreaped.mono hsub)
      ⟨elapsed, oomKilled, hanswered.mono hsub, hoom⟩ hcode hsignal hcpu hmemory hverdict

theorem TaskRecord.Accounted.mono {row : TaskRecord} (h : row.Accounted trace taskId)
    (hsub : trace ⊆ trace') : row.Accounted trace' taskId :=
  ⟨h.fresh, fun hterminal => (h.ended hterminal).mono hsub⟩

/-- The columns of the report change with the end of the row only. -/
theorem TaskWrite.report_cases (w : TaskWrite) (now : Timestamp) (row : TaskRecord) :
    ((w.effect now row).status = row.status ∧ (w.effect now row).errorCode = row.errorCode ∧
        (w.effect now row).exitCode = row.exitCode ∧
        (w.effect now row).exitSignal = row.exitSignal ∧ (w.effect now row).usage = row.usage) ∨
      (w.effect now row).status = .running ∨
      (row.status = .accepted ∧ (w.effect now row).status = .cancelled ∧
        (w.effect now row).exitCode = row.exitCode ∧
        (w.effect now row).exitSignal = row.exitSignal ∧ (w.effect now row).usage = row.usage) ∨
      ∃ update, w = .completeTask update := by
  cases w with
  | markDispatched shimPid =>
    simp only [effect, TaskRecord.setDispatched]
    split
    · exact .inr (.inl rfl)
    · exact .inl ⟨rfl, rfl, rfl, rfl, rfl⟩
  | markStarted pid pgid scriptPath => exact .inr (.inl rfl)
  | releaseResources message =>
    simp only [effect]
    split <;> exact .inl ⟨rfl, rfl, rfl, rfl, rfl⟩
  | cancelAcceptedTask error =>
    simp only [effect, TaskRecord.setCancelled]
    split
    · rename_i haccepted
      exact .inr (.inr (.inl ⟨haccepted, rfl, rfl, rfl, rfl⟩))
    · exact .inl ⟨rfl, rfl, rfl, rfl, rfl⟩
  | completeTask update => exact .inr (.inr (.inr ⟨update, rfl⟩))
  | markRecovered =>
    simp only [effect, TaskRecord.setRecovered]
    split <;> exact .inl ⟨rfl, rfl, rfl, rfl, rfl⟩
  | _ => exact .inl ⟨rfl, rfl, rfl, rfl, rfl⟩

theorem TaskRecord.Accounted.effect {row : TaskRecord} (h : row.Accounted trace taskId)
    {w : TaskWrite} (hupdate : ∀ update, w = .completeTask update → update.Explained trace taskId)
    (now : Timestamp) : (w.effect now row).Accounted trace taskId := by
  rcases w.report_cases now row with ⟨hstatus, herror, hcode, hsignal, husage⟩ | hrunning |
    ⟨haccepted, hstatus, hcode, hsignal, husage⟩ | ⟨update, rfl⟩
  · refine ⟨fun haccepted => ?_, fun hterminal => ?_⟩
    · rw [husage, hcode, hsignal]
      exact h.fresh (hstatus ▸ haccepted)
    · rw [hstatus, herror, hcode, hsignal, husage]
      exact h.ended (hstatus ▸ hterminal)
  · refine ⟨fun haccepted => ?_, fun hterminal => ?_⟩
    · rw [hrunning] at haccepted
      cases haccepted
    · rw [hrunning] at hterminal
      cases hterminal
  · obtain ⟨hnone, hcode', hsignal'⟩ := h.fresh haccepted
    refine ⟨fun hagain => ?_, fun _ => ?_⟩
    · rw [hstatus] at hagain
      cases hagain
    · rw [hstatus, husage, hcode, hsignal, hnone]
      exact .unreported (by simp) hcode' hsignal'
  · refine ⟨fun haccepted => ?_, fun _ => hupdate update rfl⟩
    have hterminal := update.terminal
    rw [show update.status = .accepted from haccepted] at hterminal
    cases hterminal

end Explained

namespace Shim

/-- What `wait_for_pid` has returned for the workload. -/
def waited (shim : Shim) : Option WaitUsage := shim.workload.bind Workload.waited

variable {graceMs : ℕ} {now : Timestamp} {failure : Option AppError} {choice : ShimChoice}
  {db db' : Db} {committed : Option StoreCall} {shim shim' : Shim}

/-- A shim that waits completes with the report that it collects. -/
theorem completing_of_supervising {m : Move Shim} (hmove : shim.move graceMs now choice = some m)
    (h : Move.Outcome m now failure db committed db' shim') {s : Supervision}
    (hstate : shim.state = .supervising s) {update : CompletionUpdate}
    (hupdate : shim'.state = .completing update) :
    ∃ elapsed usage cancelled memoryPeakBytes oomKilled, shim.waited = some usage ∧
      choice = .collect elapsed memoryPeakBytes oomKilled ∧
      update = s.completion now elapsed usage cancelled memoryPeakBytes oomKilled := by
  unfold move at hmove
  rw [hstate] at hmove
  cases choice with
  | tick elapsed =>
    cases hmove
    obtain ⟨_, _, ⟨cancelRequested, _, rfl, _⟩ | ⟨e, rfl, _⟩⟩ := Move.outcome_query h
    · split at hupdate <;> cases hupdate
    · cases hupdate
  | reaped usage =>
    simp only [Option.ite_none_right_eq_some, Option.some.injEq] at hmove
    obtain ⟨_, rfl⟩ := hmove
    obtain ⟨_, _, rfl⟩ := Move.outcome_silent h
    rw [show (shim.reap usage).state = shim.state from rfl, hstate] at hupdate
    cases hupdate
  | waitFailed e =>
    simp only [Option.ite_none_right_eq_some, Option.some.injEq] at hmove
    obtain ⟨_, rfl⟩ := hmove
    obtain ⟨_, _, rfl⟩ := Move.outcome_silent h
    cases hupdate
  | collect elapsed memoryPeakBytes oomKilled =>
    obtain ⟨usage, hwaited, rfl⟩ := Option.map_eq_some_iff.mp hmove
    unfold Shim.collect at h
    split at h
    · obtain ⟨_, _, rfl⟩ := Move.outcome_silent h
      cases hupdate
      exact ⟨elapsed, usage, true, memoryPeakBytes, oomKilled, hwaited, rfl, rfl⟩
    · obtain ⟨_, _, ⟨cancelled, _, rfl, _⟩ | ⟨e, rfl, _⟩⟩ := Move.outcome_query h
      · cases hupdate
        exact ⟨elapsed, usage, cancelled, memoryPeakBytes, oomKilled, hwaited, rfl, rfl⟩
      · cases hupdate
  | _ => cases hmove

/-- A shim decides on a completion without a report, or when it has collected one. -/
theorem completing_cases {m : Move Shim} (hmove : shim.move graceMs now choice = some m)
    (h : Move.Outcome m now failure db committed db' shim') {update : CompletionUpdate}
    (hupdate : shim'.state = .completing update) :
    shim.state = .completing update ∨
      (update.status ≠ .success ∧ update.exitCode = none ∧ update.exitSignal = none ∧
        update.usage = none) ∨
      ∃ (s : Supervision) (elapsed : ℕ) (usage : WaitUsage) (cancelled : Bool)
        (memoryPeakBytes : Option ℕ) (oomKilled : Bool), shim.waited = some usage ∧
          choice = .collect elapsed memoryPeakBytes oomKilled ∧
          update = s.completion now elapsed usage cancelled memoryPeakBytes oomKilled := by
  cases note_cases hmove h with
  | none hnotes =>
    rw [hupdate] at hnotes
    cases hnotes
  | cancelledEarly _ _ _ _ =>
    cases hupdate
    exact .inr (.inl ⟨by simp [cancelledBeforeLaunch], rfl, rfl, rfl⟩)
  | launchFailed e _ _ =>
    cases hupdate
    exact .inr (.inl ⟨by simp [launchFailure], rfl, rfl, rfl⟩)
  | reaped usage _ => exact .inl hupdate
  | @collected _ s elapsed usage cancelled memoryPeakBytes oomKilled _ hstate _ =>
    exact .inr (.inr ⟨s, completing_of_supervising hmove h hstate hupdate⟩)
  | _ => cases hupdate

theorem waited_load (task : TaskRecord) : (shim.load now task).waited = shim.waited := by
  unfold load
  split
  · rfl
  split <;> rfl

/-- What a shim knows of its workload is what it has just been told or knew before. -/
theorem waited_of_step (h : ShimStep now failure choice db shim committed db' shim')
    {usage : WaitUsage} (hwaited : shim'.waited = some usage) :
    shim.waited = some usage ∨ choice = .reaped usage := by
  cases h with
  | loaded _ _ _ => exact .inl ((waited_load _).symm.trans hwaited)
  | @spawned _ task plan pid _ _ _ =>
    have hnone : (shim.spawn task plan pid).waited = none := rfl
    rw [hnone] at hwaited
    cases hwaited
  | reaped told _ hchoice _ =>
    right
    cases hworkload : shim.workload with
    | none => simp [waited, reap, hworkload] at hwaited
    | some workload =>
      have htold : told = usage := by simpa [waited, reap, hworkload] using hwaited
      exact htold ▸ hchoice
  | _ => exact .inl hwaited

end Shim

section Completion

variable {trace : List (World × Event)} {taskId : TaskId}

theorem classify_verdict (ending : Ending) (rusage : Rusage) (timedOut cancelled oomKilled : Bool)
    {status : TaskStatus} {error : Option RuntimeErrorInfo}
    (h : classify (ending.report rusage) timedOut cancelled oomKilled = (status, error)) :
    (status, error.map RuntimeErrorInfo.code) = ending.verdict ∨
      (status, error.map RuntimeErrorInfo.code) = (.failed, some .timeout) ∨
      (status, error.map RuntimeErrorInfo.code) = (.cancelled, some .cancelled) ∨
      ((status, error.map RuntimeErrorInfo.code) = (.failed, some .memoryLimitExceeded) ∧
        oomKilled = true) := by
  unfold classify at h
  split at h
  · cases h
    exact .inr (.inl rfl)
  split at h
  · cases h
    exact .inr (.inr (.inl rfl))
  split at h
  · rename_i hoom
    cases h
    exact .inr (.inr (.inr ⟨rfl, hoom⟩))
  left
  cases ending with
  | exited code =>
    simp only [Ending.report, Ending.code, Ending.signal, reduceCtorEq, if_false] at h
    by_cases hzero : code = 0
    · rw [Ending.verdict, if_pos hzero]
      simp only [hzero] at h
      cases h
      rfl
    · have hcode : ¬ ((code.val : ℤ) = 0) := by
        intro heq
        exact hzero (Fin.ext (by simpa using heq))
      rw [Ending.verdict, if_neg hzero]
      rw [if_neg hcode] at h
      cases h
      rfl
  | killed signal core =>
    simp only [Ending.report, Ending.code, Ending.signal, Option.some.injEq, sigXcpu] at h
    by_cases hcpu : signal.val + 1 = 24
    · rw [Ending.verdict, if_pos hcpu]
      rw [if_pos (by exact_mod_cast hcpu)] at h
      cases h
      rfl
    · have hsignal : ¬ ((signal.val : ℤ) + 1 = 24) := by
        intro heq
        exact hcpu (by exact_mod_cast heq)
      rw [Ending.verdict, if_neg hcpu]
      rw [if_neg hsignal] at h
      cases h
      rfl

theorem explained_completion (s : Supervision) (now : Timestamp) (elapsed : ℕ) (ending : Ending)
    (rusage : Rusage) (cancelled : Bool) (report : CgroupReport) (oomKilled : Bool)
    (hreaped : Answered trace taskId (.reaped (ending.report rusage)))
    (hcollected : Answered trace taskId (.collect elapsed report.peak oomKilled))
    (hoom : oomKilled = true ↔ report.OomKilled) :
    (s.completion now elapsed (ending.report rusage) cancelled report.peak oomKilled).Explained
      trace taskId := by
  refine .ended ending rusage report _ hreaped ⟨elapsed, oomKilled, hcollected, hoom⟩ rfl rfl
    ⟨rfl, rfl⟩ ⟨rfl, ?_⟩ ?_
  · change (if _ then _ else _) = none ∨ (if _ then _ else _) = report.peak
    split
    · exact .inr rfl
    · exact .inl rfl
  · rcases classify_verdict ending rusage s.timeoutStarted.isSome cancelled
      (s.plan.resourceEnforcement.cgroupEnforced && oomKilled) rfl with
      hown | htimeout | hcancelled | ⟨hmemory, hkilled⟩
    · exact .inl hown
    · exact .inr (.inl htimeout)
    · exact .inr (.inr (.inl hcancelled))
    · exact .inr (.inr (.inr ⟨hmemory, hoom.mp (Bool.and_eq_true_iff.mp hkilled).2⟩))

end Completion

namespace World

variable {svc : RuntimeService} {w w' : World} {e : Event} {trace : List (World × Event)}

/-- Rows that have ended, and what the shims are about to write, are explained. -/
structure AllExplained (trace : List (World × Event)) (w : World) : Prop where
  rows : ∀ taskId row, w.db.tasks.find taskId = some row → row.Accounted trace taskId
  waited : ∀ shim ∈ w.procs.shims, ∀ usage, shim.waited = some usage →
    ∃ ending rusage, usage = Ending.report ending rusage ∧
      Answered trace shim.taskId (.reaped usage)
  completing : ∀ shim ∈ w.procs.shims, ∀ update, shim.state = .completing update →
    update.Explained trace shim.taskId

/-- The move behind the step of a shim. -/
theorem step_shim_move (h : w.step svc e = some w') {i : ℕ} {choice : ShimChoice}
    {shim shim' : Shim} (haction : e.action = .shim i choice)
    (hshim : w.procs.shims[i]? = some shim) (hshim' : w'.procs.shims[i]? = some shim') :
    ∃ m, shim.move svc.settings.terminationGraceMs e.now choice = some m ∧
      Move.Outcome m e.now e.failure w.db (w.committed svc e) w'.db shim' := by
  obtain ⟨m, hm, _, hout⟩ := step_actor h
  rw [haction] at hm
  obtain ⟨shim₀, hshim₀, hm⟩ := Option.bind_eq_some_iff.mp hm
  obtain ⟨m', hmove, hm⟩ := Option.bind_eq_some_iff.mp hm
  cases hm
  obtain ⟨shim₁, hout, hprocs⟩ := Move.outcome_map hout
  rw [hshim] at hshim₀
  cases hshim₀
  have hlt : i < w.procs.shims.length := (List.getElem?_eq_some_iff.mp hshim).1
  have hsame : shim₁ = shim' := by
    rw [hprocs] at hshim'
    simpa [hlt] using hshim'
  exact ⟨m', hmove, hsame ▸ hout⟩

/-- An update without a report that is no success explains itself. -/
theorem explained_of_unreported {update : CompletionUpdate} {taskId : TaskId}
    (hstatus : update.status ≠ .success) (hcode : update.exitCode = none)
    (hsignal : update.exitSignal = none) (husage : update.usage = none) :
    update.Explained trace taskId := by
  unfold CompletionUpdate.Explained
  rw [husage]
  exact .unreported hstatus hcode hsignal

theorem AllExplained.explained (hinv : w.AllExplained trace) (h : w.step svc e = some w')
    {taskId : TaskId} {update : CompletionUpdate}
    (hcommitted : w.committed svc e = some (.write taskId (.completeTask update))) :
    update.Explained trace taskId := by
  cases step_write h hcommitted with
  | request _ hcall => cases hcall
  | dispatch _ _ _ _ _ hwrite _ =>
    cases hwrite
    exact explained_of_unreported (by simp [shimSpawnFailed]) rfl rfl rfl
  | recover _ _ _ _ _ hwrite _ =>
    cases hwrite
    exact explained_of_unreported (by simp [recoveryLost]) rfl rfl rfl
  | shim i choice shim shim' _ hshim hid hwrite _ =>
    cases hwrite with
    | completed _ hstate =>
      subst hid
      exact hinv.completing shim (List.mem_of_getElem? hshim) update hstate

theorem AllExplained.mono {trace' : List (World × Event)} (hinv : w.AllExplained trace)
    (hsub : trace ⊆ trace') : w.AllExplained trace' where
  rows taskId row hrow := (hinv.rows taskId row hrow).mono hsub
  waited shim hmem usage hwaited :=
    have ⟨ending, rusage, hreport, hanswered⟩ := hinv.waited shim hmem usage hwaited
    ⟨ending, rusage, hreport, hanswered.mono hsub⟩
  completing shim hmem update hupdate := (hinv.completing shim hmem update hupdate).mono hsub

/-- A step with real answers, remembered by the trace, keeps everything explained. -/
theorem AllExplained.step (hinv : w.AllExplained trace) (hstep : (w, e) ∈ trace)
    (hreal : e.action.Real) (h : w.step svc e = some w') : w'.AllExplained trace where
  rows taskId row' hrow' := by
    cases step_origin h hrow' with
    | inserted new _ _ _ hnew _ =>
      rw [hnew]
      exact ⟨fun _ => ⟨rfl, rfl, rfl⟩, fun hterminal => by cases hterminal⟩
    | kept hrow _ _ => exact hinv.rows taskId row' hrow
    | written write row hcommitted hrow heffect _ =>
      rw [heffect]
      refine (hinv.rows taskId row hrow).effect (fun update hwrite => ?_) e.now
      exact hinv.explained h (hwrite ▸ hcommitted)
  waited shim' hmem' usage hwaited := by
    cases step_shims h with
    | same hshims _ => exact hinv.waited shim' (hshims ▸ hmem') usage hwaited
    | spawned _ _ new _ _ _ hshims =>
      rw [hshims, List.mem_append, List.mem_singleton] at hmem'
      rcases hmem' with hmem | rfl
      · exact hinv.waited shim' hmem usage hwaited
      · cases hwaited
    | moved i choice shim moved haction hshim _ hmove hshims =>
      rw [hshims] at hmem'
      rcases List.mem_or_eq_of_mem_set hmem' with hmem | rfl
      · exact hinv.waited shim' hmem usage hwaited
      rcases Shim.waited_of_step hmove hwaited with hbefore | hchoice
      · rw [hmove.taskId]
        exact hinv.waited shim (List.mem_of_getElem? hshim) usage hbefore
      · rw [haction, hchoice] at hreal
        obtain ⟨n, ending, rusage, hanswer⟩ := hreal
        rw [waitForPid_ending, Option.some.injEq, Except.ok.injEq] at hanswer
        exact ⟨ending, rusage, hanswer.symm, (w, e), hstep, i, shim, hchoice ▸ haction, hshim,
          hmove.taskId.symm⟩
  completing shim' hmem' update hupdate := by
    cases step_shims h with
    | same hshims _ => exact hinv.completing shim' (hshims ▸ hmem') update hupdate
    | spawned _ _ new _ _ _ hshims =>
      rw [hshims, List.mem_append, List.mem_singleton] at hmem'
      rcases hmem' with hmem | rfl
      · exact hinv.completing shim' hmem update hupdate
      · cases hupdate
    | moved i choice shim moved haction hshim _ hmove hshims =>
      obtain ⟨hlt, _⟩ := List.getElem?_eq_some_iff.mp hshim
      have hmoved : w'.procs.shims[i]? = some moved := by simp [hshims, hlt]
      rw [hshims] at hmem'
      rcases List.mem_or_eq_of_mem_set hmem' with hmem | rfl
      · exact hinv.completing shim' hmem update hupdate
      obtain ⟨m, hm, hout⟩ := step_shim_move h haction hshim hmoved
      rw [hmove.taskId]
      rcases Shim.completing_cases hm hout hupdate with
        hbefore | ⟨hstatus, hcode, hsignal, husage⟩ |
        ⟨s, elapsed, usage, cancelled, memoryPeakBytes, oomKilled, hwaited, hchoice, hcompletion⟩
      · exact hinv.completing shim (List.mem_of_getElem? hshim) update hbefore
      · exact explained_of_unreported hstatus hcode hsignal husage
      · obtain ⟨ending, rusage, hreport, hreaped⟩ :=
          hinv.waited shim (List.mem_of_getElem? hshim) usage hwaited
        have hcollected : Answered trace shim.taskId choice :=
          ⟨(w, e), hstep, i, shim, haction, hshim, rfl⟩
        rw [haction, hchoice] at hreal
        obtain ⟨report, hpeak, hoom⟩ := hreal
        rw [report.readMemoryPeakBytes_files] at hpeak
        rw [hchoice, hpeak] at hcollected
        rw [hcompletion, hpeak, hreport]
        rw [hreport] at hreaped
        refine explained_completion s e.now elapsed ending rusage cancelled report oomKilled
          hreaped hcollected ?_
        rw [hoom]
        exact report.oomKilled_files

theorem allExplained_init (trace : List (World × Event)) : World.init.AllExplained trace where
  rows _ _ hrow := by cases hrow
  waited _ hmem := by cases hmem
  completing _ hmem := by cases hmem

theorem allExplained_of_run {last : World} (hrun : Run svc init trace last)
    (hreal : ∀ x ∈ trace, x.2.action.Real) : last.AllExplained trace := by
  induction hrun with
  | nil => exact allExplained_init []
  | @snoc trace w e w' _ hstep ih =>
    have hbefore : w.AllExplained (trace ++ [(w, e)]) :=
      (ih (fun x hx => hreal x (List.mem_append_left _ hx))).mono (List.subset_append_left _ _)
    have hmem : (w, e) ∈ trace ++ [(w, e)] := List.mem_append_right _ (List.mem_singleton_self _)
    exact hbefore.step hmem (hreal (w, e) hmem) hstep

/-- In a run whose shims get their answers from `wait4` and from the files of the cgroup,
a row that has ended is explained by an ending of a workload of its task that was reported
before, with the status, the codes and the usage that go with it, or has no report. -/
theorem ended_rows_explained {last : World} (hrun : Run svc init trace last)
    (hreal : ∀ x ∈ trace, x.2.action.Real) {taskId : TaskId} {row : TaskRecord}
    (hrow : last.db.tasks.find taskId = some row) (hterminal : row.status.isTerminal = true) :
    Explained trace taskId row.status row.errorCode row.exitCode row.exitSignal row.usage :=
  ((allExplained_of_run hrun hreal).rows taskId row hrow).ended hterminal

private def memoryTask : SubmitTaskRequest :=
  { commandRequest "a" with
    limits := { (commandRequest "a").limits with memoryBytes := some 1048576 }
    sandbox := { (commandRequest "a").sandbox with profile := .linuxSandbox } }

/-- A group in which one process was killed for want of memory. -/
private def oneOomKill : CgroupReport where
  peak := some 1048576
  counters := some [("max".toList, 3), ("oom_kill".toList, 1)]
  peak_le := by decide
  count_le := by decide
  named := by
    intro entries hentries entry hentry
    cases hentries
    rcases List.mem_pair.mp hentry with rfl | rfl
    · simp [isWhitespace]
    · simp [isWhitespace]

private def smallRusage : Rusage := ⟨⟨1, 500000⟩, ⟨0, 20999⟩, 2048⟩

private def untilSupervised : List Event :=
  events (submitActions 0 memoryTask ++ dispatchActions 7 ++
    ([.proceed, .spawned 8, .confined none, .proceed, .proceed] : List ShimChoice).map (.shim 0))

private def toldByKernel : List Event :=
  events [.shim 0 (.reaped ((Ending.killed 8 false).report smallRusage)),
    .shim 0 (.collect 2000000 oneOomKill.files.readMemoryPeakBytes oneOomKill.files.oomKilled),
    .shim 0 .proceed]

/-- The workload is killed with signal 9 for want of memory. -/
theorem ended_rows_explained_of_oom :
    ∃ trace last row, Run (smallService ⟨1, none, none⟩) init trace last ∧
      last.db.tasks.find "a" = some row ∧
      (row.status = .failed ∧ row.errorCode = some .memoryLimitExceeded ∧
        row.exitSignal = some 9) ∧
      Explained trace "a" row.status row.errorCode row.exitCode row.exitSignal row.usage := by
  have hexec : (execute (smallService ⟨1, none, none⟩) (fun _ _ => true)
      (untilSupervised ++ toldByKernel)).any (fun w => (w.db.tasks.find "a").any (fun row =>
        decide (row.status = .failed ∧ row.errorCode = some .memoryLimitExceeded ∧
          row.exitSignal = some 9))) = true := by
    decide +kernel
  obtain ⟨trace, last, hrun, hlabels, _, htest⟩ := Runs.exists_run_of_exec hexec
  obtain ⟨row, hrow, hended⟩ := (Option.any_eq_true _ _).mp htest
  have hend : row.status = .failed ∧ row.errorCode = some .memoryLimitExceeded ∧
      row.exitSignal = some 9 := of_decide_eq_true hended
  have hasks : ∀ e ∈ untilSupervised, e.action.asksKernel = false := by decide
  have hbefore : ∀ e ∈ untilSupervised, e.action.Real :=
    fun e he => Action.real_of_not_asks (hasks e he)
  have htold : ∀ e ∈ toldByKernel, e.action.Real := by
    intro e he
    simp only [toldByKernel, events, List.map_cons, List.map_nil, List.mem_cons,
      List.not_mem_nil, or_false] at he
    rcases he with rfl | rfl | rfl
    · exact ⟨2, .killed 8 false, smallRusage, waitForPid_ending _ _ _⟩
    · exact ⟨oneOomKill, rfl, rfl⟩
    · trivial
  have hreal : ∀ x ∈ trace, x.2.action.Real :=
    Runs.forall_of_labels (P := fun e => e.action.Real) hlabels (fun e he =>
      (List.mem_append.mp he).elim (hbefore e) (htold e))
  exact ⟨trace, last, row, hrun, hrow, hend,
    ended_rows_explained hrun hreal hrow (by rw [hend.1]; rfl)⟩

end World

end ExecgoRuntime
