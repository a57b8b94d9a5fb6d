import ExecgoRuntime.Steps

/-!
What a shim knows about its task. The general inversion of a shim step leaves
open what becomes of the local variables of `supervise_wait`; here they are
followed. A shim notes that its task is to be cancelled when it reads so on the
row, and that the task timed out when it has recorded that on the row. The
completion it decides on follows from these notes and a last look at the row.
-/
namespace ExecgoRuntime

namespace Supervision

@[simp]
theorem escalate_timeoutStarted (graceMs elapsed : ℕ) (cancelRequested : Bool) (s : Supervision) :
    (s.escalate graceMs elapsed cancelRequested).timeoutStarted = s.timeoutStarted := rfl

@[simp]
theorem escalate_cancelStarted (graceMs elapsed : ℕ) (cancelRequested : Bool) (s : Supervision) :
    (s.escalate graceMs elapsed cancelRequested).cancelStarted.isSome =
      (s.cancelStarted.isSome || cancelRequested) := by
  cases hstarted : s.cancelStarted <;> cases cancelRequested <;> simp [escalate, hstarted]

end Supervision

/-- The shim is inside `supervise_wait` or has decided on a completion. -/
def ShimState.hasNotes : ShimState → Bool
  | .supervising _ | .timingOut _ _ _ | .completing _ => true
  | _ => false

/-- How a step of a shim changes its notes. -/
inductive NoteStep (graceMs : ℕ) (now : Timestamp) (db : Db) (shim : Shim) :
    Option StoreCall → Shim → Prop
  | none {c shim'} : shim'.state.hasNotes = false → NoteStep graceMs now db shim c shim'
  | cancelledEarly {c row} : Move.Quiet c → shim.state = .starting →
      db.tasks.find shim.taskId = some row → row.killRequested = true →
      NoteStep graceMs now db shim c { shim with state := .completing (cancelledBeforeLaunch now) }
  | launchFailed {c} (e : AppError) : Move.Quiet c → shim.state.hasNotes = false →
      NoteStep graceMs now db shim c { shim with state := .completing (launchFailure now e) }
  | entered {c plan} : Move.Quiet c → shim.state = .reloading plan →
      NoteStep graceMs now db shim c { shim with state := .supervising { plan } }
  | polled {c s row} (elapsed : ℕ) : Move.Quiet c → shim.state = .supervising s →
      db.tasks.find shim.taskId = some row → s.timeoutDue elapsed = false →
      NoteStep graceMs now db shim c
        { shim with state := .supervising (s.escalate graceMs elapsed row.killRequested) }
  | timeoutDue {c s row} (elapsed : ℕ) : Move.Quiet c → shim.state = .supervising s →
      db.tasks.find shim.taskId = some row → s.timeoutDue elapsed = true →
      NoteStep graceMs now db shim c
        { shim with state := .timingOut s elapsed row.killRequested }
  | timedOut {s elapsed cancelRequested} : shim.state = .timingOut s elapsed cancelRequested →
      NoteStep graceMs now db shim (some (.write shim.taskId .markTimeoutTriggered))
        { shim with
          state := .supervising
            ((s.startTimeout elapsed).escalate graceMs elapsed cancelRequested) }
  | reaped {c} (usage : WaitUsage) : Move.Quiet c →
      NoteStep graceMs now db shim c (shim.reap usage)
  | collected {c s} (elapsed : ℕ) (usage : WaitUsage) (cancelled : Bool)
      (memoryPeakBytes : Option ℕ) (oomKilled : Bool) : Move.Quiet c →
      shim.state = .supervising s →
      (s.cancelStarted.isSome = true ∧ cancelled = true) ∨
        (s.cancelStarted = .none ∧
          ∃ row, db.tasks.find shim.taskId = some row ∧ cancelled = row.killRequested) →
      NoteStep graceMs now db shim c
        { shim with
          state := .completing
            (s.completion now elapsed usage cancelled memoryPeakBytes oomKilled) }

theorem Db.of_isCancelRequested {db : Db} {taskId : TaskId} {requested : Bool}
    (h : db.isCancelRequested taskId = .ok requested) :
    ∃ row, db.tasks.find taskId = some row ∧ requested = row.killRequested := by
  unfold Db.isCancelRequested at h
  split at h
  · rename_i row hrow
    exact ⟨row, hrow, (Except.ok.inj h).symm⟩
  · cases h

theorem Shim.note_cases {graceMs : ℕ} {now : Timestamp} {failure : Option AppError}
    {choice : ShimChoice} {db db' : Db} {committed : Option StoreCall} {shim shim' : Shim}
    {m : Move Shim} (hmove : shim.move graceMs now choice = some m)
    (h : Move.Outcome m now failure db committed db' shim') :
    NoteStep graceMs now db shim committed shim' := by
  unfold Shim.move at hmove
  split at hmove
  case h_1 hstate =>
    cases hmove
    obtain ⟨hquiet, _, ⟨row, hread, rfl, _⟩ | ⟨e, rfl, _⟩⟩ := Move.outcome_query h
    · unfold Shim.load
      split
      · exact .none rfl
      split
      · rename_i hcancel
        exact .cancelledEarly hquiet hstate ((db.getTask_eq_ok_iff _ _).mp hread)
          (Bool.and_eq_true_iff.mp hcancel).1
      · exact .none rfl
    · exact .none rfl
  case h_2 e hstate =>
    cases hmove
    obtain ⟨hquiet, _, rfl⟩ := Move.outcome_silent h
    exact .launchFailed e hquiet (by rw [hstate]; rfl)
  case h_3 task plan pid hstate =>
    cases hmove
    obtain ⟨_, _, rfl⟩ := Move.outcome_silent h
    refine .none ?_
    unfold Shim.spawn
    split <;> rfl
  case h_4 plan scriptPath hstate =>
    cases hmove
    obtain ⟨_, _, rfl⟩ := Move.outcome_silent h
    exact .none rfl
  case h_5 e hstate =>
    cases hmove
    obtain ⟨hquiet, _, rfl⟩ := Move.outcome_silent h
    exact .launchFailed (confineError e) hquiet (by rw [hstate]; rfl)
  case h_6 plan scriptPath hstate =>
    obtain ⟨workload, _, rfl⟩ := Option.map_eq_some_iff.mp hmove
    rcases Move.outcome_write h with ⟨_, _, e, rfl, _⟩ | ⟨_, _, rfl, _⟩
    · exact .none rfl
    · exact .none rfl
  case h_7 plan hstate =>
    cases hmove
    obtain ⟨hquiet, _, ⟨row, _, rfl, _⟩ | ⟨e, rfl, _⟩⟩ := Move.outcome_query h
    · exact .entered hquiet hstate
    · exact .none rfl
  case h_8 s elapsed hstate =>
    cases hmove
    obtain ⟨hquiet, _, ⟨cancelRequested, hread, rfl, _⟩ | ⟨e, rfl, _⟩⟩ := Move.outcome_query h
    · obtain ⟨row, hrow, rfl⟩ := Db.of_isCancelRequested hread
      by_cases hdue : s.timeoutDue elapsed = true
      · rw [if_pos hdue]
        exact .timeoutDue elapsed hquiet hstate hrow hdue
      · rw [if_neg hdue]
        exact .polled elapsed hquiet hstate hrow (by simpa using hdue)
    · exact .none rfl
  case h_9 s elapsed cancelRequested hstate =>
    cases hmove
    rcases Move.outcome_write h with ⟨_, _, e, rfl, _⟩ | ⟨rfl, _, rfl, _⟩
    · exact .none rfl
    · exact .timedOut hstate
  case h_10 s usage hstate =>
    split at hmove
    · cases hmove
      obtain ⟨hquiet, _, rfl⟩ := Move.outcome_silent h
      exact .reaped usage hquiet
    · cases hmove
  case h_11 s elapsed cancelRequested usage hstate =>
    split at hmove
    · cases hmove
      obtain ⟨hquiet, _, rfl⟩ := Move.outcome_silent h
      exact .reaped usage hquiet
    · cases hmove
  case h_12 e hstate =>
    split at hmove
    · cases hmove
      obtain ⟨_, _, rfl⟩ := Move.outcome_silent h
      exact .none rfl
    · cases hmove
  case h_13 s elapsed memoryPeakBytes oomKilled hstate =>
    obtain ⟨usage, _, rfl⟩ := Option.map_eq_some_iff.mp hmove
    unfold Shim.collect at h
    split at h
    · rename_i hstarted
      obtain ⟨hquiet, _, rfl⟩ := Move.outcome_silent h
      exact .collected elapsed usage true memoryPeakBytes oomKilled hquiet hstate
        (.inl ⟨hstarted, rfl⟩)
    · rename_i hstarted
      obtain ⟨hquiet, _, ⟨cancelled, hread, rfl, _⟩ | ⟨e, rfl, _⟩⟩ := Move.outcome_query h
      · exact .collected elapsed usage cancelled memoryPeakBytes oomKilled hquiet hstate
          (.inr ⟨by simpa using hstarted, Db.of_isCancelRequested hread⟩)
      · exact .none rfl
  case h_14 update hstate =>
    cases hmove
    rcases Move.outcome_write h with ⟨_, _, e, rfl, _⟩ | ⟨_, _, rfl, _⟩
    · exact .none rfl
    · exact .none rfl
  case h_15 hstate =>
    cases hmove
    obtain ⟨_, _, ⟨row, _, rfl, _⟩ | ⟨e, rfl, _⟩⟩ := Move.outcome_query h
    · exact .none rfl
    · exact .none rfl
  case h_16 => cases hmove

section Classify

variable {usage : WaitUsage} {timedOut cancelled oomKilled : Bool}

/-- A workload that was not cancelled does not end as cancelled. -/
theorem classify_cancelled (h : (classify usage timedOut cancelled oomKilled).1 = .cancelled) :
    cancelled = true := by
  unfold classify at h
  split at h
  · cases h
  split at h
  · assumption
  repeat' split at h
  all_goals cases h

theorem classify_timeout
    (h : (classify usage timedOut cancelled oomKilled).2.map RuntimeErrorInfo.code =
      some .timeout) : timedOut = true := by
  unfold classify at h
  split at h
  · assumption
  repeat' split at h
  all_goals cases h

theorem launchError_ne_timeout (e : AppError) : (launchError e).code ≠ .timeout := by
  cases e <;> simp [launchError]

end Classify

namespace Shim

/-- The shim has read that its task is to be cancelled. -/
def notedCancel (shim : Shim) : Bool :=
  match shim.state with
  | .supervising s => s.cancelStarted.isSome
  | .timingOut s _ cancelRequested => s.cancelStarted.isSome || cancelRequested
  | .completing update => decide (update.status = .cancelled)
  | _ => false

/-- The shim has recorded that its task timed out. -/
def notedTimeout (shim : Shim) : Bool :=
  match shim.state with
  | .supervising s | .timingOut s _ _ => s.timeoutStarted.isSome
  | .completing update => decide (update.error.map RuntimeErrorInfo.code = some .timeout)
  | _ => false

theorem notedCancel_of_hasNotes {shim : Shim} (h : shim.state.hasNotes = false) :
    shim.notedCancel = false := by
  unfold notedCancel
  split <;> simp_all [ShimState.hasNotes]

theorem notedTimeout_of_hasNotes {shim : Shim} (h : shim.state.hasNotes = false) :
    shim.notedTimeout = false := by
  unfold notedTimeout
  split <;> simp_all [ShimState.hasNotes]

end Shim

namespace NoteStep

variable {graceMs : ℕ} {now : Timestamp} {db : Db} {committed : Option StoreCall}
  {shim shim' : Shim}

/-- A cancellation is noted from the row. -/
theorem notedCancel (h : NoteStep graceMs now db shim committed shim')
    (hnoted : shim'.notedCancel = true) :
    shim.notedCancel = true ∨
      ∃ row, db.tasks.find shim.taskId = some row ∧ row.killRequested = true := by
  cases h with
  | none hstate =>
    rw [Shim.notedCancel_of_hasNotes hstate] at hnoted
    cases hnoted
  | cancelledEarly _ _ hrow hread => exact .inr ⟨_, hrow, hread⟩
  | launchFailed _ _ _ => cases hnoted
  | entered _ _ => cases hnoted
  | @polled _ s row elapsed _ hstate hrow _ =>
    simp only [Shim.notedCancel, Supervision.escalate_cancelStarted, Bool.or_eq_true] at hnoted
    rcases hnoted with hold | hread
    · exact .inl (by simp [Shim.notedCancel, hstate, hold])
    · exact .inr ⟨row, hrow, hread⟩
  | @timeoutDue _ s row elapsed _ hstate hrow _ =>
    simp only [Shim.notedCancel, Bool.or_eq_true] at hnoted
    rcases hnoted with hold | hread
    · exact .inl (by simp [Shim.notedCancel, hstate, hold])
    · exact .inr ⟨row, hrow, hread⟩
  | timedOut hstate =>
    refine .inl ?_
    simpa [Shim.notedCancel, hstate, Supervision.startTimeout] using hnoted
  | reaped usage _ => exact .inl hnoted
  | collected elapsed usage cancelled _ _ _ hstate hread =>
    have hcancelled : cancelled = true := classify_cancelled (of_decide_eq_true hnoted)
    rcases hread with ⟨hstarted, _⟩ | ⟨_, row, hrow, hread⟩
    · exact .inl (by simpa [Shim.notedCancel, hstate] using hstarted)
    · exact .inr ⟨row, hrow, hread ▸ hcancelled⟩

/-- A timeout is noted when it is recorded. -/
theorem notedTimeout (h : NoteStep graceMs now db shim committed shim')
    (hnoted : shim'.notedTimeout = true) :
    shim.notedTimeout = true ∨ committed = some (.write shim.taskId .markTimeoutTriggered) := by
  cases h with
  | none hstate =>
    rw [Shim.notedTimeout_of_hasNotes hstate] at hnoted
    cases hnoted
  | cancelledEarly _ _ _ _ => cases hnoted
  | launchFailed e _ _ =>
    have hcode : (launchError e).code = .timeout := by
      simpa [Shim.notedTimeout, launchFailure] using hnoted
    exact absurd hcode (launchError_ne_timeout e)
  | entered _ _ => cases hnoted
  | polled elapsed _ hstate _ _ =>
    refine .inl ?_
    simpa [Shim.notedTimeout, hstate] using hnoted
  | timeoutDue elapsed _ hstate _ _ =>
    refine .inl ?_
    simpa [Shim.notedTimeout, hstate] using hnoted
  | timedOut hstate => exact .inr rfl
  | reaped usage _ => exact .inl hnoted
  | collected elapsed usage cancelled _ _ _ hstate _ =>
    have htimedOut := classify_timeout (of_decide_eq_true hnoted)
    exact .inl (by simpa [Shim.notedTimeout, hstate] using htimedOut)

end NoteStep

/-- Where a shim of the next state comes from, with its notes. -/
inductive World.NotesOrigin (svc : RuntimeService) (w : World) (e : Event) (w' : World)
    (shim' : Shim) : Prop
  | same (hold : shim' ∈ w.procs.shims)
  | spawned (hnew : shim'.state = .starting)
  | moved (i : ℕ) (choice : ShimChoice) (shim : Shim) (haction : e.action = .shim i choice)
      (hshim : w.procs.shims[i]? = some shim) (hid : shim'.taskId = shim.taskId)
      (hstep : ShimStep e.now e.failure choice w.db shim (w.committed svc e) w'.db shim')
      (hnotes : NoteStep svc.settings.terminationGraceMs e.now w.db shim (w.committed svc e) shim')

theorem World.step_note {svc : RuntimeService} {w w' : World} {e : Event}
    (h : w.step svc e = some w') {i : ℕ} {choice : ShimChoice} {shim shim' : Shim}
    (haction : e.action = .shim i choice) (hshim : w.procs.shims[i]? = some shim)
    (hshim' : w'.procs.shims[i]? = some shim') :
    NoteStep svc.settings.terminationGraceMs e.now w.db shim (w.committed svc e) shim' := by
  obtain ⟨m, hm, _, hout⟩ := step_actor h
  rw [haction] at hm
  obtain ⟨shim₀, hshim₀, hm⟩ := Option.bind_eq_some_iff.mp hm
  obtain ⟨m', hmove, hm⟩ := Option.bind_eq_some_iff.mp hm
  cases hm
  obtain ⟨shim₁, hout, hprocs⟩ := Move.outcome_map hout
  rw [hshim] at hshim₀
  cases hshim₀
  have hlt : i < w.procs.shims.length := (List.getElem?_eq_some_iff.mp hshim).1
  have hsame : shim₁ = shim' := by
    rw [hprocs] at hshim'
    simpa [hlt] using hshim'
  rw [hsame] at hout
  exact Shim.note_cases hmove hout

theorem World.step_notes {svc : RuntimeService} {w w' : World} {e : Event}
    (h : w.step svc e = some w') {shim' : Shim} (hmem : shim' ∈ w'.procs.shims) :
    w.NotesOrigin svc e w' shim' := by
  obtain ⟨i, hi⟩ := List.mem_iff_getElem?.mp hmem
  cases step_shim h i with
  | same hsame _ => exact .same (List.mem_of_getElem? (hsame ▸ hi))
  | spawned _ _ new _ _ _ hnew _ =>
    rw [hnew] at hi
    cases hi
    exact .spawned rfl
  | moved choice shim t haction hshim ht hstep =>
    rw [ht] at hi
    cases hi
    exact .moved i choice shim haction hshim hstep.taskId hstep (step_note h haction hshim ht)

end ExecgoRuntime
