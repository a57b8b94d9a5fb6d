import ExecgoRuntime.Lib.Alarm
import ExecgoRuntime.Supervising

/-!
The signals of a shim. `supervise_wait` polls the clock and the cancel flag of
its row. Two triggers with start times of their own, the wall time and the flag,
share the latches of the two signals; taken together they are one alarm, raised
by whichever trigger comes first and escalated by the grace period. What the
shim records as the completion follows from the same ticks.
-/
namespace ExecgoRuntime

open Alarms

/-- A tick of the poll interval: the clock reading and the flag in the store. -/
structure Poll where
  elapsed : ℕ
  cancelRequested : Bool

inductive Signal
  | sigterm
  | sigkill
  deriving DecidableEq

namespace Supervision

/-- The tick calls `mark_timeout_triggered`. -/
def marks (s : Supervision) (poll : Poll) : Bool := s.timeoutDue poll.elapsed

/-- A tick whose store calls succeed. -/
def tick (graceMs : ℕ) (s : Supervision) (poll : Poll) : Supervision :=
  (if s.marks poll then s.startTimeout poll.elapsed else s).escalate graceMs poll.elapsed
    poll.cancelRequested

/-- The signals of a tick: its start times decide, and what has not been sent before. -/
def signals (graceMs : ℕ) (s : Supervision) (poll : Poll) : List Signal :=
  let after := s.tick graceMs poll
  let shouldEscalate := graceOver graceMs poll.elapsed after.timeoutStarted ||
    graceOver graceMs poll.elapsed after.cancelStarted
  (if (after.timeoutStarted.isSome || after.cancelStarted.isSome) && !s.termSent
    then [.sigterm] else []) ++
    if shouldEscalate && !s.killSent then [.sigkill] else []

/-- The completion when the process exits; a flag noted before is not read again. -/
def exitCompletion (s : Supervision) (now : Timestamp) (elapsed : ℕ) (usage : WaitUsage)
    (cancelRequested : Bool) (memoryPeakBytes : Option ℕ) (oomKilled : Bool) : CompletionUpdate :=
  s.completion now elapsed usage (s.cancelStarted.isSome || cancelRequested) memoryPeakBytes
    oomKilled

/-- The ticks of one supervision. -/
abbrev PollRun (graceMs : ℕ) (plan : ExecutionPlan) (trace : List (Supervision × Poll))
    (last : Supervision) : Prop :=
  Runs.Run (fun s poll => some (tick graceMs s poll)) { plan } trace last

variable {graceMs : ℕ} {s : Supervision} {poll : Poll}

theorem tick_of_marks (h : s.marks poll = true) :
    s.tick graceMs poll = (s.startTimeout poll.elapsed).escalate graceMs poll.elapsed
      poll.cancelRequested := by
  rw [tick, if_pos h]

theorem tick_of_not_marks (h : s.marks poll = false) :
    s.tick graceMs poll = s.escalate graceMs poll.elapsed poll.cancelRequested := by
  rw [tick, if_neg (by rw [h]; exact Bool.false_ne_true)]

/-- A tick is an escalation of what the timeout made of the variables. -/
theorem tick_eq_escalate (graceMs : ℕ) (s : Supervision) (poll : Poll) :
    ∃ s' : Supervision,
      s.tick graceMs poll = s'.escalate graceMs poll.elapsed poll.cancelRequested ∧
      s'.plan = s.plan ∧ s'.cancelStarted = s.cancelStarted ∧ s'.termSent = s.termSent ∧
      s'.killSent = s.killSent ∧
      s'.timeoutStarted = if s.marks poll then some poll.elapsed else s.timeoutStarted := by
  cases hmarks : s.marks poll with
  | false => exact ⟨s, tick_of_not_marks hmarks, rfl, rfl, rfl, rfl, rfl⟩
  | true => exact ⟨s.startTimeout poll.elapsed, tick_of_marks hmarks, rfl, rfl, rfl, rfl, rfl⟩

theorem tick_plan : (s.tick graceMs poll).plan = s.plan := by
  obtain ⟨s', htick, hplan, _⟩ := tick_eq_escalate graceMs s poll
  rw [htick, ← hplan]
  rfl

theorem tick_timeoutStarted :
    (s.tick graceMs poll).timeoutStarted =
      if s.marks poll then some poll.elapsed else s.timeoutStarted := by
  obtain ⟨s', htick, _, _, _, _, htimeout⟩ := tick_eq_escalate graceMs s poll
  rw [htick, ← htimeout]
  rfl

theorem tick_cancelStarted :
    (s.tick graceMs poll).cancelStarted =
      if poll.cancelRequested && s.cancelStarted.isNone then some poll.elapsed
      else s.cancelStarted := by
  obtain ⟨s', htick, _, hcancel, _⟩ := tick_eq_escalate graceMs s poll
  rw [htick, ← hcancel]
  rfl

theorem tick_termSent : (s.tick graceMs poll).termSent =
    (s.termSent || ((s.tick graceMs poll).timeoutStarted.isSome ||
      (s.tick graceMs poll).cancelStarted.isSome)) := by
  obtain ⟨s', htick, _, _, hterm, _⟩ := tick_eq_escalate graceMs s poll
  rw [htick, ← hterm, ← Bool.or_assoc]
  rfl

theorem tick_killSent : (s.tick graceMs poll).killSent =
    (s.killSent || (graceOver graceMs poll.elapsed (s.tick graceMs poll).timeoutStarted ||
      graceOver graceMs poll.elapsed (s.tick graceMs poll).cancelStarted)) := by
  obtain ⟨s', htick, _, _, _, hkill, _⟩ := tick_eq_escalate graceMs s poll
  rw [htick, ← hkill]
  rfl

theorem marks_eq : s.marks poll = (s.timeoutStarted.isNone &&
    decide (millis s.plan.resourceEnforcement.wallTimeMs ≤ poll.elapsed)) := rfl

/-- The earlier of two start times. -/
def earlier : Option ℕ → Option ℕ → Option ℕ
  | some a, some b => some (min a b)
  | some a, none => some a
  | none, b => b

theorem earlier_none_left (b : Option ℕ) : earlier none b = b := by cases b <;> rfl

theorem earlier_none_right (a : Option ℕ) : earlier a none = a := by cases a <;> rfl

theorem earlier_isSome (a b : Option ℕ) : (earlier a b).isSome = (a.isSome || b.isSome) := by
  cases a <;> cases b <;> rfl

/-- A delay is over since one of two times when it is over since the earlier. -/
theorem any_delay_earlier (delay elapsed : ℕ) (a b : Option ℕ) :
    (a.any (fun since => decide (delay ≤ elapsed - since)) ||
        b.any (fun since => decide (delay ≤ elapsed - since))) =
      (earlier a b).any (fun since => decide (delay ≤ elapsed - since)) := by
  cases a with
  | none => rw [Option.any_none, Bool.false_or, earlier_none_left]
  | some a =>
    cases b with
    | none => rw [Option.any_none, Bool.or_false, earlier_none_right]
    | some b =>
      rw [earlier, Option.any_some, Option.any_some, Option.any_some, ← Bool.decide_or,
        decide_eq_decide]
      omega

theorem graceOver_earlier (elapsed : ℕ) (a b : Option ℕ) :
    (graceOver graceMs elapsed a || graceOver graceMs elapsed b) =
      graceOver graceMs elapsed (earlier a b) := by
  rw [graceOver, graceOver, graceOver]
  exact any_delay_earlier (millis graceMs) elapsed a b

/-- Both start times as one alarm. -/
def alarm (s : Supervision) : Alarm where
  raised := earlier s.timeoutStarted s.cancelStarted
  escalated := s.killSent

/-- The tick of the alarm: either trigger will do. -/
def toTick (s : Supervision) (poll : Poll) : Tick where
  time := poll.elapsed
  trigger := decide (millis s.plan.resourceEnforcement.wallTimeMs ≤ poll.elapsed) ||
    poll.cancelRequested

/-- No start time lies after the tick, and `SIGTERM` was sent when there is one. -/
structure StartedBy (s : Supervision) (elapsed : ℕ) : Prop where
  timeout : ∀ started, s.timeoutStarted = some started → started ≤ elapsed
  cancel : ∀ started, s.cancelStarted = some started → started ≤ elapsed
  term : s.termSent = (earlier s.timeoutStarted s.cancelStarted).isSome

theorem earlier_tick (graceMs : ℕ) (h : s.StartedBy poll.elapsed) :
    earlier (s.tick graceMs poll).timeoutStarted (s.tick graceMs poll).cancelStarted =
      s.alarm.raisedBy (s.toTick poll) := by
  rw [tick_timeoutStarted, tick_cancelStarted, marks_eq]
  unfold alarm toTick Alarm.raisedBy
  generalize decide (millis s.plan.resourceEnforcement.wallTimeMs ≤ poll.elapsed) = due
  cases htimeout : s.timeoutStarted with
  | some timeout =>
    have hle := h.timeout timeout htimeout
    cases hcancel : s.cancelStarted with
    | some cancel => simp [earlier]
    | none => cases poll.cancelRequested <;> simp [earlier, hle]
  | none =>
    cases hcancel : s.cancelStarted with
    | some cancel =>
      have hle := h.cancel cancel hcancel
      cases due <;> simp [earlier, hle]
    | none => cases due <;> cases poll.cancelRequested <;> simp [earlier]

theorem overdue_tick (h : s.StartedBy poll.elapsed) :
    (graceOver graceMs poll.elapsed (s.tick graceMs poll).timeoutStarted ||
      graceOver graceMs poll.elapsed (s.tick graceMs poll).cancelStarted) =
      s.alarm.overdue (millis graceMs) (s.toTick poll) := by
  rw [graceOver_earlier, earlier_tick graceMs h, graceOver, Alarm.overdue]
  rfl

theorem alarm_tick (h : s.StartedBy poll.elapsed) :
    (s.tick graceMs poll).alarm = s.alarm.next (millis graceMs) (s.toTick poll) := by
  unfold Alarm.next
  rw [← earlier_tick graceMs h, ← overdue_tick h]
  unfold alarm
  rw [tick_killSent]

end Supervision

/-- The signal of a stage of the alarm. -/
def Signal.ofStage : Stage → Signal
  | .first => .sigterm
  | .second => .sigkill

namespace Supervision

variable {graceMs : ℕ} {s : Supervision} {poll : Poll}

theorem signals_eq_fires (h : s.StartedBy poll.elapsed) :
    s.signals graceMs poll =
      (s.alarm.fires (millis graceMs) (s.toTick poll)).map Signal.ofStage := by
  have hterm : s.termSent = s.alarm.raised.isSome := h.term
  have hsome := congrArg Option.isSome (earlier_tick graceMs h)
  rw [earlier_isSome] at hsome
  have hfirst : ((s.alarm.raisedBy (s.toTick poll)).isSome && !s.alarm.raised.isSome) =
      (s.alarm.raised.isNone && (s.toTick poll).trigger) := by
    unfold Alarm.raisedBy
    cases s.alarm.raised <;> cases (s.toTick poll).trigger <;> rfl
  unfold signals Alarm.fires
  simp only
  rw [hsome, overdue_tick h, hterm, hfirst, List.map_append]
  congr 1
  · split <;> rfl
  · change _ = List.map Signal.ofStage
      (if s.alarm.overdue (millis graceMs) (s.toTick poll) && !s.killSent then [.second] else [])
    split <;> rfl

theorem mem_signals_iff (h : s.StartedBy poll.elapsed) (stage : Stage) :
    Signal.ofStage stage ∈ s.signals graceMs poll ↔
      stage ∈ s.alarm.fires (millis graceMs) (s.toTick poll) := by
  have hinj : Function.Injective Signal.ofStage := by
    intro a b hab
    cases a <;> cases b <;> first | rfl | cases hab
  rw [signals_eq_fires h]
  exact List.mem_map_of_injective hinj

variable {plan : ExecutionPlan} {trace : List (Supervision × Poll)} {last : Supervision}

/-- The ticks come in the order of time. -/
def InOrder (trace : List (Supervision × Poll)) : Prop :=
  trace.Pairwise (fun x y => x.2.elapsed ≤ y.2.elapsed)

theorem StartedBy.tick {elapsed : ℕ} (h : s.StartedBy elapsed) (hle : poll.elapsed ≤ elapsed) :
    (s.tick graceMs poll).StartedBy elapsed := by
  refine ⟨?_, ?_, ?_⟩
  · intro started hstarted
    rw [tick_timeoutStarted] at hstarted
    split at hstarted
    · exact Option.some.inj hstarted ▸ hle
    · exact h.timeout started hstarted
  · intro started hstarted
    rw [tick_cancelStarted] at hstarted
    split at hstarted
    · exact Option.some.inj hstarted ▸ hle
    · exact h.cancel started hstarted
  · have hterm := h.term
    rw [earlier_isSome] at hterm
    rw [tick_termSent, earlier_isSome, hterm, tick_timeoutStarted, tick_cancelStarted]
    cases s.marks poll <;> cases s.timeoutStarted <;> cases s.cancelStarted <;>
      cases poll.cancelRequested <;> rfl

theorem startedBy_of_run (h : PollRun graceMs plan trace last) {elapsed : ℕ}
    (hbound : ∀ x ∈ trace, x.2.elapsed ≤ elapsed) : last.StartedBy elapsed := by
  have hstart : StartedBy { plan } elapsed := by
    refine ⟨?_, ?_, rfl⟩ <;> (intro started hstarted; cases hstarted)
  refine Runs.Run.invariant (I := fun s => s.StartedBy elapsed)
    (G := fun _ poll => poll.elapsed ≤ elapsed) hstart ?_ h hbound
  rintro s poll s' hs hle ⟨⟩
  exact hs.tick hle

theorem startedBy_of_mem (h : PollRun graceMs plan trace last) (horder : InOrder trace)
    {x : Supervision × Poll} (hx : x ∈ trace) : x.1.StartedBy x.2.elapsed := by
  obtain ⟨before, after, rfl⟩ := List.append_of_mem hx
  obtain ⟨_, hbefore, _, _⟩ := h.split
  refine startedBy_of_run hbefore ?_
  intro y hy
  exact (List.pairwise_append.mp horder).2.2 y hy x (List.mem_cons_self ..)

theorem plan_of_run (h : PollRun graceMs plan trace last) {s : Supervision}
    (hs : s ∈ Runs.visited trace last) : s.plan = plan := by
  refine Runs.Run.invariant_visited (I := fun s => s.plan = plan) (G := fun _ _ => True) rfl ?_ h
    (fun _ _ => trivial) s hs
  rintro s poll s' hplan _ ⟨⟩
  rw [tick_plan, hplan]

theorem plan_of_mem (h : PollRun graceMs plan trace last) {x : Supervision × Poll}
    (hx : x ∈ trace) : x.1.plan = plan :=
  plan_of_run h (List.mem_append_left _ (List.mem_map_of_mem hx))

/-- A tick as the alarm sees it. -/
def toAlarm (x : Supervision × Poll) : Alarm × Tick := (x.1.alarm, x.1.toTick x.2)

theorem map_toAlarm_concat (before : List (Supervision × Poll)) (x : Supervision × Poll) :
    before.map toAlarm ++ [(x.1.alarm, x.1.toTick x.2)] = (before ++ [x]).map toAlarm := by
  rw [List.map_append]
  rfl

/-- A supervision is a run of its alarm. -/
theorem alarm_run (h : PollRun graceMs plan trace last) (horder : InOrder trace) :
    Alarm.Run (millis graceMs) (trace.map toAlarm) last.alarm := by
  refine h.simulate (G := fun s poll => s.StartedBy poll.elapsed) alarm toTick ?_
    (fun x hx => startedBy_of_mem h horder hx)
  rintro s poll s' hstarted ⟨⟩
  rw [alarm_tick hstarted]

theorem alarm_inOrder (horder : InOrder trace) : Alarm.InOrder (trace.map toAlarm) :=
  List.pairwise_map.mpr horder

/-- The run with its last tick still to come. -/
theorem alarm_run_before {before after : List (Supervision × Poll)} {x : Supervision × Poll}
    (h : PollRun graceMs plan (before ++ x :: after) last)
    (horder : InOrder (before ++ x :: after)) :
    Alarm.Run (millis graceMs) (before.map toAlarm) x.1.alarm := by
  obtain ⟨_, hbefore, _, _⟩ := h.split
  exact alarm_run hbefore (List.pairwise_append.mp horder).1

theorem signals_of_run (h : PollRun graceMs plan trace last) (horder : InOrder trace) :
    trace.flatMap (fun x => x.1.signals graceMs x.2) <+: [.sigterm, .sigkill] := by
  have hsignals : trace.flatMap (fun x => x.1.signals graceMs x.2) =
      ((trace.map toAlarm).flatMap (fun x => x.1.fires (millis graceMs) x.2)).map
        Signal.ofStage := by
    rw [List.flatMap_map, List.map_flatMap]
    refine List.flatMap_congr (fun x hx => ?_)
    exact signals_eq_fires (startedBy_of_mem h horder hx)
  rw [hsignals]
  exact (Alarm.fires_in_order (alarm_run h horder)).map Signal.ofStage

theorem marks_of_run (h : PollRun graceMs plan trace last) :
    (trace.filter (fun x => x.1.marks x.2)).length =
      if last.timeoutStarted.isSome then 1 else 0 := by
  induction h with
  | nil => rfl
  | @snoc trace s poll s' _ hstep ih =>
    cases hstep
    rw [List.filter_append, List.length_append, ih, tick_timeoutStarted]
    cases hmarks : s.marks poll with
    | false => simp [hmarks]
    | true =>
      rw [marks_eq, Bool.and_eq_true, Option.isNone_iff_eq_none] at hmarks
      simp [marks_eq, hmarks]

theorem timeoutStarted_iff (h : PollRun graceMs plan trace last) :
    last.timeoutStarted.isSome = true ↔ ∃ x ∈ trace, x.1.marks x.2 = true := by
  have hcount := marks_of_run h
  constructor
  · intro hstarted
    rw [if_pos hstarted] at hcount
    obtain ⟨x, hx⟩ := List.exists_mem_of_length_pos (by rw [hcount]; exact Nat.one_pos)
    exact ⟨x, List.mem_filter.mp hx⟩
  · rintro ⟨x, hx, hmarks⟩
    by_contra hnot
    rw [if_neg hnot, List.length_eq_zero_iff, List.filter_eq_nil_iff] at hcount
    exact hcount x hx hmarks

theorem cancelStarted_iff (h : PollRun graceMs plan trace last) :
    last.cancelStarted.isSome = true ↔ ∃ x ∈ trace, x.2.cancelRequested = true := by
  induction h with
  | nil => simp
  | @snoc trace s poll s' _ hstep ih =>
    cases hstep
    have hnext : (s.tick graceMs poll).cancelStarted.isSome =
        (s.cancelStarted.isSome || poll.cancelRequested) := by
      rw [tick_cancelStarted]
      cases s.cancelStarted <;> cases poll.cancelRequested <;> rfl
    rw [hnext, Bool.or_eq_true, ih]
    simp [or_and_right, exists_or]

end Supervision

/-- The supervision inside the shim is one that its ticks lead to. -/
def Shim.Polled (graceMs : ℕ) (shim : Shim) : Prop :=
  match shim.state with
  | .supervising s => ∃ trace, Supervision.PollRun graceMs s.plan trace s
  | .timingOut s elapsed cancelRequested =>
    (∃ trace, Supervision.PollRun graceMs s.plan trace s) ∧
      s.marks ⟨elapsed, cancelRequested⟩ = true
  | _ => True

theorem Shim.polled_of_hasNotes {graceMs : ℕ} {shim : Shim} (h : shim.state.hasNotes = false) :
    shim.Polled graceMs := by
  unfold Shim.Polled
  cases hstate : shim.state <;> first | trivial | (rw [hstate] at h; cases h)

theorem Supervision.PollRun.tick {graceMs : ℕ} {s : Supervision} {trace : List (Supervision × Poll)}
    (h : PollRun graceMs s.plan trace s) (poll : Poll) :
    ∃ trace', PollRun graceMs (s.tick graceMs poll).plan trace' (s.tick graceMs poll) := by
  rw [tick_plan]
  exact ⟨_, h.snoc rfl⟩

/-- Each step of a shim inside `supervise_wait` is part of a tick. -/
theorem NoteStep.keepsPolled {graceMs : ℕ} {now : Timestamp} {db : Db}
    {committed : Option StoreCall} {shim shim' : Shim}
    (h : NoteStep graceMs now db shim committed shim')
    (hpolled : shim.Polled graceMs) : shim'.Polled graceMs := by
  unfold Shim.Polled at hpolled
  cases h with
  | none hstate => exact Shim.polled_of_hasNotes hstate
  | entered _ _ => exact ⟨[], .nil⟩
  | @polled _ s row elapsed _ hstate _ hdue =>
    rw [hstate] at hpolled
    obtain ⟨_, htrace⟩ := hpolled
    have hmarks : s.marks ⟨elapsed, row.killRequested⟩ = false := hdue
    have hnext := htrace.tick ⟨elapsed, row.killRequested⟩
    rw [Supervision.tick_of_not_marks hmarks] at hnext
    exact hnext
  | timeoutDue elapsed _ hstate _ hdue =>
    rw [hstate] at hpolled
    exact ⟨hpolled, hdue⟩
  | @timedOut s elapsed cancelRequested hstate =>
    rw [hstate] at hpolled
    obtain ⟨⟨_, htrace⟩, hmarks⟩ := hpolled
    have hnext := htrace.tick ⟨elapsed, cancelRequested⟩
    rw [Supervision.tick_of_marks hmarks] at hnext
    exact hnext
  | reaped usage _ => exact hpolled
  | _ => trivial

/-- In every run of the system a shim inside `supervise_wait` is in a state that
its ticks lead to. -/
theorem World.polled_of_run {svc : RuntimeService} {db : Db} {trace : List (World × Event)}
    {last : World} (hrun : World.Run svc (.serve db) trace last) :
    ∀ shim ∈ last.procs.shims, shim.Polled svc.settings.terminationGraceMs := by
  refine Runs.Run.invariant
    (I := fun w => ∀ shim ∈ w.procs.shims, shim.Polled svc.settings.terminationGraceMs)
    (G := fun _ _ => True) ?_ ?_ hrun (fun _ _ => trivial)
  · intro shim hshim
    cases hshim
  · intro w e w' hpolled _ hstep shim' hshim'
    cases World.step_notes hstep hshim' with
    | same hold => exact hpolled shim' hold
    | spawned hnew => exact Shim.polled_of_hasNotes (by rw [hnew]; rfl)
    | moved i choice shim _ hshim _ _ hnotes =>
      exact hnotes.keepsPolled (hpolled shim (List.mem_of_getElem? hshim))

/-- The completion at the exit is the one of the flag that is read, if it is read. -/
theorem Shim.collect_eq {now : Timestamp} {db : Db} {shim : Shim} {s : Supervision}
    {usage : WaitUsage} {elapsed : ℕ} {memoryPeakBytes : Option ℕ}
    {oomKilled cancelRequested : Bool}
    (hread : db.isCancelRequested shim.taskId = .ok cancelRequested) :
    ((shim.collect now s usage elapsed memoryPeakBytes oomKilled).run now none db).2 =
      { shim with
        state := .completing
          (s.exitCompletion now elapsed usage cancelRequested memoryPeakBytes oomKilled) } := by
  unfold Shim.collect Supervision.exitCompletion
  cases hstarted : s.cancelStarted.isSome with
  | true => rfl
  | false =>
    rw [if_neg (by simp), Bool.false_or]
    simp only [Move.run, Move.query, StoreCall.exec, hread]

section Classify

variable {usage : WaitUsage} {timedOut cancelled oomKilled : Bool}

theorem classify_timeout_iff :
    (classify usage timedOut cancelled oomKilled).2.map RuntimeErrorInfo.code = some .timeout ↔
      timedOut = true := by
  refine ⟨classify_timeout, ?_⟩
  rintro rfl
  rfl

theorem classify_cancelled_iff (htimedOut : timedOut = false) :
    (classify usage timedOut cancelled oomKilled).1 = .cancelled ↔ cancelled = true := by
  refine ⟨classify_cancelled, ?_⟩
  rintro rfl
  rw [htimedOut]
  rfl

end Classify

/-- What holds of the ticks of a supervision and of the completion at its exit. -/
structure SignalProtocol (graceMs : ℕ) (plan : ExecutionPlan) (trace : List (Supervision × Poll))
    (last : Supervision) : Prop where
  /-- At most one `SIGTERM`, then at most one `SIGKILL`. -/
  sent : trace.flatMap (fun x => x.1.signals graceMs x.2) <+: [.sigterm, .sigkill]
  /-- No signal before the wall time is over or the flag is set. -/
  caused : ∀ before x after, trace = before ++ x :: after → x.1.signals graceMs x.2 ≠ [] →
    ∃ y ∈ before ++ [x],
      millis plan.resourceEnforcement.wallTimeMs ≤ y.2.elapsed ∨ y.2.cancelRequested = true
  /-- `SIGKILL` follows `SIGTERM` after no less than the grace period. -/
  spaced : ∀ before x after, trace = before ++ x :: after →
    Signal.sigkill ∈ x.1.signals graceMs x.2 →
    ∃ y ∈ before ++ [x], Signal.sigterm ∈ y.1.signals graceMs y.2 ∧
      y.2.elapsed + millis graceMs ≤ x.2.elapsed
  /-- The first tick after the grace period sends `SIGKILL`. -/
  due : ∀ before x rest, trace = before ++ x :: rest → Signal.sigterm ∈ x.1.signals graceMs x.2 →
    ∀ between y after, x :: rest = between ++ y :: after →
      (∀ z ∈ between, z.2.elapsed < x.2.elapsed + millis graceMs) →
      x.2.elapsed + millis graceMs ≤ y.2.elapsed → Signal.sigkill ∈ y.1.signals graceMs y.2
  marked : (trace.filter (fun x => x.1.marks x.2)).length ≤ 1
  timeout : ∀ now elapsed usage cancelRequested memoryPeakBytes oomKilled,
    (last.exitCompletion now elapsed usage cancelRequested memoryPeakBytes oomKilled).error.map
        RuntimeErrorInfo.code = some .timeout ↔ ∃ x ∈ trace, x.1.marks x.2 = true
  cancelled : (∀ x ∈ trace, x.1.marks x.2 = false) →
    ∀ now elapsed usage cancelRequested memoryPeakBytes oomKilled,
      (last.exitCompletion now elapsed usage cancelRequested memoryPeakBytes oomKilled).status =
          .cancelled ↔
        (∃ x ∈ trace, x.2.cancelRequested = true) ∨ cancelRequested = true

namespace Supervision

variable {graceMs : ℕ} {plan : ExecutionPlan} {trace : List (Supervision × Poll)}
  {last : Supervision} {before after : List (Supervision × Poll)} {x : Supervision × Poll}

theorem trigger_of_signals (h : PollRun graceMs plan (before ++ x :: after) last)
    (horder : InOrder (before ++ x :: after)) (hsignals : x.1.signals graceMs x.2 ≠ []) :
    ∃ y ∈ before ++ [x],
      millis plan.resourceEnforcement.wallTimeMs ≤ y.2.elapsed ∨ y.2.cancelRequested = true := by
  have hfires : x.1.alarm.fires (millis graceMs) (x.1.toTick x.2) ≠ [] := by
    intro hnone
    rw [signals_eq_fires (startedBy_of_mem h horder (by simp)), hnone] at hsignals
    exact hsignals rfl
  obtain ⟨y', hy', htrigger⟩ := Alarm.trigger_of_fires (alarm_run_before h horder) hfires
  rw [map_toAlarm_concat] at hy'
  obtain ⟨y, hy, rfl⟩ := List.mem_map.mp hy'
  refine ⟨y, hy, ?_⟩
  have hplan : y.1.plan = plan := by
    refine plan_of_mem h ?_
    rw [List.append_cons]
    exact List.mem_append_left _ hy
  rw [← hplan]
  rcases Bool.or_eq_true_iff.mp htrigger with hdue | hflag
  · exact .inl (of_decide_eq_true hdue)
  · exact .inr hflag

theorem sigterm_before_sigkill (h : PollRun graceMs plan (before ++ x :: after) last)
    (horder : InOrder (before ++ x :: after)) (hkill : Signal.sigkill ∈ x.1.signals graceMs x.2) :
    ∃ y ∈ before ++ [x], Signal.sigterm ∈ y.1.signals graceMs y.2 ∧
      y.2.elapsed + millis graceMs ≤ x.2.elapsed := by
  have hsecond := (mem_signals_iff (startedBy_of_mem h horder (by simp)) .second).mp hkill
  have hprefix : InOrder (before ++ [x]) := by
    rw [List.append_cons] at horder
    exact (List.pairwise_append.mp horder).1
  obtain ⟨y', hy', hfirst, hdelay⟩ := Alarm.first_before_second (alarm_run_before h horder)
    (map_toAlarm_concat before x ▸ alarm_inOrder hprefix) hsecond
  rw [map_toAlarm_concat] at hy'
  obtain ⟨y, hy, rfl⟩ := List.mem_map.mp hy'
  refine ⟨y, hy, ?_, hdelay⟩
  have hmem : y ∈ before ++ x :: after := by
    rw [List.append_cons]
    exact List.mem_append_left _ hy
  exact (mem_signals_iff (startedBy_of_mem h horder hmem) .first).mpr hfirst

theorem sigkill_when_due {rest between : List (Supervision × Poll)} {y : Supervision × Poll}
    (h : PollRun graceMs plan (before ++ x :: rest) last)
    (horder : InOrder (before ++ x :: rest)) (hterm : Signal.sigterm ∈ x.1.signals graceMs x.2)
    (hsplit : x :: rest = between ++ y :: after)
    (hwaiting : ∀ z ∈ between, z.2.elapsed < x.2.elapsed + millis graceMs)
    (hdue : x.2.elapsed + millis graceMs ≤ y.2.elapsed) :
    Signal.sigkill ∈ y.1.signals graceMs y.2 := by
  have hfirst := (mem_signals_iff (startedBy_of_mem h horder (by simp)) .first).mp hterm
  have hrun := alarm_run h horder
  rw [List.map_append, List.map_cons] at hrun
  have hsplit' : toAlarm x :: rest.map toAlarm =
      between.map toAlarm ++ toAlarm y :: after.map toAlarm := by
    rw [← List.map_cons, hsplit, List.map_append, List.map_cons]
  have hwaiting' : ∀ z ∈ between.map toAlarm, z.2.time < (toAlarm x).2.time + millis graceMs := by
    intro z' hz'
    obtain ⟨z, hz, rfl⟩ := List.mem_map.mp hz'
    exact hwaiting z hz
  have hsecond := Alarm.second_fires_when_due hrun hfirst hsplit' hwaiting' hdue
  have hmem : y ∈ before ++ x :: rest := by
    rw [hsplit]
    simp
  exact (mem_signals_iff (startedBy_of_mem h horder hmem) .second).mpr hsecond

end Supervision

/-- The supervisor sends its signals once, in order, for a cause and on time; it
records a timeout once, and the completion says what its ticks have seen. -/
theorem supervision_keeps_signal_protocol (graceMs : ℕ) (plan : ExecutionPlan)
    (trace : List (Supervision × Poll)) (last : Supervision)
    (hrun : Supervision.PollRun graceMs plan trace last)
    (horder : trace.Pairwise (fun x y => x.2.elapsed ≤ y.2.elapsed)) :
    SignalProtocol graceMs plan trace last where
  sent := Supervision.signals_of_run hrun horder
  caused := by
    rintro before x after rfl hsignals
    exact Supervision.trigger_of_signals hrun horder hsignals
  spaced := by
    rintro before x after rfl hkill
    exact Supervision.sigterm_before_sigkill hrun horder hkill
  due := by
    rintro before x rest rfl hterm between y after hsplit hwaiting hdue
    exact Supervision.sigkill_when_due hrun horder hterm hsplit hwaiting hdue
  marked := by
    rw [Supervision.marks_of_run hrun]
    split <;> omega
  timeout := by
    intro now elapsed usage cancelRequested memoryPeakBytes oomKilled
    rw [← Supervision.timeoutStarted_iff hrun]
    exact classify_timeout_iff
  cancelled := by
    intro hmarks now elapsed usage cancelRequested memoryPeakBytes oomKilled
    have htimeout : last.timeoutStarted.isSome = false := by
      rw [Bool.eq_false_iff, ne_eq, Supervision.timeoutStarted_iff hrun]
      rintro ⟨x, hx, hmarked⟩
      rw [hmarks x hx] at hmarked
      cases hmarked
    rw [← Supervision.cancelStarted_iff hrun, ← Bool.or_eq_true]
    exact classify_cancelled_iff htimeout

private def examplePlan : ExecutionPlan := .legacy {} { wallTimeMs := 600 }

/-- The flag is set at 300 ms and the wall time is over before the grace period is. -/
private def examplePolls : List Poll :=
  [⟨0, false⟩, ⟨millis 300, true⟩, ⟨millis 700, true⟩, ⟨millis 900, true⟩]

theorem supervision_keeps_signal_protocol_of_both_triggers : ∃ trace last,
    trace.map Prod.snd = examplePolls ∧ SignalProtocol 500 examplePlan trace last := by
  obtain ⟨last, hexec⟩ : ∃ last, Runs.exec (fun s poll => some (Supervision.tick 500 s poll))
      { plan := examplePlan } examplePolls = some last := ⟨_, rfl⟩
  obtain ⟨trace, hrun, hpolls⟩ := Runs.run_of_exec hexec
  refine ⟨trace, last, hpolls, supervision_keeps_signal_protocol _ _ trace last hrun ?_⟩
  have horder : (trace.map Prod.snd).Pairwise (fun a b => a.elapsed ≤ b.elapsed) := by
    rw [hpolls]
    decide
  rw [List.pairwise_map] at horder
  exact horder

end ExecgoRuntime
