import ExecgoRuntime.Requests

/-!
The signals of the server. `kill_task` signals the processes recorded on the row
that `set_cancel_requested` reads again after its commit, the escalation those of
the row it reads after the grace period. The escalation looks for a running task
first. The kill asks only whether the row is still accepted, so a completion
between its two reads makes it signal the processes of a finished task, whether
the completion comes before the flag or after it.
-/
namespace ExecgoRuntime

/-- The process group or process that `signal_task_termination` signals. -/
def TaskRecord.signalTarget (row : TaskRecord) : Option ℕ := row.pgid.or row.pid

/-- The `SIGTERM` of the next step, with the row it is based on. -/
def KillCall.signal (call : KillCall) : Option (TaskRecord × ℕ) :=
  match call.state with
  | .signalling updated => updated.signalTarget.map (fun target => (updated, target))
  | _ => none

/-- The `SIGKILL` of the next step, with the row that the step reads. -/
def Escalation.signal (db : Db) (escalation : Escalation) : Option (TaskRecord × ℕ) :=
  match escalation.state with
  | .sleeping =>
    (db.tasks.find escalation.taskId).bind (fun task =>
      (escalation.target task).map (fun target => (task, target)))
  | .finished _ => none

theorem Escalation.running_of_signal {db : Db} {escalation : Escalation} {s : TaskRecord × ℕ}
    (h : escalation.signal db = some s) : s.1.status = .running := by
  unfold Escalation.signal at h
  split at h
  · obtain ⟨task, _, hs⟩ := Option.bind_eq_some_iff.mp h
    obtain ⟨target, htarget, rfl⟩ := Option.map_eq_some_iff.mp hs
    unfold Escalation.target at htarget
    split at htarget
    · assumption
    · cases htarget
  · cases h

/-- The row that `set_cancel_requested` reads again in the next step. -/
def KillCall.reread (db : Db) (call : KillCall) : Option TaskRecord :=
  match call.state with
  | .rereading => db.tasks.find call.taskId
  | _ => none

namespace World

/-- The signal that the server sends in this step, with the row it is based on. -/
def signal (w : World) (e : Event) : Option (TaskRecord × ℕ) :=
  match e.action with
  | .kill i _ => w.procs.kills[i]?.bind KillCall.signal
  | .escalate i =>
    if e.failure.isNone then w.procs.escalations[i]?.bind (Escalation.signal w.db) else none
  | _ => none

/-- A signal is based on a row that was running. -/
def SignalsRunning (w : World) (e : Event) : Prop :=
  ∀ s ∈ w.signal e, s.1.status = .running

instance (w : World) (e : Event) : Decidable (w.SignalsRunning e) :=
  inferInstanceAs (Decidable (∀ s ∈ w.signal e, s.1.status = .running))

/-- The row that `set_cancel_requested` returns to a kill in this step. -/
def reread (w : World) (e : Event) : Option TaskRecord :=
  match e.action with
  | .kill i _ => if e.failure.isNone then w.procs.kills[i]?.bind (KillCall.reread w.db) else none
  | _ => none

/-- The row returned to a kill is not one of a finished task with recorded processes. -/
def RereadsLive (w : World) (e : Event) : Prop :=
  ∀ row ∈ w.reread e, row.status.isTerminal = true → row.signalTarget = none

instance (w : World) (e : Event) : Decidable (w.RereadsLive e) :=
  inferInstanceAs (Decidable (∀ row ∈ w.reread e, _ → _))

/-- What the kills are about to signal was running when they read it. -/
def KillsRunning (w : World) : Prop :=
  ∀ kill ∈ w.procs.kills, ∀ s ∈ kill.signal, s.1.status = .running

variable {svc : RuntimeService} {w w' : World} {e : Event}

theorem killsRunning_serve (db : Db) : (serve db).KillsRunning := by
  intro kill hkill
  cases hkill

theorem reread_of_rereading {i : ℕ} {signalError : Option AppError} {kill : KillCall}
    {row : TaskRecord} (haction : e.action = .kill i signalError) (hdone : e.failure = none)
    (hkill : w.procs.kills[i]? = some kill) (hstate : kill.state = .rereading)
    (hrow : w.db.tasks.find kill.taskId = some row) : w.reread e = some row := by
  simp [reread, haction, hdone, hkill, KillCall.reread, hstate, hrow]

/-- The row that a kill reads again is the only source of a new signal. -/
theorem killsRunning_step (h : w.step svc e = some w') (hkills : w.KillsRunning)
    (hlive : w.RereadsLive e) : w'.KillsRunning := by
  intro kill' hkill' s hs
  rcases mem_kills_of_step h hkill' with hold | ⟨_, _, _, rfl⟩ | ⟨i, _, kill, haction, hkill, hstep⟩
  · exact hkills kill' hold s hs
  · cases hs
  · generalize w.committed svc e = c at hstep
    generalize w'.db = db' at hstep
    cases hstep with
    | failed _ _ _ => cases hs
    | authorized _ _ _ =>
      unfold KillCall.authorize at hs
      split at hs
      · cases hs
      · split at hs <;> cases hs
    | flagged _ _ => cases hs
    | @requested _ updated _ hdone hstate hrow =>
      have hread := reread_of_rereading haction hdone hkill hstate hrow
      unfold KillCall.requested KillCall.signal at hs
      by_cases haccepted : updated.status = .accepted
      · rw [if_pos haccepted] at hs
        cases hs
      · rw [if_neg haccepted] at hs
        obtain ⟨target, htarget, rfl⟩ := Option.map_eq_some_iff.mp hs
        have hunfinished : updated.status.isTerminal = false := by
          by_contra hfinished
          rw [hlive updated hread (Bool.eq_true_of_not_eq_false hfinished)] at htarget
          cases htarget
        exact TaskStatus.eq_running haccepted hunfinished
    | cancelled _ _ => cases hs
    | signalled _ _ => cases hs
    | responded _ _ _ => cases hs

theorem signalsRunning_of_kills (hkills : w.KillsRunning) (e : Event) : w.SignalsRunning e := by
  intro s hs
  unfold signal at hs
  split at hs
  · obtain ⟨kill, hkill, hs⟩ := Option.bind_eq_some_iff.mp hs
    exact hkills kill (List.mem_of_getElem? hkill) s hs
  · split at hs
    · obtain ⟨escalation, _, hs⟩ := Option.bind_eq_some_iff.mp hs
      exact Escalation.running_of_signal hs
    · cases hs
  · cases hs

end World

/-- Every signal of the server is based on a running row, if no kill reads a finished
task with recorded processes after it has set the flag. -/
theorem signals_running (svc : RuntimeService) (db : Db) (trace : List (World × Event))
    (last : World) (hrun : World.Run svc (.serve db) trace last)
    (hlive : ∀ x ∈ trace, x.1.RereadsLive x.2) :
    ∀ x ∈ trace, x.1.SignalsRunning x.2 := by
  have hkills := hrun.invariant_visited (World.killsRunning_serve db)
    (fun w e w' hw hg ht => World.killsRunning_step (e := e) ht hw hg) hlive
  intro x hx
  have hvisited : x.1 ∈ Runs.visited trace last :=
    List.mem_append_left _ (List.mem_map_of_mem hx)
  exact World.signalsRunning_of_kills (hkills x.1 hvisited) x.2

/-- The first half of a kill, up to its read of the row. -/
private def killReadActions : List Action :=
  submitActions 0 (commandRequest "a") ++ dispatchActions 10 ++ (shimActions 0 20).take 5 ++
    [.receiveKill "a" none, .kill 0 none]

/-- A kill of a running task, with both of its signals. -/
theorem signals_running_of_kill :
    ∃ trace last, World.Run (smallService ⟨1, none, none⟩) (.serve .empty) trace last ∧
      trace.map Prod.snd =
        events (killReadActions ++ [.kill 0 none, .kill 0 none, .kill 0 none, .escalate 0]) ∧
      ∀ x ∈ trace, x.1.SignalsRunning x.2 := by
  have hexec : (World.execute (smallService ⟨1, none, none⟩)
      (fun w e => decide (w.RereadsLive e))
      (events (killReadActions ++ [.kill 0 none, .kill 0 none, .kill 0 none, .escalate 0]))).any
        (fun _ => true) = true := by decide +kernel
  obtain ⟨trace, last, hrun, hlabels, hcheck, _⟩ := Runs.exists_run_of_exec hexec
  exact ⟨trace, last, hrun, hlabels, signals_running _ _ trace last hrun
    (fun x hx => of_decide_eq_true (hcheck x hx))⟩

/-- The shim completes the task after a kill has set the flag and before it reads the
row again. -/
theorem kill_signals_finished_task :
    ¬ ∀ svc trace last, World.Run svc .init trace last →
      ∀ x ∈ trace, x.1.SignalsRunning x.2 := by
  intro hclaim
  have hexec : (World.execute (smallService ⟨1, none, none⟩) (fun _ _ => true)
      (events (killReadActions ++ [.kill 0 none] ++ ((shimActions 0 20).drop 5).take 3 ++
        [.kill 0 none]))).any
        (fun w => (w.step (smallService ⟨1, none, none⟩) ⟨.kill 0 none, 0, none⟩).isSome &&
          !decide (w.SignalsRunning ⟨.kill 0 none, 0, none⟩)) = true := by decide +kernel
  obtain ⟨trace, last, hrun, _, _, htest⟩ := Runs.exists_run_of_exec hexec
  obtain ⟨hstep, hsignal⟩ := Bool.and_eq_true_iff.mp htest
  obtain ⟨w, hw⟩ := Option.isSome_iff_exists.mp hstep
  have hrunning := hclaim _ _ w (hrun.snoc hw) (last, ⟨.kill 0 none, 0, none⟩) (by simp)
  simp [hrunning] at hsignal

end ExecgoRuntime
