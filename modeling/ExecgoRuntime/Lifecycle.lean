import ExecgoRuntime.Steps

/-!
The status of a row over its life. A terminal status should be final, and the
event stream should hold one terminal event, the one of the status, from then
on. Of the six methods that write the status only two look at the status they
overwrite. The theorems name the writes that break the two properties and show
that runs without them, and only these, keep them.
-/
namespace ExecgoRuntime

open KeyedTable

/-- A write to a terminal row does not start it and completes it only as it is. -/
def keepsTerminal (write : TaskWrite) (row : TaskRecord) : Prop :=
  match write with
  | .markStarted _ _ _ => row.status.isTerminal = false
  | .completeTask update => row.status.isTerminal = true → update.status = row.status
  | _ => True

theorem status_effect_iff {row : TaskRecord} (write : TaskWrite) (now : Timestamp) :
    (row.status.isTerminal = true → (write.effect now row).status = row.status) ↔
      keepsTerminal write row := by
  have hother : ∀ status : TaskStatus, status.isTerminal = false →
      row.status.isTerminal = true → row.status ≠ status := by
    rintro status hstatus hterminal rfl
    rw [hstatus] at hterminal
    cases hterminal
  cases write with
  | markStarted pid pgid scriptPath =>
    constructor
    · intro h
      change row.status.isTerminal = false
      cases hterminal : row.status.isTerminal with
      | false => rfl
      | true => exact absurd (h hterminal).symm (hother .running rfl hterminal)
    · intro hlive hterminal
      rw [hlive] at hterminal
      cases hterminal
  | completeTask update => exact Iff.rfl
  | markDispatched shimPid =>
    refine iff_of_true (fun hterminal => ?_) trivial
    simp [TaskWrite.effect, TaskRecord.setDispatched, hother .accepted rfl hterminal]
  | cancelAcceptedTask error =>
    refine iff_of_true (fun hterminal => ?_) trivial
    simp [TaskWrite.effect, TaskWrite.setCancelled_eq_self (hother .accepted rfl hterminal)]
  | releaseResources message =>
    refine iff_of_true (fun _ => ?_) trivial
    simp only [TaskWrite.effect]
    split <;> rfl
  | markRecovered =>
    refine iff_of_true (fun hterminal => ?_) trivial
    simp [TaskWrite.effect, TaskRecord.setRecovered, hother .running rfl hterminal]
  | reserveResources _ _ => exact iff_of_true (fun _ => rfl) trivial
  | setCancelRequested => exact iff_of_true (fun _ => rfl) trivial
  | markTimeoutTriggered => exact iff_of_true (fun _ => rfl) trivial

namespace World

/-- A row that is terminal in `s` and still there in `t` has the same status in both. -/
def StatusKept (s t : World) : Prop :=
  ∀ taskId row row', s.db.tasks.find taskId = some row → t.db.tasks.find taskId = some row' →
    row.status.isTerminal = true → row'.status = row.status

/-- A terminal status stays the same through every stretch of states in which
the row is not deleted. -/
def Absorbing (states : List World) : Prop :=
  ∀ segment, segment <:+: states → ∀ taskId,
    (∀ s ∈ segment, (s.db.tasks.find taskId).isSome = true) →
    ∀ s ∈ segment.head?, ∀ t ∈ segment.getLast?, ∀ row row',
      s.db.tasks.find taskId = some row → t.db.tasks.find taskId = some row' →
      row.status.isTerminal = true → row'.status = row.status

private theorem status_of_chain {taskId : TaskId} (segment : List World)
    (hchain : segment.IsChain StatusKept)
    (hpresent : ∀ s ∈ segment, (s.db.tasks.find taskId).isSome = true) :
    ∀ s ∈ segment.head?, ∀ t ∈ segment.getLast?, ∀ row row',
      s.db.tasks.find taskId = some row → t.db.tasks.find taskId = some row' →
      row.status.isTerminal = true → row'.status = row.status := by
  induction segment with
  | nil => simp
  | cons s rest ih =>
    rintro _ ⟨⟩ t ht row row' hrow hrow' hterminal
    cases rest with
    | nil =>
      have hsame : t = s := (Option.some.inj ht).symm
      rw [hsame, hrow] at hrow'
      cases hrow'
      rfl
    | cons next rest =>
      obtain ⟨hpair, hrest⟩ := List.isChain_cons_cons.mp hchain
      obtain ⟨mid, hmid⟩ := Option.isSome_iff_exists.mp (hpresent next (by simp))
      have hstatus : mid.status = row.status := hpair taskId row mid hrow hmid hterminal
      rw [List.getLast?_cons_cons] at ht
      rw [← hstatus]
      exact ih hrest (fun s hs => hpresent s (List.mem_cons_of_mem _ hs)) next rfl t ht mid row'
        hmid hrow' (hstatus ▸ hterminal)

theorem absorbing_iff (states : List World) : Absorbing states ↔ states.IsChain StatusKept := by
  constructor
  · intro h
    rw [List.isChain_iff_forall_rel_of_append_cons_cons]
    rintro s t earlier later rfl taskId row row' hrow hrow' hterminal
    refine h [s, t] ⟨earlier, later, by simp⟩ taskId ?_ s rfl t rfl row row' hrow hrow' hterminal
    intro u hu
    rcases List.mem_pair.mp hu with rfl | rfl
    · rw [hrow]
      rfl
    · rw [hrow']
      rfl
  · intro h segment hsegment taskId hpresent
    have hchain := h.infix hsegment
    exact status_of_chain segment hchain hpresent

/-- What one step does to a terminal status. -/
theorem statusKept_step_iff {svc : RuntimeService} {w w' : World} {e : Event}
    (hstep : w.step svc e = some w') : StatusKept w w' ↔ w.Writes keepsTerminal svc e := by
  have hother : (∀ taskId write, w.committed svc e ≠ some (.write taskId write)) →
      (∀ taskId row row', w.db.tasks.find taskId = some row →
        w'.db.tasks.find taskId = some row' → row' = row) →
      (StatusKept w w' ↔ w.Writes keepsTerminal svc e) := by
    intro hne hsame
    refine iff_of_true ?_ (fun taskId write _ hcommitted _ => absurd hcommitted (hne taskId write))
    intro taskId row row' hrow hrow' _
    rw [hsame taskId row row' hrow hrow']
  rcases step_db hstep with ⟨hnone, hdb⟩ | ⟨call, hcall, hexec⟩
  · refine hother (by simp [hnone]) ?_
    intro taskId row row' hrow hrow'
    rw [hdb, hrow] at hrow'
    exact (Option.some.inj hrow').symm
  · cases call with
    | read =>
      have hsame : w.db = w'.db := Except.ok.inj hexec
      refine hother (by simp [hcall]) ?_
      intro taskId row row' hrow hrow'
      rw [← hsame, hrow] at hrow'
      exact (Option.some.inj hrow').symm
    | insertTask new =>
      obtain ⟨hfree, hleaves⟩ := Db.insertTask_spec hexec
      refine hother (by simp [hcall]) ?_
      intro taskId row row' hrow hrow'
      rw [hleaves.tasks, Table.find_insert] at hrow'
      split at hrow'
      · rename_i heq
        rw [heq, hfree] at hrow
        cases hrow
      · rw [hrow] at hrow'
        exact (Option.some.inj hrow').symm
    | deleteTask gone =>
      refine hother (by simp [hcall]) ?_
      intro taskId row row' hrow hrow'
      rw [(Db.deleteTask_spec hexec).1, Table.find_erase] at hrow'
      split at hrow'
      · cases hrow'
      · rw [hrow] at hrow'
        exact (Option.some.inj hrow').symm
    | write written write =>
      constructor
      · intro hkept taskId write' row hcommitted hrow
        rw [hcall] at hcommitted
        cases hcommitted
        rw [← status_effect_iff write e.now]
        refine hkept written row _ hrow ?_
        rw [Db.find_write hexec, if_pos rfl, hrow]
        rfl
      · intro hwrites taskId row row' hrow hrow' hterminal
        rw [Db.find_write hexec] at hrow'
        split at hrow'
        · rename_i heq
          subst heq
          rw [hrow] at hrow'
          cases hrow'
          exact (status_effect_iff write e.now).mpr (hwrites taskId write row hcall hrow) hterminal
        · rw [hrow] at hrow'
          cases hrow'
          rfl

/-- Terminal statuses are final in a run exactly when the run starts no terminal
row and completes none with another status. -/
theorem absorbing_visited_iff {svc : RuntimeService} {trace : List (World × Event)} {last : World}
    (hrun : Run svc init trace last) :
    Absorbing (Runs.visited trace last) ↔ ∀ x ∈ trace, x.1.Writes keepsTerminal svc x.2 := by
  rw [absorbing_iff]
  exact hrun.isChain_visited_iff (fun _ _ _ hstep => statusKept_step_iff hstep)

/-- A task that is killed while it waits, and another that runs to its end. -/
theorem absorbing_visited_iff_of_two_tasks :
    ∃ trace last, Run (smallService ⟨1, none, none⟩) init trace last ∧
      trace.map Prod.snd =
        events (submitActions 0 (commandRequest "a") ++ dispatchActions 10 ++
          submitActions 1 (commandRequest "b") ++
          [.receiveKill "b" none, .kill 0 none, .kill 0 none, .kill 0 none, .kill 0 none] ++
          shimActions 0 11) ∧
      (Absorbing (Runs.visited trace last) ↔
        ∀ x ∈ trace, x.1.Writes keepsTerminal (smallService ⟨1, none, none⟩) x.2) := by
  have hexec : (execute (smallService ⟨1, none, none⟩) (fun _ _ => true)
      (events (submitActions 0 (commandRequest "a") ++ dispatchActions 10 ++
        submitActions 1 (commandRequest "b") ++
        [.receiveKill "b" none, .kill 0 none, .kill 0 none, .kill 0 none, .kill 0 none] ++
        shimActions 0 11))).any (fun _ => true) = true := by decide +kernel
  obtain ⟨trace, last, hrun, hlabels, _, _⟩ := Runs.exists_run_of_exec hexec
  exact ⟨trace, last, hrun, hlabels, absorbing_visited_iff hrun⟩

theorem not_absorbing_of_step {trace : List (World × Event)} {w w' : World} {e : Event}
    {taskId : TaskId} {row row' : TaskRecord} (hrow : w.db.tasks.find taskId = some row)
    (hrow' : w'.db.tasks.find taskId = some row') (hterminal : row.status.isTerminal = true)
    (hstatus : row'.status ≠ row.status) :
    ¬ Absorbing (Runs.visited (trace ++ [(w, e)]) w') := by
  intro h
  refine hstatus (h [w, w'] ⟨trace.map Prod.fst, [], by simp [Runs.visited]⟩ taskId ?_ w rfl w' rfl
    row row' hrow hrow' hterminal)
  intro s hs
  rcases List.mem_pair.mp hs with rfl | rfl
  · rw [hrow]
    rfl
  · rw [hrow']
    rfl

/-- A shim that loaded its row before a kill ended it starts the row again. -/
theorem started_after_kill_not_absorbing :
    ¬ ∀ svc trace last, Run svc init trace last → (∀ x ∈ trace, x.2.plain = true) →
      Absorbing (Runs.visited trace last) := by
  intro hclaim
  have hexec : (execute (smallService ⟨1, none, none⟩) (fun _ e => e.plain)
      (events (submitActions 0 (commandRequest "a") ++
        [.dispatch (.spawned 10), .dispatch (.spawned 10), .dispatch (.spawned 10),
          .dispatch (.spawned 10), .shim 0 .proceed, .receiveKill "a" none, .kill 0 none,
          .kill 0 none, .kill 0 none, .kill 0 none, .shim 0 (.spawned 11)]))).any (fun w =>
      (w.db.tasks.find "a").any (fun row => decide (row.status = .cancelled)) &&
        (w.step (smallService ⟨1, none, none⟩) { action := .shim 0 .proceed }).any (fun w' =>
          (w'.db.tasks.find "a").any (fun row => decide (row.status = .running)))) = true := by
    decide
  obtain ⟨trace, w, hrun, _, hplain, htest⟩ := Runs.exists_run_of_exec hexec
  obtain ⟨hcancelled, hstarted⟩ := Bool.and_eq_true_iff.mp htest
  obtain ⟨row, hrow, hstatus⟩ := (Option.any_eq_true _ _).mp hcancelled
  obtain ⟨w', hstep, hrunning⟩ := (Option.any_eq_true _ _).mp hstarted
  obtain ⟨row', hrow', hstatus'⟩ := (Option.any_eq_true _ _).mp hrunning
  rw [decide_eq_true_eq] at hstatus hstatus'
  refine not_absorbing_of_step hrow hrow' (by rw [hstatus]; rfl) (by rw [hstatus, hstatus']; simp)
    (hclaim _ _ w' (hrun.snoc hstep) ?_)
  intro x hx
  rcases List.mem_append.mp hx with hold | hnew
  · exact hplain x hold
  · rw [List.mem_singleton.mp hnew]
    rfl

end World

def isTerminalEvent : EventType → Bool
  | .finished | .failed | .cancelled => true
  | _ => false

/-- The event that names a status, for a terminal one. -/
def terminalEvent : TaskStatus → Option EventType
  | .success => some .finished
  | .failed => some .failed
  | .cancelled => some .cancelled
  | .accepted | .running => none

/-- The stream has the terminal event of the status, once, and no other; before
the end it has none. -/
def NamesStatus (row : TaskRecord) (events : List EventType) : Prop :=
  events.filter isTerminalEvent = (terminalEvent row.status).toList

/-- A cancellation hits an accepted row; a completion and a start hit one that is
not terminal. -/
def endsOnce (write : TaskWrite) (row : TaskRecord) : Prop :=
  match write with
  | .cancelAcceptedTask _ => row.status = .accepted
  | .completeTask _ | .markStarted _ _ _ => row.status.isTerminal = false
  | _ => True

theorem terminalEvent_eq_none_iff (status : TaskStatus) :
    terminalEvent status = none ↔ status.isTerminal = false := by
  cases status <;> decide

theorem terminalEvent_completion (update : CompletionUpdate) :
    terminalEvent update.status = some (Db.completionEvent update.status) := by
  have hterminal := update.terminal
  cases hstatus : update.status <;> rw [hstatus] at hterminal <;> first | rfl | cases hterminal

theorem filter_terminal_release (row : TaskRecord) :
    (TaskWrite.releaseEvents row).filter isTerminalEvent = [] := by
  unfold TaskWrite.releaseEvents
  split <;> rfl

namespace NamesStatus

variable {row row' : TaskRecord} {events types : List EventType}

theorem append_none (h : NamesStatus row events) (htypes : types.filter isTerminalEvent = [])
    (hstatus : terminalEvent row'.status = terminalEvent row.status) :
    NamesStatus row' (events ++ types) := by
  unfold NamesStatus at h ⊢
  rw [List.filter_append, htypes, List.append_nil, h, hstatus]

/-- A terminal event is the only one exactly if it names the new status and the
row was not terminal. -/
theorem append_one_iff (h : NamesStatus row events) {event : EventType}
    (htypes : types.filter isTerminalEvent = [event]) :
    NamesStatus row' (events ++ types) ↔
      row.status.isTerminal = false ∧ terminalEvent row'.status = some event := by
  unfold NamesStatus at h ⊢
  rw [List.filter_append, htypes, h, ← terminalEvent_eq_none_iff]
  cases terminalEvent row.status with
  | none =>
    cases terminalEvent row'.status with
    | none => simp
    | some named => simpa using eq_comm
  | some old => cases terminalEvent row'.status <;> simp

theorem insert (new : NewTaskRecord) (now : Timestamp) :
    NamesStatus (new.toRow now) (Db.insertEvents new) := by
  unfold NamesStatus Db.insertEvents
  split <;> rfl

end NamesStatus

theorem namesStatus_write_iff {row : TaskRecord} {events : List EventType} (write : TaskWrite)
    (now : Timestamp) (h : NamesStatus row events) :
    NamesStatus (write.effect now row) (events ++ write.emits row) ↔ endsOnce write row := by
  have hrelease : ∀ event, isTerminalEvent event = true →
      (TaskWrite.releaseEvents row ++ [event]).filter isTerminalEvent = [event] := by
    intro event hevent
    rw [List.filter_append, filter_terminal_release, List.nil_append]
    simp [hevent]
  cases write with
  | markStarted pid pgid scriptPath =>
    change NamesStatus (row.setStarted pid pgid scriptPath now) (events ++ [.started]) ↔
      row.status.isTerminal = false
    rw [← terminalEvent_eq_none_iff]
    unfold NamesStatus at h ⊢
    rw [List.filter_append, h]
    cases terminalEvent row.status <;> simp [TaskRecord.setStarted, terminalEvent, isTerminalEvent]
  | cancelAcceptedTask error =>
    change NamesStatus (row.setCancelled error now)
      (events ++ (TaskWrite.releaseEvents row ++ [.cancelled])) ↔ row.status = .accepted
    rw [h.append_one_iff (hrelease .cancelled rfl)]
    by_cases haccepted : row.status = .accepted
    · simp [TaskRecord.setCancelled, haccepted, TaskStatus.isTerminal, terminalEvent]
    · rw [TaskWrite.setCancelled_eq_self haccepted]
      refine iff_of_false ?_ haccepted
      rintro ⟨hlive, hnamed⟩
      rw [(terminalEvent_eq_none_iff _).mpr hlive] at hnamed
      cases hnamed
  | completeTask update =>
    have hevent : isTerminalEvent (Db.completionEvent update.status) = true := by
      cases update.status <;> rfl
    change NamesStatus (row.setCompleted update)
      (events ++ (TaskWrite.releaseEvents row ++ [Db.completionEvent update.status])) ↔
        row.status.isTerminal = false
    rw [h.append_one_iff (hrelease _ hevent)]
    exact and_iff_left (terminalEvent_completion update)
  | markDispatched shimPid =>
    refine iff_of_true (h.append_none rfl ?_) trivial
    simp only [TaskWrite.effect, TaskRecord.setDispatched]
    split
    · rename_i haccepted
      rw [haccepted]
      rfl
    · rfl
  | releaseResources message =>
    refine iff_of_true (h.append_none (filter_terminal_release row) ?_) trivial
    simp only [TaskWrite.effect]
    split <;> rfl
  | markRecovered =>
    refine iff_of_true (h.append_none rfl ?_) trivial
    simp only [TaskWrite.effect, TaskRecord.setRecovered]
    split <;> rfl
  | reserveResources _ _ => exact iff_of_true (h.append_none rfl rfl) trivial
  | setCancelRequested => exact iff_of_true (h.append_none rfl rfl) trivial
  | markTimeoutTriggered => exact iff_of_true (h.append_none rfl rfl) trivial

namespace World

/-- The event stream of every row names its status. -/
def StatusNamed (w : World) : Prop :=
  ∀ taskId row, w.db.tasks.find taskId = some row → NamesStatus row (w.db.stream taskId)

/-- The event streams name the statuses throughout a run exactly when the run
cancels accepted rows only and completes and starts no terminal row. -/
theorem status_named_iff {svc : RuntimeService} {trace : List (World × Event)} {last : World}
    (hrun : Run svc init trace last) :
    (∀ s ∈ Runs.visited trace last, s.StatusNamed) ↔
      ∀ x ∈ trace, x.1.Writes endsOnce svc x.2 :=
  run_eachTask_iff (J := NamesStatus) NamesStatus.insert
    (fun write now _ _ h => namesStatus_write_iff write now h) hrun

/-- A task whose shim cannot be spawned. -/
theorem status_named_iff_of_failed_spawn :
    ∃ trace last, Run (smallService ⟨1, none, none⟩) init trace last ∧
      trace.map Prod.snd =
        events (submitActions 0 (commandRequest "a") ++
          List.replicate 7 (.dispatch (.spawnFailed "ENOMEM"))) ∧
      ((∀ s ∈ Runs.visited trace last, s.StatusNamed) ↔
        ∀ x ∈ trace, x.1.Writes endsOnce (smallService ⟨1, none, none⟩) x.2) := by
  have hexec : (execute (smallService ⟨1, none, none⟩) (fun _ _ => true)
      (events (submitActions 0 (commandRequest "a") ++
        List.replicate 7 (.dispatch (.spawnFailed "ENOMEM"))))).any (fun _ => true) = true := by
    decide
  obtain ⟨trace, last, hrun, hlabels, _, _⟩ := Runs.exists_run_of_exec hexec
  exact ⟨trace, last, hrun, hlabels, status_named_iff hrun⟩

/-- A kill that read the row as accepted appends its terminal event to a row that
the dispatcher has made running. -/
theorem kill_during_dispatch_unnamed :
    ¬ ∀ svc trace last, Run svc init trace last → (∀ x ∈ trace, x.2.plain = true) →
      ∀ s ∈ Runs.visited trace last, s.StatusNamed := by
  intro hclaim
  have hexec : (execute (smallService ⟨1, none, none⟩) (fun _ e => e.plain)
      (events (submitActions 0 (commandRequest "a") ++
        [.dispatch (.spawned 10), .dispatch (.spawned 10), .dispatch (.spawned 10),
          .dispatch (.spawned 10), .receiveKill "a" none, .kill 0 none, .kill 0 none,
          .kill 0 none, .dispatch (.spawned 10), .kill 0 none]))).any (fun w =>
        (w.db.tasks.find "a").any (fun row => decide (row.status = .running) &&
          decide ((w.db.stream "a").filter isTerminalEvent = [.cancelled]))) = true := by
    decide
  obtain ⟨trace, last, row, hrun, _, hplain, hrow, htest⟩ :=
    exists_run_to_row (p := fun row events => decide (row.status = .running) &&
      decide (events.filter isTerminalEvent = [.cancelled])) hexec
  obtain ⟨hrunning, hcancelled⟩ := Bool.and_eq_true_iff.mp htest
  have hnamed :=
    hclaim _ trace last hrun hplain last (Runs.last_mem_visited trace last) "a" row hrow
  unfold NamesStatus at hnamed
  rw [of_decide_eq_true hrunning, of_decide_eq_true hcancelled] at hnamed
  cases hnamed

end World

end ExecgoRuntime
