import ExecgoRuntime.Steps
import Mathlib.Data.List.Chain

/-!
The reservation column of a row over its life. Two properties are wanted: a
terminal row holds no reservation, and the resource events of a row account for
its reservation. Both are lost in one way each, by a write that does not look
at the row it hits: a reservation made for a row that a kill has just ended, and
a cancellation that logs a release its guarded update did not perform. Over runs
the properties hold exactly as long as these writes do not happen.
-/
namespace ExecgoRuntime

open KeyedTable

/-- A reservation is made for a row that is not terminal. -/
def reservesLive (write : TaskWrite) (row : TaskRecord) : Prop :=
  match write with
  | .reserveResources _ _ => row.status.isTerminal = false
  | _ => True

/-- The reservation of a terminal row is not active. -/
def Unleaked (row : TaskRecord) (_ : List EventType) : Prop :=
  row.status.isTerminal = true → row.hasActiveReservation = false

theorem unleaked_write_iff {row : TaskRecord} {events types : List EventType} (write : TaskWrite)
    (now : Timestamp) (h : Unleaked row events) :
    Unleaked (write.effect now row) types ↔ reservesLive write row := by
  cases write with
  | reserveResources reservation message =>
    simp [Unleaked, reservesLive, TaskWrite.effect, TaskRecord.setReserved,
      TaskRecord.hasActiveReservation]
  | markDispatched shimPid =>
    refine iff_of_true ?_ trivial
    simp only [TaskWrite.effect, TaskRecord.setDispatched]
    split
    · intro hterminal
      cases hterminal
    · exact h
  | markStarted pid pgid scriptPath =>
    refine iff_of_true ?_ trivial
    intro hterminal
    cases hterminal
  | releaseResources message =>
    refine iff_of_true ?_ trivial
    intro hterminal
    simp only [TaskWrite.effect]
    split
    · exact TaskWrite.setReleased_idle now row
    · rename_i hidle
      simpa using hidle
  | cancelAcceptedTask error =>
    refine iff_of_true ?_ trivial
    intro hterminal
    by_cases haccepted : row.status = .accepted
    · exact TaskWrite.setCancelled_idle haccepted error now
    · simp only [TaskWrite.effect, TaskWrite.setCancelled_eq_self haccepted] at hterminal ⊢
      exact h hterminal
  | completeTask update =>
    exact iff_of_true (fun _ => TaskWrite.setCompleted_idle update row) trivial
  | markRecovered =>
    refine iff_of_true ?_ trivial
    simp only [TaskWrite.effect, TaskRecord.setRecovered]
    split <;> exact h
  | setCancelRequested => exact iff_of_true h trivial
  | markTimeoutTriggered => exact iff_of_true h trivial

namespace World

/-- No terminal row has an active reservation. -/
def NoLeak (w : World) : Prop :=
  ∀ taskId row, w.db.tasks.find taskId = some row → row.status.isTerminal = true →
    row.hasActiveReservation = false

/-- No row is leaked in a run exactly when every reservation the run commits is
made for a row that is not terminal. -/
theorem no_leak_iff {svc : RuntimeService} {trace : List (World × Event)} {last : World}
    (hrun : Run svc init trace last) :
    (∀ s ∈ Runs.visited trace last, s.NoLeak) ↔ ∀ x ∈ trace, x.1.Writes reservesLive svc x.2 :=
  run_eachTask_iff (J := Unleaked)
    (fun _ _ hterminal => by cases hterminal)
    (fun write now _ _ h => unleaked_write_iff write now h) hrun

/-- A task that runs to its end. -/
theorem no_leak_iff_of_one_task :
    ∃ trace last, Run (smallService ⟨1, none, none⟩) init trace last ∧
      trace.map Prod.snd =
        events (submitActions 0 (commandRequest "a") ++ dispatchActions 10 ++ shimActions 0 11) ∧
      ((∀ s ∈ Runs.visited trace last, s.NoLeak) ↔
        ∀ x ∈ trace, x.1.Writes reservesLive (smallService ⟨1, none, none⟩) x.2) := by
  have hexec : (execute (smallService ⟨1, none, none⟩) (fun _ _ => true)
      (events (submitActions 0 (commandRequest "a") ++ dispatchActions 10 ++
        shimActions 0 11))).any (fun _ => true) = true := by decide +kernel
  obtain ⟨trace, last, hrun, hlabels, _, _⟩ := Runs.exists_run_of_exec hexec
  exact ⟨trace, last, hrun, hlabels, no_leak_iff hrun⟩

/-- A kill that ends a task between the dispatcher's snapshot and its reservation. -/
theorem kill_before_reserve_leaks :
    ¬ ∀ svc trace last, Run svc init trace last → (∀ x ∈ trace, x.2.plain = true) →
      ∀ s ∈ Runs.visited trace last, s.NoLeak := by
  intro hclaim
  have hexec : (execute (smallService ⟨1, none, none⟩) (fun _ e => e.plain)
      (events (submitActions 0 (commandRequest "a") ++
        [.receiveKill "a" none, .kill 0 none, .dispatch (.spawned 10), .dispatch (.spawned 10),
          .kill 0 none, .kill 0 none, .kill 0 none, .dispatch (.spawned 10)]))).any (fun w =>
        (w.db.tasks.find "a").any (fun row =>
          row.status.isTerminal && row.hasActiveReservation)) = true := by decide +kernel
  obtain ⟨trace, last, row, hrun, _, hplain, hrow, hleaks⟩ :=
    exists_run_to_row (p := fun row _ => row.status.isTerminal && row.hasActiveReservation) hexec
  obtain ⟨hterminal, hactive⟩ := Bool.and_eq_true_iff.mp hleaks
  have hidle := hclaim _ trace last hrun hplain last (Runs.last_mem_visited trace last) "a" row hrow
    hterminal
  rw [hactive] at hidle
  cases hidle

/-- Every listed task that was idle when listed is idle, and none is listed twice. -/
structure PendingIdle (w : World) : Prop where
  nodup : (w.pending.map TaskRecord.taskId).Nodup
  idle : ∀ task ∈ w.pending, task.hasActiveReservation = false →
    ∀ row, w.db.tasks.find task.taskId = some row → row.hasActiveReservation = false

/-- A reservation that a step commits is made for a row without one. -/
theorem PendingIdle.reserves {svc : RuntimeService} {w w' : World} {e : Event}
    (h : PendingIdle w) (hstep : w.step svc e = some w') {taskId : TaskId} {write : TaskWrite}
    {row : TaskRecord} (hcommitted : w.committed svc e = some (.write taskId write))
    (hrow : w.db.tasks.find taskId = some row) (hwrite : write.reserves = true) :
    row.hasActiveReservation = false := by
  obtain ⟨task, hpending, rfl, hidle, _⟩ := step_reserves hstep hcommitted hwrite
  exact h.idle task (by simp [hpending]) hidle row hrow

/-- A row that becomes active was active before or has just been reserved. -/
theorem active_of_step {svc : RuntimeService} {w w' : World} {e : Event}
    (hstep : w.step svc e = some w') {taskId : TaskId} {row' : TaskRecord}
    (hrow' : w'.db.tasks.find taskId = some row') (hactive : row'.hasActiveReservation = true) :
    (∃ row, w.db.tasks.find taskId = some row ∧ row.hasActiveReservation = true) ∨
      ∃ write, w.committed svc e = some (.write taskId write) ∧ write.reserves = true := by
  rcases step_db hstep with ⟨_, hdb⟩ | ⟨call, hcall, hexec⟩
  · rw [hdb] at hrow'
    exact .inl ⟨row', hrow', hactive⟩
  · cases call with
    | read =>
      have hsame : w.db = w'.db := Except.ok.inj hexec
      rw [← hsame] at hrow'
      exact .inl ⟨row', hrow', hactive⟩
    | insertTask new =>
      obtain ⟨hfree, hleaves⟩ := Db.insertTask_spec hexec
      rw [hleaves.tasks, Table.find_insert] at hrow'
      split at hrow'
      · cases hrow'
        cases hactive
      · exact .inl ⟨row', hrow', hactive⟩
    | deleteTask gone =>
      rw [(Db.deleteTask_spec hexec).1, Table.find_erase] at hrow'
      split at hrow'
      · cases hrow'
      · exact .inl ⟨row', hrow', hactive⟩
    | write written write =>
      rw [Db.find_write hexec] at hrow'
      split at hrow'
      · rename_i heq
        obtain ⟨row, hrow, rfl⟩ := Option.map_eq_some_iff.mp hrow'
        subst heq
        cases hreserves : write.reserves with
        | true => exact .inr ⟨write, hcall, hreserves⟩
        | false => exact .inl ⟨row, hrow, TaskWrite.active_of_effect hreserves hactive⟩
      · exact .inl ⟨row', hrow', hactive⟩

theorem PendingIdle.step {svc : RuntimeService} {w w' : World} {e : Event} (h : PendingIdle w)
    (hstep : w.step svc e = some w') : PendingIdle w' := by
  rcases step_pending hstep with hsub | ⟨hdb, hlisted⟩
  · refine ⟨h.nodup.sublist (hsub.map _), ?_⟩
    intro task htask hidle row' hrow'
    by_contra hactive
    rcases active_of_step hstep hrow' (by simpa using hactive) with
      ⟨row, hrow, hold⟩ | ⟨write, hcommitted, hwrite⟩
    · rw [h.idle task (hsub.mem htask) hidle row hrow] at hold
      cases hold
    · obtain ⟨head, hpending, hkey, _⟩ := step_reserves hstep hcommitted hwrite
      have hnodup := h.nodup
      rw [hpending, List.map_cons, List.nodup_cons] at hnodup
      exact hnodup.1 (hkey ▸ List.mem_map_of_mem htask)
  · have hrows : ∀ task ∈ w'.pending, w.db.tasks.find task.taskId = some task := by
      intro task htask
      rcases hlisted with haccepted | hrecovered
      · exact (Db.mem_listAccepted (haccepted ▸ htask)).1
      · exact (Db.mem_listNonTerminal (hrecovered ▸ htask)).1
    constructor
    · rcases hlisted with haccepted | hrecovered
      · rw [haccepted]
        exact Db.listAccepted_nodup _ _
      · rw [hrecovered]
        exact Db.listNonTerminal_nodup _
    · intro task htask hidle row hrow
      rw [hdb, hrows task htask] at hrow
      cases hrow
      exact hidle

theorem pendingIdle_init : PendingIdle init := ⟨List.nodup_nil, by intro task htask; cases htask⟩

end World

def isResourceEvent : EventType → Bool
  | .resourceReserved | .resourceReleased => true
  | _ => false

def resourceEvents (events : List EventType) : List EventType := events.filter isResourceEvent

/-- The resource events alternate, starting with a reservation, and the last one
is a reservation exactly if the row has an active one. -/
structure AccountsFor (row : TaskRecord) (events : List EventType) : Prop where
  starts : (resourceEvents events).head? ≠ some .resourceReleased
  alternates : (resourceEvents events).IsChain (· ≠ ·)
  last : (resourceEvents events).getLast? = some .resourceReserved ↔
    row.hasActiveReservation = true

/-- A cancellation hits an accepted row, or one that holds nothing. -/
def cancelsOwn (write : TaskWrite) (row : TaskRecord) : Prop :=
  match write with
  | .cancelAcceptedTask _ => row.status = .accepted ∨ row.hasActiveReservation = false
  | _ => True

theorem resourceEvents_append (events types : List EventType) :
    resourceEvents (events ++ types) = resourceEvents events ++ resourceEvents types :=
  List.filter_append ..

namespace AccountsFor

variable {row row' : TaskRecord} {events types : List EventType}

theorem append_none (h : AccountsFor row events) (htypes : resourceEvents types = [])
    (hactive : row'.hasActiveReservation = row.hasActiveReservation) :
    AccountsFor row' (events ++ types) := by
  have hsame : resourceEvents (events ++ types) = resourceEvents events := by
    rw [resourceEvents_append, htypes, List.append_nil]
  refine ⟨hsame ▸ h.starts, hsame ▸ h.alternates, ?_⟩
  rw [hsame, hactive]
  exact h.last

/-- One more resource event keeps the account in order unless it repeats the last one,
or is a release at the beginning. -/
private theorem append_one {event : EventType} (h : AccountsFor row events)
    (hfirst : resourceEvents events = [] → event ≠ .resourceReleased)
    (hlast : (resourceEvents events).getLast? ≠ some event)
    (hend : event = .resourceReserved ↔ row'.hasActiveReservation = true)
    (htypes : resourceEvents types = [event]) : AccountsFor row' (events ++ types) := by
  have hsplit : resourceEvents (events ++ types) = resourceEvents events ++ [event] := by
    rw [resourceEvents_append, htypes]
  refine ⟨?_, ?_, ?_⟩
  · have hstarts := h.starts
    rw [hsplit]
    cases hevents : resourceEvents events with
    | nil => simpa using hfirst hevents
    | cons first rest => simpa [hevents] using hstarts
  · rw [hsplit, List.isChain_append]
    refine ⟨h.alternates, List.isChain_singleton _, ?_⟩
    intro x hx y hy heq
    cases hy
    exact hlast (heq ▸ hx)
  · rw [hsplit, List.getLast?_concat, Option.some_inj]
    exact hend

theorem append_reserved (h : AccountsFor row events)
    (htypes : resourceEvents types = [.resourceReserved])
    (hidle : row.hasActiveReservation = false) (hactive : row'.hasActiveReservation = true) :
    AccountsFor row' (events ++ types) := by
  have hlast : (resourceEvents events).getLast? ≠ some .resourceReserved := by
    intro hreserved
    rw [h.last.mp hreserved] at hidle
    cases hidle
  exact h.append_one (fun _ => by simp) hlast (iff_of_true rfl hactive) htypes

/-- A release event is right exactly if the row has given up its reservation. -/
theorem append_released_iff (h : AccountsFor row events)
    (htypes : resourceEvents types = [.resourceReleased])
    (hactive : row.hasActiveReservation = true) :
    AccountsFor row' (events ++ types) ↔ row'.hasActiveReservation = false := by
  have hlast := h.last.mpr hactive
  have hend : (resourceEvents (events ++ types)).getLast? = some .resourceReleased := by
    rw [resourceEvents_append, htypes]
    simp
  constructor
  · intro h'
    by_contra hheld
    have hreserved := h'.last.mpr (by simpa using hheld)
    rw [hend] at hreserved
    cases hreserved
  · intro hidle
    refine h.append_one ?_ ?_ ?_ htypes
    · intro hevents
      rw [hevents] at hlast
      cases hlast
    · rw [hlast]
      simp
    · simp [hidle]

/-- A fresh row has no resource events and no reservation. -/
theorem insert (new : NewTaskRecord) (now : Timestamp) :
    AccountsFor (new.toRow now) (Db.insertEvents new) := by
  have hnone : resourceEvents (Db.insertEvents new) = [] := by
    unfold Db.insertEvents
    split <;> rfl
  refine ⟨by simp [hnone], by simp [hnone], ?_⟩
  rw [hnone]
  simp [NewTaskRecord.toRow, TaskRecord.hasActiveReservation]

end AccountsFor

/-- What a write does to the account of its row; a reservation is assumed to be
made for an idle one. -/
theorem accountsFor_write_iff {row : TaskRecord} {events : List EventType} (write : TaskWrite)
    (now : Timestamp) (hidle : write.reserves = true → row.hasActiveReservation = false)
    (h : AccountsFor row events) :
    AccountsFor (write.effect now row) (events ++ write.emits row) ↔ cancelsOwn write row := by
  have hrelease : ∀ types, resourceEvents types = [] →
      resourceEvents (TaskWrite.releaseEvents row ++ types) =
        if row.hasActiveReservation then [.resourceReleased] else [] := by
    intro types hnone
    rw [resourceEvents_append, hnone, List.append_nil]
    unfold TaskWrite.releaseEvents
    split <;> rfl
  cases write with
  | reserveResources reservation message =>
    exact iff_of_true (h.append_reserved rfl (hidle rfl) rfl) trivial
  | releaseResources message =>
    refine iff_of_true ?_ trivial
    simp only [TaskWrite.effect, TaskWrite.emits]
    have htypes := hrelease [] rfl
    rw [List.append_nil] at htypes
    cases hactive : row.hasActiveReservation with
    | false =>
      rw [hactive] at htypes
      exact h.append_none htypes rfl
    | true =>
      rw [hactive] at htypes
      exact (h.append_released_iff htypes hactive).mpr (TaskWrite.setReleased_idle now row)
  | completeTask update =>
    refine iff_of_true ?_ trivial
    have htypes := hrelease [Db.completionEvent update.status]
      (by cases update.status <;> rfl)
    have hidle' : ((TaskWrite.completeTask update).effect now row).hasActiveReservation = false :=
      TaskWrite.setCompleted_idle update row
    cases hactive : row.hasActiveReservation with
    | false =>
      rw [hactive] at htypes
      exact h.append_none htypes (hidle'.trans hactive.symm)
    | true =>
      rw [hactive] at htypes
      exact (h.append_released_iff htypes hactive).mpr hidle'
  | cancelAcceptedTask error =>
    have htypes := hrelease [.cancelled] rfl
    cases hactive : row.hasActiveReservation with
    | false =>
      rw [hactive] at htypes
      refine iff_of_true (h.append_none htypes ?_) (.inr hactive)
      by_contra hheld
      rw [hactive] at hheld
      have hback := TaskWrite.active_of_effect (w := .cancelAcceptedTask error) rfl
        (by simpa using hheld)
      rw [hactive] at hback
      cases hback
    | true =>
      rw [hactive] at htypes
      refine (h.append_released_iff htypes hactive).trans ?_
      by_cases haccepted : row.status = .accepted
      · exact iff_of_true (TaskWrite.setCancelled_idle haccepted error now)
          (.inl haccepted)
      · refine iff_of_false ?_ ?_
        · simp [TaskWrite.effect, TaskWrite.setCancelled_eq_self haccepted, hactive]
        · intro hown
          rcases hown with hstatus | hidle
          · exact haccepted hstatus
          · rw [hactive] at hidle
            cases hidle
  | markDispatched shimPid =>
    refine iff_of_true (h.append_none rfl ?_) trivial
    simp only [TaskWrite.effect, TaskRecord.setDispatched]
    split <;> rfl
  | markRecovered =>
    refine iff_of_true (h.append_none rfl ?_) trivial
    simp only [TaskWrite.effect, TaskRecord.setRecovered]
    split <;> rfl
  | markStarted pid pgid scriptPath =>
    exact iff_of_true (h.append_none rfl rfl) trivial
  | setCancelRequested =>
    exact iff_of_true (h.append_none rfl rfl) trivial
  | markTimeoutTriggered =>
    exact iff_of_true (h.append_none rfl rfl) trivial

namespace World

/-- The event stream of every row accounts for its reservation. -/
def Accounted (w : World) : Prop :=
  ∀ taskId row, w.db.tasks.find taskId = some row → AccountsFor row (w.db.stream taskId)

/-- The event streams account for the reservations throughout a run exactly when
every cancellation the run commits hits an accepted row or one that holds nothing. -/
theorem accounted_iff {svc : RuntimeService} {trace : List (World × Event)} {last : World}
    (hrun : Run svc init trace last) :
    (∀ s ∈ Runs.visited trace last, s.Accounted) ↔
      ∀ x ∈ trace, x.1.Writes cancelsOwn svc x.2 := by
  have hidle : ∀ s ∈ Runs.visited trace last, PendingIdle s :=
    hrun.invariant_visited (G := fun _ _ => True) pendingIdle_init
      (fun _ _ _ h _ hstep => h.step hstep) (fun _ _ => trivial)
  have hboth : (∀ s ∈ Runs.visited trace last, PendingIdle s ∧ s.Accounted) ↔
      ∀ x ∈ trace, x.1.Writes cancelsOwn svc x.2 := by
    refine hrun.invariant_iff (I := fun s => PendingIdle s ∧ s.Accounted)
      ⟨pendingIdle_init, Db.eachTask_empty AccountsFor⟩ ?_
    rintro w e w' ⟨hpending, haccounted⟩ hstep
    rw [and_iff_right (hpending.step hstep)]
    refine step_eachTask_iff (J := AccountsFor) AccountsFor.insert ?_ haccounted hstep
    intro taskId write row hcommitted hrow hJ
    exact accountsFor_write_iff write e.now (hpending.reserves hstep hcommitted hrow) hJ
  rw [← hboth]
  exact ⟨fun h s hs => ⟨hidle s hs, h s hs⟩, fun h s hs => (h s hs).2⟩

/-- A kill that ends a task while it waits for a slot. -/
theorem accounted_iff_of_waiting_kill :
    ∃ trace last, Run (smallService ⟨1, none, none⟩) init trace last ∧
      trace.map Prod.snd =
        events (submitActions 0 (commandRequest "a") ++ dispatchActions 10 ++
          submitActions 1 (commandRequest "b") ++
          [.receiveKill "b" none, .kill 0 none, .kill 0 none, .kill 0 none, .kill 0 none] ++
          shimActions 0 11) ∧
      ((∀ s ∈ Runs.visited trace last, s.Accounted) ↔
        ∀ x ∈ trace, x.1.Writes cancelsOwn (smallService ⟨1, none, none⟩) x.2) := by
  have hexec : (execute (smallService ⟨1, none, none⟩) (fun _ _ => true)
      (events (submitActions 0 (commandRequest "a") ++ dispatchActions 10 ++
        submitActions 1 (commandRequest "b") ++
        [.receiveKill "b" none, .kill 0 none, .kill 0 none, .kill 0 none, .kill 0 none] ++
        shimActions 0 11))).any (fun _ => true) = true := by decide +kernel
  obtain ⟨trace, last, hrun, hlabels, _, _⟩ := Runs.exists_run_of_exec hexec
  exact ⟨trace, last, hrun, hlabels, accounted_iff hrun⟩

/-- A kill that read the row as accepted cancels it after the dispatcher has
recorded the shim: the release is logged and does not happen. -/
theorem kill_during_dispatch_unaccounted :
    ¬ ∀ svc trace last, Run svc init trace last → (∀ x ∈ trace, x.2.plain = true) →
      ∀ s ∈ Runs.visited trace last, s.Accounted := by
  intro hclaim
  have hexec : (execute (smallService ⟨1, none, none⟩) (fun _ e => e.plain)
      (events (submitActions 0 (commandRequest "a") ++
        [.dispatch (.spawned 10), .dispatch (.spawned 10), .dispatch (.spawned 10),
          .dispatch (.spawned 10), .receiveKill "a" none, .kill 0 none, .kill 0 none,
          .kill 0 none, .dispatch (.spawned 10), .kill 0 none]))).any (fun w =>
        (w.db.tasks.find "a").any (fun row => row.hasActiveReservation &&
          decide ((resourceEvents (w.db.stream "a")).getLast? = some .resourceReleased))) =
        true := by decide
  obtain ⟨trace, last, row, hrun, _, hplain, hrow, htest⟩ :=
    exists_run_to_row (p := fun row events => row.hasActiveReservation &&
      decide ((resourceEvents events).getLast? = some .resourceReleased)) hexec
  obtain ⟨hactive, hreleased⟩ := Bool.and_eq_true_iff.mp htest
  have haccount := hclaim _ trace last hrun hplain last (Runs.last_mem_visited trace last) "a" row
    hrow
  have hreserved := haccount.last.mpr hactive
  rw [of_decide_eq_true hreleased] at hreserved
  cases hreserved

end World

end ExecgoRuntime
