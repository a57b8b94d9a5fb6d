import ExecgoRuntime.Exclusion

/-!
Tasks that a dispatch cycle leaves behind. Between the reservation of a task and
the start of its shim the cycle can return with an error. A task that is then
accepted and reserved is passed over by every later cycle, and no process will
finish it. Two exits leave such a task: the current executable cannot be
resolved, and the failure of a task whose shim did not start cannot be stored.
The history of the cycle at hand, what it has reserved and for whom it has
started a shim, is kept beside the state of the system.
-/
namespace ExecgoRuntime

/-- What the cycle at hand has done so far. -/
structure CycleLog where
  reserved : List TaskId := []
  spawned : List TaskId := []

def StoreCall.reservedTask : StoreCall → Option TaskId
  | .write taskId (.reserveResources _ _) => some taskId
  | _ => none

/-- The log after a step of the dispatcher. A cycle begins with the step that
leaves `idle`. -/
def CycleLog.next (log : CycleLog) (d : Dispatcher) (outcome : SpawnOutcome)
    (committed : Option StoreCall) : CycleLog :=
  match d with
  | .idle => {}
  | _ =>
    { reserved := log.reserved ++ (committed.bind StoreCall.reservedTask).toList
      spawned := log.spawned ++ (d.spawns outcome).toList.map Prod.fst }

theorem CycleLog.of_mem_next {log : CycleLog} {d : Dispatcher} {outcome : SpawnOutcome}
    {committed : Option StoreCall} {taskId : TaskId}
    (h : taskId ∈ (log.next d outcome committed).reserved) :
    d ≠ .idle ∧ (taskId ∈ log.reserved ∨ committed.bind StoreCall.reservedTask = some taskId) := by
  cases d with
  | idle => cases h
  | _ =>
    refine ⟨by simp, ?_⟩
    simpa [next] using h

theorem CycleLog.mem_next {log : CycleLog} {d : Dispatcher} {outcome : SpawnOutcome}
    {committed : Option StoreCall} {taskId : TaskId} (hd : d ≠ .idle)
    (h : taskId ∈ log.spawned ∨ ∃ pid, d.spawns outcome = some (taskId, pid)) :
    taskId ∈ (log.next d outcome committed).spawned := by
  cases d with
  | idle => exact absurd rfl hd
  | _ => simpa [next] using h

/-- The row is accepted and reserved, so that a cycle passes over it. -/
def Db.HoldsAccepted (db : Db) (taskId : TaskId) : Prop :=
  ∃ row, db.tasks.find taskId = some row ∧ row.status = .accepted ∧
    row.hasActiveReservation = true

theorem StoreCall.reservedTask_of_quiet {committed : Option StoreCall}
    (h : Move.Quiet committed) : committed.bind StoreCall.reservedTask = none := by
  rcases h with rfl | rfl <;> rfl

theorem StoreCall.reservedTask_write {taskId : TaskId} {w : TaskWrite} (h : w.reserves = false) :
    (StoreCall.write taskId w).reservedTask = none := by
  cases w <;> first | rfl | cases h

/-- Only its own reservation makes a row accepted and reserved. -/
theorem Db.HoldsAccepted.of_exec {now : Timestamp} {db db' : Db} {taskId : TaskId}
    (h : db'.HoldsAccepted taskId) (call : StoreCall) (hexec : call.exec now db = .ok db')
    (hcall : call.reservedTask ≠ some taskId) : db.HoldsAccepted taskId := by
  obtain ⟨row', hrow', haccepted, hactive⟩ := h
  cases call with
  | read =>
    cases hexec
    exact ⟨row', hrow', haccepted, hactive⟩
  | insertTask new =>
    obtain ⟨hfree, hleaves⟩ := Db.insertTask_spec hexec
    rw [hleaves.tasks, KeyedTable.Table.find_insert] at hrow'
    split at hrow'
    · cases hrow'
      cases hactive
    · exact ⟨row', hrow', haccepted, hactive⟩
  | deleteTask other =>
    rw [(Db.deleteTask_spec hexec).1, KeyedTable.Table.find_erase] at hrow'
    split at hrow'
    · cases hrow'
    · exact ⟨row', hrow', haccepted, hactive⟩
  | write other w =>
    rw [Db.find_write hexec] at hrow'
    split at hrow'
    · rename_i hid
      subst hid
      obtain ⟨row, hrow, rfl⟩ := Option.map_eq_some_iff.mp hrow'
      have hreserves : w.reserves = false := by
        cases w <;> first | rfl | exact absurd rfl hcall
      refine ⟨row, hrow, ?_, TaskWrite.active_of_effect hreserves hactive⟩
      by_contra hstatus
      exact w.effect_not_accepted now hstatus haccepted
    · exact ⟨row', hrow', haccepted, hactive⟩

namespace Dispatcher

/-- An error exit between the reservation of a task and the start of its shim, or
the record that it did not start. -/
def breaksOff (d : Dispatcher) (outcome : SpawnOutcome) (failure : Option AppError) : Bool :=
  match d, outcome with
  | .launching _ _ _ _, .noExecutable _ => true
  | .failing _ _ _ _ _, _ => failure.isSome
  | _, _ => false

variable {svc : RuntimeService} {now : Timestamp} {outcome : SpawnOutcome} {db db' : Db}
  {committed : Option StoreCall} {d d' : Dispatcher} {failure : Option AppError} {taskId : TaskId}

/-- Such an exit ends the cycle and changes nothing. -/
theorem breaksOff_ends (h : Move.Outcome (d.move svc now outcome) now failure db committed db' d')
    (hbreaks : d.breaksOff outcome failure = true) :
    d' = .idle ∧ db' = db ∧ d.spawns outcome = none ∧ Move.Quiet committed := by
  cases d with
  | launching totals task reservation rest =>
    cases outcome with
    | noExecutable message =>
      obtain ⟨hquiet, hdb, hd'⟩ := Move.outcome_silent h
      exact ⟨hd', hdb, rfl, hquiet⟩
    | _ => cases hbreaks
  | failing totals task reservation message rest =>
    simp only [move] at h
    rcases Move.outcome_write h with ⟨hquiet, hdb, e, hd', _⟩ | ⟨_, _, _, hnone⟩
    · exact ⟨hd', hdb, rfl, hquiet⟩
    · rw [hnone] at hbreaks
      cases hbreaks
  | _ => cases hbreaks

/-- A cycle that ends with a task in its hands has taken such an exit. -/
theorem breaksOff_of_idle
    (h : Move.Outcome (d.move svc now outcome) now failure db committed db' .idle)
    (htask : d.unspawned = some taskId) {row : TaskRecord}
    (hrow : db.tasks.find taskId = some row) : d.breaksOff outcome failure = true := by
  cases d with
  | launching totals task reservation rest =>
    cases outcome with
    | noExecutable message => rfl
    | spawned pid => cases (Move.outcome_silent h).2.2
    | spawnFailed message => cases (Move.outcome_silent h).2.2
  | failing totals task reservation message rest =>
    cases htask
    simp only [move] at h
    rcases Move.outcome_write h with ⟨_, _, e, _, hcause⟩ | ⟨_, _, hd', _⟩
    · rcases hcause with hfailure | herror
      · rw [hfailure]
        rfl
      · obtain ⟨db₁, hok⟩ := TaskWrite.run_ok
          (w := .completeTask (shimSpawnFailed now message)) rfl now hrow
        rw [hok] at herror
        cases herror
    · cases hd'
  | _ => cases htask

/-- The cycle has read its list. -/
def hasListed : Dispatcher → Bool
  | .listing _ => false
  | _ => true

/-- The log knows the task in the hands of the cycle and none of the later ones. -/
structure Tracked (d : Dispatcher) (log : CycleLog) : Prop where
  fresh : d.hasListed = false → log.spawned = []
  unspawned : ∀ taskId, d.unspawned = some taskId →
    taskId ∈ log.reserved ∧ taskId ∉ log.spawned
  nodup : (d.unspawned.toList ++ d.pending.map TaskRecord.taskId).Nodup
  pending : ∀ task ∈ d.pending, task.taskId ∉ log.spawned

theorem tracked_of_empty {log : CycleLog} (hfresh : d.hasListed = false → log.spawned = [])
    (hunspawned : d.unspawned = none) (hpending : d.pending = []) : d.Tracked log where
  fresh := hfresh
  unspawned _ hsome := by
    rw [hunspawned] at hsome
    cases hsome
  nodup := by
    rw [hunspawned, hpending]
    exact List.nodup_nil
  pending _ htask := by
    rw [hpending] at htask
    cases htask

/-- A cycle that has nothing in its hands and goes on with part of its list. -/
theorem Tracked.of_sublist {log log' : CycleLog} (h : d.Tracked log)
    (hspawned : log'.spawned = log.spawned) (hunspawned : d'.unspawned = none)
    (hlisted : d'.hasListed = true) (hpending : d'.pending.Sublist d.pending) :
    d'.Tracked log' where
  fresh hnot := by
    rw [hlisted] at hnot
    cases hnot
  unspawned _ hsome := by
    rw [hunspawned] at hsome
    cases hsome
  nodup := by
    rw [hunspawned]
    exact h.nodup.sublist ((hpending.map TaskRecord.taskId).trans (List.sublist_append_right _ _))
  pending task htask := by
    rw [hspawned]
    exact h.pending task (hpending.mem htask)

theorem Tracked.step {log : CycleLog} (h : d.Tracked log)
    (hstep : DispatchStep svc now outcome db committed db' d d') :
    d'.Tracked (log.next d outcome committed) := by
  have hsame : log.spawned ++ (none : Option (TaskId × ℕ)).toList.map Prod.fst = log.spawned := by
    simp
  have hkeep : ∀ taskId, taskId ∉ log.spawned →
      taskId ∉ log.spawned ++ (none : Option (TaskId × ℕ)).toList.map Prod.fst := by
    simp
  cases hstep with
  | stop _ => exact tracked_of_empty nofun rfl rfl
  | started _ => exact tracked_of_empty (fun _ => rfl) rfl rfl
  | listed _ =>
    refine ⟨nofun, nofun, db.listAccepted_nodup svc.settings.maxQueuedTasks, ?_⟩
    intro task _
    simp [CycleLog.next, spawns, h.fresh rfl]
  | skipped _ => exact h.of_sublist hsame rfl rfl (List.sublist_cons_self _ _)
  | cancelled _ => exact h.of_sublist hsame rfl rfl (List.sublist_cons_self _ _)
  | reserved _ _ =>
    refine ⟨nofun, ?_, h.nodup, ?_⟩
    · rintro taskId ⟨⟩
      refine ⟨by simp [CycleLog.next, StoreCall.reservedTask], ?_⟩
      exact hkeep _ (h.pending _ (List.mem_cons_self ..))
    · intro task htask
      exact hkeep _ (h.pending task (List.mem_cons_of_mem _ htask))
  | @spawned _ totals task reservation rest pid _ houtcome =>
    subst houtcome
    obtain ⟨hnot, hnodup⟩ := List.nodup_cons.mp h.nodup
    refine ⟨nofun, nofun, hnodup, ?_⟩
    intro other hother hspawned
    rcases List.mem_append.mp hspawned with hold | hnew
    · exact h.pending other hother hold
    · have hid : other.taskId = task.taskId := by simpa [spawns] using hnew
      exact hnot (hid ▸ List.mem_map_of_mem hother)
  | notSpawned hquiet houtcome =>
    subst houtcome
    refine ⟨nofun, ?_, h.nodup, fun task htask => hkeep _ (h.pending task htask)⟩
    intro taskId htask
    obtain ⟨hreserved, hspawned⟩ := h.unspawned taskId htask
    exact ⟨List.mem_append_left _ hreserved, hkeep _ hspawned⟩
  | dispatched _ => exact h.of_sublist hsame rfl rfl (List.Sublist.refl _)
  | failed _ => exact h.of_sublist hsame rfl rfl (List.Sublist.refl _)
  | persisted _ => exact h.of_sublist hsame rfl rfl (List.Sublist.refl _)

/-- Every task the cycle has reserved and that is still accepted and reserved has
a shim, or the cycle has it in its hands. -/
def Covers (d : Dispatcher) (log : CycleLog) (db : Db) : Prop :=
  ∀ taskId ∈ log.reserved, db.HoldsAccepted taskId →
    taskId ∈ log.spawned ∨ d.unspawned = some taskId

theorem Covers.exec {log : CycleLog} (h : d.Covers log db) {call : StoreCall}
    (hexec : call.exec now db = .ok db') (hcall : call.reservedTask = none) :
    d.Covers log db' := by
  intro taskId hreserved hholds
  exact h taskId hreserved (hholds.of_exec call hexec (by simp [hcall]))

/-- A step that reserves nothing keeps it for the tasks the cycle does not hold. -/
theorem Covers.next {log : CycleLog} (h : d.Covers log db)
    (hcommitted : committed.bind StoreCall.reservedTask = none)
    (hback : ∀ taskId, db'.HoldsAccepted taskId → db.HoldsAccepted taskId)
    (hheld : ∀ taskId, d.unspawned = some taskId → db'.HoldsAccepted taskId →
      (∃ pid, d.spawns outcome = some (taskId, pid)) ∨ d'.unspawned = some taskId) :
    d'.Covers (log.next d outcome committed) db' := by
  intro taskId hmem hholds
  obtain ⟨hne, hreserved | hnew⟩ := CycleLog.of_mem_next hmem
  · rcases h taskId hreserved (hback taskId hholds) with hspawned | hunspawned
    · exact .inl (CycleLog.mem_next hne (.inl hspawned))
    · exact (hheld taskId hunspawned hholds).imp (fun hnow => CycleLog.mem_next hne (.inr hnow)) id
  · rw [hcommitted] at hnew
    cases hnew

theorem Covers.quiet {log : CycleLog} (h : d.Covers log db) (hquiet : Move.Quiet committed)
    (hheld : ∀ taskId, d.unspawned = some taskId → db.HoldsAccepted taskId →
      (∃ pid, d.spawns outcome = some (taskId, pid)) ∨ d'.unspawned = some taskId) :
    d'.Covers (log.next d outcome committed) db :=
  h.next (StoreCall.reservedTask_of_quiet hquiet) (fun _ hholds => hholds) hheld

theorem Covers.write {log : CycleLog} (h : d.Covers log db) {w : TaskWrite}
    (hw : w.reserves = false) (hrun : w.run now taskId db = .ok db')
    (hheld : ∀ other, d.unspawned = some other → ¬ db'.HoldsAccepted other) :
    d'.Covers (log.next d outcome (some (.write taskId w))) db' := by
  have hnone : (StoreCall.write taskId w).reservedTask = none := StoreCall.reservedTask_write hw
  refine h.next hnone (fun other hholds => ?_) (fun other hunspawned hholds => ?_)
  · exact hholds.of_exec (.write taskId w) hrun (by simp [hnone])
  · exact absurd hholds (hheld other hunspawned)

/-- A completed row is not accepted. -/
theorem not_holds_of_complete {update : CompletionUpdate}
    (hrun : (TaskWrite.completeTask update).run now taskId db = .ok db') :
    ¬ db'.HoldsAccepted taskId := by
  rintro ⟨row', hrow', haccepted, _⟩
  rw [Db.find_write hrun, if_pos rfl] at hrow'
  obtain ⟨row, _, rfl⟩ := Option.map_eq_some_iff.mp hrow'
  have hterminal := update.terminal
  have hstatus : update.status = .accepted := haccepted
  rw [hstatus] at hterminal
  cases hterminal

/-- The cycle keeps it as long as it does not break off with a task in its hands. -/
theorem Covers.step {log : CycleLog} (h : d.Covers log db)
    (hstep : DispatchStep svc now outcome db committed db' d d')
    (hkept : d' = .idle → ∀ taskId, d.unspawned = some taskId → ¬ db.HoldsAccepted taskId) :
    d'.Covers (log.next d outcome committed) db' := by
  cases hstep with
  | stop hquiet =>
    exact h.quiet hquiet (fun taskId hheld hholds => absurd hholds (hkept rfl taskId hheld))
  | started hquiet => exact h.quiet hquiet nofun
  | listed hquiet => exact h.quiet hquiet nofun
  | skipped hquiet => exact h.quiet hquiet nofun
  | persisted hquiet => exact h.quiet hquiet nofun
  | cancelled hrun => exact h.write rfl hrun nofun
  | dispatched hrun => exact h.write rfl hrun nofun
  | failed hrun =>
    refine h.write rfl hrun ?_
    rintro taskId ⟨⟩
    exact not_holds_of_complete hrun
  | notSpawned hquiet _ => exact h.quiet hquiet (fun taskId hheld _ => .inr hheld)
  | spawned hquiet houtcome =>
    refine h.quiet hquiet ?_
    rintro taskId ⟨⟩ _
    rw [houtcome]
    exact .inl ⟨_, rfl⟩
  | @reserved totals task rest reservation db' hdecision hrun =>
    intro taskId hmem hholds
    by_cases hid : taskId = task.taskId
    · exact .inr (congrArg some hid.symm)
    · obtain ⟨hne, hreserved | hnew⟩ := CycleLog.of_mem_next hmem
      · have hexec : (StoreCall.write task.taskId (.reserveResources reservation
            "task resources reserved")).exec now db = .ok db' := hrun
        have hbefore := hholds.of_exec _ hexec (fun heq => hid (Option.some.inj heq).symm)
        rcases h taskId hreserved hbefore with hspawned | hunspawned
        · exact .inl (CycleLog.mem_next hne (.inl hspawned))
        · cases hunspawned
      · exact absurd (Option.some.inj hnew).symm hid

end Dispatcher

namespace World

/-- The step takes such an exit while the row is accepted and reserved. -/
def Strands (w : World) (e : Event) : Prop :=
  ∃ d outcome taskId, w.procs.server = .serving d ∧ e.action = .dispatch outcome ∧
    d.unspawned = some taskId ∧ d.breaksOff outcome e.failure = true ∧ w.db.HoldsAccepted taskId

/-- A crash ends the cycle. -/
def nextLog (svc : RuntimeService) (w : World) (e : Event) (log : CycleLog) : CycleLog :=
  match e.action, w.procs.server with
  | .dispatch outcome, .serving d => log.next d outcome (w.committed svc e)
  | .crash, _ => {}
  | _, _ => log

def stepLogged (svc : RuntimeService) (s : World × CycleLog) (e : Event) :
    Option (World × CycleLog) :=
  (s.1.step svc e).map fun w' => (w', s.1.nextLog svc e s.2)

/-- No cycle is under way. -/
def CycleReturned (w : World) : Prop := w.procs.server = .serving .idle

/-- Every task that the cycle has reserved and that is still accepted and reserved
has a shim. -/
def NoneStranded (s : World × CycleLog) : Prop :=
  ∀ taskId ∈ s.2.reserved, s.1.db.HoldsAccepted taskId → taskId ∈ s.2.spawned

variable {svc : RuntimeService} {s s' : World × CycleLog} {w w' : World} {e : Event}

theorem nextLog_of_other (hdispatch : ∀ outcome, e.action ≠ .dispatch outcome)
    (hcrash : e.action.isCrash = false) (log : CycleLog) : w.nextLog svc e log = log := by
  unfold nextLog
  split
  · rename_i outcome _ haction _
    exact absurd haction (hdispatch outcome)
  · rename_i haction
    rw [haction] at hcrash
    cases hcrash
  · rfl

theorem nextLog_dispatch {outcome : SpawnOutcome} {d : Dispatcher}
    (haction : e.action = .dispatch outcome) (hserver : w.procs.server = .serving d)
    (log : CycleLog) : w.nextLog svc e log = log.next d outcome (w.committed svc e) := by
  simp [nextLog, haction, hserver]

theorem nextLog_crash (haction : e.action = .crash) (log : CycleLog) :
    w.nextLog svc e log = {} := by
  simp [nextLog, haction]

/-- What the log says of the dispatcher of a serving server. -/
def TracksCycle (s : World × CycleLog) : Prop :=
  ∀ d, s.1.procs.server = .serving d → d.Tracked s.2

theorem TracksCycle.step (h : TracksCycle s) (hstep : stepLogged svc s e = some s') :
    TracksCycle s' := by
  obtain ⟨w', hw', rfl⟩ := Option.map_eq_some_iff.mp hstep
  have hsame : (∀ outcome, e.action ≠ .dispatch outcome) → e.action.isCrash = false →
      w'.procs.server = s.1.procs.server → TracksCycle (w', s.1.nextLog svc e s.2) := by
    intro hdispatch hcrash hserver d hd
    rw [nextLog_of_other hdispatch hcrash]
    exact h d (hserver ▸ hd)
  cases step_cases hw' with
  | request d haction hserver hserver' _ _ =>
    refine hsame ?_ ?_ (hserver'.trans hserver.symm)
    · intro outcome hother
      rw [hother] at haction
      cases haction
    · cases haction' : e.action <;> first | rfl | (rw [haction'] at haction; cases haction)
  | gc removed d haction hserver hserver' _ _ =>
    exact hsame (by simp [haction]) (by rw [haction]; rfl) (hserver'.trans hserver.symm)
  | dispatch outcome d d' haction hserver _ hmove hprocs =>
    intro d₂ hd₂
    rw [hprocs] at hd₂
    cases hd₂
    rw [nextLog_dispatch haction hserver]
    exact (h d hserver).step hmove
  | recover pidTaken r r' haction hserver _ hprocs =>
    intro d hd
    rw [hprocs] at hd
    cases r' <;> cases hd
    exact Dispatcher.tracked_of_empty nofun rfl rfl
  | shim i choice shim shim' haction _ _ _ hprocs =>
    exact hsame (by simp [haction]) (by rw [haction]; rfl) (by rw [hprocs])
  | crash haction _ _ hprocs =>
    intro d hd
    rw [hprocs] at hd
    cases hd
  | restart haction _ _ _ hprocs =>
    intro d hd
    rw [hprocs] at hd
    cases hd

/-- A dispatch step is one outcome of the move of the dispatcher. -/
theorem dispatch_outcome (h : w.step svc e = some w') {outcome : SpawnOutcome} {d : Dispatcher}
    (haction : e.action = .dispatch outcome) (hserver : w.procs.server = .serving d) :
    ∃ d', w'.procs.server = .serving d' ∧
      Move.Outcome (d.move svc e.now outcome) e.now e.failure w.db (w.committed svc e) w'.db
        d' := by
  obtain ⟨m, hm, _, hout⟩ := step_actor h
  simp only [Procs.actorMove, haction, hserver] at hm
  cases hm
  obtain ⟨d', hout, hprocs⟩ := Move.outcome_map hout
  exact ⟨d', by rw [hprocs]; rfl, hout⟩

/-- What the cycle covers, and that a server that does not serve has no cycle. -/
structure CoversCycle (s : World × CycleLog) : Prop where
  serving : ∀ d, s.1.procs.server = .serving d → d.Covers s.2 s.1.db
  other : (∀ d, s.1.procs.server ≠ .serving d) → s.2.reserved = []

theorem CoversCycle.step (h : CoversCycle s) (hguard : ¬ s.1.Strands e)
    (hstep : stepLogged svc s e = some s') : CoversCycle s' := by
  obtain ⟨w', hw', rfl⟩ := Option.map_eq_some_iff.mp hstep
  -- The steps that leave the server's main task alone and reserve nothing.
  have hsame : w'.procs.server = s.1.procs.server → (∀ outcome, e.action ≠ .dispatch outcome) →
      e.action.isCrash = false →
      (∀ call, s.1.committed svc e = some call → call.reservedTask = none) →
      CoversCycle (w', s.1.nextLog svc e s.2) := by
    intro hserver hdispatch hcrash hcall
    rw [nextLog_of_other hdispatch hcrash]
    refine ⟨fun d hd => ?_, fun hnot => h.other (fun d hd => hnot d (hserver.trans hd))⟩
    have hcovers := h.serving d (hserver ▸ hd)
    rcases step_db hw' with ⟨_, hdb⟩ | ⟨call, hcommitted, hexec⟩
    · rw [hdb]
      exact hcovers
    · exact hcovers.exec hexec (hcall call hcommitted)
  -- Without a cycle nothing is reserved, and nothing has to be covered.
  have hnocycle : (∀ d, s.1.procs.server ≠ .serving d) →
      (∀ outcome, e.action ≠ .dispatch outcome) → e.action.isCrash = false →
      CoversCycle (w', s.1.nextLog svc e s.2) := by
    intro hserver hdispatch hcrash
    have hnone : s.2.reserved = [] := h.other hserver
    rw [nextLog_of_other hdispatch hcrash]
    refine ⟨fun d _ taskId htask => ?_, fun _ => hnone⟩
    rw [hnone] at htask
    cases htask
  cases step_cases hw' with
  | request d haction hserver hserver' _ hcall =>
    refine hsame (hserver'.trans hserver.symm) ?_ ?_ (fun call hcommitted => ?_)
    · intro outcome hother
      rw [hother] at haction
      cases haction
    · cases haction' : e.action <;> first | rfl | (rw [haction'] at haction; cases haction)
    · cases hcall call hcommitted <;> rfl
  | gc removed d haction hserver hserver' _ hcall =>
    refine hsame (hserver'.trans hserver.symm) (by simp [haction]) (by rw [haction]; rfl)
      (fun call hcommitted => ?_)
    cases hcall call hcommitted <;> rfl
  | dispatch outcome d d' haction hserver _ hmove hprocs =>
    have hserver' : w'.procs.server = .serving d' := by rw [hprocs]; rfl
    rw [nextLog_dispatch haction hserver]
    refine ⟨fun d₂ hd₂ => ?_, fun hnot => absurd hserver' (hnot d')⟩
    rw [hserver'] at hd₂
    cases hd₂
    refine (h.serving d hserver).step hmove ?_
    rintro rfl taskId htask hholds
    obtain ⟨row, hrow, hheld⟩ := hholds
    obtain ⟨d₂, hd₂, hout⟩ := dispatch_outcome hw' haction hserver
    rw [hserver'] at hd₂
    cases hd₂
    exact hguard ⟨d, outcome, taskId, hserver, haction, htask,
      Dispatcher.breaksOff_of_idle hout htask hrow, row, hrow, hheld⟩
  | recover pidTaken r r' haction hserver _ hprocs =>
    exact hnocycle (by simp [hserver]) (by simp [haction]) (by rw [haction]; rfl)
  | shim i choice shim shim' haction hshim _ hmove hprocs =>
    refine hsame (by rw [hprocs]) (by simp [haction]) (by rw [haction]; rfl)
      (fun call hcommitted => ?_)
    rcases hmove.call hcommitted with rfl | ⟨write, rfl, hwrite⟩
    · rfl
    · cases hwrite <;> rfl
  | crash haction _ _ hprocs =>
    rw [nextLog_crash haction]
    exact ⟨fun d _ taskId htask => (by cases htask), fun _ => rfl⟩
  | restart haction _ _ hserver hprocs =>
    exact hnocycle (by simp [hserver]) (by simp [haction]) (by rw [haction]; rfl)

/-- After such an exit the cycle has returned and left the task behind. -/
theorem strands_leaves_task (h : TracksCycle s) (hstrands : s.1.Strands e)
    (hstep : stepLogged svc s e = some s') : CycleReturned s'.1 ∧ ¬ NoneStranded s' := by
  obtain ⟨d, outcome, taskId, hserver, haction, htask, hbreaks, hholds⟩ := hstrands
  obtain ⟨w', hw', rfl⟩ := Option.map_eq_some_iff.mp hstep
  obtain ⟨d', hserver', hout⟩ := dispatch_outcome hw' haction hserver
  obtain ⟨rfl, hdb, hspawns, hquiet⟩ := Dispatcher.breaksOff_ends hout hbreaks
  obtain ⟨hreserved, hspawned⟩ := (h d hserver).unspawned taskId htask
  have hlog : s.1.nextLog svc e s.2 = s.2 := by
    rw [nextLog_dispatch haction hserver]
    cases d with
    | idle => cases htask
    | _ => simp [CycleLog.next, hspawns, StoreCall.reservedTask_of_quiet hquiet]
  refine ⟨hserver', fun hnone => hspawned ?_⟩
  have hnow := hnone taskId
  rw [hlog, hdb] at hnow
  exact hnow hreserved hholds

/-- A cycle leaves no task behind, whenever it has returned, exactly when it never
breaks off with an accepted and reserved task in its hands. -/
theorem none_stranded_iff (svc : RuntimeService) (start : World) (hstart : CycleReturned start)
    (trace : List ((World × CycleLog) × Event)) (last : World × CycleLog)
    (hrun : Runs.Run (stepLogged svc) (start, {}) trace last) :
    (∀ s ∈ Runs.visited trace last, CycleReturned s.1 → NoneStranded s) ↔
      ∀ x ∈ trace, ¬ x.1.1.Strands x.2 := by
  have hidle : ∀ d, start.procs.server = .serving d → d = .idle := by
    intro d hd
    rw [CycleReturned, hd] at hstart
    exact ServerState.serving.inj hstart
  constructor
  · intro hall x hx hstrands
    have htracks : ∀ s ∈ Runs.visited trace last, TracksCycle s := by
      refine hrun.invariant_visited (G := fun _ _ => True) ?_
        (fun _ _ _ h _ hstep => h.step hstep) (fun _ _ => trivial)
      intro d hd
      rw [hidle d hd]
      exact Dispatcher.tracked_of_empty nofun rfl rfl
    have hbefore : x.1 ∈ Runs.visited trace last :=
      List.mem_append_left _ (List.mem_map_of_mem hx)
    obtain ⟨s', hstep, hs'⟩ := hrun.next_mem_visited hx
    obtain ⟨hreturned, hleft⟩ := strands_leaves_task (htracks x.1 hbefore) hstrands hstep
    exact hleft (hall s' hs' hreturned)
  · intro hguard s hs hreturned
    have hcovers : CoversCycle s := by
      refine hrun.invariant_visited (I := CoversCycle) (G := fun s e => ¬ s.1.Strands e)
        ⟨fun d _ taskId htask => ?_, fun _ => rfl⟩ (fun _ _ _ h hg hstep => h.step hg hstep)
        hguard s hs
      cases htask
    intro taskId hreserved hholds
    rcases hcovers.serving .idle hreturned taskId hreserved hholds with hspawned | hheld
    · exact hspawned
    · cases hheld

/-- `CycleReturned` as a test. -/
def hasReturned (w : World) : Bool :=
  match w.procs.server with
  | .serving .idle => true
  | _ => false

theorem cycleReturned_of_test (h : w.hasReturned = true) : CycleReturned w := by
  unfold hasReturned at h
  split at h
  · assumption
  · cases h

/-- Execute events from an empty database, with the history of the cycle. -/
def executeLogged (svc : RuntimeService) (labels : List Event) : Option (World × CycleLog) :=
  Runs.exec (Runs.checked (fun _ _ => true) (stepLogged svc)) (init, {}) labels

/-- A cycle whose one spawn fails and whose next one succeeds. -/
theorem none_stranded_iff_of_two_tasks :
    ∃ trace last, Runs.Run (stepLogged (smallService ⟨2, none, none⟩)) (init, {}) trace last ∧
      ((∀ s ∈ Runs.visited trace last, CycleReturned s.1 → NoneStranded s) ↔
        ∀ x ∈ trace, ¬ x.1.1.Strands x.2) ∧ last.2.spawned = ["b"] := by
  have hexec : (executeLogged (smallService ⟨2, none, none⟩)
      (events (submitActions 0 (commandRequest "a") ++ submitActions 1 (commandRequest "b") ++
        List.replicate 6 (.dispatch (.spawnFailed "no memory")) ++
        List.replicate 4 (.dispatch (.spawned 10))))).any
      (fun s => decide (s.2.spawned = ["b"])) = true := by decide +kernel
  obtain ⟨trace, last, hrun, _, _, hspawned⟩ := Runs.exists_run_of_exec hexec
  exact ⟨trace, last, hrun, none_stranded_iff _ init rfl trace last hrun,
    of_decide_eq_true hspawned⟩

/-- The current executable cannot be resolved: the only task stays accepted with
an active reservation and no shim. -/
theorem unresolved_executable_strands :
    ¬ ∀ svc start, CycleReturned start → ∀ trace last,
      Runs.Run (stepLogged svc) (start, {}) trace last →
      ∀ s ∈ Runs.visited trace last, CycleReturned s.1 → NoneStranded s := by
  intro hclaim
  have hexec : (executeLogged (smallService ⟨1, none, none⟩)
      (events (submitActions 0 (commandRequest "a") ++
        List.replicate 4 (.dispatch (.noExecutable "no such file"))))).any (fun s =>
      s.1.hasReturned &&
      (s.1.db.tasks.find "a").any (fun row =>
        decide (row.status = .accepted) && row.hasActiveReservation) &&
      decide (s.2.reserved = ["a"]) && decide (s.2.spawned = [])) = true := by decide +kernel
  obtain ⟨trace, last, hrun, _, _, htest⟩ := Runs.exists_run_of_exec hexec
  simp only [Bool.and_eq_true, Option.any_eq_true, decide_eq_true_eq] at htest
  obtain ⟨⟨⟨hreturned, row, hrow, haccepted, hactive⟩, hreserved⟩, hspawned⟩ := htest
  have hnone := hclaim _ init rfl trace last hrun last (Runs.last_mem_visited trace last)
    (cycleReturned_of_test hreturned) "a" (by simp [hreserved]) ⟨row, hrow, haccepted, hactive⟩
  simp [hspawned] at hnone

end World

end ExecgoRuntime
