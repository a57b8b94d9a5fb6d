import ExecgoRuntime.Lib.DistinctOn
import ExecgoRuntime.Workloads

/-!
At most one shim per task. The dispatcher launches for accepted rows without a
reservation only, so a row is out of its reach once it is reserved or has left
the accepted status. The invariant is about the shims that a predicate `K`
selects and needs that no row of such a shim is freed again; only the recovery
pass frees rows.
-/
namespace ExecgoRuntime

open DistinctOn

/-- The dispatcher does not launch for the row. -/
def TaskRecord.Engaged (row : TaskRecord) : Prop :=
  row.status ≠ .accepted ∨ row.hasActiveReservation = true

/-- The write takes the reservation of a row that can be dispatched again. -/
def TaskWrite.frees (write : TaskWrite) (row : TaskRecord) : Prop :=
  (∃ message, write = .releaseResources message) ∧ row.status = .accepted

theorem TaskRecord.Engaged.effect {row : TaskRecord} (h : row.Engaged) {write : TaskWrite}
    (hwrite : ¬ write.frees row) (now : Timestamp) : (write.effect now row).Engaged := by
  cases write with
  | markDispatched shimPid =>
    simp only [TaskWrite.effect, TaskRecord.setDispatched]
    split
    · exact .inl (by simp)
    · exact h
  | markStarted pid pgid scriptPath => exact .inl (by simp [TaskWrite.effect, setStarted])
  | reserveResources reservation message => exact .inr rfl
  | releaseResources message =>
    have hstatus : row.status ≠ .accepted := fun haccepted => hwrite ⟨⟨message, rfl⟩, haccepted⟩
    simp only [TaskWrite.effect]
    split
    · exact .inl hstatus
    · exact .inl hstatus
  | setCancelRequested => exact h
  | markTimeoutTriggered => exact h
  | cancelAcceptedTask error =>
    by_cases haccepted : row.status = .accepted
    · exact .inl (by simp [TaskWrite.effect, setCancelled, haccepted])
    · simp only [TaskWrite.effect, TaskWrite.setCancelled_eq_self haccepted]
      exact h
  | completeTask update =>
    refine .inl (fun haccepted => ?_)
    have hstatus : update.status = .accepted := haccepted
    have hterminal := update.terminal
    rw [hstatus] at hterminal
    cases hterminal
  | markRecovered =>
    simp only [TaskWrite.effect, setRecovered]
    split <;> exact h

def Db.Engaged (db : Db) (taskId : TaskId) : Prop :=
  ∃ row, db.tasks.find taskId = some row ∧ row.Engaged

/-- The task the cycle has reserved and not started a shim for. -/
def Dispatcher.unspawned : Dispatcher → Option TaskId
  | .launching _ task _ _ | .failing _ task _ _ _ => some task.taskId
  | _ => none

theorem Dispatcher.unspawned_of_spawns {outcome : SpawnOutcome} {d : Dispatcher} {taskId : TaskId}
    {pid : ℕ} (h : d.spawns outcome = some (taskId, pid)) : d.unspawned = some taskId := by
  unfold Dispatcher.spawns at h
  split at h
  · split at h
    · cases h
      rfl
    · cases h
  · cases h

/-- The tasks that the cycle may still launch are distinct, and none of them is taken. -/
structure Dispatcher.Exclusive (d : Dispatcher) (taken : TaskId → Prop) (db : Db) : Prop where
  nodup : (d.unspawned.toList ++ d.pending.map TaskRecord.taskId).Nodup
  engaged : ∀ taskId, d.unspawned = some taskId → db.Engaged taskId
  unspawned : ∀ taskId, d.unspawned = some taskId → ¬ taken taskId
  pending : ∀ task ∈ d.pending, task.hasActiveReservation = false → ¬ taken task.taskId

namespace Dispatcher.Exclusive

variable {d d' : Dispatcher} {taken taken' : TaskId → Prop} {db db' : Db}

theorem mono (h : d.Exclusive taken db) (htaken : ∀ taskId, taken' taskId → taken taskId)
    (hdb : ∀ taskId, db.Engaged taskId → db'.Engaged taskId) : d.Exclusive taken' db' where
  nodup := h.nodup
  engaged taskId hunspawned := hdb taskId (h.engaged taskId hunspawned)
  unspawned taskId hunspawned hnow := h.unspawned taskId hunspawned (htaken taskId hnow)
  pending task htask hidle hnow := h.pending task htask hidle (htaken task.taskId hnow)

theorem of_empty (hunspawned : d.unspawned = none) (hpending : d.pending = []) :
    d.Exclusive taken db where
  nodup := by
    rw [hunspawned, hpending]
    exact List.nodup_nil
  engaged taskId hsome := by
    rw [hunspawned] at hsome
    cases hsome
  unspawned taskId hsome := by
    rw [hunspawned] at hsome
    cases hsome
  pending task htask := by
    rw [hpending] at htask
    cases htask

/-- A cycle that has nothing reserved and goes on with part of its list. -/
theorem of_sublist (h : d.Exclusive taken db) (hunspawned : d'.unspawned = none)
    (hpending : d'.pending.Sublist d.pending) : d'.Exclusive taken db' where
  nodup := by
    rw [hunspawned]
    exact h.nodup.sublist ((hpending.map TaskRecord.taskId).trans (List.sublist_append_right _ _))
  engaged taskId hsome := by
    rw [hunspawned] at hsome
    cases hsome
  unspawned taskId hsome := by
    rw [hunspawned] at hsome
    cases hsome
  pending task htask := h.pending task (hpending.mem htask)

theorem step {svc : RuntimeService} {now : Timestamp} {outcome : SpawnOutcome}
    {committed : Option StoreCall} (h : d.Exclusive taken db)
    (hstep : DispatchStep svc now outcome db committed db' d d')
    (hdb : ∀ taskId, db.Engaged taskId → db'.Engaged taskId)
    (htaken : ∀ taskId, taken taskId → db.Engaged taskId) :
    d'.Exclusive (fun taskId => taken taskId ∨ ∃ pid, d.spawns outcome = some (taskId, pid))
      db' := by
  have hquiet : d.spawns outcome = none → d'.Exclusive taken db' →
      d'.Exclusive (fun taskId => taken taskId ∨ ∃ pid, d.spawns outcome = some (taskId, pid))
        db' := by
    intro hspawns h'
    refine h'.mono ?_ (fun _ h => h)
    rintro taskId (hold | ⟨pid, hnew⟩)
    · exact hold
    · rw [hspawns] at hnew
      cases hnew
  cases hstep with
  | stop _ => exact of_empty rfl rfl
  | started _ => exact hquiet rfl (of_empty rfl rfl)
  | listed _ =>
    refine hquiet rfl ⟨db.listAccepted_nodup svc.settings.maxQueuedTasks, nofun, nofun, ?_⟩
    -- A taken task that is listed holds a reservation.
    intro task htask hidle hnow
    obtain ⟨hrow, haccepted⟩ := Db.mem_listAccepted htask
    obtain ⟨row, hrow', hengaged⟩ := htaken task.taskId hnow
    rw [hrow] at hrow'
    cases hrow'
    rcases hengaged with hstatus | hactive
    · exact hstatus haccepted
    · rw [hidle] at hactive
      cases hactive
  | skipped _ => exact hquiet rfl (h.of_sublist rfl (List.sublist_cons_self _ _))
  | cancelled _ => exact hquiet rfl (h.of_sublist rfl (List.sublist_cons_self _ _))
  | @reserved totals task rest reservation db' hdecision hrun =>
    have hidle : task.hasActiveReservation = false := (consider_eq_reserve hdecision).2.1
    refine hquiet rfl ⟨h.nodup, ?_, ?_, ?_⟩
    · rintro taskId ⟨⟩
      obtain ⟨row, hrow⟩ := TaskWrite.find_of_run rfl hrun
      refine ⟨_, by rw [Db.find_write hrun, if_pos rfl, hrow]; rfl, .inr rfl⟩
    · rintro taskId ⟨⟩
      exact h.pending task (List.mem_cons_self ..) hidle
    · intro task' htask'
      exact h.pending task' (List.mem_cons_of_mem _ htask')
  | @spawned _ totals task reservation rest pid _ houtcome =>
    have hnodup : (task.taskId :: rest.map TaskRecord.taskId).Nodup := h.nodup
    refine ⟨(List.nodup_cons.mp hnodup).2, nofun, nofun, ?_⟩
    rintro task' htask' hidle (hold | ⟨pid', hnew⟩)
    · exact h.pending task' htask' hidle hold
    · rw [houtcome] at hnew
      have hid : task.taskId = task'.taskId := congrArg Prod.fst (Option.some.inj hnew)
      exact (List.nodup_cons.mp hnodup).1 (hid ▸ List.mem_map_of_mem htask')
  | notSpawned _ houtcome =>
    exact hquiet (by rw [houtcome]; rfl) ⟨h.nodup, h.engaged, h.unspawned, h.pending⟩
  | dispatched _ => exact hquiet rfl (h.of_sublist rfl (List.Sublist.refl _))
  | failed _ => exact hquiet rfl (h.of_sublist rfl (List.Sublist.refl _))
  | persisted _ => exact hquiet rfl (h.of_sublist rfl (List.Sublist.refl _))

end Dispatcher.Exclusive

/-- A shim is selected by `K` from its start or never. -/
def Shim.Selects (K : Shim → Bool) : Prop :=
  ∀ {now : Timestamp} {failure : Option AppError} {choice : ShimChoice} {db db' : Db}
    {committed : Option StoreCall} {shim shim' : Shim},
    ShimStep now failure choice db shim committed db' shim' → K shim' = true → K shim = true

/-- Every shim counts. -/
abbrev Shim.every : Shim → Bool := fun _ => true

theorem Shim.selects_every : Shim.Selects Shim.every := fun _ _ => rfl

namespace World

variable {K : Shim → Bool} {svc : RuntimeService} {w w' : World} {e : Event}

/-- Only the recovery pass frees a row. -/
theorem recovers_of_frees (h : w.step svc e = some w') {taskId : TaskId} {write : TaskWrite}
    (hcommitted : w.committed svc e = some (.write taskId write)) {row : TaskRecord}
    (hfrees : write.frees row) : ∃ pidTaken, e.action = .recover pidTaken := by
  obtain ⟨⟨message, rfl⟩, _⟩ := hfrees
  cases step_write h hcommitted with
  | request _ hcall => cases hcall
  | dispatch _ _ _ _ _ hwrite _ => cases hwrite
  | recover pidTaken _ _ haction _ _ _ => exact ⟨pidTaken, haction⟩
  | shim _ _ _ _ _ _ _ hwrite _ => cases hwrite

theorem step_engaged (h : w.step svc e = some w') (hgc : e.action.isGc = false) {taskId : TaskId}
    (hkept : ∀ write row, w.committed svc e = some (.write taskId write) →
      w.db.tasks.find taskId = some row → ¬ write.frees row)
    (hengaged : w.db.Engaged taskId) : w'.db.Engaged taskId := by
  obtain ⟨row, hrow, hengaged⟩ := hengaged
  cases step_row h hgc hrow with
  | kept hrow' _ => exact ⟨row, hrow', hengaged⟩
  | written write hcommitted hrow' =>
    exact ⟨_, hrow', hengaged.effect (hkept write row hcommitted hrow) e.now⟩

/-- A selected shim was started for the task. -/
def Taken (K : Shim → Bool) (w : World) (taskId : TaskId) : Prop :=
  ∃ shim ∈ w.procs.shims, K shim = true ∧ shim.taskId = taskId

/-- If the step frees a row, no selected shim was started for it. -/
def FreesOrphans (K : Shim → Bool) (svc : RuntimeService) (w : World) (e : Event) : Prop :=
  ∀ taskId write row, w.committed svc e = some (.write taskId write) →
    w.db.tasks.find taskId = some row → write.frees row → ¬ w.Taken K taskId

/-- A server that serves does not recover. -/
theorem not_recover_of_serving {d : Dispatcher} (hserving : w.procs.server = .serving d)
    (hstep : w.step svc e = some w') (pidTaken : Bool) : e.action ≠ .recover pidTaken := by
  intro haction
  cases step_cases hstep with
  | request _ hrequest _ _ _ _ =>
    rw [haction] at hrequest
    cases hrequest
  | recover _ _ _ _ hserver _ _ =>
    rw [hserving] at hserver
    cases hserver
  | gc _ _ hother _ _ _ _ => cases haction.symm.trans hother
  | dispatch _ _ _ hother _ _ _ _ => cases haction.symm.trans hother
  | shim _ _ _ _ hother _ _ _ _ => cases haction.symm.trans hother
  | crash hother _ _ _ => cases haction.symm.trans hother
  | restart hother _ _ _ _ => cases haction.symm.trans hother

theorem freesOrphans_of_serving {d : Dispatcher} (hserving : w.procs.server = .serving d)
    (hstep : w.step svc e = some w') (K : Shim → Bool) : w.FreesOrphans K svc e := by
  intro taskId write row hcommitted _ hfrees
  obtain ⟨pidTaken, haction⟩ := recovers_of_frees hstep hcommitted hfrees
  exact absurd haction (not_recover_of_serving hserving hstep pidTaken)

/-- The selected shims are for distinct tasks, and the dispatcher starts no second one. -/
structure Exclusive (K : Shim → Bool) (w : World) : Prop where
  distinct : Distinct K Shim.taskId w.procs.shims
  engaged : ∀ taskId, w.Taken K taskId → w.db.Engaged taskId
  cycle : ∀ d, w.procs.server = .serving d → d.Exclusive (w.Taken K) w.db

theorem exclusive_serve (K : Shim → Bool) (db : Db) : Exclusive K (serve db) where
  distinct := distinct_nil
  engaged := by
    rintro taskId ⟨shim, hshim, _⟩
    cases hshim
  cycle := by
    rintro d ⟨⟩
    exact Dispatcher.Exclusive.of_empty rfl rfl

theorem Exclusive.step (hK : Shim.Selects K) (h : Exclusive K w) (hgc : e.action.isGc = false)
    (hfrees : FreesOrphans K svc w e) (hstep : w.step svc e = some w') : Exclusive K w' := by
  have htaken : ∀ taskId, w.Taken K taskId → w'.db.Engaged taskId := by
    intro taskId hnow
    exact step_engaged hstep hgc
      (fun write row hcommitted hrow hfree => hfrees taskId write row hcommitted hrow hfree hnow)
      (h.engaged taskId hnow)
  have hall : (∀ pidTaken, e.action ≠ .recover pidTaken) →
      ∀ taskId, w.db.Engaged taskId → w'.db.Engaged taskId := by
    intro hserving taskId hengaged
    refine step_engaged hstep hgc (fun write row hcommitted _ hfree => ?_) hengaged
    obtain ⟨pidTaken, haction⟩ := recovers_of_frees hstep hcommitted hfree
    exact hserving pidTaken haction
  -- The steps that leave the shims and the cycle as they are.
  have hsame : w'.procs.shims = w.procs.shims →
      (∀ d, w'.procs.server = .serving d → d.Exclusive (w.Taken K) w'.db) → Exclusive K w' := by
    intro hshims hcycle
    have htaken' : w'.Taken K = w.Taken K := by
      unfold Taken
      rw [hshims]
    exact ⟨by rw [hshims]; exact h.distinct, by rw [htaken']; exact htaken,
      by rw [htaken']; exact hcycle⟩
  cases step_cases hstep with
  | request dispatcher haction hserver hserver' hshims _ =>
    refine hsame hshims ?_
    intro d hd
    rw [hserver'] at hd
    cases hd
    refine (h.cycle dispatcher hserver).mono (fun _ hnow => hnow) (hall ?_)
    intro pidTaken hrecover
    rw [hrecover] at haction
    cases haction
  | gc removed _ haction _ _ _ _ =>
    rw [haction] at hgc
    cases hgc
  | dispatch outcome d d' haction hserver _ hmove hprocs =>
    have hold := h.cycle d hserver
    have hnew := hold.step hmove (hall (by simp [haction])) h.engaged
    have hshims : w'.procs.shims = w.procs.shims ++
        (d.spawns outcome).toList.map Shim.ofSpawn := by
      rw [hprocs, Procs.afterDispatch_shims]
    have htaken' : ∀ taskId, w'.Taken K taskId →
        w.Taken K taskId ∨ ∃ pid, d.spawns outcome = some (taskId, pid) := by
      rintro taskId ⟨shim, hshim, hselected, rfl⟩
      rw [hshims, List.mem_append] at hshim
      rcases hshim with hshim | hshim
      · exact .inl ⟨shim, hshim, hselected, rfl⟩
      · obtain ⟨new, hspawn, rfl⟩ := List.mem_map.mp hshim
        exact .inr ⟨new.2, Option.mem_toList.mp hspawn⟩
    refine ⟨?_, ?_, ?_⟩
    · rw [hshims]
      cases hspawns : d.spawns outcome with
      | none => simpa using h.distinct
      | some new =>
        refine h.distinct.append_one ?_
        intro _ shim hshim hselected hkey
        exact hold.unspawned new.1 (Dispatcher.unspawned_of_spawns hspawns)
          ⟨shim, hshim, hselected, hkey⟩
    · intro taskId hnow
      rcases htaken' taskId hnow with hbefore | ⟨pid, hspawns⟩
      · exact htaken taskId hbefore
      · exact hall (by simp [haction]) taskId
          (hold.engaged taskId (Dispatcher.unspawned_of_spawns hspawns))
    · intro d₂ hd₂
      rw [hprocs] at hd₂
      cases hd₂
      exact hnew.mono htaken' (fun _ hengaged => hengaged)
  | recover _ r r' _ hserver _ hprocs =>
    refine hsame (by rw [hprocs, Procs.afterRecovery_shims]) ?_
    intro d hd
    rw [hprocs] at hd
    cases r' <;> cases hd
    exact Dispatcher.Exclusive.of_empty rfl rfl
  | shim i choice shim shim' haction hshim _ hmove hprocs =>
    have hshims : w'.procs.shims = w.procs.shims.set i shim' := by rw [hprocs]
    have hmem : shim ∈ w.procs.shims := List.mem_of_getElem? hshim
    have htaken' : ∀ taskId, w'.Taken K taskId → w.Taken K taskId := by
      rintro taskId ⟨t, ht, hselected, rfl⟩
      rw [hshims] at ht
      rcases List.mem_or_eq_of_mem_set ht with hold | rfl
      · exact ⟨t, hold, hselected, rfl⟩
      · exact ⟨shim, hmem, hK hmove hselected, hmove.taskId.symm⟩
    refine ⟨?_, fun taskId hnow => htaken taskId (htaken' taskId hnow), ?_⟩
    · rw [hshims]
      exact h.distinct.set_of_key hshim (hK hmove) hmove.taskId
    · intro d hd
      rw [hprocs] at hd
      exact (h.cycle d hd).mono htaken' (hall (by simp [haction]))
  | crash _ _ _ hprocs =>
    refine hsame (by rw [hprocs]; rfl) ?_
    intro d hd
    rw [hprocs] at hd
    cases hd
  | restart _ _ _ _ hprocs =>
    refine hsame (by rw [hprocs]) ?_
    intro d hd
    rw [hprocs] at hd
    cases hd

/-- The run rule. -/
theorem exclusive_of_run (hK : Shim.Selects K) {db : Db} {trace : List (World × Event)}
    {last : World} (hrun : Run svc (serve db) trace last)
    (hgc : ∀ x ∈ trace, x.2.action.isGc = false)
    (hfrees : ∀ x ∈ trace, x.1.FreesOrphans K svc x.2) : Exclusive K last := by
  refine hrun.invariant (I := Exclusive K)
    (G := fun w e => e.action.isGc = false ∧ w.FreesOrphans K svc e) (exclusive_serve K db) ?_
    (fun x hx => ⟨hgc x hx, hfrees x hx⟩)
  rintro w e w' hbefore ⟨hgc, hfrees⟩ hstep
  exact hbefore.step hK hgc hfrees hstep

end World

end ExecgoRuntime
