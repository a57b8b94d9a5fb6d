import ExecgoRuntime.Exclusion
import ExecgoRuntime.LedgerSafety

/-!
The ledger covers what runs. In one server life each task has at most one shim,
so a reservation is given up behind the back of a shim only by a cancellation of
its accepted row, and by the shim itself only when it completes the row. If no
cancellation hits a shim that has loaded its row, and no workload is left behind
by a failed cgroup, every workload that runs has its active reservation.
-/
namespace ExecgoRuntime

open DistinctOn KeyedTable

def TaskRecord.OneSlot (row : TaskRecord) : Prop :=
  ∀ reservation, row.reservation = some reservation → reservation.taskSlots = 1

theorem TaskWrite.reservesFor.oneSlot {write : TaskWrite} {task : TaskRecord}
    (h : write.reservesFor task) (htask : task.OneSlot) (now : Timestamp) (row : TaskRecord) :
    (write.effect now row).OneSlot := by
  obtain ⟨reservation, message, rfl, hreservation⟩ := h
  rintro _ ⟨⟩
  rcases hreservation with rfl | rfl
  · unfold TaskRecord.requestedReservation
    cases hheld : task.reservation with
    | none => rfl
    | some held => exact htask held hheld
  · rfl

namespace World

variable {svc : RuntimeService} {w w' : World} {e : Event}

structure OneSlots (w : World) : Prop where
  rows : w.db.EachTask (fun row _ => row.OneSlot)
  pending : ∀ task ∈ w.pending, task.OneSlot

theorem OneSlots.step (h : OneSlots w) (hstep : w.step svc e = some w') : OneSlots w' := by
  refine ⟨?_, ?_⟩
  · have hwrites : w.Writes (fun _ _ => True) svc e := fun _ _ _ _ _ => trivial
    refine (step_eachTask_iff ?_ ?_ h.rows hstep).mpr hwrites
    · rintro new now _ ⟨⟩
    · intro taskId write row hcommitted _ hrow
      refine iff_of_true ?_ trivial
      cases hreserves : write.reserves with
      | false =>
        intro reservation hreservation
        rw [TaskWrite.effect_reservation hreserves] at hreservation
        exact hrow reservation hreservation
      | true =>
        obtain ⟨task, hpending, _, _, hfor⟩ := step_reserves hstep hcommitted hreserves
        exact hfor.oneSlot (h.pending task (by simp [hpending])) e.now row
  · rcases step_pending hstep with hsub | ⟨_, hlisted⟩
    · intro task htask
      exact h.pending task (hsub.mem htask)
    · intro task htask
      have hrow : w.db.tasks.find task.taskId = some task := by
        rcases hlisted with haccepted | hrecovered
        · rw [haccepted] at htask
          exact (Db.mem_listAccepted htask).1
        · rw [hrecovered] at htask
          exact (Db.mem_listNonTerminal htask).1
      exact h.rows task.taskId task hrow

end World

def ShimState.isLaunching : ShimState → Bool
  | .launching _ _ => true
  | _ => false

/-- The shim has loaded its row and is about to spawn the workload, or has
spawned it and not yet waited for it. -/
def Shim.needsSlot (shim : Shim) : Bool := shim.state.isLaunching || shim.unreaped

/-- The row needs no reservation any more, or it has one. -/
def TaskRecord.Supported (row : TaskRecord) : Prop :=
  row.status.isTerminal = true ∨ row.hasActiveReservation = true

/-- What the row of a shim holds. -/
structure Shim.Backed (shim : Shim) (row : TaskRecord) : Prop where
  needs : shim.needsSlot = true → row.hasActiveReservation = true
  start : shim.state = .starting → row.Supported

/-- A workload is waited for before the row is completed. -/
def Shim.Settled (shim : Shim) : Prop :=
  ∀ update, shim.state = .completing update → shim.unreaped = false

/-- The writes to a task that come from neither its shim nor a recovery pass. -/
def TaskWrite.isForeign : TaskWrite → Bool
  | .setCancelRequested | .cancelAcceptedTask _ | .reserveResources _ _ | .markDispatched _ => true
  | _ => false

/-- The write cancels an accepted row. -/
def TaskWrite.cancels (write : TaskWrite) (row : TaskRecord) : Prop :=
  (∃ error, write = .cancelAcceptedTask error) ∧ row.status = .accepted

theorem TaskWrite.active_of_foreign {write : TaskWrite} (h : write.isForeign = true)
    {row : TaskRecord} (hcancel : ¬ write.cancels row) (hactive : row.hasActiveReservation = true)
    (now : Timestamp) : (write.effect now row).hasActiveReservation = true := by
  cases write with
  | markDispatched shimPid =>
    simp only [effect, TaskRecord.setDispatched]
    split <;> exact hactive
  | reserveResources reservation message => rfl
  | setCancelRequested => exact hactive
  | cancelAcceptedTask error =>
    have hstatus : row.status ≠ .accepted := fun haccepted => hcancel ⟨⟨error, rfl⟩, haccepted⟩
    rw [effect, setCancelled_eq_self hstatus]
    exact hactive
  | _ => cases h

theorem TaskRecord.Supported.effect {row : TaskRecord} (h : row.Supported) {write : TaskWrite}
    (hforeign : write.isForeign = true) (now : Timestamp) : (write.effect now row).Supported := by
  rcases h with hterminal | hactive
  · cases write with
    | markDispatched shimPid =>
      refine .inl ?_
      simp only [TaskWrite.effect, setDispatched]
      split
      · rename_i haccepted
        rw [haccepted] at hterminal
        cases hterminal
      · exact hterminal
    | reserveResources reservation message => exact .inl hterminal
    | setCancelRequested => exact .inl hterminal
    | cancelAcceptedTask error =>
      refine .inl ?_
      simp only [TaskWrite.effect, setCancelled]
      split
      · rfl
      · exact hterminal
    | _ => cases hforeign
  · by_cases hcancel : write.cancels row
    · obtain ⟨⟨error, rfl⟩, haccepted⟩ := hcancel
      refine .inl ?_
      simp only [TaskWrite.effect, setCancelled, if_pos haccepted]
      rfl
    · exact .inr (TaskWrite.active_of_foreign hforeign hcancel hactive now)

theorem Shim.Backed.effect {shim : Shim} {row : TaskRecord} (h : shim.Backed row)
    {write : TaskWrite} (hforeign : write.isForeign = true)
    (hcancel : write.cancels row → shim.needsSlot = false) (now : Timestamp) :
    shim.Backed (write.effect now row) where
  needs hneeds := by
    refine TaskWrite.active_of_foreign hforeign (fun hcancels => ?_) (h.needs hneeds) now
    rw [hcancel hcancels] at hneeds
    cases hneeds
  start hstate := (h.start hstate).effect hforeign now

theorem Shim.needsSlot_of_state (shim : Shim) (h : shim.state.isLaunching = false) :
    shim.needsSlot = shim.unreaped := by
  rw [needsSlot, h, Bool.false_or]

theorem Shim.Unlaunched.reaped {shim : Shim} (h : shim.Unlaunched)
    (hprepares : shim.state.prepares = true) : shim.unreaped = false := by
  unfold Shim.unreaped
  rw [h hprepares]
  rfl

/-- Past its start, a shim that needs no slot is backed by any row. -/
theorem Shim.backed_of_idle {shim : Shim} (hneeds : shim.needsSlot = false)
    (hstate : shim.state ≠ .starting) (row : TaskRecord) : shim.Backed row where
  needs h := by
    rw [hneeds] at h
    cases h
  start h := absurd h hstate

theorem Shim.backed_of_active {row : TaskRecord} (h : row.hasActiveReservation = true)
    (shim : Shim) : shim.Backed row := ⟨fun _ => h, fun _ => .inr h⟩

/-- A step of the shim itself, if the cgroup of its workload is set up. -/
theorem ShimStep.backed {now : Timestamp} {failure : Option AppError} {choice : ShimChoice}
    {db db' : Db} {committed : Option StoreCall} {shim shim' : Shim} {row : TaskRecord}
    (h : ShimStep now failure choice db shim committed db' shim')
    (hcgroup : ∀ error, choice ≠ .confined (some error))
    (hunlaunched : shim.Unlaunched) (hsettled : shim.Settled)
    (hrow : db.tasks.find shim.taskId = some row) (hbacked : shim.Backed row) :
    ∃ row', db'.tasks.find shim.taskId = some row' ∧ shim'.Backed row' := by
  -- The shim is past its launch, with the same workload and reservation as before.
  have hlater : ∀ {t : Shim} {row' : TaskRecord}, t.state.prepares = false →
      t.workload = shim.workload → row'.hasActiveReservation = row.hasActiveReservation →
      t.Backed row' := by
    intro t row' hstate hworkload hactive
    have hlaunching : t.state.isLaunching = false := by
      cases hcase : t.state <;> rw [hcase] at hstate <;> first | rfl | cases hstate
    refine ⟨fun hneeds => hactive.trans (hbacked.needs ?_), fun hstarting => ?_⟩
    · rw [t.needsSlot_of_state hlaunching, Shim.unreaped, hworkload] at hneeds
      rw [Shim.needsSlot, Shim.unreaped, hneeds, Bool.or_true]
    · rw [hstarting] at hstate
      cases hstate
  have hwritten : ∀ {write : TaskWrite}, write.run now shim.taskId db = .ok db' →
      db'.tasks.find shim.taskId = some (write.effect now row) := by
    intro write hrun
    rw [Db.find_write hrun, if_pos rfl, hrow]
    rfl
  cases h with
  | failed e _ _ _ _ => exact ⟨row, hrow, hlater rfl rfl rfl⟩
  | @loaded _ task _ hstate htask =>
    rw [hrow] at htask
    cases htask
    have hreaped : shim.unreaped = false := hunlaunched.reaped (by rw [hstate]; rfl)
    refine ⟨row, hrow, ?_⟩
    unfold Shim.load
    split
    · exact hlater rfl rfl rfl
    · rename_i hlive
      split
      · exact hlater rfl rfl rfl
      · refine Shim.backed_of_active ?_ _
        rcases hbacked.start hstate with hterminal | hactive
        · exact absurd hterminal hlive
        · exact hactive
  | notSpawned e _ _ => exact ⟨row, hrow, hlater rfl rfl rfl⟩
  | spawned _ hstate _ =>
    refine ⟨row, hrow, Shim.backed_of_active (hbacked.needs ?_) _⟩
    rw [Shim.needsSlot, hstate]
    rfl
  | confined _ _ _ => exact ⟨row, hrow, hlater rfl rfl rfl⟩
  | notConfined e _ _ hchoice => exact absurd hchoice (hcgroup e)
  | started _ _ _ hrun =>
    exact ⟨_, hwritten hrun, hlater rfl rfl rfl⟩
  | reloaded _ _ _ => exact ⟨row, hrow, hlater rfl rfl rfl⟩
  | polled _ _ _ _ => exact ⟨row, hrow, hlater rfl rfl rfl⟩
  | timeoutDue _ _ _ _ _ => exact ⟨row, hrow, hlater rfl rfl rfl⟩
  | timedOut _ _ _ hrun =>
    exact ⟨_, hwritten hrun, hlater rfl rfl rfl⟩
  | reaped usage _ _ hstate =>
    have hlaunching : shim.state.isLaunching = false ∧ shim.state ≠ .starting := by
      rcases hstate with ⟨s, hstate⟩ | ⟨s, elapsed, b, hstate⟩ <;>
        simp [hstate, ShimState.isLaunching]
    have hneeds : (shim.reap usage).needsSlot = false := by
      rw [(shim.reap usage).needsSlot_of_state hlaunching.1]
      exact shim.unreaped_reap usage
    exact ⟨row, hrow, Shim.backed_of_idle hneeds hlaunching.2 row⟩
  | collected update _ _ _ => exact ⟨row, hrow, hlater rfl rfl rfl⟩
  | completed hstate hrun =>
    have hneeds : Shim.needsSlot { shim with state := .persisting } = false :=
      (Shim.needsSlot_of_state _ rfl).trans (hsettled _ hstate)
    exact ⟨_, hwritten hrun, Shim.backed_of_idle hneeds (by simp) _⟩
  | persisted _ _ => exact ⟨row, hrow, hlater rfl rfl rfl⟩

theorem ShimStep.settled {now : Timestamp} {failure : Option AppError} {choice : ShimChoice}
    {db db' : Db} {committed : Option StoreCall} {shim shim' : Shim}
    (h : ShimStep now failure choice db shim committed db' shim')
    (hcgroup : ∀ error, choice ≠ .confined (some error)) (hunlaunched : shim.Unlaunched) :
    shim'.Settled := by
  intro update hafter
  cases h with
  | loaded _ hstate _ =>
    have hreaped : shim.unreaped = false := hunlaunched.reaped (by rw [hstate]; rfl)
    unfold Shim.load
    split
    · exact hreaped
    · split <;> exact hreaped
  | notSpawned _ _ hstate => exact hunlaunched.reaped (by rw [hstate]; rfl)
  | spawned _ _ _ =>
    unfold Shim.spawn at hafter
    simp only at hafter
    split at hafter <;> cases hafter
  | notConfined e _ _ hchoice => exact absurd hchoice (hcgroup e)
  | reaped usage _ _ _ => exact shim.unreaped_reap usage
  | collected _ _ _ hreaped => exact hreaped
  | _ => cases hafter

namespace World

variable {svc : RuntimeService} {w w' : World} {e : Event}

/-- No cancellation hits an accepted row whose shim has loaded it, and the cgroup
of a spawned workload is set up. -/
structure KeepsCover (svc : RuntimeService) (w : World) (e : Event) : Prop where
  cancel : ∀ taskId write row, w.committed svc e = some (.write taskId write) →
    w.db.tasks.find taskId = some row → write.cancels row →
    ∀ shim ∈ w.procs.shims, shim.taskId = taskId → shim.needsSlot = false
  cgroup : ∀ i error, e.action ≠ .shim i (.confined (some error))

/-- A serving server whose shims and reserved task are backed by their rows. -/
structure Covered (w : World) (d : Dispatcher) : Prop where
  serving : w.procs.server = .serving d
  exclusive : Exclusive Shim.every w
  unlaunched : ∀ shim ∈ w.procs.shims, shim.Unlaunched
  settled : ∀ shim ∈ w.procs.shims, shim.Settled
  backed : ∀ shim ∈ w.procs.shims, ∃ row, w.db.tasks.find shim.taskId = some row ∧ shim.Backed row
  unspawned : ∀ taskId, d.unspawned = some taskId →
    ∃ row, w.db.tasks.find taskId = some row ∧ row.Supported

theorem covered_serve (db : Db) : Covered (serve db) .idle where
  serving := rfl
  exclusive := exclusive_serve _ db
  unlaunched _ hshim := by cases hshim
  settled _ hshim := by cases hshim
  backed _ hshim := by cases hshim
  unspawned _ hunspawned := by cases hunspawned

/-- A write to a task comes from its own shim, completes a task whose shim did not
start, or is foreign. -/
theorem Covered.isForeign {d : Dispatcher} (h : Covered w d) (hstep : w.step svc e = some w')
    {taskId : TaskId} {write : TaskWrite}
    (hcommitted : w.committed svc e = some (.write taskId write))
    (hshim : ∀ i choice shim, e.action = .shim i choice → w.procs.shims[i]? = some shim →
      shim.taskId ≠ taskId)
    (hdispatch : ∀ outcome, e.action = .dispatch outcome → d.unspawned ≠ some taskId) :
    write.isForeign = true := by
  cases step_write hstep hcommitted with
  | request _ hcall => cases hcall <;> rfl
  | dispatch outcome d₁ d' haction hserver hwrite _ =>
    rw [h.serving] at hserver
    cases hserver
    cases hwrite with
    | failed => exact absurd rfl (hdispatch outcome haction)
    | _ => rfl
  | recover _ _ _ _ hserver _ _ =>
    rw [h.serving] at hserver
    cases hserver
  | shim i choice shim _ haction hfind hid _ _ =>
    exact absurd hid (hshim i choice shim haction hfind)

/-- The row of a shim that does not move. -/
theorem Covered.backed_other {d : Dispatcher} (h : Covered w d) (hgc : e.action.isGc = false)
    (hguard : w.KeepsCover svc e) (hstep : w.step svc e = some w') {i : ℕ} {shim : Shim}
    (hshim : w.procs.shims[i]? = some shim) (hother : ∀ choice, e.action ≠ .shim i choice) :
    ∃ row, w'.db.tasks.find shim.taskId = some row ∧ shim.Backed row := by
  have hmem : shim ∈ w.procs.shims := List.mem_of_getElem? hshim
  obtain ⟨row, hrow, hbacked⟩ := h.backed shim hmem
  cases step_row hstep hgc hrow with
  | kept hrow' _ => exact ⟨row, hrow', hbacked⟩
  | written write hcommitted hrow' =>
    refine ⟨_, hrow', hbacked.effect (h.isForeign hstep hcommitted ?_ ?_) ?_ e.now⟩
    · intro j choice t haction ht hid
      have hij : j = i := h.exclusive.distinct j i t shim ht hshim rfl rfl hid
      exact hother choice (hij ▸ haction)
    · intro _ _ hunspawned
      exact (h.exclusive.cycle d h.serving).unspawned _ hunspawned ⟨shim, hmem, rfl, rfl⟩
    · intro hcancels
      exact hguard.cancel _ write row hcommitted hrow hcancels shim hmem rfl

/-- The row of the task that the cycle has reserved, in a step of another actor. -/
theorem Covered.unspawned_other {d : Dispatcher} (h : Covered w d) (hgc : e.action.isGc = false)
    (hstep : w.step svc e = some w') (hother : ∀ outcome, e.action ≠ .dispatch outcome)
    {taskId : TaskId} (hunspawned : d.unspawned = some taskId) :
    ∃ row, w'.db.tasks.find taskId = some row ∧ row.Supported := by
  obtain ⟨row, hrow, hsupported⟩ := h.unspawned taskId hunspawned
  cases step_row hstep hgc hrow with
  | kept hrow' _ => exact ⟨row, hrow', hsupported⟩
  | written write hcommitted hrow' =>
    refine ⟨_, hrow', hsupported.effect (h.isForeign hstep hcommitted ?_ ?_) e.now⟩
    · intro i choice shim _ hshim hid
      exact (h.exclusive.cycle d h.serving).unspawned taskId hunspawned
        ⟨shim, List.mem_of_getElem? hshim, rfl, hid⟩
    · intro outcome haction
      exact absurd haction (hother outcome)

/-- The task that a cycle has reserved is supported after a step of the cycle. -/
theorem Covered.unspawned_dispatch {d d' : Dispatcher} (h : Covered w d) {outcome : SpawnOutcome}
    {committed : Option StoreCall} {db' : Db}
    (hmove : DispatchStep svc e.now outcome w.db committed db' d d') :
    ∀ taskId, d'.unspawned = some taskId ∨ (∃ pid, d.spawns outcome = some (taskId, pid)) →
      ∃ row, db'.tasks.find taskId = some row ∧ row.Supported := by
  have hspawns : ∀ taskId pid, d.spawns outcome = some (taskId, pid) →
      ∃ row, w.db.tasks.find taskId = some row ∧ row.Supported := by
    intro taskId pid hspawns
    exact h.unspawned taskId (Dispatcher.unspawned_of_spawns hspawns)
  rintro taskId (hunspawned | ⟨pid, hpid⟩)
  · cases hmove with
    | reserved _ hrun =>
      cases hunspawned
      obtain ⟨row, hrow⟩ := TaskWrite.find_of_run rfl hrun
      exact ⟨_, by rw [Db.find_write hrun, if_pos rfl, hrow]; rfl, .inr rfl⟩
    | notSpawned _ _ => exact h.unspawned taskId hunspawned
    | _ => cases hunspawned
  · cases hmove with
    | stop _ => exact hspawns taskId pid hpid
    | spawned _ _ => exact hspawns taskId pid hpid
    | notSpawned _ _ => exact hspawns taskId pid hpid
    | _ => cases hpid

theorem Covered.step {d : Dispatcher} (h : Covered w d) (hlife : e.action.isCrash = false)
    (hgc : e.action.isGc = false) (hguard : w.KeepsCover svc e)
    (hstep : w.step svc e = some w') : ∃ d', Covered w' d' := by
  have hexclusive : Exclusive Shim.every w' :=
    h.exclusive.step Shim.selects_every hgc (freesOrphans_of_serving h.serving hstep _) hstep
  have hold : (∀ i choice, e.action ≠ .shim i choice) → ∀ shim ∈ w.procs.shims,
      ∃ row, w'.db.tasks.find shim.taskId = some row ∧ shim.Backed row := by
    intro hother shim hmem
    obtain ⟨i, hi⟩ := List.mem_iff_getElem?.mp hmem
    exact h.backed_other hgc hguard hstep hi (hother i)
  cases step_cases hstep with
  | request dispatcher haction hserver hserver' hshims _ =>
    rw [h.serving] at hserver
    cases hserver
    refine ⟨d, hserver', hexclusive, by rw [hshims]; exact h.unlaunched,
      by rw [hshims]; exact h.settled, ?_, fun taskId => h.unspawned_other hgc hstep ?_⟩
    · rw [hshims]
      refine hold (fun i choice hshim => ?_)
      rw [hshim] at haction
      cases haction
    · intro outcome hdispatch
      rw [hdispatch] at haction
      cases haction
  | gc _ _ haction _ _ _ _ =>
    rw [haction] at hgc
    cases hgc
  | dispatch outcome d₁ d' haction hserver _ hmove hprocs =>
    rw [h.serving] at hserver
    cases hserver
    have hsupported := h.unspawned_dispatch hmove
    have hshims : ∀ shim ∈ w'.procs.shims, shim ∈ w.procs.shims ∨
        ∃ new, d.spawns outcome = some new ∧ shim = Shim.ofSpawn new := by
      intro shim hmem
      rw [hprocs] at hmem
      rcases List.mem_append.mp hmem with hmem | hmem
      · exact .inl hmem
      · obtain ⟨new, hnew, rfl⟩ := List.mem_map.mp hmem
        exact .inr ⟨new, Option.mem_toList.mp hnew, rfl⟩
    refine ⟨d', by rw [hprocs]; rfl, hexclusive, ?_, ?_, ?_,
      fun taskId hunspawned => hsupported taskId (.inl hunspawned)⟩
    · intro shim hmem
      rcases hshims shim hmem with hmem | ⟨new, _, rfl⟩
      · exact h.unlaunched shim hmem
      · exact fun _ => rfl
    · intro shim hmem
      rcases hshims shim hmem with hmem | ⟨new, _, rfl⟩
      · exact h.settled shim hmem
      · rintro update ⟨⟩
    · intro shim hmem
      rcases hshims shim hmem with hmem | ⟨new, hnew, rfl⟩
      · exact hold (by simp [haction]) shim hmem
      · obtain ⟨row, hrow, hsupport⟩ := hsupported new.1 (.inr ⟨new.2, hnew⟩)
        exact ⟨row, hrow, ⟨fun hneeds => (by cases hneeds), fun _ => hsupport⟩⟩
  | recover pidTaken _ _ haction _ _ _ =>
    exact absurd haction (not_recover_of_serving h.serving hstep pidTaken)
  | shim i choice shim shim' haction hshim _ hmove hprocs =>
    have hcgroup : ∀ error, choice ≠ .confined (some error) := by
      intro error hchoice
      exact hguard.cgroup i error (hchoice ▸ haction)
    have hmem : shim ∈ w.procs.shims := List.mem_of_getElem? hshim
    have hshims : w'.procs.shims = w.procs.shims.set i shim' := by rw [hprocs]
    refine ⟨d, by rw [hprocs]; exact h.serving, hexclusive,
      hshims ▸ forall_mem_set (hmove.unlaunched (h.unlaunched shim hmem))
        (fun _ t ht _ => h.unlaunched t (List.mem_of_getElem? ht)),
      hshims ▸ forall_mem_set (hmove.settled hcgroup (h.unlaunched shim hmem))
        (fun _ t ht _ => h.settled t (List.mem_of_getElem? ht)),
      hshims ▸ forall_mem_set ?_ ?_, fun taskId => h.unspawned_other hgc hstep (by simp [haction])⟩
    · obtain ⟨row, hrow, hbacked⟩ := h.backed shim hmem
      rw [hmove.taskId]
      exact hmove.backed hcgroup (h.unlaunched shim hmem) (h.settled shim hmem) hrow hbacked
    · intro j t ht hne
      refine h.backed_other hgc hguard hstep ht (fun choice' hother => ?_)
      rw [haction] at hother
      cases hother
      exact hne rfl
  | crash haction _ _ _ =>
    rw [haction] at hlife
    cases hlife
  | restart _ _ _ hserver _ =>
    rw [h.serving] at hserver
    cases hserver

end World

/-- The pid of the workload, if there is one. -/
def Shim.workloadPid (shim : Shim) : ℕ := (shim.workload.map Workload.pid).getD 0

theorem Shim.holdsPid_of_unreaped {shim : Shim} (h : shim.unreaped = true) :
    shim.holdsPid shim.workloadPid = true := by
  obtain ⟨workload, hworkload, hwaited⟩ := (Option.any_eq_true _ _).mp h
  simp [holdsPid, workloadPid, hworkload, hwaited]

/-- A workload that is not waited for was there before the step or gets a new pid. -/
theorem ShimStep.unreaped {now : Timestamp} {failure : Option AppError} {choice : ShimChoice}
    {db db' : Db} {committed : Option StoreCall} {shim shim' : Shim}
    (h : ShimStep now failure choice db shim committed db' shim') (hafter : shim'.unreaped = true) :
    (shim.unreaped = true ∧ shim'.workloadPid = shim.workloadPid) ∨
      ∃ pid, choice = .spawned pid ∧ shim'.workloadPid = pid := by
  cases h with
  | loaded _ _ _ =>
    refine .inl ?_
    unfold Shim.load at hafter ⊢
    split at hafter
    · exact ⟨hafter, by simp [*]; rfl⟩
    · split at hafter <;> exact ⟨hafter, by simp [*]; rfl⟩
  | spawned _ _ hchoice => exact .inr ⟨_, hchoice, rfl⟩
  | reaped usage _ _ _ =>
    rw [shim.unreaped_reap usage] at hafter
    cases hafter
  | _ => exact .inl ⟨hafter, rfl⟩

namespace World

variable {svc : RuntimeService} {w w' : World} {e : Event}

/-- The running workloads have pids of their own, all of them a positive `pid_t`. -/
structure PidsDistinct (w : World) : Prop where
  distinct : Distinct Shim.unreaped Shim.workloadPid w.procs.shims
  below : ∀ shim ∈ w.procs.shims, shim.unreaped = true → shim.workloadPid < 2 ^ 31

theorem PidsDistinct.step (h : PidsDistinct w) (hstep : w.step svc e = some w') :
    PidsDistinct w' := by
  cases step_shims hstep with
  | same hshims _ => exact ⟨by rw [hshims]; exact h.distinct, by rw [hshims]; exact h.below⟩
  | spawned _ _ new _ _ _ hshims =>
    refine ⟨?_, ?_⟩
    · rw [hshims]
      exact h.distinct.append_one (fun hunreaped => by cases hunreaped)
    · intro shim hmem hunreaped
      rw [hshims] at hmem
      rcases List.mem_append.mp hmem with hmem | hmem
      · exact h.below shim hmem hunreaped
      · rw [List.mem_singleton.mp hmem] at hunreaped
        cases hunreaped
  | moved i choice shim shim' _ hshim hfresh hmove hshims =>
    have hmem : shim ∈ w.procs.shims := List.mem_of_getElem? hshim
    -- A pid that the kernel gives out is held by no running workload.
    have hnew : ∀ pid, choice = .spawned pid → pid < 2 ^ 31 ∧
        ∀ t ∈ w.procs.shims, t.unreaped = true → t.workloadPid ≠ pid := by
      intro pid hchoice
      have hpid := hfresh pid hchoice
      simp only [Procs.freshPid, Procs.processExists, Bool.and_eq_true, decide_eq_true_eq,
        Bool.not_eq_true', List.any_eq_false] at hpid
      refine ⟨hpid.1.2, ?_⟩
      intro t ht hunreaped heq
      exact hpid.2 t ht (heq ▸ Shim.holdsPid_of_unreaped hunreaped)
    refine ⟨?_, ?_⟩
    · rw [hshims]
      refine h.distinct.set ?_
      intro hafter j t ht hne hunreaped
      rcases hmove.unreaped hafter with ⟨hbefore, hpid⟩ | ⟨pid, hchoice, hpid⟩
      · rw [hpid]
        exact fun heq => hne (h.distinct j i t shim ht hshim hunreaped hbefore heq)
      · rw [hpid]
        exact (hnew pid hchoice).2 t (List.mem_of_getElem? ht) hunreaped
    · rw [hshims]
      refine forall_mem_set ?_ (fun _ t ht _ => h.below t (List.mem_of_getElem? ht))
      intro hafter
      rcases hmove.unreaped hafter with ⟨hbefore, hpid⟩ | ⟨pid, hchoice, hpid⟩
      · rw [hpid]
        exact h.below shim hmem hbefore
      · rw [hpid]
        exact (hnew pid hchoice).1

/-- Every running workload holds an active reservation, and there are no more of
them than task slots. -/
structure CoversRunning (svc : RuntimeService) (w : World) : Prop where
  active : ∀ shim ∈ w.procs.shims, shim.unreaped = true →
    ∃ row, w.db.tasks.find shim.taskId = some row ∧ row.hasActiveReservation = true
  count : (w.procs.shims.filter Shim.unreaped).length ≤ svc.ledger.capacity.taskSlots

theorem Covered.active {d : Dispatcher} (h : Covered w d) : ∀ shim ∈ w.procs.shims,
    shim.unreaped = true →
      ∃ row, w.db.tasks.find shim.taskId = some row ∧ row.hasActiveReservation = true := by
  intro shim hmem hunreaped
  obtain ⟨row, hrow, hbacked⟩ := h.backed shim hmem
  exact ⟨row, hrow, hbacked.needs (by rw [Shim.needsSlot, hunreaped, Bool.or_true])⟩

/-- The running workloads are at most as many as the reserved task slots. -/
theorem Covered.count_le_sum {d : Dispatcher} (h : Covered w d) (hslots : OneSlots w) :
    (w.procs.shims.filter Shim.unreaped).length ≤
      w.db.activeSum .taskSlots (fun _ => true) := by
  have hdistinct : Distinct Shim.unreaped Shim.taskId w.procs.shims :=
    h.exclusive.distinct.mono (fun _ _ => rfl)
  rw [← List.length_map Shim.taskId, Db.activeSum, Table.select_sum]
  refine Table.length_le_total _ _ _ hdistinct.nodup ?_
  intro taskId hmem
  obtain ⟨shim, hshim, rfl⟩ := List.mem_map.mp hmem
  obtain ⟨hshim, hunreaped⟩ := List.mem_filter.mp hshim
  obtain ⟨row, hrow, hactive⟩ := h.active shim hshim hunreaped
  refine ⟨row, hrow, ?_⟩
  have hisSome : row.reservation.isSome = true := by
    simp only [TaskRecord.hasActiveReservation, Bool.and_eq_true] at hactive
    exact hactive.1
  obtain ⟨reservation, hreservation⟩ := Option.isSome_iff_exists.mp hisSome
  have hone := hslots.rows shim.taskId row hrow reservation hreservation
  simp [hactive, hreservation, Component.share, Component.amount, Component.requested, hone]

/-- The ledger covers what runs: in a server life in which no cancellation hits an
accepted row whose shim has loaded it and every cgroup is set up, the running
workloads hold active reservations and fit into the task slots. -/
theorem covers_running {trace : List (World × Event)} {last : World}
    (hrun : Run svc init trace last) (hlife : OneLife trace)
    (hgc : ∀ x ∈ trace, x.2.action.isGc = false)
    (hguard : ∀ x ∈ trace, x.1.KeepsCover svc x.2) :
    ∀ s ∈ Runs.visited trace last, s.CoversRunning svc := by
  have hinvariant : ∀ s ∈ Runs.visited trace last,
      (∃ d, Covered s d) ∧ OneSlots s ∧ PidsDistinct s := by
    refine hrun.invariant_visited
      (G := fun w e => e.action.isCrash = false ∧ e.action.isGc = false ∧ w.KeepsCover svc e)
      ⟨⟨.idle, covered_serve _⟩, ⟨Db.eachTask_empty _, fun _ htask => by cases htask⟩,
        ⟨distinct_nil, fun _ hshim => by cases hshim⟩⟩ ?_
      (fun x hx => ⟨hlife x hx, hgc x hx, hguard x hx⟩)
    rintro w e w' ⟨⟨d, hcovered⟩, hslots, hpids⟩ ⟨hlife, hgc, hguard⟩ hstep
    exact ⟨hcovered.step hlife hgc hguard hstep, hslots.step hstep, hpids.step hstep⟩
  intro s hs
  obtain ⟨⟨d, hcovered⟩, hslots, hpids⟩ := hinvariant s hs
  refine ⟨hcovered.active, ?_⟩
  rcases Nat.lt_or_ge svc.ledger.capacity.taskSlots u64Max with hbelow | htop
  · exact (hcovered.count_le_sum hslots).trans
      (active_sum_le_of_below (c := .taskSlots) hrun hlife rfl hbelow s hs)
  · -- At the top of the word the sum saturates, but there are fewer pids than that.
    have hpid : 2 ^ 31 ≤ u64Max := by decide
    exact (hpids.distinct.length_le hpids.below).trans (hpid.trans htop)

/-- A check that implies `KeepsCover`. -/
def keepsCoverCheck (svc : RuntimeService) (w : World) (e : Event) : Bool :=
  (match w.committed svc e with
    | some (.write taskId (.cancelAcceptedTask _)) =>
      w.procs.shims.all (fun shim => decide (shim.taskId ≠ taskId) || !shim.needsSlot)
    | _ => true) &&
  match e.action with
  | .shim _ (.confined (some _)) => false
  | _ => true

theorem keepsCover_of_check (h : w.keepsCoverCheck svc e = true) : w.KeepsCover svc e := by
  obtain ⟨hcancel, hcgroup⟩ := Bool.and_eq_true_iff.mp h
  refine ⟨?_, ?_⟩
  · rintro taskId write row hcommitted _ ⟨⟨error, rfl⟩, _⟩ shim hmem hid
    rw [hcommitted] at hcancel
    simpa [hid] using List.all_eq_true.mp hcancel shim hmem
  · intro i error haction
    rw [haction] at hcgroup
    cases hcgroup

/-- A task that runs to its end while another is killed as it waits for the slot. -/
theorem covers_running_of_waiting_kill :
    ∃ trace last, Run (smallService ⟨1, none, none⟩) init trace last ∧
      trace.map Prod.snd = events (submitActions 0 (commandRequest "a") ++ dispatchActions 10 ++
        submitActions 1 (commandRequest "b") ++
        [.receiveKill "b" none, .kill 0 none, .kill 0 none, .kill 0 none, .kill 0 none] ++
        shimActions 0 11) ∧
      ∀ s ∈ Runs.visited trace last, s.CoversRunning (smallService ⟨1, none, none⟩) := by
  have hexec : (execute (smallService ⟨1, none, none⟩)
      (keepsCoverCheck (smallService ⟨1, none, none⟩))
      (events (submitActions 0 (commandRequest "a") ++ dispatchActions 10 ++
        submitActions 1 (commandRequest "b") ++
        [.receiveKill "b" none, .kill 0 none, .kill 0 none, .kill 0 none, .kill 0 none] ++
        shimActions 0 11))).any (fun _ => true) = true := by decide +kernel
  obtain ⟨trace, last, hrun, hlabels, hcheck, _⟩ := Runs.exists_run_of_exec hexec
  refine ⟨trace, last, hrun, hlabels, covers_running hrun ?_ ?_ ?_⟩
  · exact Runs.forall_of_labels (P := fun e => e.action.isCrash = false) hlabels (by decide)
  · exact Runs.forall_of_labels (P := fun e => e.action.isGc = false) hlabels (by decide)
  · exact fun x hx => keepsCover_of_check (hcheck x hx)

/-- A kill cancels the row after the shim has loaded it, and the shim spawns the
workload all the same; the slot goes to a second task, whose workload runs too. -/
theorem kill_after_load_uncovered :
    ¬ ∀ svc trace last, Run svc init trace last → (∀ x ∈ trace, x.2.plain = true) →
      ∀ s ∈ Runs.visited trace last, s.CoversRunning svc := by
  intro hclaim
  have hexec : (execute (smallService ⟨1, none, none⟩) (fun _ e => e.plain)
      (events (submitActions 0 (commandRequest "a") ++
        List.replicate 4 (.dispatch (.spawned 10)) ++
        [.shim 0 .proceed, .receiveKill "a" none, .kill 0 none, .kill 0 none, .kill 0 none,
          .kill 0 none, .shim 0 (.spawned 11), .dispatch (.spawned 10), .dispatch (.spawned 10)] ++
        submitActions 1 (commandRequest "b") ++
        List.replicate 4 (.dispatch (.spawned 12)) ++
        [.shim 1 .proceed, .shim 1 (.spawned 13)]))).any (fun w =>
      decide ((w.procs.shims.filter Shim.unreaped).length = 2)) = true := by decide +kernel
  obtain ⟨trace, last, hrun, _, hplain, htest⟩ := Runs.exists_run_of_exec hexec
  have hcount := (hclaim _ trace last hrun hplain last (Runs.last_mem_visited trace last)).count
  rw [of_decide_eq_true htest] at hcount
  exact absurd hcount (by decide)

end World

end ExecgoRuntime
