import ExecgoRuntime.Tracking

/-!
Live tasks are not declared lost. In the first life of a server the dispatcher
has each task in hand once, and its row is not running before `mark_dispatched`
records the pid of its shim, unless the shim reports its start earlier. So if
every `mark_started` of a task finds the row running, the task is tracked from
`mark_dispatched` on, or its row is terminal by then and stays so, however many
crashes and restarts follow.
-/
namespace ExecgoRuntime

/-- The task that the cycle has reserved and not yet recorded. -/
def Dispatcher.inHand : Dispatcher → Option TaskId
  | .launching _ task _ _ | .dispatching _ task _ _ | .failing _ task _ _ _ => some task.taskId
  | _ => none

/-- The tasks that the cycle may still record. -/
def Dispatcher.remaining (d : Dispatcher) : List TaskId :=
  d.inHand.toList ++ d.pending.map TaskRecord.taskId

theorem DispatchStep.remaining {svc : RuntimeService} {now : Timestamp} {outcome : SpawnOutcome}
    {db db' : Db} {committed : Option StoreCall} {d d' : Dispatcher}
    (h : DispatchStep svc now outcome db committed db' d d') :
    d'.remaining.Sublist d.remaining ∨ (db' = db ∧
      d'.remaining = (db.listAccepted svc.settings.maxQueuedTasks).map TaskRecord.taskId) := by
  cases h with
  | stop _ => exact .inl (List.nil_sublist _)
  | started _ => exact .inl (List.nil_sublist _)
  | listed _ => exact .inr ⟨rfl, rfl⟩
  | skipped _ => exact .inl (List.sublist_cons_self _ _)
  | cancelled _ => exact .inl (List.sublist_cons_self _ _)
  | reserved _ _ => exact .inl (List.Sublist.refl _)
  | spawned _ _ => exact .inl (List.Sublist.refl _)
  | notSpawned _ _ => exact .inl (List.Sublist.refl _)
  | dispatched _ => exact .inl (List.sublist_cons_self _ _)
  | failed _ => exact .inl (List.sublist_cons_self _ _)
  | persisted _ => exact .inl (List.Sublist.refl _)

section Effect

variable {write : TaskWrite} {row : TaskRecord}

/-- Only `mark_dispatched` and `mark_started` make a row running. -/
theorem TaskWrite.effect_not_running (h : row.status ≠ .running)
    (hdispatched : ∀ shimPid, write ≠ .markDispatched shimPid)
    (hstarted : ∀ pid pgid scriptPath, write ≠ .markStarted pid pgid scriptPath)
    (now : Timestamp) : (write.effect now row).status ≠ .running := by
  cases write with
  | markDispatched shimPid => exact absurd rfl (hdispatched shimPid)
  | markStarted pid pgid scriptPath => exact absurd rfl (hstarted pid pgid scriptPath)
  | reserveResources reservation message => exact h
  | setCancelRequested => exact h
  | markTimeoutTriggered => exact h
  | releaseResources message =>
    simp only [effect]
    split <;> exact h
  | cancelAcceptedTask error =>
    simp only [effect, TaskRecord.setCancelled]
    split
    · simp
    · exact h
  | completeTask update =>
    intro hrunning
    have hstatus : update.status = .running := hrunning
    have hterminal := update.terminal
    rw [hstatus] at hterminal
    cases hterminal
  | markRecovered =>
    simp only [effect, TaskRecord.setRecovered]
    split <;> exact h

/-- Only `mark_started` takes a row out of a terminal status. -/
theorem TaskWrite.effect_isTerminal (h : row.status.isTerminal = true)
    (hstarted : ∀ pid pgid scriptPath, write ≠ .markStarted pid pgid scriptPath)
    (now : Timestamp) : (write.effect now row).status.isTerminal = true := by
  have haccepted : row.status ≠ .accepted := by
    intro hstatus
    rw [hstatus] at h
    cases h
  cases write with
  | markStarted pid pgid scriptPath => exact absurd rfl (hstarted pid pgid scriptPath)
  | completeTask update => exact update.terminal
  | reserveResources reservation message => exact h
  | releaseResources message =>
    simp only [effect]
    split <;> exact h
  | _ =>
    rw [(effect_note rfl haccepted now).1]
    exact h

end Effect

namespace World

variable {svc : RuntimeService} {w w' : World} {e : Event}

/-- The step that commits `mark_dispatched` is the dispatcher's, which has started the shim. -/
theorem step_markDispatched (h : w.step svc e = some w') {taskId : TaskId} {pid : ℕ}
    (hcommitted : w.committed svc e = some (.write taskId (.markDispatched pid))) :
    ∃ outcome totals task rest, e.action = .dispatch outcome ∧ task.taskId = taskId ∧
      w.procs.server = .serving (.dispatching totals task pid rest) ∧
      w'.procs.server = .serving (.scanning totals rest) ∧ w'.procs.shims = w.procs.shims := by
  cases step_write h hcommitted with
  | request _ hcall => cases hcall
  | dispatch outcome d d' haction hserver hwrite hprocs =>
    cases hwrite
    exact ⟨outcome, _, _, _, haction, rfl, hserver, by rw [hprocs]; rfl,
      by rw [hprocs]; exact List.append_nil _⟩
  | recover _ _ _ _ _ hwrite _ => cases hwrite
  | shim _ _ _ _ _ _ _ hwrite _ => cases hwrite

/-- In a server life each task has at most one shim, and a cycle that is about to
record a pid has started a shim with it. -/
structure FirstLife (w : World) (d : Dispatcher) : Prop where
  serving : w.procs.server = .serving d
  exclusive : Exclusive Shim.every w
  spawned : ∀ totals task shimPid rest, d = .dispatching totals task shimPid rest →
    ∃ shim ∈ w.procs.shims, shim.taskId = task.taskId ∧ shim.pid = shimPid

theorem firstLife_serve (db : Db) : FirstLife (serve db) .idle where
  serving := rfl
  exclusive := exclusive_serve _ db
  spawned _ _ _ _ hd := by cases hd

theorem FirstLife.step {d : Dispatcher} (h : FirstLife w d) (hlife : e.action.isCrash = false)
    (hgc : e.action.isGc = false) (hstep : w.step svc e = some w') : ∃ d', FirstLife w' d' := by
  have hexclusive : Exclusive Shim.every w' :=
    h.exclusive.step Shim.selects_every hgc (freesOrphans_of_serving h.serving hstep _) hstep
  have hsame : w'.procs.server = .serving d → ∃ d', FirstLife w' d' := by
    intro hserver'
    refine ⟨d, hserver', hexclusive, fun totals task shimPid rest hd => ?_⟩
    obtain ⟨shim, hmem, hid, hpid⟩ := h.spawned totals task shimPid rest hd
    obtain ⟨shim', hmem', rfl | ⟨choice, hmove⟩⟩ := exists_shim_of_step hstep hmem
    · exact ⟨shim', hmem', hid, hpid⟩
    · exact ⟨shim', hmem', hmove.taskId.trans hid, hmove.pid.trans hpid⟩
  cases step_cases hstep with
  | request dispatcher _ hserver hserver' _ _ =>
    rw [h.serving] at hserver
    cases hserver
    exact hsame hserver'
  | gc _ _ haction _ _ _ _ =>
    rw [haction] at hgc
    cases hgc
  | dispatch outcome d₁ d' _ hserver _ hmove hprocs =>
    rw [h.serving] at hserver
    cases hserver
    refine ⟨d', by rw [hprocs, Procs.afterDispatch_server], hexclusive, ?_⟩
    rintro totals task shimPid rest rfl
    generalize w'.db = db' at hmove
    generalize w.committed svc e = committed at hmove
    cases hmove with
    | spawned _ houtcome =>
      refine ⟨Shim.ofSpawn (task.taskId, shimPid), ?_, rfl, rfl⟩
      rw [hprocs, houtcome]
      exact List.mem_append_right _ (List.mem_singleton.mpr rfl)
  | recover pidTaken _ _ haction _ _ _ =>
    exact absurd haction (not_recover_of_serving h.serving hstep pidTaken)
  | shim _ _ _ _ _ _ _ _ hprocs => exact hsame (by rw [hprocs]; exact h.serving)
  | crash haction _ _ _ =>
    rw [haction] at hlife
    cases hlife
  | restart _ _ _ hserver _ =>
    rw [h.serving] at hserver
    cases hserver

/-- A `mark_started` of the task finds its row running. -/
def StartsRunning (svc : RuntimeService) (taskId : TaskId) (w : World) (e : Event) : Prop :=
  ∀ pid pgid scriptPath row,
    w.committed svc e = some (.write taskId (.markStarted pid pgid scriptPath)) →
    w.db.tasks.find taskId = some row → row.status = .running

/-- The row of the task is not running while the cycle may still record it. -/
structure Unrecorded (taskId : TaskId) (w : World) (d : Dispatcher) : Prop where
  nodup : d.remaining.Nodup
  status : taskId ∈ d.remaining →
    ∃ row, w.db.tasks.find taskId = some row ∧ row.status ≠ .running

theorem unrecorded_serve (taskId : TaskId) (db : Db) : Unrecorded taskId (serve db) .idle where
  nodup := List.nodup_nil
  status hmem := by cases hmem

section

variable {taskId : TaskId} {pid : ℕ} {d d' : Dispatcher}

theorem step_remaining (hstep : w.step svc e = some w') (hserver : w.procs.server = .serving d)
    (hserver' : w'.procs.server = .serving d') :
    d'.remaining.Sublist d.remaining ∨ (w'.db = w.db ∧
      d'.remaining = (w.db.listAccepted svc.settings.maxQueuedTasks).map TaskRecord.taskId) := by
  have hsame : w'.procs.server = w.procs.server → d'.remaining.Sublist d.remaining := by
    intro heq
    rw [hserver, hserver'] at heq
    cases heq
    exact List.Sublist.refl _
  cases step_cases hstep with
  | request _ _ hbefore hafter _ _ => exact .inl (hsame (hafter.trans hbefore.symm))
  | gc _ _ _ hbefore hafter _ _ => exact .inl (hsame (hafter.trans hbefore.symm))
  | dispatch _ d₁ d₂ _ hbefore _ hmove hprocs =>
    rw [hserver] at hbefore
    cases hbefore
    rw [hprocs] at hserver'
    cases hserver'
    exact hmove.remaining
  | recover pidTaken _ _ haction _ _ _ =>
    exact absurd haction (not_recover_of_serving hserver hstep pidTaken)
  | shim _ _ _ _ _ _ _ _ hprocs => exact .inl (hsame (by rw [hprocs]))
  | crash _ _ _ hprocs =>
    rw [hprocs] at hserver'
    cases hserver'
  | restart _ _ _ hbefore _ =>
    rw [hserver] at hbefore
    cases hbefore

theorem Unrecorded.step (h : Unrecorded taskId w d) (hserver : w.procs.server = .serving d)
    (hserver' : w'.procs.server = .serving d') (hgc : e.action.isGc = false)
    (hstarts : w.StartsRunning svc taskId e) (hstep : w.step svc e = some w') :
    Unrecorded taskId w' d' := by
  have hkept : taskId ∈ d.remaining → taskId ∈ d'.remaining →
      ∃ row, w'.db.tasks.find taskId = some row ∧ row.status ≠ .running := by
    intro hbefore hafter
    obtain ⟨row, hrow, hstatus⟩ := h.status hbefore
    cases step_row hstep hgc hrow with
    | kept hrow' _ => exact ⟨row, hrow', hstatus⟩
    | written write hcommitted hrow' =>
      refine ⟨_, hrow', TaskWrite.effect_not_running hstatus ?_ ?_ e.now⟩
      · -- Once recorded, the task is in the cycle no more.
        rintro shimPid rfl
        obtain ⟨_, _, task, rest, _, rfl, hdispatching, hscanning, _⟩ :=
          step_markDispatched hstep hcommitted
        rw [hserver] at hdispatching
        cases hdispatching
        rw [hserver'] at hscanning
        cases hscanning
        exact (List.nodup_cons.mp h.nodup).1 hafter
      · rintro started pgid scriptPath rfl
        exact hstatus (hstarts started pgid scriptPath row hcommitted hrow)
  rcases step_remaining hstep hserver hserver' with hsub | ⟨hdb, hlisted⟩
  · exact ⟨h.nodup.sublist hsub, fun hmem => hkept (hsub.mem hmem) hmem⟩
  · refine ⟨by rw [hlisted]; exact w.db.listAccepted_nodup _, fun hmem => ?_⟩
    rw [hlisted] at hmem
    obtain ⟨task, htask, rfl⟩ := List.mem_map.mp hmem
    obtain ⟨hrow, haccepted⟩ := Db.mem_listAccepted htask
    exact ⟨task, by rw [hdb]; exact hrow, by simp [haccepted]⟩

/-- The row of the task is terminal. -/
def Ended (taskId : TaskId) (w : World) : Prop :=
  ∃ row, w.db.tasks.find taskId = some row ∧ row.status.isTerminal = true

theorem Ended.step (h : Ended taskId w) (hgc : e.action.isGc = false)
    (hstarts : w.StartsRunning svc taskId e) (hstep : w.step svc e = some w') :
    Ended taskId w' := by
  obtain ⟨row, hrow, hterminal⟩ := h
  cases step_row hstep hgc hrow with
  | kept hrow' _ => exact ⟨row, hrow', hterminal⟩
  | written write hcommitted hrow' =>
    refine ⟨_, hrow', TaskWrite.effect_isTerminal hterminal ?_ e.now⟩
    rintro started pgid scriptPath rfl
    rw [hstarts started pgid scriptPath row hcommitted hrow] at hterminal
    cases hterminal

theorem Ended.sparesLive (h : Ended taskId w) : SparesLive svc taskId w e w' := by
  intro row _ hrow hrunning
  obtain ⟨row', hrow', hterminal⟩ := h
  rw [hrow] at hrow'
  cases hrow'
  rw [hrunning] at hterminal
  cases hterminal

/-- A task is tracked once `mark_dispatched` has made its accepted row running. -/
theorem FirstLife.tracked (h : FirstLife w d) (hstep : w.step svc e = some w')
    (hcommitted : w.committed svc e = some (.write taskId (.markDispatched pid)))
    {row : TaskRecord} (hrow : w.db.tasks.find taskId = some row)
    (haccepted : row.status = .accepted) : Tracked taskId pid w' := by
  obtain ⟨outcome, totals, task, rest, haction, hid, hserver, hserver', hshims⟩ :=
    step_markDispatched hstep hcommitted
  rw [h.serving] at hserver
  cases hserver
  obtain ⟨shim, hmem, hshim, hpid⟩ := h.spawned _ _ _ _ rfl
  rw [hid] at hshim
  have hgc : e.action.isGc = false := by rw [haction]; rfl
  obtain ⟨d', h'⟩ := h.step (by rw [haction]; rfl) hgc hstep
  have htaken : w'.Taken Shim.every taskId := ⟨shim, hshims ▸ hmem, rfl, hshim⟩
  have hactive : row.hasActiveReservation = true := by
    obtain ⟨row', hrow', hengaged⟩ := h.exclusive.engaged taskId ⟨shim, hmem, rfl, hshim⟩
    rw [hrow] at hrow'
    cases hrow'
    exact hengaged.resolve_left (fun hstatus => hstatus haccepted)
  refine ⟨h'.exclusive.distinct.mono (fun _ _ => rfl), ?_, ?_, ?_, ?_⟩
  · intro t ht htid
    rw [hshims] at ht
    rw [h.exclusive.distinct.eq_of_mem ht hmem rfl rfl (htid.trans hshim.symm)]
    exact hpid
  · cases step_row hstep hgc hrow with
    | kept _ hother => exact absurd hcommitted (hother _)
    | written write hcommitted' hrow' =>
      rw [hcommitted] at hcommitted'
      cases hcommitted'
      refine ⟨_, hrow', ?_⟩
      simp only [TaskWrite.effect, TaskRecord.setDispatched, if_pos haccepted]
      exact ⟨⟨rfl, by simp, fun _ => hactive⟩, fun hended => by cases hended⟩
  · intro d₂ hd₂
    rw [h'.serving] at hd₂
    cases hd₂
    refine ⟨fun hunspawned => ?_, fun task htask htid => ?_⟩
    · exact (h'.exclusive.cycle _ h'.serving).unspawned taskId hunspawned htaken
    · by_contra hidle
      refine (h'.exclusive.cycle _ h'.serving).pending task htask (by simpa using hidle) ?_
      rw [htid]
      exact htaken
  · intro r hr
    rw [h'.serving] at hr
    cases hr

theorem FirstLife.tracked_or_ended (h : FirstLife w d) (hunrecorded : Unrecorded taskId w d)
    (hstep : w.step svc e = some w')
    (hcommitted : w.committed svc e = some (.write taskId (.markDispatched pid))) :
    Tracked taskId pid w' ∨ Ended taskId w' := by
  obtain ⟨outcome, totals, task, rest, haction, hid, hserver, _, _⟩ :=
    step_markDispatched hstep hcommitted
  rw [h.serving] at hserver
  cases hserver
  have hremaining : taskId ∈ (Dispatcher.dispatching totals task pid rest).remaining :=
    hid ▸ List.mem_cons_self ..
  obtain ⟨row, hrow, hstatus⟩ := hunrecorded.status hremaining
  by_cases haccepted : row.status = .accepted
  · exact .inl (h.tracked hstep hcommitted hrow haccepted)
  · have hterminal : row.status.isTerminal = true := by
      by_contra hlive
      exact hstatus (TaskStatus.eq_running haccepted (by simpa using hlive))
    refine .inr (Ended.step ⟨row, hrow, hterminal⟩ (by rw [haction]; rfl) ?_ hstep)
    intro _ _ _ _ hstarted
    rw [hcommitted] at hstarted
    cases hstarted

end

/-- A live task is not declared lost: if every `mark_started` of a task finds its row
running, that is, comes after the `mark_dispatched` that records the pid of its shim,
then no recovery pass of a later life declares the task lost while its row is running
and its shim is alive. -/
theorem live_task_not_lost {db : Db} {before after : List (World × Event)} {w₁ w₂ w₃ w₄ : World}
    {e₁ e₃ : Event} {taskId : TaskId} {pid : ℕ} {pidTaken : Bool}
    (hfirst : Run svc (serve db) before w₁) (hlife : OneLife before)
    (hgc : ∀ x ∈ before, x.2.action.isGc = false) (hdispatch : w₁.step svc e₁ = some w₂)
    (hcommitted : w₁.committed svc e₁ = some (.write taskId (.markDispatched pid)))
    (hlater : Run svc w₂ after w₃) (hgc' : ∀ x ∈ after, x.2.action.isGc = false)
    (hstarts : ∀ x ∈ before ++ after, x.1.StartsRunning svc taskId x.2)
    (hrecover : w₃.step svc e₃ = some w₄) (haction : e₃.action = .recover pidTaken) :
    SparesLive svc taskId w₃ e₃ w₄ := by
  obtain ⟨d, hd, hunrecorded⟩ : ∃ d, FirstLife w₁ d ∧ Unrecorded taskId w₁ d := by
    refine hfirst.invariant (I := fun w => ∃ d, FirstLife w d ∧ Unrecorded taskId w d)
      (G := fun w e => e.action.isCrash = false ∧ e.action.isGc = false ∧
        w.StartsRunning svc taskId e)
      ⟨.idle, firstLife_serve db, unrecorded_serve taskId db⟩ ?_
      (fun x hx => ⟨hlife x hx, hgc x hx, hstarts x (List.mem_append_left _ hx)⟩)
    rintro w e w' ⟨d, hd, hunrecorded⟩ ⟨hlife, hgc, hstarts⟩ hstep
    obtain ⟨d', hd'⟩ := hd.step hlife hgc hstep
    exact ⟨d', hd', hunrecorded.step hd.serving hd'.serving hgc hstarts hstep⟩
  have hlast : Tracked taskId pid w₃ ∨ Ended taskId w₃ := by
    refine hlater.invariant (I := fun w => Tracked taskId pid w ∨ Ended taskId w)
      (G := fun w e => e.action.isGc = false ∧ w.StartsRunning svc taskId e)
      (hd.tracked_or_ended hunrecorded hdispatch hcommitted) ?_
      (fun x hx => ⟨hgc' x hx, hstarts x (List.mem_append_right _ hx)⟩)
    rintro w e w' hbefore ⟨hgc, hstarts⟩ hstep
    exact hbefore.imp (fun h => h.step hgc hstep) (fun h => h.step hgc hstarts hstep)
  rcases hlast with htracked | hended
  · exact htracked.sparesLive hrecover haction
  · exact hended.sparesLive

/-- The step records the pid of a shim of the task. -/
def records (svc : RuntimeService) (taskId : TaskId) (w : World) (e : Event) : Bool :=
  match w.committed svc e with
  | some (.write j (.markDispatched _)) => decide (j = taskId)
  | _ => false

theorem committed_of_records {taskId : TaskId} (h : w.records svc taskId e = true) :
    ∃ pid, w.committed svc e = some (.write taskId (.markDispatched pid)) := by
  unfold records at h
  split at h
  · rename_i j pid hcommitted
    exact ⟨pid, of_decide_eq_true h ▸ hcommitted⟩
  · cases h

/-- A check that implies `StartsRunning`. -/
def startsRunningCheck (svc : RuntimeService) (taskId : TaskId) (w : World) (e : Event) : Bool :=
  match w.committed svc e with
  | some (.write _ (.markStarted _ _ _)) =>
    (w.db.tasks.find taskId).all (fun row => decide (row.status = .running))
  | _ => true

theorem startsRunning_of_check {taskId : TaskId} (h : w.startsRunningCheck svc taskId e = true) :
    w.StartsRunning svc taskId e := by
  intro pid pgid scriptPath row hcommitted hrow
  rw [startsRunningCheck, hcommitted] at h
  simpa [hrow] using h

/-- An execution through `mark_dispatched`, at `e₁`, to a recovery step, at `e₃`. -/
theorem exists_two_lives {taskId : TaskId} {check₁ check₃ : World → Event → Bool}
    {labels₁ labels₃ : List Event} {e₁ e₃ : Event} {test : World → World → Bool}
    (h : (execute svc check₁ labels₁).any (fun w₁ => w₁.records svc taskId e₁ &&
      (w₁.step svc e₁).any (fun w₂ =>
        (Runs.exec (Runs.checked check₃ (step svc)) w₂ labels₃).any (fun w₃ =>
          (w₃.step svc e₃).any (test w₃)))) = true) :
    ∃ before w₁ w₂ after w₃ w₄ pid, Run svc init before w₁ ∧
      (∀ x ∈ before, check₁ x.1 x.2 = true) ∧
      w₁.committed svc e₁ = some (.write taskId (.markDispatched pid)) ∧
      w₁.step svc e₁ = some w₂ ∧ Run svc w₂ after w₃ ∧ (∀ x ∈ after, check₃ x.1 x.2 = true) ∧
      w₃.step svc e₃ = some w₄ ∧ test w₃ w₄ = true := by
  obtain ⟨before, w₁, hrun₁, _, hcheck₁, htest₁⟩ := Runs.exists_run_of_exec h
  obtain ⟨hrecords, htest₂⟩ := Bool.and_eq_true_iff.mp htest₁
  obtain ⟨pid, hcommitted⟩ := committed_of_records hrecords
  obtain ⟨w₂, hstep₁, htest₂⟩ := (Option.any_eq_true _ _).mp htest₂
  obtain ⟨after, w₃, hrun₃, _, hcheck₃, htest₃⟩ := Runs.exists_run_of_exec htest₂
  obtain ⟨w₄, hstep₃, htest⟩ := (Option.any_eq_true _ _).mp htest₃
  exact ⟨before, w₁, w₂, after, w₃, w₄, pid, hrun₁, hcheck₁, hcommitted, hstep₁, hrun₃, hcheck₃,
    hstep₃, htest⟩

/-- The shim starts after `mark_dispatched`, the server crashes, and the next life
finds the shim alive. -/
theorem live_task_not_lost_of_dispatched :
    ∃ before w₁ w₂ after w₃ w₄, Run (smallService ⟨1, none, none⟩) init before w₁ ∧
      w₁.step (smallService ⟨1, none, none⟩) { action := .dispatch (.spawned 10) } = some w₂ ∧
      Run (smallService ⟨1, none, none⟩) w₂ after w₃ ∧
      w₃.step (smallService ⟨1, none, none⟩) { action := .recover false } = some w₄ ∧
      SparesLive (smallService ⟨1, none, none⟩) "a" w₃ { action := .recover false } w₄ := by
  have hexec : (execute (smallService ⟨1, none, none⟩)
      (fun w e => e.plain && w.startsRunningCheck (smallService ⟨1, none, none⟩) "a" e)
      (events (submitActions 0 (commandRequest "a") ++
        List.replicate 4 (.dispatch (.spawned 10))))).any (fun w₁ =>
      w₁.records (smallService ⟨1, none, none⟩) "a" { action := .dispatch (.spawned 10) } &&
        (w₁.step (smallService ⟨1, none, none⟩) { action := .dispatch (.spawned 10) }).any
          (fun w₂ => (Runs.exec (Runs.checked
            (fun w e => e.ofLives && w.startsRunningCheck (smallService ⟨1, none, none⟩) "a" e)
            (step (smallService ⟨1, none, none⟩))) w₂ (events [.shim 0 .proceed,
              .shim 0 (.spawned 11), .shim 0 .proceed, .crash, .restart, .recover false])).any
            (fun w₃ => (w₃.step (smallService ⟨1, none, none⟩) { action := .recover false }).any
              (fun _ => true)))) = true := by decide +kernel
  obtain ⟨before, w₁, w₂, after, w₃, w₄, pid, hrun₁, hcheck₁, hcommitted, hstep₁, hrun₃, hcheck₃,
    hstep₃, _⟩ := exists_two_lives hexec
  have hbefore : ∀ x ∈ before, x.2.plain = true ∧ x.1.startsRunningCheck _ "a" x.2 = true :=
    fun x hx => Bool.and_eq_true_iff.mp (hcheck₁ x hx)
  have hafter : ∀ x ∈ after, x.2.ofLives = true ∧ x.1.startsRunningCheck _ "a" x.2 = true :=
    fun x hx => Bool.and_eq_true_iff.mp (hcheck₃ x hx)
  refine ⟨before, w₁, w₂, after, w₃, w₄, hrun₁, hstep₁, hrun₃, hstep₃,
    live_task_not_lost hrun₁ (fun x hx => ?_) (fun x hx => ?_) hstep₁ hcommitted hrun₃
      (fun x hx => ?_) (fun x hx => ?_) hstep₃ rfl⟩
  · exact (Event.of_plain (hbefore x hx).1).1
  · exact (Event.of_plain (hbefore x hx).1).2
  · exact Event.not_gc_of_lives (hafter x hx).1
  · rcases List.mem_append.mp hx with hx | hx
    · exact startsRunning_of_check (hbefore x hx).2
    · exact startsRunning_of_check (hafter x hx).2

/-- The shim reports its start before `mark_dispatched`, which then records nothing:
the next life declares the task lost while its shim is alive. -/
theorem live_task_lost_after_early_start :
    ¬ ∀ svc before w₁ w₂ after w₃ w₄ taskId pid (e₁ e₃ : Event),
      Run svc init before w₁ → (∀ x ∈ before, x.2.plain = true) → w₁.step svc e₁ = some w₂ →
      w₁.committed svc e₁ = some (.write taskId (.markDispatched pid)) → Run svc w₂ after w₃ →
      (∀ x ∈ after, x.2.ofLives = true) → w₃.step svc e₃ = some w₄ →
      e₃.action = .recover false → SparesLive svc taskId w₃ e₃ w₄ := by
  intro hclaim
  have hexec : (execute (smallService ⟨1, none, none⟩) (fun _ e => e.plain)
      (events (submitActions 0 (commandRequest "a") ++
        List.replicate 4 (.dispatch (.spawned 10)) ++
        [.shim 0 .proceed, .shim 0 (.spawned 11), .shim 0 .proceed]))).any (fun w₁ =>
      w₁.records (smallService ⟨1, none, none⟩) "a" { action := .dispatch (.spawned 10) } &&
        (w₁.step (smallService ⟨1, none, none⟩) { action := .dispatch (.spawned 10) }).any
          (fun w₂ => (Runs.exec (Runs.checked (fun _ e => e.ofLives)
            (step (smallService ⟨1, none, none⟩))) w₂
              (events [.crash, .restart, .recover false])).any
            (fun w₃ => (w₃.step (smallService ⟨1, none, none⟩) { action := .recover false }).any
              (fun w₄ => (w₃.db.tasks.find "a").any (fun row => decide (row.status = .running)) &&
                w₃.procs.shims.any (fun shim => decide (shim.taskId = "a") && shim.alive) &&
                (w₄.db.tasks.find "a").any (fun row => decide (row.status = .failed)))))) =
        true := by decide
  obtain ⟨before, w₁, w₂, after, w₃, w₄, pid, hrun₁, hplain, hcommitted, hstep₁, hrun₃, hlives,
    hstep₃, htest⟩ := exists_two_lives hexec
  obtain ⟨hbefore, hafter⟩ := Bool.and_eq_true_iff.mp htest
  obtain ⟨hrunning, halive⟩ := Bool.and_eq_true_iff.mp hbefore
  obtain ⟨row₃, hrow₃, hrunning⟩ := (Option.any_eq_true _ _).mp hrunning
  obtain ⟨shim, hmem, halive⟩ := List.any_eq_true.mp halive
  obtain ⟨hid, halive⟩ := Bool.and_eq_true_iff.mp halive
  obtain ⟨row₄, hrow₄, hfailed⟩ := (Option.any_eq_true _ _).mp hafter
  obtain ⟨_, row', hrow', hrunning', _⟩ := hclaim _ before w₁ w₂ after w₃ w₄ "a" pid _ _ hrun₁
    hplain hstep₁ hcommitted hrun₃ hlives hstep₃ rfl row₃ shim hrow₃
    (of_decide_eq_true hrunning) hmem (of_decide_eq_true hid) halive
  rw [hrow₄] at hrow'
  cases hrow'
  rw [of_decide_eq_true hfailed] at hrunning'
  cases hrunning'

end World

end ExecgoRuntime
