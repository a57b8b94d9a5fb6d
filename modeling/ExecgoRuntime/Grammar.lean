import ExecgoRuntime.Collection
import ExecgoRuntime.LifeStages
import ExecgoRuntime.TerminalRows

/-!
The grammar of event streams in a server life without kills. Every row is in a
stage of its life, and the actors know the stage of the tasks that they are
about to write to: a shim that runs has a reserved task, a cycle may reserve
for waiting tasks only, and garbage collection deletes ended ones. So whoever
writes finds the task in the stage that his write continues, and what the other
actors know of their tasks stays true.
-/
namespace ExecgoRuntime

open DistinctOn

def Action.isKill : Action → Bool
  | .receiveKill _ _ => true
  | _ => false

/-- The shim has neither completed its row nor exited. -/
def Shim.running (shim : Shim) : Bool := !shim.state.isOver

theorem Shim.not_over {shim : Shim} (h : shim.running = true) : shim.state.isOver = false := by
  simpa [Shim.running] using h

theorem Shim.selects_running : Shim.Selects Shim.running := by
  intro now failure choice db db' committed shim shim' hstep hrunning
  by_contra hover
  have hover' := hstep.isOver (by simpa [Shim.running] using hover)
  simp [Shim.running, hover'] at hrunning

theorem ShimWrite.not_over {shim shim' : Shim} {write : TaskWrite}
    (h : ShimWrite shim shim' write) : shim.state.isOver = false := by
  cases h with
  | started _ hstate => rw [hstate]; rfl
  | timedOut _ hstate => rw [hstate]; rfl
  | completed _ hstate => rw [hstate]; rfl

namespace World

variable {svc : RuntimeService} {w w' : World} {e : Event}

/-- The row of the task is in the stage. -/
def At (w : World) (taskId : TaskId) (stage : Stage) : Prop :=
  ∃ row, w.db.tasks.find taskId = some row ∧ InStage stage row (w.db.stream taskId)

/-- The task has ended. -/
def Over (w : World) (taskId : TaskId) : Prop := ∃ stage, stage.isOver = true ∧ w.At taskId stage

theorem At.unique {taskId : TaskId} {stage stage' : Stage} (h : w.At taskId stage)
    (h' : w.At taskId stage') : stage = stage' := by
  obtain ⟨row, hrow, hstage⟩ := h
  obtain ⟨row', hrow', hstage'⟩ := h'
  rw [hrow] at hrow'
  cases hrow'
  exact hstage.unique hstage'

theorem At.of_find {taskId : TaskId} {stage : Stage} (h : w.At taskId stage) {row : TaskRecord}
    (hrow : w.db.tasks.find taskId = some row) : InStage stage row (w.db.stream taskId) := by
  obtain ⟨row', hrow', hstage⟩ := h
  rw [hrow] at hrow'
  cases hrow'
  exact hstage

/-- The write takes the task to the next stage. -/
theorem At.write {taskId : TaskId} {stage stage' : Stage} {write : TaskWrite}
    (hat : w.At taskId stage) (h : w.step svc e = some w')
    (hcommitted : w.committed svc e = some (.write taskId write))
    (hstage : StageStep stage write stage') : w'.At taskId stage' := by
  obtain ⟨row, hrow, hin⟩ := hat
  rcases step_db h with ⟨hnone, _⟩ | ⟨call, hcall, hexec⟩
  · rw [hnone] at hcommitted
    cases hcommitted
  · rw [hcommitted] at hcall
    cases hcall
    refine ⟨write.effect e.now row, ?_, ?_⟩
    · rw [Db.find_write hexec, if_pos rfl, hrow]
      rfl
    · rw [Db.stream_write_self hexec hrow]
      exact hstage.effect hin e.now

/-- The step does not move the task to another stage. -/
structure Spares (svc : RuntimeService) (w : World) (e : Event) (taskId : TaskId) : Prop where
  kept : w.committed svc e ≠ some (.deleteTask taskId)
  unmoved : ∀ write, w.committed svc e = some (.write taskId write) →
    ∃ shimPid, write = .markDispatched shimPid

theorem Spares.of_quiet (h : Move.Quiet (w.committed svc e)) (taskId : TaskId) :
    w.Spares svc e taskId := by
  constructor
  · intro hdelete
    cases h.call_eq hdelete
  · intro write hcommitted
    exact absurd h (Move.not_quiet_write hcommitted)

theorem At.kept {taskId : TaskId} {stage : Stage} (hat : w.At taskId stage)
    (h : w.step svc e = some w') (hspares : w.Spares svc e taskId) : w'.At taskId stage := by
  by_cases hwrite : ∃ write, w.committed svc e = some (.write taskId write)
  · obtain ⟨write, hcommitted⟩ := hwrite
    obtain ⟨shimPid, rfl⟩ := hspares.unmoved write hcommitted
    exact hat.write h hcommitted (.dispatched stage shimPid)
  · obtain ⟨row, hrow, hin⟩ := hat
    cases step_row_of_not_deleted h hspares.kept hrow with
    | written write hcommitted _ => exact absurd ⟨write, hcommitted⟩ hwrite
    | kept hrow' _ =>
      refine ⟨row, hrow', ?_⟩
      cases step_origin h hrow' with
      | inserted _ _ _ hfree _ _ =>
        rw [hrow] at hfree
        cases hfree
      | kept _ hstream _ =>
        rw [hstream]
        exact hin
      | written write _ hcommitted _ _ _ => exact absurd ⟨write, hcommitted⟩ hwrite

structure ShimStaged (w : World) (shim : Shim) : Prop where
  unnoted : shim.notedCancel = false
  stage : ∃ stage, shim.state.Expects stage ∧ w.At shim.taskId stage

structure CycleStaged (w : World) (d : Dispatcher) : Prop where
  nodup : (d.pending.map TaskRecord.taskId).Nodup
  unkilled : ∀ task ∈ d.pending, task.killRequested = false
  waiting : ∀ task ∈ d.pending, task.hasActiveReservation = false → w.At task.taskId .waiting
  reserved : ∀ taskId, d.unspawned = some taskId → w.At taskId .reserved
  unspawned : ∀ taskId, d.unspawned = some taskId → ¬ w.Taken Shim.running taskId

/-- Every row is in a stage, and no two actors are about to write to one task. -/
structure Staged (w : World) (d : Dispatcher) : Prop where
  serving : w.procs.server = .serving d
  unkilled : w.procs.kills = []
  rows : ∀ taskId row, w.db.tasks.find taskId = some row → ∃ stage, w.At taskId stage
  distinct : Distinct Shim.running Shim.taskId w.procs.shims
  shims : ∀ shim ∈ w.procs.shims, shim.running = true → w.ShimStaged shim
  cycle : w.CycleStaged d
  distinctTasks : (w.procs.gc.tasks.map TaskRecord.taskId).Nodup
  collected : ∀ task ∈ w.procs.gc.tasks, w.Over task.taskId

/-- Who takes a task out of a stage. -/
inductive Mover (w : World) (e : Event) (d : Dispatcher) (taskId : TaskId) : Stage → Prop
  | reserved (outcome : SpawnOutcome) : e.action = .dispatch outcome → Mover w e d taskId .waiting
  | failed (outcome : SpawnOutcome) : e.action = .dispatch outcome →
      d.unspawned = some taskId → (∀ outcome', d.spawns outcome' = none) →
      Mover w e d taskId .reserved
  | shim {stage shim} (i : ℕ) (choice : ShimChoice) : e.action = .shim i choice →
      w.procs.shims[i]? = some shim → shim.running = true → shim.taskId = taskId →
      stage.holds = true → Mover w e d taskId stage

section Staged

variable {d d' : Dispatcher}

/-- What the step of a running shim does to its task. -/
theorem Staged.shim_step (h : w.Staged d) (hstep : w.step svc e = some w') {i : ℕ}
    {choice : ShimChoice} {shim shim' : Shim} (haction : e.action = .shim i choice)
    (hshim : w.procs.shims[i]? = some shim) (hshim' : w'.procs.shims[i]? = some shim')
    (hmove : ShimStep e.now e.failure choice w.db shim (w.committed svc e) w'.db shim')
    (hrunning : shim.running = true) :
    shim'.notedCancel = false ∧ ∃ stage, w.At shim.taskId stage ∧ stage.holds = true ∧
      ((Move.Quiet (w.committed svc e) ∧ shim'.state.Expects stage) ∨
        ∃ write stage', w.committed svc e = some (.write shim.taskId write) ∧
          StageStep stage write stage' ∧ shim'.state.Expects stage') := by
  have hnote := step_note hstep haction hshim hshim'
  have hlive := Shim.not_over hrunning
  obtain ⟨hnoted, stage, hexpects, hat⟩ := h.shims shim (List.mem_of_getElem? hshim) hrunning
  have hunkilled : ∀ row, w.db.tasks.find shim.taskId = some row → row.killRequested = false :=
    fun row hrow => (hat.of_find hrow).unkilled
  refine ⟨?_, stage, hat, hexpects.holds hlive,
    hmove.stageStep hnote hexpects hlive hnoted hunkilled⟩
  by_contra hnoted'
  rcases hnote.notedCancel (by simpa using hnoted') with hold | ⟨row, hrow, hflag⟩
  · rw [hnoted] at hold
    cases hold
  · rw [hunkilled row hrow] at hflag
    cases hflag

/-- A write continues the life of its task. -/
theorem Staged.mover (h : w.Staged d) (hstep : w.step svc e = some w') {taskId : TaskId}
    {write : TaskWrite} (hcommitted : w.committed svc e = some (.write taskId write)) :
    (∃ shimPid, write = .markDispatched shimPid) ∨
      ∃ stage stage', w.At taskId stage ∧ StageStep stage write stage' ∧
        w.Mover e d taskId stage := by
  have hpending : w.pending = d.pending := by simp only [pending, h.serving]
  cases step_cases hstep with
  | request _ haction _ _ _ _ =>
    obtain ⟨_, _, _, _, hkill, _⟩ := step_kill_write hstep haction hcommitted
    rw [h.unkilled] at hkill
    cases hkill
  | gc _ _ _ _ _ _ hcall => cases hcall _ hcommitted
  | dispatch outcome d₁ d' haction hserver _ hmove _ =>
    rw [h.serving] at hserver
    cases hserver
    cases hmove.write hcommitted with
    | dispatched => exact .inl ⟨_, rfl⟩
    | cancelled =>
      obtain ⟨_, hwho⟩ := step_cancels hstep hcommitted
      rcases hwho with ⟨kill, hkill, _⟩ | ⟨task, htask, _, hflag⟩
      · rw [h.unkilled] at hkill
        cases hkill
      · rw [h.cycle.unkilled task (hpending ▸ htask)] at hflag
        cases hflag
    | reserved hdecision =>
      have hidle := (consider_eq_reserve hdecision).2.1
      have hat := h.cycle.waiting _ (List.mem_cons_self ..) hidle
      exact .inr ⟨_, _, hat, .reserved _ _, .reserved outcome haction⟩
    | failed =>
      exact .inr ⟨_, _, h.cycle.reserved _ rfl, .unstarted _ rfl,
        .failed outcome haction rfl (fun _ => rfl)⟩
  | recover pidTaken _ _ haction _ _ _ =>
    exact absurd haction (not_recover_of_serving h.serving hstep pidTaken)
  | shim i choice shim shim' haction hshim _ hmove hprocs =>
    have hlt : i < w.procs.shims.length := (List.getElem?_eq_some_iff.mp hshim).1
    have hshim' : w'.procs.shims[i]? = some shim' := by
      rw [hprocs]
      simp [hlt]
    have hrunning : shim.running = true := by
      rcases hmove.call hcommitted with hread | ⟨_, _, hwrite⟩
      · cases hread
      · simp [Shim.running, hwrite.not_over]
    obtain ⟨_, stage, hat, hholds, ⟨hquiet, _⟩ | ⟨write', stage', hwrite, hstage, _⟩⟩ :=
      h.shim_step hstep haction hshim hshim' hmove hrunning
    · exact absurd hquiet (Move.not_quiet_write hcommitted)
    · rw [hcommitted] at hwrite
      cases hwrite
      exact .inr ⟨stage, stage', hat, hstage, .shim i choice haction hshim hrunning rfl hholds⟩
  | crash _ hquiet _ _ => exact absurd hquiet (Move.not_quiet_write hcommitted)
  | restart _ hquiet _ _ _ => exact absurd hquiet (Move.not_quiet_write hcommitted)

theorem Staged.advance (h : w.Staged d) (hstep : w.step svc e = some w') {taskId : TaskId}
    {write : TaskWrite} (hcommitted : w.committed svc e = some (.write taskId write))
    {row : TaskRecord} (hrow : w.db.tasks.find taskId = some row) :
    ∃ stage stage', w.At taskId stage ∧ StageStep stage write stage' := by
  rcases h.mover hstep hcommitted with ⟨shimPid, rfl⟩ | ⟨stage, stage', hat, hstage, _⟩
  · obtain ⟨stage, hat⟩ := h.rows taskId row hrow
    exact ⟨stage, stage, hat, .dispatched stage shimPid⟩
  · exact ⟨stage, stage', hat, hstage⟩

/-- Only a mover or garbage collection takes a task out of its stage. -/
theorem Staged.spares (h : w.Staged d) (hstep : w.step svc e = some w') {taskId : TaskId}
    {stage : Stage} (hat : w.At taskId stage)
    (hkept : w.committed svc e ≠ some (.deleteTask taskId))
    (hmover : ¬ w.Mover e d taskId stage) : w.Spares svc e taskId := by
  refine ⟨hkept, fun write hcommitted => ?_⟩
  rcases h.mover hstep hcommitted with hdispatched | ⟨stage', _, hat', _, hmover'⟩
  · exact hdispatched
  · rw [hat'.unique hat] at hmover'
    exact absurd hmover' hmover

theorem Staged.not_deleted (h : w.Staged d) (hstep : w.step svc e = some w') {taskId : TaskId}
    {stage : Stage} (hat : w.At taskId stage) (hlive : stage.isOver = false) :
    w.committed svc e ≠ some (.deleteTask taskId) := by
  intro hdelete
  cases step_collect hstep with
  | kept _ hcalls => exact hcalls taskId hdelete
  | listed _ _ hcalls _ => exact hcalls taskId hdelete
  | deleted task hcommitted hlist =>
    rw [hdelete] at hcommitted
    cases hcommitted
    obtain ⟨stage', hover, hat'⟩ := h.collected task (hlist ▸ List.mem_cons_self ..)
    rw [hat.unique hat', hover] at hlive
    cases hlive

/-- An unfinished task stays in its stage unless somebody moves it. -/
theorem Staged.live_kept (h : w.Staged d) (hstep : w.step svc e = some w') {taskId : TaskId}
    {stage : Stage} (hat : w.At taskId stage) (hlive : stage.isOver = false)
    (hmover : ¬ w.Mover e d taskId stage) : w'.At taskId stage :=
  hat.kept hstep (h.spares hstep hat (h.not_deleted hstep hat hlive) hmover)

theorem Mover.not_over {taskId : TaskId} {stage : Stage} (h : w.Mover e d taskId stage) :
    stage.isOver = false := by
  cases h with
  | reserved _ _ => rfl
  | failed _ _ _ _ => rfl
  | shim _ _ _ _ _ _ hholds => exact Stage.not_over_of_holds hholds

/-- An ended task stays so until it is deleted. -/
theorem Staged.over_kept (h : w.Staged d) (hstep : w.step svc e = some w') {taskId : TaskId}
    (hover : w.Over taskId) (hkept : w.committed svc e ≠ some (.deleteTask taskId)) :
    w'.Over taskId := by
  obtain ⟨stage, hended, hat⟩ := hover
  refine ⟨stage, hended, hat.kept hstep (h.spares hstep hat hkept (fun hmover => ?_))⟩
  rw [hmover.not_over] at hended
  cases hended

theorem Staged.rows_step (h : w.Staged d) (hstep : w.step svc e = some w') {taskId : TaskId}
    {row' : TaskRecord} (hrow' : w'.db.tasks.find taskId = some row') :
    ∃ stage, w'.At taskId stage := by
  cases step_origin hstep hrow' with
  | inserted new _ _ _ hnew hstream =>
    refine ⟨.waiting, row', hrow', ?_⟩
    rw [hnew, hstream]
    exact .insert new e.now
  | kept hrow hstream _ =>
    obtain ⟨stage, hat⟩ := h.rows taskId row' hrow
    refine ⟨stage, row', hrow', ?_⟩
    rw [hstream]
    exact hat.of_find hrow
  | written write row hcommitted hrow _ _ =>
    obtain ⟨_, stage', hat, hstage⟩ := h.advance hstep hcommitted hrow
    exact ⟨stage', hat.write hstep hcommitted hstage⟩

theorem Staged.collect_step (h : w.Staged d) (hstep : w.step svc e = some w') :
    (w'.procs.gc.tasks.map TaskRecord.taskId).Nodup ∧
      ∀ task ∈ w'.procs.gc.tasks, w'.Over task.taskId := by
  cases step_collect hstep with
  | kept hsub hcalls =>
    refine ⟨h.distinctTasks.sublist (hsub.map TaskRecord.taskId), fun task htask => ?_⟩
    exact h.over_kept hstep (h.collected task (hsub.mem htask)) (hcalls task.taskId)
  | listed bound hdb _ hlist =>
    rw [hlist]
    refine ⟨w.db.listGcCandidates_nodup bound, fun task htask => ?_⟩
    obtain ⟨hrow, hterminal⟩ := Db.mem_listGcCandidates htask
    obtain ⟨stage, hat⟩ := h.rows task.taskId task hrow
    have hin := hat.of_find hrow
    refine ⟨stage, (Stage.isTerminal_iff hin.status).mp hterminal, task, ?_, ?_⟩
    · rw [hdb]
      exact hrow
    · rw [hdb]
      exact hin
  | deleted task hcommitted hlist =>
    have hnodup : (task.taskId :: w'.procs.gc.tasks.map TaskRecord.taskId).Nodup := by
      have hbefore := h.distinctTasks
      rw [hlist] at hbefore
      exact hbefore
    obtain ⟨hhead, htail⟩ := List.nodup_cons.mp hnodup
    refine ⟨htail, fun other hother => ?_⟩
    refine h.over_kept hstep (h.collected other (hlist ▸ List.mem_cons_of_mem _ hother)) ?_
    intro hdelete
    rw [hcommitted] at hdelete
    have hid : task.taskId = other.taskId := by simpa using hdelete
    exact hhead (hid ▸ List.mem_map_of_mem hother)

theorem Staged.distinct_step (h : w.Staged d) (hstep : w.step svc e = some w') :
    Distinct Shim.running Shim.taskId w'.procs.shims := by
  cases step_shims hstep with
  | same hshims _ =>
    rw [hshims]
    exact h.distinct
  | spawned d₁ outcome new _ hserver hspawns hshims =>
    rw [h.serving] at hserver
    cases hserver
    rw [hshims]
    refine h.distinct.append_one ?_
    intro _ shim hshim hrunning hkey
    exact h.cycle.unspawned new.1 (Dispatcher.unspawned_of_spawns hspawns)
      ⟨shim, hshim, hrunning, hkey⟩
  | moved i choice shim shim' _ hshim _ hmove hshims =>
    rw [hshims]
    exact h.distinct.set_of_key hshim (Shim.selects_running hmove) hmove.taskId

theorem Staged.shims_step (h : w.Staged d) (hstep : w.step svc e = some w') {shim' : Shim}
    (hmem : shim' ∈ w'.procs.shims) (hrunning : shim'.running = true) : w'.ShimStaged shim' := by
  obtain ⟨i, hi⟩ := List.mem_iff_getElem?.mp hmem
  cases step_shim hstep i with
  | same hsame hother =>
    rw [hsame] at hi
    have hold := List.mem_of_getElem? hi
    obtain ⟨hnoted, stage, hexpects, hat⟩ := h.shims shim' hold hrunning
    have hholds := hexpects.holds (Shim.not_over hrunning)
    have hmover : ¬ w.Mover e d shim'.taskId stage := by
      intro hmover
      cases hmover with
      | reserved _ _ => cases hholds
      | failed _ _ hunspawned _ =>
        exact h.cycle.unspawned _ hunspawned ⟨shim', hold, hrunning, rfl⟩
      | shim j choice haction hj hrunning' hid _ =>
        have hij : j = i := h.distinct j i _ _ hj hi hrunning' hrunning hid
        exact hother choice (hij ▸ haction)
    exact ⟨hnoted, stage, hexpects,
      h.live_kept hstep hat (Stage.not_over_of_holds hholds) hmover⟩
  | spawned d₁ outcome new hserver hspawns _ hnew hother =>
    rw [hnew] at hi
    cases hi
    rw [h.serving] at hserver
    cases hserver
    have hat := h.cycle.reserved new.1 (Dispatcher.unspawned_of_spawns hspawns)
    have hmover : ¬ w.Mover e d new.1 .reserved := by
      intro hmover
      cases hmover with
      | failed _ _ _ hnone =>
        rw [hnone outcome] at hspawns
        cases hspawns
      | shim _ _ _ hj hrunning' hid _ =>
        exact h.cycle.unspawned new.1 (Dispatcher.unspawned_of_spawns hspawns)
          ⟨_, List.mem_of_getElem? hj, hrunning', hid⟩
    exact ⟨rfl, .reserved, rfl, h.live_kept hstep hat rfl hmover⟩
  | moved choice shim t haction hshim ht hmove =>
    rw [ht] at hi
    cases hi
    have hbefore := Shim.selects_running hmove hrunning
    obtain ⟨hnoted, stage, hat, _, ⟨hquiet, hexpects⟩ |
      ⟨write, stage', hcommitted, hstage, hexpects⟩⟩ :=
        h.shim_step hstep haction hshim ht hmove hbefore
    · refine ⟨hnoted, stage, hexpects, ?_⟩
      rw [hmove.taskId]
      exact hat.kept hstep (.of_quiet hquiet _)
    · refine ⟨hnoted, stage', hexpects, ?_⟩
      rw [hmove.taskId]
      exact hat.write hstep hcommitted hstage

/-- A task gets its running shim from the dispatcher. -/
theorem taken_of_step (hstep : w.step svc e = some w') {taskId : TaskId}
    (htaken : w'.Taken Shim.running taskId) :
    w.Taken Shim.running taskId ∨ ∃ outcome d pid, e.action = .dispatch outcome ∧
      w.procs.server = .serving d ∧ d.spawns outcome = some (taskId, pid) := by
  obtain ⟨shim', hmem, hrunning, rfl⟩ := htaken
  cases step_shims hstep with
  | same hshims _ => exact .inl ⟨shim', hshims ▸ hmem, hrunning, rfl⟩
  | spawned d₁ outcome new haction hserver hspawns hshims =>
    rw [hshims] at hmem
    rcases List.mem_append.mp hmem with hold | hnew
    · exact .inl ⟨shim', hold, hrunning, rfl⟩
    · rw [List.mem_singleton.mp hnew]
      exact .inr ⟨outcome, d₁, new.2, haction, hserver, hspawns⟩
  | moved i choice shim shim₁ _ hshim _ hmove hshims =>
    rw [hshims] at hmem
    rcases List.mem_or_eq_of_mem_set hmem with hold | rfl
    · exact .inl ⟨shim', hold, hrunning, rfl⟩
    · exact .inl ⟨shim, List.mem_of_getElem? hshim, Shim.selects_running hmove hrunning,
        hmove.taskId.symm⟩

/-- The steps of the others leave the cycle what it knows. -/
theorem Staged.cycle_kept (h : w.Staged d) (hstep : w.step svc e = some w')
    (hother : ∀ outcome, e.action ≠ .dispatch outcome) : w'.CycleStaged d where
  nodup := h.cycle.nodup
  unkilled := h.cycle.unkilled
  waiting task htask hidle := by
    have hat := h.cycle.waiting task htask hidle
    refine h.live_kept hstep hat rfl (fun hmover => ?_)
    cases hmover with
    | reserved outcome haction => exact hother outcome haction
    | shim _ _ _ _ _ _ hholds => cases hholds
  reserved taskId hunspawned := by
    have hat := h.cycle.reserved taskId hunspawned
    refine h.live_kept hstep hat rfl (fun hmover => ?_)
    cases hmover with
    | failed outcome haction _ _ => exact hother outcome haction
    | shim _ _ _ hshim hrunning hid _ =>
      exact h.cycle.unspawned taskId hunspawned ⟨_, List.mem_of_getElem? hshim, hrunning, hid⟩
  unspawned taskId hunspawned htaken := by
    rcases taken_of_step hstep htaken with hbefore | ⟨outcome, _, _, haction, _, _⟩
    · exact h.cycle.unspawned taskId hunspawned hbefore
    · exact hother outcome haction

/-- A cycle that has nothing reserved and goes on with part of its list. -/
theorem Staged.cycle_sublist (h : w.Staged d) (hstep : w.step svc e = some w')
    (hsub : d'.pending.Sublist d.pending) (hnone : d'.unspawned = none)
    (hspares : ∀ task ∈ d'.pending, w.At task.taskId .waiting → w.Spares svc e task.taskId) :
    w'.CycleStaged d' where
  nodup := h.cycle.nodup.sublist (hsub.map TaskRecord.taskId)
  unkilled task htask := h.cycle.unkilled task (hsub.mem htask)
  waiting task htask hidle := by
    have hat := h.cycle.waiting task (hsub.mem htask) hidle
    exact hat.kept hstep (hspares task htask hat)
  reserved taskId hunspawned := by
    rw [hnone] at hunspawned
    cases hunspawned
  unspawned taskId hunspawned := by
    rw [hnone] at hunspawned
    cases hunspawned

theorem Staged.cycle_step (h : w.Staged d) (hstep : w.step svc e = some w')
    {outcome : SpawnOutcome} (haction : e.action = .dispatch outcome)
    (hmove : DispatchStep svc e.now outcome w.db (w.committed svc e) w'.db d d') :
    w'.CycleStaged d' := by
  have hquiet : Move.Quiet (w.committed svc e) → ∀ task ∈ d'.pending,
      w.At task.taskId .waiting → w.Spares svc e task.taskId :=
    fun hno task _ _ => .of_quiet hno task.taskId
  have hwrite := @Staged.mover svc w w' e d h hstep
  generalize hcommitted : w.committed svc e = committed at hmove
  generalize hdb : w'.db = db' at hmove
  cases hmove with
  | stop hno => exact h.cycle_sublist hstep (List.nil_sublist _) rfl (hquiet (hcommitted ▸ hno))
  | started hno => exact h.cycle_sublist hstep (List.nil_sublist _) rfl (hquiet (hcommitted ▸ hno))
  | listed hno =>
    have hlisted : ∀ task ∈ w.db.listAccepted svc.settings.maxQueuedTasks,
        ∃ stage, w.At task.taskId stage ∧ InStage stage task (w.db.stream task.taskId) ∧
          stage.Allows .accepted := by
      intro task htask
      obtain ⟨hrow, haccepted⟩ := Db.mem_listAccepted htask
      obtain ⟨stage, hat⟩ := h.rows task.taskId task hrow
      have hin := hat.of_find hrow
      exact ⟨stage, hat, hin, haccepted ▸ hin.status⟩
    refine ⟨w.db.listAccepted_nodup svc.settings.maxQueuedTasks, ?_, ?_, nofun, nofun⟩
    · intro task htask
      obtain ⟨_, _, hin, _⟩ := hlisted task htask
      exact hin.unkilled
    · intro task htask hidle
      obtain ⟨stage, hat, hin, haccepted⟩ := hlisted task htask
      rw [Stage.eq_waiting haccepted (hin.active.symm.trans hidle)] at hat
      exact hat.kept hstep (.of_quiet (hcommitted ▸ hno) _)
  | skipped hno =>
    exact h.cycle_sublist hstep (List.sublist_cons_self _ _) rfl (hquiet (hcommitted ▸ hno))
  | cancelled _ =>
    rcases hwrite hcommitted with ⟨_, hother⟩ | ⟨_, _, _, hstage, _⟩
    · cases hother
    · cases hstage
  | @reserved totals task rest reservation db' hdecision _ =>
    have hhead := h.cycle.waiting task (List.mem_cons_self ..) (consider_eq_reserve hdecision).2.1
    obtain ⟨hnotMem, hnodup⟩ := List.nodup_cons.mp h.cycle.nodup
    refine ⟨hnodup, fun other hother => h.cycle.unkilled other (List.mem_cons_of_mem _ hother),
      ?_, ?_, ?_⟩
    · intro other hother hidle
      have hat := h.cycle.waiting other (List.mem_cons_of_mem _ hother) hidle
      refine hat.kept hstep ⟨h.not_deleted hstep hat rfl, fun write hwrite => ?_⟩
      rw [hcommitted] at hwrite
      obtain ⟨hid, _⟩ := StoreCall.write.inj (Option.some.inj hwrite)
      exact absurd (hid ▸ List.mem_map_of_mem hother) hnotMem
    · rintro taskId ⟨⟩
      exact hhead.write hstep hcommitted (.reserved _ _)
    · rintro taskId ⟨⟩ htaken
      rcases taken_of_step hstep htaken with ⟨shim, hmem, hrunning, hid⟩ |
        ⟨_, d₁, _, _, hserver, hspawns⟩
      · -- A shim that runs has its task reserved.
        obtain ⟨_, stage, hexpects, hat⟩ := h.shims shim hmem hrunning
        have hholds := hexpects.holds (Shim.not_over hrunning)
        rw [hid] at hat
        rw [hat.unique hhead] at hholds
        cases hholds
      · rw [h.serving] at hserver
        cases hserver
        cases hspawns
  | spawned hno _ =>
    exact h.cycle_sublist hstep (List.Sublist.refl _) rfl (hquiet (hcommitted ▸ hno))
  | notSpawned hno houtcome =>
    have hspares : ∀ taskId, w.Spares svc e taskId := Spares.of_quiet (hcommitted ▸ hno)
    refine ⟨h.cycle.nodup, h.cycle.unkilled, fun other hother hidle => ?_,
      fun taskId hunspawned => ?_, fun taskId hunspawned htaken => ?_⟩
    · exact (h.cycle.waiting other hother hidle).kept hstep (hspares _)
    · exact (h.cycle.reserved taskId hunspawned).kept hstep (hspares _)
    · rcases taken_of_step hstep htaken with hbefore | ⟨outcome', d₁, _, haction', hserver, hspawns⟩
      · exact h.cycle.unspawned taskId hunspawned hbefore
      · rw [h.serving] at hserver
        rw [haction] at haction'
        cases hserver
        cases haction'
        rw [houtcome] at hspawns
        cases hspawns
  | dispatched _ =>
    refine h.cycle_sublist hstep (List.Sublist.refl _) rfl (fun other _ hat => ?_)
    refine ⟨h.not_deleted hstep hat rfl, fun write hwrite' => ?_⟩
    rw [hcommitted] at hwrite'
    obtain ⟨_, rfl⟩ := StoreCall.write.inj (Option.some.inj hwrite')
    exact ⟨_, rfl⟩
  | @failed totals task reservation message rest db' _ =>
    refine h.cycle_sublist hstep (List.Sublist.refl _) rfl (fun other _ hat => ?_)
    refine ⟨h.not_deleted hstep hat rfl, fun write hwrite' => ?_⟩
    rw [hcommitted] at hwrite'
    obtain ⟨hid, _⟩ := StoreCall.write.inj (Option.some.inj hwrite')
    have hreserved := h.cycle.reserved task.taskId rfl
    rw [hid] at hreserved
    cases hat.unique hreserved
  | persisted hno =>
    exact h.cycle_sublist hstep (List.Sublist.refl _) rfl (hquiet (hcommitted ▸ hno))

theorem Staged.kills_step (h : w.Staged d) (hkill : e.action.isKill = false)
    (hstep : w.step svc e = some w') : w'.procs.kills = [] := by
  refine List.eq_nil_iff_forall_not_mem.mpr (fun kill hmem => ?_)
  rcases mem_kills_of_step hstep hmem with hold | ⟨_, _, haction, _⟩ | ⟨_, _, _, _, hold, _⟩
  · rw [h.unkilled] at hold
    cases hold
  · rw [haction] at hkill
    cases hkill
  · rw [h.unkilled] at hold
    cases hold

theorem Staged.step (h : w.Staged d) (hlife : e.action.isCrash = false)
    (hkill : e.action.isKill = false) (hstep : w.step svc e = some w') :
    ∃ d', w'.Staged d' := by
  obtain ⟨hdistinctTasks, hover⟩ := h.collect_step hstep
  have hcycle : ∀ d', w'.procs.server = .serving d' → w'.CycleStaged d' → ∃ d', w'.Staged d' := by
    intro d' hserver' hcycle'
    exact ⟨d', hserver', h.kills_step hkill hstep, fun _ _ hrow' => h.rows_step hstep hrow',
      h.distinct_step hstep, fun _ hmem hrunning => h.shims_step hstep hmem hrunning, hcycle',
      hdistinctTasks, hover⟩
  cases step_cases hstep with
  | request d₁ haction hserver hserver' _ _ =>
    rw [h.serving] at hserver
    cases hserver
    refine hcycle d hserver' (h.cycle_kept hstep (fun outcome hdispatch => ?_))
    rw [hdispatch] at haction
    cases haction
  | gc _ d₁ haction hserver hserver' _ _ =>
    rw [h.serving] at hserver
    cases hserver
    exact hcycle d hserver' (h.cycle_kept hstep (by simp [haction]))
  | dispatch outcome d₁ d' haction hserver _ hmove hprocs =>
    rw [h.serving] at hserver
    cases hserver
    exact hcycle d' (by rw [hprocs]; rfl) (h.cycle_step hstep haction hmove)
  | recover pidTaken _ _ haction _ _ _ =>
    exact absurd haction (not_recover_of_serving h.serving hstep pidTaken)
  | shim _ _ _ _ haction _ _ _ hprocs =>
    exact hcycle d (by rw [hprocs]; exact h.serving) (h.cycle_kept hstep (by simp [haction]))
  | crash haction _ _ _ =>
    rw [haction] at hlife
    cases hlife
  | restart _ _ _ hserver _ =>
    rw [h.serving] at hserver
    cases hserver

theorem cycleStaged_idle (w : World) : w.CycleStaged .idle where
  nodup := List.nodup_nil
  unkilled _ htask := by cases htask
  waiting _ htask := by cases htask
  reserved _ hunspawned := by cases hunspawned
  unspawned _ hunspawned := by cases hunspawned

theorem staged_init : Staged init .idle where
  serving := rfl
  unkilled := rfl
  rows _ _ hrow := by cases hrow
  distinct := distinct_nil
  shims _ hmem := by cases hmem
  cycle := cycleStaged_idle init
  distinctTasks := List.nodup_nil
  collected _ hmem := by cases hmem

/-- Between the two states the status of every row moves on or stays. -/
def StatusMoves (s t : World) : Prop :=
  ∀ taskId row row', s.db.tasks.find taskId = some row → t.db.tasks.find taskId = some row' →
    row.status.MovesTo row'.status

theorem Staged.statusMoves (h : w.Staged d) (hstep : w.step svc e = some w') :
    StatusMoves w w' := by
  intro taskId row row' hrow hrow'
  cases step_origin hstep hrow' with
  | inserted _ _ _ hfree _ _ =>
    rw [hrow] at hfree
    cases hfree
  | kept hrow₁ _ _ =>
    rw [hrow] at hrow₁
    cases hrow₁
    exact .inl rfl
  | written write row₁ hcommitted hrow₁ heffect _ =>
    rw [hrow] at hrow₁
    cases hrow₁
    obtain ⟨_, _, hat, hstage⟩ := h.advance hstep hcommitted hrow
    rw [heffect]
    exact hstage.movesTo (hat.of_find hrow) e.now

end Staged

end World

/-- In every run of one server on an empty database without kills, the stream of
every row is at each moment a prefix of a word of the grammar, complete exactly when
the row is terminal, and the status of a row only moves from accepted to running to
terminal or from accepted to terminal. -/
theorem lifecycle_grammar (svc : RuntimeService) (trace : List (World × Event)) (last : World)
    (hrun : World.Run svc .init trace last) (hlife : World.OneLife trace)
    (hkill : ∀ x ∈ trace, x.2.action.isKill = false) :
    (∀ s ∈ Runs.visited trace last, ∀ taskId row, s.db.tasks.find taskId = some row →
      row.FollowsGrammar (s.db.stream taskId)) ∧
    (Runs.visited trace last).IsChain World.StatusMoves := by
  have hstaged : ∀ s ∈ Runs.visited trace last, ∃ d, s.Staged d := by
    refine hrun.invariant_visited (I := fun s => ∃ d, s.Staged d)
      (G := fun _ e => e.action.isCrash = false ∧ e.action.isKill = false)
      ⟨.idle, World.staged_init⟩ ?_ (fun x hx => ⟨hlife x hx, hkill x hx⟩)
    rintro w e w' ⟨d, hd⟩ ⟨hlife, hkill⟩ hstep
    exact hd.step hlife hkill hstep
  constructor
  · intro s hs taskId row hrow
    obtain ⟨d, hd⟩ := hstaged s hs
    obtain ⟨stage, hat⟩ := hd.rows taskId row hrow
    exact (hat.of_find hrow).followsGrammar
  · refine hrun.isChain_visited ?_ hstaged
    rintro w e w' ⟨d, hd⟩ hstep
    exact hd.statusMoves hstep

/-- The shim completes its task before the server records that it has dispatched it. -/
theorem lifecycle_grammar_of_late_dispatch :
    ∃ trace last row, World.Run (smallService ⟨1, none, none⟩) .init trace last ∧
      trace.map Prod.snd = events (submitActions 0 (commandRequest "a") ++
        List.replicate 4 (.dispatch (.spawned 10)) ++ shimActions 0 11 ++
        List.replicate 2 (.dispatch (.spawned 10))) ∧
      last.db.tasks.find "a" = some row ∧ row.status = .success ∧
      row.FollowsGrammar (last.db.stream "a") ∧
      (Runs.visited trace last).IsChain World.StatusMoves := by
  let svc := smallService ⟨1, none, none⟩
  have hexec : (World.execute svc (fun _ e => !e.action.isCrash && !e.action.isKill) (events
      (submitActions 0 (commandRequest "a") ++ List.replicate 4 (.dispatch (.spawned 10)) ++
        shimActions 0 11 ++ List.replicate 2 (.dispatch (.spawned 10))))).any (fun w =>
      (w.db.tasks.find "a").any (fun row => decide (row.status = .success))) = true := by
    decide +kernel
  obtain ⟨trace, last, row, hrun, hlabels, hcheck, hrow, htest⟩ :=
    World.exists_run_to_row (p := fun row _ => decide (row.status = .success)) hexec
  have hlife : ∀ x ∈ trace, x.2.action.isCrash = false ∧ x.2.action.isKill = false := by
    intro x hx
    simpa using hcheck x hx
  obtain ⟨hgrammar, hchain⟩ := lifecycle_grammar svc trace last hrun
    (fun x hx => (hlife x hx).1) (fun x hx => (hlife x hx).2)
  exact ⟨trace, last, row, hrun, hlabels, hrow, of_decide_eq_true htest,
    hgrammar last (Runs.last_mem_visited trace last) "a" row hrow, hchain⟩

end ExecgoRuntime
