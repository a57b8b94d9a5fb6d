import ExecgoRuntime.Exclusion

/-!
Tasks that survive the server. Once `mark_dispatched` has recorded the pid of the
one shim of a row, no later step starts another shim for it, takes its
reservation while it runs or changes the recorded pid. So a recovery pass that
finds the row running looks at the right process, and keeps the row if that
process is alive.
-/
namespace ExecgoRuntime

open DistinctOn

/-- The shim has completed its row or has exited. -/
def ShimState.isOver : ShimState → Bool
  | .persisting | .exited _ => true
  | _ => false

section ShimStep

variable {now : Timestamp} {failure : Option AppError} {choice : ShimChoice} {db db' : Db}
  {committed : Option StoreCall} {shim shim' : Shim}

theorem ShimStep.pid (h : ShimStep now failure choice db shim committed db' shim') :
    shim'.pid = shim.pid := by
  cases h with
  | loaded _ _ _ =>
    unfold Shim.load
    split
    · rfl
    · split <;> rfl
  | _ => rfl

theorem ShimStep.isOver (h : ShimStep now failure choice db shim committed db' shim')
    (hover : shim.state.isOver = true) : shim'.state.isOver = true := by
  have hnot : shim.state.isOver = false → shim'.state.isOver = true := by
    intro hstate
    rw [hstate] at hover
    cases hover
  cases h with
  | failed _ _ _ _ _ => rfl
  | completed _ _ => rfl
  | persisted _ _ => rfl
  | loaded _ hstate _ => exact hnot (by rw [hstate]; rfl)
  | notSpawned _ _ hstate => exact hnot (by rw [hstate]; rfl)
  | spawned _ hstate _ => exact hnot (by rw [hstate]; rfl)
  | confined _ hstate _ => exact hnot (by rw [hstate]; rfl)
  | notConfined _ _ hstate _ => exact hnot (by rw [hstate]; rfl)
  | started _ hstate _ _ => exact hnot (by rw [hstate]; rfl)
  | reloaded _ _ hstate => exact hnot (by rw [hstate]; rfl)
  | polled _ _ _ hstate => exact hnot (by rw [hstate]; rfl)
  | timeoutDue _ _ _ _ hstate => exact hnot (by rw [hstate]; rfl)
  | timedOut _ _ hstate _ => exact hnot (by rw [hstate]; rfl)
  | collected _ _ hstate _ => exact hnot (by rw [hstate]; rfl)
  | reaped _ _ _ hstate =>
    rcases hstate with ⟨s, hstate⟩ | ⟨s, elapsed, b, hstate⟩ <;> exact hnot (by rw [hstate]; rfl)

end ShimStep

structure TaskRecord.Dispatched (row : TaskRecord) (pid : ℕ) : Prop where
  shimPid : row.shimPid = some pid
  status : row.status ≠ .accepted
  active : row.status = .running → row.hasActiveReservation = true

/-- Writes that leave status, shim and reservation of a dispatched row alone. -/
def TaskWrite.isNote : TaskWrite → Bool
  | .setCancelRequested | .markTimeoutTriggered | .markRecovered | .cancelAcceptedTask _
  | .markDispatched _ => true
  | _ => false

theorem TaskWrite.effect_note {write : TaskWrite} (h : write.isNote = true) {row : TaskRecord}
    (hstatus : row.status ≠ .accepted) (now : Timestamp) :
    (write.effect now row).status = row.status ∧ (write.effect now row).shimPid = row.shimPid ∧
      (write.effect now row).hasActiveReservation = row.hasActiveReservation := by
  cases write with
  | setCancelRequested => exact ⟨rfl, rfl, rfl⟩
  | markTimeoutTriggered => exact ⟨rfl, rfl, rfl⟩
  | markRecovered =>
    simp only [effect, TaskRecord.setRecovered]
    split <;> exact ⟨rfl, rfl, rfl⟩
  | cancelAcceptedTask error =>
    rw [effect, setCancelled_eq_self hstatus]
    exact ⟨rfl, rfl, rfl⟩
  | markDispatched shimPid =>
    simp only [effect, TaskRecord.setDispatched, if_neg hstatus]
    exact ⟨trivial, trivial, trivial⟩
  | _ => cases h

namespace World

variable {svc : RuntimeService} {w w' : World} {e : Event}

/-- A shim after a step is a new one or was there before. -/
theorem step_mem_shims (h : w.step svc e = some w') {shim' : Shim}
    (hmem : shim' ∈ w'.procs.shims) :
    (∃ d taskId pid, w.procs.server = .serving d ∧ d.unspawned = some taskId ∧
        shim' = Shim.ofSpawn (taskId, pid)) ∨
      ∃ shim ∈ w.procs.shims, shim.taskId = shim'.taskId ∧ shim.pid = shim'.pid ∧
        (shim.state.isOver = true → shim'.state.isOver = true) := by
  obtain ⟨i, hi⟩ := List.mem_iff_getElem?.mp hmem
  cases step_shim h i with
  | same hsame _ =>
    rw [hsame] at hi
    exact .inr ⟨shim', List.mem_of_getElem? hi, rfl, rfl, fun hover => hover⟩
  | spawned d outcome new hserver hspawns _ hshim _ =>
    rw [hshim] at hi
    cases hi
    exact .inl ⟨d, new.1, new.2, hserver, Dispatcher.unspawned_of_spawns hspawns, rfl⟩
  | moved choice shim t _ hshim ht hmove =>
    rw [ht] at hi
    cases hi
    exact .inr ⟨shim, List.mem_of_getElem? hshim, hmove.taskId.symm, hmove.pid.symm, hmove.isOver⟩

/-- The row of the task records its one shim, and the server does not treat the
task as one that waits. -/
structure Tracked (taskId : TaskId) (pid : ℕ) (w : World) : Prop where
  single : Distinct (fun shim => decide (shim.taskId = taskId)) Shim.taskId w.procs.shims
  shimPid : ∀ shim ∈ w.procs.shims, shim.taskId = taskId → shim.pid = pid
  row : ∃ row, w.db.tasks.find taskId = some row ∧ row.Dispatched pid ∧
    (row.status.isTerminal = true →
      ∀ shim ∈ w.procs.shims, shim.taskId = taskId → shim.state.isOver = true)
  cycle : ∀ d, w.procs.server = .serving d → d.unspawned ≠ some taskId ∧
    ∀ task ∈ d.pending, task.taskId = taskId → task.hasActiveReservation = true
  pass : ∀ r, w.procs.server = .recovering r → ∀ task ∈ r.pending, task.taskId = taskId →
    task.status = .running ∧ task.Dispatched pid

/-- The writes to a tracked task: notes, the start by its shim, and a completion
after which its shim is over. -/
inductive TrackedWrite (taskId : TaskId) (w : World) (e : Event) (w' : World) : TaskWrite → Prop
  | note (write : TaskWrite) : write.isNote = true → TrackedWrite taskId w e w' write
  | started (pid pgid : ℕ) (scriptPath : Option String) (i : ℕ) (choice : ShimChoice)
      (shim : Shim) : e.action = .shim i choice → shim ∈ w.procs.shims → shim.taskId = taskId →
      shim.state.isOver = false → TrackedWrite taskId w e w' (.markStarted pid pgid scriptPath)
  | completed (update : CompletionUpdate) :
      (∀ shim ∈ w'.procs.shims, shim.taskId = taskId → shim.state.isOver = true) →
      TrackedWrite taskId w e w' (.completeTask update)

theorem Tracked.write {taskId : TaskId} {pid : ℕ} (h : Tracked taskId pid w)
    (hstep : w.step svc e = some w') {write : TaskWrite}
    (hcommitted : w.committed svc e = some (.write taskId write)) :
    TrackedWrite taskId w e w' write := by
  cases step_write hstep hcommitted with
  | request _ hcall => cases hcall <;> exact .note _ rfl
  | dispatch outcome d d' _ hserver hwrite _ =>
    obtain ⟨hunspawned, hpending⟩ := h.cycle d hserver
    cases hwrite with
    | cancelled => exact .note _ rfl
    | dispatched => exact .note _ rfl
    | reserved hdecision =>
      have hactive := hpending _ (List.mem_cons_self ..) rfl
      rw [(consider_eq_reserve hdecision).2.1] at hactive
      cases hactive
    | failed => exact absurd rfl hunspawned
  | recover pidTaken r r' _ hserver hwrite hprocs =>
    have hpass := h.pass r hserver
    cases hwrite with
    | kept _ _ _ => exact .note _ rfl
    | recovered => exact .note _ rfl
    | released _ hstatus _ =>
      have hrunning := (hpass _ (List.mem_cons_self ..) rfl).1
      rw [hstatus] at hrunning
      cases hrunning
    | reserved _ _ _ hidle =>
      obtain ⟨hrunning, hdispatched⟩ := hpass _ (List.mem_cons_self ..) rfl
      rw [hdispatched.active hrunning] at hidle
      cases hidle
    | lost _ hdead =>
      -- The recorded pid is that of the shim, which therefore has exited.
      refine .completed _ ?_
      intro shim hmem hid
      have hmem' : shim ∈ w.procs.shims := by simpa [hprocs] using hmem
      have hshimPid := (hpass _ (List.mem_cons_self ..) rfl).2.shimPid
      rw [Recovery.shimAlive, hshimPid] at hdead
      simp only [Option.any_some, Procs.processExists, Bool.or_eq_false_iff,
        List.any_eq_false] at hdead
      have hexited : shim.alive = false := by
        have hno := hdead.2 shim hmem'
        simp only [Shim.holdsPid, h.shimPid shim hmem' hid, decide_true, Bool.and_true,
          Bool.or_eq_true, not_or] at hno
        simpa using hno.1
      obtain ⟨result, hstate⟩ := Shim.exited_of_not_alive hexited
      rw [hstate]
      rfl
  | shim i choice shim shim' haction hshim hid hwrite hprocs =>
    cases hwrite with
    | started _ hstate =>
      exact .started _ _ _ i choice shim haction (List.mem_of_getElem? hshim) hid
        (by rw [hstate]; rfl)
    | timedOut _ _ => exact .note _ rfl
    | completed _ _ =>
      refine .completed _ ?_
      rw [hprocs]
      refine forall_mem_set (fun _ => rfl) ?_
      intro j t ht hne htid
      exact absurd (h.single j i t shim ht hshim (by simpa using htid) (by simpa using hid)
        (htid.trans hid.symm)) hne

section Tracked

variable {taskId : TaskId} {pid : ℕ}

theorem Tracked.single_step (h : Tracked taskId pid w) (hstep : w.step svc e = some w') :
    Distinct (fun shim => decide (shim.taskId = taskId)) Shim.taskId w'.procs.shims := by
  cases step_shims hstep with
  | same hshims _ =>
    rw [hshims]
    exact h.single
  | spawned d outcome new _ hserver hspawns hshims =>
    rw [hshims]
    refine h.single.append_one (fun hnew => ?_)
    have hid : new.1 = taskId := of_decide_eq_true hnew
    exact absurd (hid ▸ Dispatcher.unspawned_of_spawns hspawns) (h.cycle d hserver).1
  | moved i choice shim shim' _ hshim _ hmove hshims =>
    rw [hshims]
    refine h.single.set_of_key hshim (fun hid => ?_) hmove.taskId
    rw [← hmove.taskId]
    exact hid

/-- Every shim of the task after the step was there before. -/
theorem Tracked.mem_shims (h : Tracked taskId pid w) (hstep : w.step svc e = some w') {shim' : Shim}
    (hmem : shim' ∈ w'.procs.shims) (hid : shim'.taskId = taskId) :
    ∃ shim ∈ w.procs.shims, shim.taskId = taskId ∧ shim.pid = shim'.pid ∧
      (shim.state.isOver = true → shim'.state.isOver = true) := by
  rcases step_mem_shims hstep hmem with ⟨d, new, newPid, hserver, hunspawned, rfl⟩ | ⟨shim, hold⟩
  · have heq : new = taskId := hid
    exact absurd (heq ▸ hunspawned) (h.cycle d hserver).1
  · exact ⟨shim, hold.1, hold.2.1.trans hid, hold.2.2⟩

theorem Tracked.row_step (h : Tracked taskId pid w) (hgc : e.action.isGc = false)
    (hstep : w.step svc e = some w') :
    ∃ row, w'.db.tasks.find taskId = some row ∧ row.Dispatched pid ∧
      (row.status.isTerminal = true →
        ∀ shim ∈ w'.procs.shims, shim.taskId = taskId → shim.state.isOver = true) := by
  obtain ⟨row, hrow, hdispatched, hterminal⟩ := h.row
  have hover : row.status.isTerminal = true →
      ∀ shim ∈ w'.procs.shims, shim.taskId = taskId → shim.state.isOver = true := by
    intro hended shim' hmem' hid'
    obtain ⟨shim, hmem, hid, _, hlater⟩ := h.mem_shims hstep hmem' hid'
    exact hlater (hterminal hended shim hmem hid)
  cases step_row hstep hgc hrow with
  | kept hrow' _ => exact ⟨row, hrow', hdispatched, hover⟩
  | written write hcommitted hrow' =>
    refine ⟨_, hrow', ?_⟩
    cases h.write hstep hcommitted with
    | note _ hnote =>
      obtain ⟨hstatus, hshimPid, hactive⟩ := TaskWrite.effect_note hnote hdispatched.status e.now
      refine ⟨⟨hshimPid.trans hdispatched.shimPid, by rw [hstatus]; exact hdispatched.status,
        fun hrunning => ?_⟩, fun hended => hover (hstatus ▸ hended)⟩
      rw [hactive]
      exact hdispatched.active (hstatus ▸ hrunning)
    | started started pgid scriptPath i choice shim _ hmem hid hnotOver =>
      have hrunning : row.status = .running := by
        refine TaskStatus.eq_running hdispatched.status ?_
        cases hended : row.status.isTerminal with
        | false => rfl
        | true =>
          rw [hterminal hended shim hmem hid] at hnotOver
          cases hnotOver
      refine ⟨⟨hdispatched.shimPid, by simp [TaskWrite.effect, TaskRecord.setStarted],
        fun _ => hdispatched.active hrunning⟩, fun hended => by cases hended⟩
    | completed update hafter =>
      have hended := update.terminal
      refine ⟨⟨hdispatched.shimPid, fun haccepted => ?_, fun hrunning => ?_⟩, fun _ => hafter⟩
      · have hstatus : update.status = .accepted := haccepted
        rw [hstatus] at hended
        cases hended
      · have hstatus : update.status = .running := hrunning
        rw [hstatus] at hended
        cases hended

theorem Tracked.cycle_step (h : Tracked taskId pid w) (hstep : w.step svc e = some w') :
    ∀ d, w'.procs.server = .serving d → d.unspawned ≠ some taskId ∧
      ∀ task ∈ d.pending, task.taskId = taskId → task.hasActiveReservation = true := by
  intro d₂ hd₂
  cases step_cases hstep with
  | request d _ hserver hserver' _ _ =>
    rw [hserver'] at hd₂
    cases hd₂
    exact h.cycle _ hserver
  | gc _ d _ hserver hserver' _ _ =>
    rw [hserver'] at hd₂
    cases hd₂
    exact h.cycle _ hserver
  | dispatch outcome d d' _ hserver _ hmove hprocs =>
    obtain ⟨hunspawned, hpending⟩ := h.cycle d hserver
    rw [hprocs] at hd₂
    cases hd₂
    refine ⟨?_, ?_⟩
    · intro hnow
      generalize w'.db = db' at hmove
      generalize w.committed svc e = committed at hmove
      cases hmove with
      | reserved hdecision _ =>
        have hactive := hpending _ (List.mem_cons_self ..) (Option.some.inj hnow)
        rw [(consider_eq_reserve hdecision).2.1] at hactive
        cases hactive
      | notSpawned _ _ => exact hunspawned hnow
      | _ => cases hnow
    · intro task htask hid
      rcases hmove.pending with hsub | ⟨_, hlisted⟩
      · exact hpending task (hsub.mem htask) hid
      · rw [hlisted] at htask
        obtain ⟨hfind, haccepted⟩ := Db.mem_listAccepted htask
        obtain ⟨row, hrow, hdispatched, _⟩ := h.row
        rw [hid, hrow] at hfind
        cases hfind
        exact absurd haccepted hdispatched.status
  | recover _ r r' _ _ _ hprocs =>
    rw [hprocs] at hd₂
    cases r' <;> cases hd₂
    exact ⟨by simp [Dispatcher.unspawned], fun _ htask => by cases htask⟩
  | shim _ _ _ _ _ _ _ _ hprocs =>
    rw [hprocs] at hd₂
    exact h.cycle d₂ hd₂
  | crash _ _ _ hprocs =>
    rw [hprocs] at hd₂
    cases hd₂
  | restart _ _ _ _ hprocs =>
    rw [hprocs] at hd₂
    cases hd₂

theorem Tracked.pass_step (h : Tracked taskId pid w) (hstep : w.step svc e = some w') :
    ∀ r, w'.procs.server = .recovering r → ∀ task ∈ r.pending, task.taskId = taskId →
      task.status = .running ∧ task.Dispatched pid := by
  intro r₂ hr₂
  cases step_cases hstep with
  | request d _ _ hserver' _ _ =>
    rw [hserver'] at hr₂
    cases hr₂
  | gc _ d _ _ hserver' _ _ =>
    rw [hserver'] at hr₂
    cases hr₂
  | dispatch _ _ _ _ _ _ _ hprocs =>
    rw [hprocs] at hr₂
    cases hr₂
  | recover _ r r' _ hserver hmove hprocs =>
    have hpass := h.pass r hserver
    have hr : r' = r₂ := by
      rw [hprocs] at hr₂
      cases r' <;> cases hr₂ <;> rfl
    subst hr
    intro task htask hid
    rcases hmove.pending with hsub | ⟨_, hlisted⟩
    · exact hpass task (hsub.mem htask) hid
    · rw [hlisted] at htask
      obtain ⟨hfind, hlive⟩ := Db.mem_listNonTerminal htask
      obtain ⟨row, hrow, hdispatched, _⟩ := h.row
      rw [hid, hrow] at hfind
      cases hfind
      exact ⟨TaskStatus.eq_running hdispatched.status hlive, hdispatched⟩
  | shim _ _ _ _ _ _ _ _ hprocs =>
    rw [hprocs] at hr₂
    exact h.pass r₂ hr₂
  | crash _ _ _ hprocs =>
    rw [hprocs] at hr₂
    cases hr₂
  | restart _ _ _ _ hprocs =>
    rw [hprocs] at hr₂
    cases hr₂
    intro task htask
    cases htask

theorem Tracked.step (h : Tracked taskId pid w) (hgc : e.action.isGc = false)
    (hstep : w.step svc e = some w') : Tracked taskId pid w' where
  single := h.single_step hstep
  shimPid shim' hmem' hid' := by
    obtain ⟨shim, hmem, hid, hpid, _⟩ := h.mem_shims hstep hmem' hid'
    exact hpid.symm.trans (h.shimPid shim hmem hid)
  row := h.row_step hgc hstep
  cycle := h.cycle_step hstep
  pass := h.pass_step hstep

end Tracked

/-- The step leaves the task running, with its reservation, and does not declare it
lost, if its row is running and its shim is alive. -/
def SparesLive (svc : RuntimeService) (taskId : TaskId) (w : World) (e : Event) (w' : World) :
    Prop :=
  ∀ row shim, w.db.tasks.find taskId = some row → row.status = .running →
    shim ∈ w.procs.shims → shim.taskId = taskId → shim.alive = true →
    (∀ update, w.committed svc e ≠ some (.write taskId (.completeTask update))) ∧
      ∃ row', w'.db.tasks.find taskId = some row' ∧ row'.status = .running ∧
        row'.hasActiveReservation = true

theorem Tracked.sparesLive {taskId : TaskId} {pid : ℕ} (h : Tracked taskId pid w)
    (hstep : w.step svc e = some w') {pidTaken : Bool} (haction : e.action = .recover pidTaken) :
    SparesLive svc taskId w e w' := by
  intro row shim hrow hrunning hmem hid halive
  have hgc : e.action.isGc = false := by rw [haction]; rfl
  have hholds : (pidTaken || w.procs.processExists pid) = true := by
    rw [Bool.or_eq_true]
    refine .inr (List.any_eq_true.mpr ⟨shim, hmem, ?_⟩)
    rw [Shim.holdsPid, halive, h.shimPid shim hmem hid]
    simp
  have hspared : ∀ update, w.committed svc e ≠ some (.write taskId (.completeTask update)) := by
    intro update hcommitted
    cases step_write hstep hcommitted with
    | request hrequest _ =>
      rw [haction] at hrequest
      cases hrequest
    | dispatch _ _ _ hother _ _ _ => cases haction.symm.trans hother
    | recover pidTaken' r r' haction' hserver hwrite _ =>
      rw [haction] at haction'
      cases haction'
      cases hwrite with
      | lost _ hdead =>
        have hshimPid := (h.pass _ hserver _ (List.mem_cons_self ..) rfl).2.shimPid
        rw [Recovery.shimAlive, hshimPid, Option.any_some, hholds] at hdead
        cases hdead
    | shim _ _ _ _ hother _ _ _ _ => cases haction.symm.trans hother
  refine ⟨hspared, ?_⟩
  obtain ⟨row₀, hrow₀, hdispatched, _⟩ := h.row
  rw [hrow] at hrow₀
  cases hrow₀
  cases step_row hstep hgc hrow with
  | kept hrow' _ => exact ⟨row, hrow', hrunning, hdispatched.active hrunning⟩
  | written write hcommitted hrow' =>
    refine ⟨_, hrow', ?_⟩
    cases h.write hstep hcommitted with
    | note _ hnote =>
      obtain ⟨hstatus, _, hactive⟩ := TaskWrite.effect_note hnote hdispatched.status e.now
      exact ⟨hstatus.trans hrunning, hactive.trans (hdispatched.active hrunning)⟩
    | started _ _ _ _ _ _ hother _ _ _ => cases haction.symm.trans hother
    | completed update _ => exact absurd hcommitted (hspared update)

end World

end ExecgoRuntime
