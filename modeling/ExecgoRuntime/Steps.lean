import ExecgoRuntime.Machines
import ExecgoRuntime.TaskRuns

/-!
What a step of the system can do, said once. Requests and garbage collection
leave the server's main task and the shims alone; a dispatch, recovery or shim
step is a step of that machine; a crash keeps the database and the shims. Every
invariant over the processes is proved by cases on `StepCase`, or on what
follows from it for the list of the server and for one shim.
-/
namespace ExecgoRuntime

namespace World

/-- The effect of a step on the main task of the server and on the shims. -/
inductive StepCase (svc : RuntimeService) (w : World) (e : Event) (w' : World) : Prop
  | request (dispatcher : Dispatcher) (haction : e.action.isRequest = true)
      (hserver : w.procs.server = .serving dispatcher)
      (hserver' : w'.procs.server = .serving dispatcher) (hshims : w'.procs.shims = w.procs.shims)
      (hcall : ∀ call, w.committed svc e = some call → RequestCall call)
  | gc (removed : Bool) (dispatcher : Dispatcher) (haction : e.action = .gc removed)
      (hserver : w.procs.server = .serving dispatcher)
      (hserver' : w'.procs.server = .serving dispatcher) (hshims : w'.procs.shims = w.procs.shims)
      (hcall : ∀ call, w.committed svc e = some call → GcCall call)
  | dispatch (outcome : SpawnOutcome) (dispatcher dispatcher' : Dispatcher)
      (haction : e.action = .dispatch outcome)
      (hserver : w.procs.server = .serving dispatcher)
      (hfresh : ((dispatcher.spawns outcome).map Prod.snd).all w.procs.freshPid = true)
      (hstep : DispatchStep svc e.now outcome w.db (w.committed svc e) w'.db dispatcher dispatcher')
      (hprocs : w'.procs = w.procs.afterDispatch (dispatcher.spawns outcome) dispatcher')
  | recover (pidTaken : Bool) (recovery recovery' : Recovery)
      (haction : e.action = .recover pidTaken)
      (hserver : w.procs.server = .recovering recovery)
      (hstep : RecoverStep e.now (fun pid => pidTaken || w.procs.processExists pid) w.db
        (w.committed svc e) w'.db recovery recovery')
      (hprocs : w'.procs = w.procs.afterRecovery recovery')
  | shim (i : ℕ) (choice : ShimChoice) (shim shim' : Shim)
      (haction : e.action = .shim i choice) (hshim : w.procs.shims[i]? = some shim)
      (hfresh : ∀ pid, choice = .spawned pid → w.procs.freshPid pid = true)
      (hstep : ShimStep e.now e.failure choice w.db shim (w.committed svc e) w'.db shim')
      (hprocs : w'.procs = { w.procs with shims := w.procs.shims.set i shim' })
  | crash (haction : e.action = .crash) (hquiet : Move.Quiet (w.committed svc e))
      (hdb : w'.db = w.db) (hprocs : w'.procs = w.procs.crash)
  | restart (haction : e.action = .restart) (hquiet : Move.Quiet (w.committed svc e))
      (hdb : w'.db = w.db) (hserver : w.procs.server = .down)
      (hprocs : w'.procs = { w.procs with server := .recovering .listing })

variable {svc : RuntimeService} {w w' : World} {e : Event}

theorem step_cases (h : w.step svc e = some w') : StepCase svc w e w' := by
  obtain ⟨m, hm, hfresh, hout⟩ := step_actor h
  have hrequest : ∀ {dispatcher : Dispatcher}, w.procs.server = .serving dispatcher →
      e.action.isRequest = true → w'.procs.server = w.procs.server →
      w'.procs.shims = w.procs.shims →
      (∀ call, w.committed svc e = some call → RequestCall call) → StepCase svc w e w' := by
    intro dispatcher hserver haction hsame hshims hcall
    exact .request dispatcher haction hserver (hsame.trans hserver) hshims hcall
  unfold Procs.actorMove at hm
  split at hm
  case h_1 request generatedId dispatcher haction hserver =>
    cases hm
    obtain ⟨hquiet, _, hprocs⟩ := Move.outcome_silent hout
    exact hrequest hserver (by rw [haction]; rfl) (by rw [hprocs]) (by rw [hprocs])
      (RequestCall.of_quiet hquiet)
  case h_2 i dispatcher haction hserver =>
    obtain ⟨submit, _, hm⟩ := Option.bind_eq_some_iff.mp hm
    obtain ⟨m', hmove, hm⟩ := Option.bind_eq_some_iff.mp hm
    cases hm
    obtain ⟨_, hout, hprocs⟩ := Move.outcome_map hout
    exact hrequest hserver (by rw [haction]; rfl) (by rw [hprocs]) (by rw [hprocs])
      (fun call hcall => SubmitCall.requestCall hmove (Move.call_of_committed hout hcall))
  case h_3 taskId callerOwner dispatcher haction hserver =>
    cases hm
    obtain ⟨hquiet, _, hprocs⟩ := Move.outcome_silent hout
    exact hrequest hserver (by rw [haction]; rfl) (by rw [hprocs]) (by rw [hprocs])
      (RequestCall.of_quiet hquiet)
  case h_4 i signalError dispatcher haction hserver =>
    obtain ⟨kill, _, hm⟩ := Option.bind_eq_some_iff.mp hm
    obtain ⟨m', hmove, hm⟩ := Option.bind_eq_some_iff.mp hm
    cases hm
    obtain ⟨_, hout, hprocs⟩ := Move.outcome_map hout
    exact hrequest hserver (by rw [haction]; rfl) (by rw [hprocs]; rfl) (by rw [hprocs]; rfl)
      (fun call hcall => KillCall.requestCall hmove (Move.call_of_committed hout hcall))
  case h_5 i dispatcher haction hserver =>
    obtain ⟨escalation, _, hm⟩ := Option.bind_eq_some_iff.mp hm
    obtain ⟨m', hmove, hm⟩ := Option.bind_eq_some_iff.mp hm
    cases hm
    obtain ⟨_, hout, hprocs⟩ := Move.outcome_map hout
    exact hrequest hserver (by rw [haction]; rfl) (by rw [hprocs]) (by rw [hprocs])
      (fun call hcall => Escalation.requestCall hmove (Move.call_of_committed hout hcall))
  case h_6 outcome dispatcher haction hserver =>
    cases hm
    obtain ⟨dispatcher', hout, hprocs⟩ := Move.outcome_map hout
    refine .dispatch outcome dispatcher dispatcher' haction hserver ?_
      (Dispatcher.move_cases hout) hprocs
    simpa [Procs.newPid, haction, hserver] using hfresh
  case h_7 removed dispatcher haction hserver =>
    cases hm
    obtain ⟨_, hout, hprocs⟩ := Move.outcome_map hout
    exact .gc removed dispatcher haction hserver (by rw [hprocs]; exact hserver) (by rw [hprocs])
      (fun call hcall => Gc.gcCall (Move.call_of_committed hout hcall))
  case h_8 pidTaken recovery haction hserver =>
    obtain ⟨m', hmove, hm⟩ := Option.bind_eq_some_iff.mp hm
    cases hm
    obtain ⟨recovery', hout, hprocs⟩ := Move.outcome_map hout
    exact .recover pidTaken recovery recovery' haction hserver (Recovery.move_cases hmove hout)
      hprocs
  case h_9 i choice haction =>
    obtain ⟨shim, hshim, hm⟩ := Option.bind_eq_some_iff.mp hm
    obtain ⟨m', hmove, hm⟩ := Option.bind_eq_some_iff.mp hm
    cases hm
    obtain ⟨shim', hout, hprocs⟩ := Move.outcome_map hout
    refine .shim i choice shim shim' haction hshim ?_ (Shim.move_cases hmove hout) hprocs
    intro pid hchoice
    subst hchoice
    simpa [Procs.newPid, haction] using hfresh
  case h_10 dispatcher haction hserver =>
    cases hm
    obtain ⟨hquiet, hdb, hprocs⟩ := Move.outcome_silent hout
    exact .crash haction hquiet hdb hprocs
  case h_11 recovery haction hserver =>
    cases hm
    obtain ⟨hquiet, hdb, hprocs⟩ := Move.outcome_silent hout
    exact .crash haction hquiet hdb hprocs
  case h_12 haction hserver =>
    cases hm
    obtain ⟨hquiet, hdb, hprocs⟩ := Move.outcome_silent hout
    exact .restart haction hquiet hdb hserver hprocs
  case h_13 => cases hm

/-- What a step does to the list of shims. -/
inductive ShimsStep (svc : RuntimeService) (w : World) (e : Event) (w' : World) : Prop
  | same (hshims : w'.procs.shims = w.procs.shims) (hother : ∀ i choice, e.action ≠ .shim i choice)
  | spawned (dispatcher : Dispatcher) (outcome : SpawnOutcome) (new : TaskId × ℕ)
      (haction : e.action = .dispatch outcome) (hserver : w.procs.server = .serving dispatcher)
      (hspawns : dispatcher.spawns outcome = some new)
      (hshims : w'.procs.shims = w.procs.shims ++ [Shim.ofSpawn new])
  | moved (i : ℕ) (choice : ShimChoice) (shim shim' : Shim) (haction : e.action = .shim i choice)
      (hshim : w.procs.shims[i]? = some shim)
      (hfresh : ∀ pid, choice = .spawned pid → w.procs.freshPid pid = true)
      (hstep : ShimStep e.now e.failure choice w.db shim (w.committed svc e) w'.db shim')
      (hshims : w'.procs.shims = w.procs.shims.set i shim')

theorem step_shims (h : w.step svc e = some w') : ShimsStep svc w e w' := by
  cases step_cases h with
  | request _ haction _ _ hshims _ =>
    refine .same hshims (fun i choice hshim => ?_)
    rw [hshim] at haction
    cases haction
  | gc _ _ haction _ _ hshims _ => exact .same hshims (by simp [haction])
  | dispatch outcome d d' haction hserver _ _ hprocs =>
    cases hspawns : d.spawns outcome with
    | none => exact .same (by simp [hprocs, hspawns]) (by simp [haction])
    | some new => exact .spawned d outcome new haction hserver hspawns (by simp [hprocs, hspawns])
  | recover _ r r' haction _ _ hprocs => exact .same (by simp [hprocs]) (by simp [haction])
  | shim i choice shim shim' haction hshim hfresh hmove hprocs =>
    exact .moved i choice shim shim' haction hshim hfresh hmove (by rw [hprocs])
  | crash haction _ _ hprocs => exact .same (by simp [hprocs]) (by simp [haction])
  | restart haction _ _ _ hprocs => exact .same (by rw [hprocs]) (by simp [haction])

/-- What a step does to the `i`-th shim. -/
inductive ShimChange (svc : RuntimeService) (w : World) (e : Event) (w' : World) (i : ℕ) : Prop
  | same (hshim : w'.procs.shims[i]? = w.procs.shims[i]?)
      (hother : ∀ choice, e.action ≠ .shim i choice)
  | spawned (dispatcher : Dispatcher) (outcome : SpawnOutcome) (new : TaskId × ℕ)
      (hserver : w.procs.server = .serving dispatcher)
      (hspawns : dispatcher.spawns outcome = some new) (hnone : w.procs.shims[i]? = none)
      (hshim : w'.procs.shims[i]? = some (Shim.ofSpawn new))
      (hother : ∀ choice, e.action ≠ .shim i choice)
  | moved (choice : ShimChoice) (shim shim' : Shim) (haction : e.action = .shim i choice)
      (hshim : w.procs.shims[i]? = some shim) (hshim' : w'.procs.shims[i]? = some shim')
      (hstep : ShimStep e.now e.failure choice w.db shim (w.committed svc e) w'.db shim')

theorem step_shim (h : w.step svc e = some w') (i : ℕ) : ShimChange svc w e w' i := by
  cases step_shims h with
  | same hshims hother => exact .same (by rw [hshims]) (hother i)
  | spawned d outcome new haction hserver hspawns hshims =>
    have hother : ∀ choice, e.action ≠ .shim i choice := by simp [haction]
    rcases Nat.lt_trichotomy i w.procs.shims.length with hlt | rfl | hgt
    · exact .same (by rw [hshims, List.getElem?_append_left hlt]) hother
    · exact .spawned d outcome new hserver hspawns (List.getElem?_eq_none (Nat.le_refl _))
        (by simp [hshims]) hother
    · refine .same ?_ hother
      rw [hshims, List.getElem?_eq_none (Nat.le_of_lt hgt),
        List.getElem?_eq_none (by simpa using Nat.succ_le_of_lt hgt)]
  | moved j choice shim shim' haction hshim _ hmove hshims =>
    by_cases hj : j = i
    · subst hj
      obtain ⟨hlt, _⟩ := List.getElem?_eq_some_iff.mp hshim
      exact .moved choice shim shim' haction hshim (by simp [hshims, hlt]) hmove
    · refine .same (by rw [hshims, List.getElem?_set_ne hj]) (fun choice' heq => ?_)
      rw [haction] at heq
      cases heq
      exact hj rfl

/-- No shim is lost in a step. -/
theorem exists_shim_of_step (h : w.step svc e = some w') {shim : Shim}
    (hmem : shim ∈ w.procs.shims) : ∃ shim' ∈ w'.procs.shims, shim' = shim ∨
      ∃ choice, ShimStep e.now e.failure choice w.db shim (w.committed svc e) w'.db shim' := by
  obtain ⟨i, hi⟩ := List.mem_iff_getElem?.mp hmem
  cases step_shim h i with
  | same hsame _ => exact ⟨shim, List.mem_of_getElem? (hsame.trans hi), .inl rfl⟩
  | spawned _ _ _ _ _ hnone _ _ =>
    rw [hi] at hnone
    cases hnone
  | moved choice t shim' _ ht hshim' hmove =>
    rw [hi] at ht
    cases ht
    exact ⟨shim', List.mem_of_getElem? hshim', .inr ⟨choice, hmove⟩⟩

/-- The tasks that the server has listed and not yet treated. -/
def pending (w : World) : List TaskRecord :=
  match w.procs.server with
  | .down => []
  | .recovering recovery => recovery.pending
  | .serving dispatcher => dispatcher.pending

theorem pending_eq_of_server {w w' : World} (h : w'.procs.server = w.procs.server) :
    w'.pending = w.pending := by
  unfold pending
  rw [h]

/-- The list of the server shrinks or is read afresh. -/
theorem step_pending (h : w.step svc e = some w') :
    w'.pending.Sublist w.pending ∨
      (w'.db = w.db ∧ (w'.pending = w.db.listAccepted svc.settings.maxQueuedTasks ∨
        w'.pending = w.db.listNonTerminal)) := by
  have hsame : w'.procs.server = w.procs.server → w'.pending.Sublist w.pending := by
    intro hserver
    rw [pending_eq_of_server hserver]
  cases step_cases h with
  | request d _ hserver hserver' _ _ => exact .inl (hsame (hserver'.trans hserver.symm))
  | gc _ d _ hserver hserver' _ _ => exact .inl (hsame (hserver'.trans hserver.symm))
  | dispatch outcome d d' _ hserver _ hmove hprocs =>
    have hpending : w.pending = d.pending := by simp only [pending, hserver]
    have hpending' : w'.pending = d'.pending := by simp only [pending, hprocs, Procs.afterDispatch]
    rw [hpending, hpending']
    exact hmove.pending.imp id (fun hlisted => ⟨hlisted.1, .inl hlisted.2⟩)
  | recover _ r r' _ hserver hmove hprocs =>
    have hpending : w.pending = r.pending := by simp only [pending, hserver]
    have hpending' : w'.pending = r'.pending := by
      cases r' <;> simp only [pending, hprocs, Procs.afterRecovery] <;> rfl
    rw [hpending, hpending']
    exact hmove.pending.imp id (fun hlisted => ⟨hlisted.1, .inr hlisted.2⟩)
  | shim _ _ _ _ _ _ _ _ hprocs => exact .inl (hsame (by rw [hprocs]))
  | crash _ _ _ hprocs =>
    have hpending' : w'.pending = [] := by simp only [pending, hprocs, Procs.crash]
    rw [hpending']
    exact .inl (List.nil_sublist _)
  | restart _ _ _ _ hprocs =>
    have hpending' : w'.pending = [] := by simp only [pending, hprocs]; rfl
    rw [hpending']
    exact .inl (List.nil_sublist _)

/-- Who issues a write. -/
inductive WriteStep (svc : RuntimeService) (w : World) (e : Event) (w' : World) (taskId : TaskId)
    (write : TaskWrite) : Prop
  | request (haction : e.action.isRequest = true) (hcall : RequestCall (.write taskId write))
  | dispatch (outcome : SpawnOutcome) (dispatcher dispatcher' : Dispatcher)
      (haction : e.action = .dispatch outcome) (hserver : w.procs.server = .serving dispatcher)
      (hwrite : DispatchWrite svc e.now dispatcher dispatcher' taskId write)
      (hprocs : w'.procs = w.procs.afterDispatch (dispatcher.spawns outcome) dispatcher')
  | recover (pidTaken : Bool) (recovery recovery' : Recovery)
      (haction : e.action = .recover pidTaken) (hserver : w.procs.server = .recovering recovery)
      (hwrite : RecoverWrite e.now (fun pid => pidTaken || w.procs.processExists pid) recovery
        recovery' taskId write)
      (hprocs : w'.procs = w.procs.afterRecovery recovery')
  | shim (i : ℕ) (choice : ShimChoice) (shim shim' : Shim) (haction : e.action = .shim i choice)
      (hshim : w.procs.shims[i]? = some shim) (hid : shim.taskId = taskId)
      (hwrite : ShimWrite shim shim' write)
      (hprocs : w'.procs = { w.procs with shims := w.procs.shims.set i shim' })

theorem step_write (h : w.step svc e = some w') {taskId : TaskId} {write : TaskWrite}
    (hcommitted : w.committed svc e = some (.write taskId write)) :
    WriteStep svc w e w' taskId write := by
  cases step_cases h with
  | request _ haction _ _ _ hcall => exact .request haction (hcall _ hcommitted)
  | gc _ _ _ _ _ _ hcall => cases hcall _ hcommitted
  | dispatch outcome d d' haction hserver _ hmove hprocs =>
    exact .dispatch outcome d d' haction hserver (hmove.write hcommitted) hprocs
  | recover pidTaken r r' haction hserver hmove hprocs =>
    exact .recover pidTaken r r' haction hserver (hmove.write hcommitted) hprocs
  | shim i choice shim shim' haction hshim _ hmove hprocs =>
    rcases hmove.call hcommitted with hread | ⟨_, hcall, hwrite⟩
    · cases hread
    · cases hcall
      exact .shim i choice shim shim' haction hshim rfl hwrite hprocs
  | crash _ hquiet _ _ => exact absurd hquiet (Move.not_quiet_write hcommitted)
  | restart _ hquiet _ _ _ => exact absurd hquiet (Move.not_quiet_write hcommitted)

/-- A reservation is made for the head of the list, which was idle when listed. -/
theorem step_reserves (h : w.step svc e = some w') {taskId : TaskId} {write : TaskWrite}
    (hcommitted : w.committed svc e = some (.write taskId write)) (hwrite : write.reserves = true) :
    ∃ task, w.pending = task :: w'.pending ∧ task.taskId = taskId ∧
      task.hasActiveReservation = false ∧ write.reservesFor task := by
  cases step_write h hcommitted with
  | request _ hcall => cases hcall <;> cases hwrite
  | dispatch outcome d d' _ hserver hfrom hprocs =>
    simpa [pending, hserver, hprocs] using hfrom.reserves hwrite
  | recover _ r r' _ hserver hfrom hprocs =>
    have hpending : w.pending = r.pending := by simp only [pending, hserver]
    have hpending' : w'.pending = r'.pending := by
      cases r' <;> simp only [pending, hprocs, Procs.afterRecovery] <;> rfl
    rw [hpending, hpending']
    exact hfrom.reserves hwrite
  | shim _ _ _ _ _ _ _ hfrom _ => cases hfrom <;> cases hwrite

/-- Only garbage collection deletes rows. -/
theorem not_deletes_of_step (h : w.step svc e = some w') (hgc : e.action.isGc = false)
    (taskId : TaskId) : w.committed svc e ≠ some (.deleteTask taskId) := by
  intro hcommitted
  have hquiet : ¬ Move.Quiet (w.committed svc e) := by
    intro hno
    cases hno.call_eq hcommitted
  cases step_cases h with
  | request _ _ _ _ _ hcall => cases hcall _ hcommitted
  | gc removed _ haction _ _ _ _ =>
    rw [haction] at hgc
    cases hgc
  | dispatch _ _ _ _ _ _ hmove _ =>
    rw [hcommitted] at hmove hquiet
    generalize w'.db = db' at hmove
    cases hmove <;> exact hquiet ‹_›
  | recover _ _ _ _ _ hmove _ =>
    rw [hcommitted] at hmove hquiet
    generalize w'.db = db' at hmove
    cases hmove <;> exact hquiet ‹_›
  | shim _ _ _ _ _ _ _ hmove _ =>
    rcases hmove.call hcommitted with hread | ⟨_, hwrite, _⟩
    · cases hread
    · cases hwrite
  | crash _ hno _ _ => exact hquiet hno
  | restart _ hno _ _ _ => exact hquiet hno

/-- What a step that does not delete it does to an existing row. -/
inductive RowStep (svc : RuntimeService) (w : World) (e : Event) (w' : World) (taskId : TaskId)
    (row : TaskRecord) : Prop
  | kept (hrow' : w'.db.tasks.find taskId = some row)
      (hother : ∀ write, w.committed svc e ≠ some (.write taskId write))
  | written (write : TaskWrite) (hcommitted : w.committed svc e = some (.write taskId write))
      (hrow' : w'.db.tasks.find taskId = some (write.effect e.now row))

theorem step_row_of_not_deleted (h : w.step svc e = some w') {taskId : TaskId}
    (hkept : w.committed svc e ≠ some (.deleteTask taskId)) {row : TaskRecord}
    (hrow : w.db.tasks.find taskId = some row) : RowStep svc w e w' taskId row := by
  rcases step_db h with ⟨hnone, hdb⟩ | ⟨call, hcall, hexec⟩
  · exact .kept (hdb ▸ hrow) (by simp [hnone])
  · cases call with
    | read =>
      have hsame : w.db = w'.db := Except.ok.inj hexec
      exact .kept (hsame ▸ hrow) (by simp [hcall])
    | insertTask new =>
      obtain ⟨hfree, hleaves⟩ := Db.insertTask_spec hexec
      refine .kept ?_ (by simp [hcall])
      rw [hleaves.tasks, KeyedTable.Table.find_insert]
      split
      · rename_i heq
        rw [heq, hfree] at hrow
        cases hrow
      · exact hrow
    | deleteTask other =>
      refine .kept ?_ (by simp [hcall])
      have hne : taskId ≠ other := by
        intro heq
        exact hkept (heq ▸ hcall)
      rw [(Db.deleteTask_spec hexec).1, KeyedTable.Table.find_erase, if_neg hne]
      exact hrow
    | write other write =>
      by_cases heq : taskId = other
      · subst heq
        refine .written write hcall ?_
        rw [Db.find_write hexec, if_pos rfl, hrow]
        rfl
      · refine .kept ?_ ?_
        · rw [Db.find_write hexec, if_neg heq]
          exact hrow
        · intro write' hcommitted
          rw [hcall] at hcommitted
          cases hcommitted
          exact heq rfl

theorem step_row (h : w.step svc e = some w') (hgc : e.action.isGc = false) {taskId : TaskId}
    {row : TaskRecord} (hrow : w.db.tasks.find taskId = some row) :
    RowStep svc w e w' taskId row :=
  step_row_of_not_deleted h (not_deletes_of_step h hgc taskId) hrow

/-- Where a row of the next state and its events come from, whatever the step. -/
inductive RowOrigin (svc : RuntimeService) (w : World) (e : Event) (w' : World) (taskId : TaskId)
    (row' : TaskRecord) : Prop
  | inserted (new : NewTaskRecord) (hcommitted : w.committed svc e = some (.insertTask new))
      (hid : new.taskId = taskId) (hfree : w.db.tasks.find taskId = none)
      (hrow' : row' = new.toRow e.now) (hstream : w'.db.stream taskId = Db.insertEvents new)
  | kept (hrow : w.db.tasks.find taskId = some row')
      (hstream : w'.db.stream taskId = w.db.stream taskId)
      (hother : ∀ write, w.committed svc e ≠ some (.write taskId write))
  | written (write : TaskWrite) (row : TaskRecord)
      (hcommitted : w.committed svc e = some (.write taskId write))
      (hrow : w.db.tasks.find taskId = some row) (hrow' : row' = write.effect e.now row)
      (hstream : w'.db.stream taskId = w.db.stream taskId ++ write.emits row)

theorem step_origin (h : w.step svc e = some w') {taskId : TaskId} {row' : TaskRecord}
    (hrow' : w'.db.tasks.find taskId = some row') : RowOrigin svc w e w' taskId row' := by
  rcases step_db h with ⟨hnone, hdb⟩ | ⟨call, hcall, hexec⟩
  · rw [hdb] at hrow'
    exact .kept hrow' (by rw [hdb]) (by simp [hnone])
  cases call with
  | read =>
    have hsame : w.db = w'.db := Except.ok.inj hexec
    rw [← hsame] at hrow'
    exact .kept hrow' (by rw [hsame]) (by simp [hcall])
  | insertTask new =>
    obtain ⟨hfree, hleaves⟩ := Db.insertTask_spec hexec
    have hkey : (new.toRow e.now).taskId = new.taskId := rfl
    rw [hleaves.tasks, KeyedTable.Table.find_insert, hkey] at hrow'
    by_cases hid : taskId = new.taskId
    · subst hid
      rw [if_pos rfl] at hrow'
      refine .inserted new hcall rfl hfree (Option.some.inj hrow').symm ?_
      have hempty : w.db.stream new.taskId = [] := Db.stream_of_absent w.db hfree
      rw [hleaves.stream, if_pos rfl, hempty, List.nil_append]
    · rw [if_neg hid] at hrow'
      refine .kept hrow' ?_ (by simp [hcall])
      rw [hleaves.stream, if_neg hid, List.append_nil]
  | deleteTask other =>
    obtain ⟨htasks, hstream⟩ := Db.deleteTask_spec hexec
    rw [htasks, KeyedTable.Table.find_erase] at hrow'
    by_cases hid : taskId = other
    · rw [if_pos hid] at hrow'
      cases hrow'
    · rw [if_neg hid] at hrow'
      exact .kept hrow' (by rw [hstream, if_neg hid]) (by simp [hcall])
  | write other write =>
    by_cases hid : taskId = other
    · subst hid
      rw [Db.find_write hexec, if_pos rfl] at hrow'
      obtain ⟨row, hrow, rfl⟩ := Option.map_eq_some_iff.mp hrow'
      exact .written write row hcall hrow rfl (Db.stream_write_self hexec hrow)
    · rw [Db.find_write hexec, if_neg hid] at hrow'
      refine .kept hrow' (Db.stream_write_of_ne hexec hid) ?_
      intro write' hcommitted
      rw [hcall] at hcommitted
      cases hcommitted
      exact hid rfl

/-- The row has the property, or it is gone for good. -/
def Established (w : World) (taskId : TaskId) (P : TaskRecord → Prop) : Prop :=
  (∃ row, w.db.tasks.find taskId = some row ∧ P row) ∨
    (w.db.tasks.find taskId = none ∧ taskId ∈ w.deleted)

/-- The step does not submit an id whose row was deleted. -/
def NoResubmission (svc : RuntimeService) (w : World) (e : Event) : Prop :=
  ∀ new, w.committed svc e = some (.insertTask new) → new.taskId ∉ w.deleted

/-- `NoResubmission` as a check. -/
def submitsFresh (svc : RuntimeService) (w : World) (e : Event) : Bool :=
  match w.committed svc e with
  | some (.insertTask new) => decide (new.taskId ∉ w.deleted)
  | _ => true

theorem noResubmission_of_fresh (h : w.submitsFresh svc e = true) : w.NoResubmission svc e := by
  intro new hcommitted
  simpa [submitsFresh, hcommitted] using h

/-- A property that no write takes away stays established. -/
theorem Established.step {taskId : TaskId} {P : TaskRecord → Prop}
    (hP : ∀ (write : TaskWrite) (now : Timestamp) (row : TaskRecord), P row →
      P (write.effect now row))
    (hestablished : w.Established taskId P) (hnew : w.NoResubmission svc e)
    (h : w.step svc e = some w') : w'.Established taskId P := by
  obtain ⟨_, _, _, hdeleted⟩ := step_outcome h
  rcases hestablished with ⟨row, hrow, hp⟩ | ⟨hnone, hgone⟩
  · by_cases hdelete : w.committed svc e = some (.deleteTask taskId)
    · refine .inr ⟨?_, ?_⟩
      · rcases step_db h with ⟨hno, _⟩ | ⟨call, hcall, hexec⟩
        · rw [hno] at hdelete
          cases hdelete
        · rw [hcall] at hdelete
          cases hdelete
          rw [(Db.deleteTask_spec hexec).1, KeyedTable.Table.find_erase, if_pos rfl]
      · rw [hdeleted, hdelete]
        exact List.mem_cons_self ..
    · cases step_row_of_not_deleted h hdelete hrow with
      | kept hrow' _ => exact .inl ⟨row, hrow', hp⟩
      | written write _ hrow' => exact .inl ⟨_, hrow', hP write e.now row hp⟩
  · have hgone' : taskId ∈ w'.deleted := by
      rw [hdeleted]
      unfold nextDeleted
      split
      · exact List.mem_cons_of_mem _ hgone
      · exact hgone
    refine .inr ⟨?_, hgone'⟩
    cases hrow' : w'.db.tasks.find taskId with
    | none => rfl
    | some row' =>
      cases step_origin h hrow' with
      | inserted new hcommitted hid _ _ _ =>
        exact absurd (hid ▸ hgone) (hnew new hcommitted)
      | kept hrow _ _ =>
        rw [hnone] at hrow
        cases hrow
      | written _ _ _ hrow _ _ =>
        rw [hnone] at hrow
        cases hrow

theorem Established.of_find {taskId : TaskId} {P : TaskRecord → Prop}
    (h : w.Established taskId P) {row : TaskRecord} (hrow : w.db.tasks.find taskId = some row) :
    P row := by
  rcases h with ⟨row', hrow', hp⟩ | ⟨hnone, _⟩
  · rw [hrow] at hrow'
    cases hrow'
    exact hp
  · rw [hrow] at hnone
    cases hnone

end World

end ExecgoRuntime
