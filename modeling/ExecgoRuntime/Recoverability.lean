import ExecgoRuntime.Lib.Reaches
import ExecgoRuntime.RecoveryPass
import ExecgoRuntime.Workloads

/-!
No dead end. Whatever has happened in a run, failing calls and crashes included,
the tasks can all be brought to an end: once the shims are gone, a restart settles
the running tasks, and a kill each of those that still wait. The one thing in the
way is a workload that has got the pid recorded for the shim of a running task.
-/
namespace ExecgoRuntime

open KeyedTable Runs

namespace Shim

/-- A shim that is about to report the start has a workload to report. -/
def Manned (shim : Shim) : Prop :=
  ∀ plan scriptPath, shim.state = .launched plan scriptPath ∨
    shim.state = .confining plan scriptPath → shim.workload.isSome = true

/-- The shim exits with the error of a call, or is about to complete its row. -/
def Quits (e : AppError) (shim shim' : Shim) : Prop :=
  shim' = shim.fail e ∨ ∃ update, shim' = { shim with state := .completing update }

/-- Wherever a shim is, it has a step that makes it exit if no call succeeds. -/
theorem exists_quit {shim : Shim} (hmanned : shim.Manned) (halive : shim.alive = true)
    (graceMs : ℕ) (now : Timestamp) (e : AppError) (db : Db) :
    ∃ choice m, (∀ pid, choice ≠ .spawned pid) ∧ shim.move graceMs now choice = some m ∧
      (m.run now (some e) db).1 = db ∧ shim.Quits e (m.run now (some e) db).2 := by
  cases hstate : shim.state with
  | starting =>
    exact ⟨.proceed, _, by simp, by simp only [move, hstate]; rfl, rfl, .inl rfl⟩
  | launching task plan =>
    exact ⟨.spawnFailed e, _, by simp, by simp only [move, hstate]; rfl, rfl, .inr ⟨_, rfl⟩⟩
  | confining plan scriptPath =>
    exact ⟨.confined (some e), _, by simp, by simp only [move, hstate]; rfl, rfl, .inr ⟨_, rfl⟩⟩
  | launched plan scriptPath =>
    obtain ⟨workload, hworkload⟩ :=
      Option.isSome_iff_exists.mp (hmanned plan scriptPath (.inl hstate))
    refine ⟨.proceed, .write shim.taskId (.markStarted workload.pid workload.pid scriptPath)
      { shim with state := .reloading plan } shim.fail, by simp, ?_, rfl, .inl rfl⟩
    simp only [move, hstate, hworkload, Option.map_some]
  | reloading plan =>
    exact ⟨.proceed, _, by simp, by simp only [move, hstate]; rfl, rfl, .inl rfl⟩
  | supervising s =>
    exact ⟨.tick 0, _, by simp, by simp only [move, hstate]; rfl, rfl, .inl rfl⟩
  | timingOut s elapsed cancelRequested =>
    exact ⟨.proceed, _, by simp, by simp only [move, hstate]; rfl, rfl, .inl rfl⟩
  | completing update =>
    exact ⟨.proceed, _, by simp, by simp only [move, hstate]; rfl, rfl, .inl rfl⟩
  | persisting =>
    exact ⟨.proceed, _, by simp, by simp only [move, hstate]; rfl, rfl, .inl rfl⟩
  | exited result =>
    rw [alive, hstate] at halive
    cases halive

end Shim

theorem ShimStep.manned {now : Timestamp} {failure : Option AppError} {choice : ShimChoice}
    {db db' : Db} {committed : Option StoreCall} {shim shim' : Shim}
    (h : ShimStep now failure choice db shim committed db' shim') (hshim : shim.Manned) :
    shim'.Manned := by
  have hother : ∀ {t : Shim}, (∀ plan scriptPath, t.state ≠ .launched plan scriptPath ∧
      t.state ≠ .confining plan scriptPath) → t.Manned := by
    intro t hstate plan scriptPath hcase
    rcases hcase with hlaunched | hconfining
    · exact absurd hlaunched (hstate plan scriptPath).1
    · exact absurd hconfining (hstate plan scriptPath).2
  cases h with
  | spawned _ _ _ => exact fun _ _ _ => rfl
  | confined _ hstate _ => exact fun _ _ _ => hshim _ _ (.inr hstate)
  | loaded _ _ _ =>
    refine hother fun plan scriptPath => ?_
    unfold Shim.load
    split
    · simp [Shim.exit]
    · split <;> simp
  | reaped usage _ _ hstate =>
    refine hother fun plan scriptPath => ?_
    rcases hstate with ⟨s, hstate⟩ | ⟨s, elapsed, b, hstate⟩ <;> simp [Shim.reap, hstate]
  | failed e _ _ _ _ => exact hother fun _ _ => by simp [Shim.fail, Shim.exit]
  | persisted _ _ => exact hother fun _ _ => by simp [Shim.exit]
  | _ => exact hother fun _ _ => by simp

namespace World

variable {svc : RuntimeService} {w w' : World}

theorem manned_of_run {db : Db} {trace : List (World × Event)} {last : World}
    (hrun : Run svc (serve db) trace last) : ∀ shim ∈ last.procs.shims, shim.Manned := by
  have hstart : ∀ shim ∈ (serve db).procs.shims, shim.Manned := fun _ hmem => by cases hmem
  refine hrun.invariant (I := fun w => ∀ shim ∈ w.procs.shims, shim.Manned) (G := fun _ _ => True)
    hstart ?_ (fun _ _ => trivial)
  intro w e w' hbefore _ hstep shim hmem
  cases step_shims hstep with
  | same hshims _ => exact hbefore shim (hshims ▸ hmem)
  | spawned _ _ new _ _ _ hshims =>
    rw [hshims] at hmem
    rcases List.mem_append.mp hmem with hold | hnew
    · exact hbefore shim hold
    · rw [List.mem_singleton.mp hnew]
      intro plan scriptPath hstate
      rcases hstate with hstate | hstate <;> cases hstate
  | moved i choice old shim' _ hold _ hmove hshims =>
    rw [hshims] at hmem
    rcases List.mem_or_eq_of_mem_set hmem with hkept | rfl
    · exact hbefore shim hkept
    · exact hmove.manned (hbefore old (List.mem_of_getElem? hold))

theorem committed_of_failure (e : AppError) (action : Action) (now : Timestamp) :
    w.committed svc { action, now, failure := some e } = none := by
  unfold committed
  cases hm : w.procs.move svc now action with
  | none => rfl
  | some m =>
    simp only [Option.bind_some, Move.committed]
    cases m.call <;> rfl

def setShim (w : World) (i : ℕ) (shim : Shim) : World :=
  { w with procs := { w.procs with shims := w.procs.shims.set i shim } }

theorem setShim_setShim (w : World) (i : ℕ) (shim shim' : Shim) :
    (w.setShim i shim).setShim i shim' = w.setShim i shim' := by
  simp [setShim]

/-- A step of a shim in which no call succeeds. -/
theorem step_of_quit {i : ℕ} {shim shim' : Shim} (hshim : w.procs.shims[i]? = some shim)
    {choice : ShimChoice} {m : Move Shim} (hchoice : ∀ pid, choice ≠ .spawned pid)
    (hmove : shim.move svc.settings.terminationGraceMs 0 choice = some m) {e : AppError}
    (hrun : m.run 0 (some e) w.db = (w.db, shim')) :
    w.step svc { action := .shim i choice, failure := some e } = some (w.setShim i shim') := by
  have hpid : w.procs.newPid (.shim i choice) = none := by
    unfold Procs.newPid
    split
    · rename_i hcase _
      cases hcase
    · rename_i hcase
      cases hcase
      exact absurd rfl (hchoice _)
    · rfl
  have hmoves : w.procs.move svc 0 (.shim i choice) = some (m.map fun shim =>
      { w.procs with shims := w.procs.shims.set i shim }) := by
    rw [Procs.move, hpid, Option.all_none, if_pos rfl]
    simp [Procs.actorMove, hshim, hmove]
  simp only [step, committed_of_failure, nextDeleted, hmoves, Option.map_some, Move.run_map, hrun]
  rfl

/-- A shim can always be gone, with nothing else changed. -/
theorem reaches_quit {i : ℕ} {shim : Shim} (hshim : w.procs.shims[i]? = some shim)
    (hmanned : shim.Manned) (halive : shim.alive = true) (e : AppError) :
    Reaches (step svc) w (w.setShim i (shim.fail e)) := by
  obtain ⟨choice, m, hchoice, hmove, hrun, hquits⟩ :=
    shim.exists_quit hmanned halive svc.settings.terminationGraceMs 0 e w.db
  rcases hquits with hexit | ⟨update, hcompleting⟩
  · exact .single (step_of_quit hshim hchoice hmove (Prod.ext hrun hexit))
  · have hfirst : step svc w _ = _ :=
      step_of_quit hshim hchoice hmove (Prod.ext hrun hcompleting)
    have hlt := (List.getElem?_eq_some_iff.mp hshim).1
    have hshim' : (w.setShim i { shim with state := .completing update }).procs.shims[i]? =
        some { shim with state := .completing update } := by simp [setShim, hlt]
    have hlast : step svc (w.setShim i { shim with state := .completing update })
        { action := .shim i .proceed, failure := some e } =
        some ((w.setShim i { shim with state := .completing update }).setShim i (shim.fail e)) :=
      step_of_quit hshim' (by simp) rfl rfl
    rw [setShim_setShim] at hlast
    exact (Reaches.single hfirst).snoc hlast

/-- Nothing has changed but the points at which the shims are. -/
structure SameBut (w v : World) : Prop where
  db : v.db = w.db
  server : v.procs.server = w.procs.server
  length : v.procs.shims.length = w.procs.shims.length
  shims : ∀ shim ∈ v.procs.shims, shim.Manned ∧
    ∃ old ∈ w.procs.shims, shim.workload = old.workload

/-- The `i`-th shim, if there is one, has exited. -/
def Gone (i : ℕ) (v : World) : Prop :=
  ∀ shim, v.procs.shims[i]? = some shim → shim.alive = false

theorem reaches_gone {v : World} (hv : w.SameBut v) (i : ℕ) :
    ∃ v', Reaches (step svc) v v' ∧ w.SameBut v' ∧ Gone i v' ∧ ∀ j, Gone j v → Gone j v' := by
  by_cases hdone : Gone i v
  · exact ⟨v, .refl v, hv, hdone, fun _ h => h⟩
  unfold Gone at hdone
  push Not at hdone
  obtain ⟨shim, hshim, halive⟩ := hdone
  have hmem := List.mem_of_getElem? hshim
  have hlt := (List.getElem?_eq_some_iff.mp hshim).1
  have hexited : (v.setShim i (shim.fail (.internal ""))).procs.shims[i]? =
      some (shim.fail (.internal "")) := by simp [setShim, hlt]
  have hgone : Gone i (v.setShim i (shim.fail (.internal ""))) := by
    intro t ht
    rw [hexited] at ht
    cases ht
    rfl
  refine ⟨v.setShim i (shim.fail (.internal "")),
    reaches_quit hshim (hv.shims shim hmem).1 (by simpa using halive) _,
    ⟨hv.db, hv.server, by simpa [setShim] using hv.length, fun t ht => ?_⟩, hgone,
    fun j hj => ?_⟩
  · rcases List.mem_or_eq_of_mem_set ht with hold | rfl
    · exact hv.shims t hold
    · refine ⟨fun plan scriptPath hstate => ?_, (hv.shims shim hmem).2⟩
      rcases hstate with hstate | hstate <;> cases hstate
  · by_cases hij : i = j
    · exact hij ▸ hgone
    · exact fun t ht => hj t (by simpa [setShim, List.getElem?_set_ne hij] using ht)

/-- All shims can be gone. -/
theorem reaches_all_gone (svc : RuntimeService) (hmanned : ∀ shim ∈ w.procs.shims, shim.Manned) :
    ∃ w', Reaches (step svc) w w' ∧ w'.db = w.db ∧ w'.procs.server = w.procs.server ∧
      ∀ shim ∈ w'.procs.shims, shim.alive = false ∧
        ∃ old ∈ w.procs.shims, shim.workload = old.workload := by
  have hstart : w.SameBut w :=
    ⟨rfl, rfl, rfl, fun shim hmem => ⟨hmanned shim hmem, shim, hmem, rfl⟩⟩
  obtain ⟨w', hreaches, hsame, hgone, _⟩ := Reaches.exists_forall_mem
    (List.range w.procs.shims.length) (fun i _ _ hv => reaches_gone hv i) w hstart
  refine ⟨w', hreaches, hsame.db, hsame.server, fun shim hmem => ⟨?_, (hsame.shims shim hmem).2⟩⟩
  obtain ⟨i, hi⟩ := List.mem_iff_getElem?.mp hmem
  have hlt := (List.getElem?_eq_some_iff.mp hi).1
  exact hgone i (List.mem_range.mpr (hsame.length ▸ hlt)) shim hi

/-- The server can be down. -/
theorem reaches_down (svc : RuntimeService) (w : World) :
    ∃ w', Reaches (step svc) w w' ∧ w'.db = w.db ∧ w'.procs.server = .down ∧
      w'.procs.shims = w.procs.shims := by
  obtain ⟨db, procs, deleted⟩ := w
  obtain ⟨server, submits, kills, escalations, gc, shims⟩ := procs
  cases server with
  | down => exact ⟨_, .refl _, rfl, rfl, rfl⟩
  | recovering _ => exact ⟨_, .single (a := { action := .crash }) rfl, rfl, rfl, rfl⟩
  | serving _ => exact ⟨_, .single (a := { action := .crash }) rfl, rfl, rfl, rfl⟩

/-- A step in which no call is made to fail is the run of its move. -/
theorem exists_step_of_move {σ : Type} {action : Action} {now : Timestamp} {m : Move σ}
    {f : σ → Procs} (h : w.procs.move svc now action = some (m.map f)) :
    ∃ w', w.step svc { action, now } = some w' ∧ w'.db = (m.run now none w.db).1 ∧
      w'.procs = f (m.run now none w.db).2 := by
  have hrun := Move.run_map f m now none w.db
  refine ⟨⟨((m.map f).run now none w.db).1, ((m.map f).run now none w.db).2,
    nextDeleted w.deleted (w.committed svc { action, now })⟩, ?_, ?_, ?_⟩
  · simp only [step, h, Option.map_some]
  · rw [hrun]
  · rw [hrun]

/-- The server is at this point of its pass, with nothing else changed. -/
def AtPass (procs : Procs) (t : Db × Recovery) (v : World) : Prop :=
  v.db = t.1 ∧ v.procs = procs.afterRecovery t.2

theorem reaches_recovery_step {procs : Procs} {t t' : Db × Recovery} {now : Timestamp} {v : World}
    (hv : AtPass procs t v) (hstep : Recovery.stepAlone procs.processExists t now = some t') :
    ∃ v', Reaches (step svc) v v' ∧ AtPass procs t' v' := by
  obtain ⟨dbs, r⟩ := t
  obtain ⟨db, ps, deleted⟩ := v
  obtain ⟨hdb, hprocs⟩ := hv
  obtain rfl : db = dbs := hdb
  obtain rfl : ps = procs.afterRecovery r := hprocs
  obtain ⟨m, hm, rfl⟩ := Option.map_eq_some_iff.mp hstep
  have hserver : procs.afterRecovery r = { procs with server := .recovering r } := by
    cases r with
    | finished => cases hm
    | failed _ => cases hm
    | _ => rfl
  have hactor : (procs.afterRecovery r).actorMove svc now (.recover false) =
      some (m.map procs.afterRecovery) := by
    rw [hserver]
    exact Option.bind_eq_some_iff.mpr ⟨m, hm, rfl⟩
  have hmoves : (procs.afterRecovery r).move svc now (.recover false) =
      some (m.map procs.afterRecovery) := by
    rw [Procs.move, hserver, ← hserver, hactor]
    rfl
  obtain ⟨v', hv', hdb', hprocs'⟩ := exists_step_of_move
    (w := ⟨db, procs.afterRecovery r, deleted⟩) hmoves
  exact ⟨v', .single hv', hdb', hprocs'⟩

/-- A server that is down can be started, and its recovery pass come to its end with
nothing in between. -/
theorem reaches_recovered (svc : RuntimeService) (hdown : w.procs.server = .down) :
    ∃ w' trace, Reaches (step svc) w w' ∧ w'.procs.server = .serving .idle ∧
      Recovery.Passes w.procs.processExists w.db trace w'.db := by
  obtain ⟨db, procs, deleted⟩ := w
  have hrestart : step svc ⟨db, procs, deleted⟩ { action := .restart } =
      some ⟨db, procs.afterRecovery .listing, deleted⟩ := by
    obtain ⟨server, submits, kills, escalations, gc, shims⟩ := procs
    obtain rfl : server = .down := hdown
    rfl
  obtain ⟨trace, db', hpass, _⟩ := (recover_settles procs.processExists db).1 (fun _ => 0)
  obtain ⟨w', hreaches, hdb', hprocs'⟩ := Reaches.follow
    (fun _ _ _ v hv hstep => reaches_recovery_step (v := v) hv hstep) hpass
    (s := ⟨db, procs.afterRecovery .listing, deleted⟩) (R := AtPass procs) ⟨rfl, rfl⟩
  refine ⟨w', trace, (Reaches.single hrestart).trans hreaches, ?_, hdb' ▸ hpass⟩
  rw [hprocs']
  rfl

/-- A kill takes its next step; no call is made to fail. -/
theorem exists_kill_step (svc : RuntimeService) {d : Dispatcher}
    (hserver : w.procs.server = .serving d) {k : ℕ} {call : KillCall}
    (hcall : w.procs.kills[k]? = some call) {m : Move KillCall} (hmove : call.move none = some m) :
    ∃ w', w.step svc { action := .kill k none } = some w' ∧ w'.db = (m.run 0 none w.db).1 ∧
      w'.procs.server = .serving d ∧ w'.procs.kills[k]? = some (m.run 0 none w.db).2 := by
  have hlt := (List.getElem?_eq_some_iff.mp hcall).1
  have hactor : w.procs.actorMove svc 0 (.kill k none) =
      some (m.map (w.procs.afterKill k (call.escalation none))) := by
    simp only [Procs.actorMove, hserver]
    exact Option.bind_eq_some_iff.mpr ⟨call, hcall, Option.bind_eq_some_iff.mpr ⟨m, hmove, rfl⟩⟩
  have hmoves : w.procs.move svc 0 (.kill k none) =
      some (m.map (w.procs.afterKill k (call.escalation none))) := by
    simp only [Procs.move, Procs.newPid, Option.all_none, if_true, hactor]
  obtain ⟨w', hstep, hdb, hprocs⟩ := exists_step_of_move hmoves
  refine ⟨w', hstep, hdb, by rw [hprocs]; exact hserver, ?_⟩
  rw [hprocs]
  simp [Procs.afterKill, hlt]

/-- A kill that the server receives is the last of its kills. -/
theorem exists_receiveKill (svc : RuntimeService) {d : Dispatcher}
    (hserver : w.procs.server = .serving d) (taskId : TaskId) (callerOwner : Option String) :
    ∃ (w' : World) (k : ℕ), w.step svc { action := .receiveKill taskId callerOwner } = some w' ∧
      w'.db = w.db ∧ w'.procs.server = .serving d ∧
      w'.procs.kills[k]? = some { taskId, callerOwner } := by
  obtain ⟨db, ⟨server, submits, kills, escalations, gc, shims⟩, deleted⟩ := w
  obtain rfl : server = .serving d := hserver
  exact ⟨_, kills.length, rfl, rfl, rfl, by simp [Move.run, Move.silent]⟩

/-- Its owner can cancel a task that waits, and nothing else changes in the store. -/
theorem reaches_cancelled (svc : RuntimeService) {d : Dispatcher}
    (hserver : w.procs.server = .serving d) {taskId : TaskId} {row : TaskRecord}
    (hrow : w.db.tasks.find taskId = some row) (haccepted : row.status = .accepted) :
    ∃ w' row', Reaches (step svc) w w' ∧ w'.procs.server = .serving d ∧
      w'.db.tasks.find taskId = some row' ∧ row'.status = .cancelled ∧
      row'.hasActiveReservation = false ∧
      ∀ j, j ≠ taskId → w'.db.tasks.find j = w.db.tasks.find j := by
  obtain ⟨w₁, k, hreceive, hdb₁, hserver₁, hkill₁⟩ :=
    exists_receiveKill svc hserver taskId row.owner
  -- The kill reads the row, whose owner it gives.
  obtain ⟨w₂, hread, hdb₂, hserver₂, hkill₂⟩ := exists_kill_step svc hserver₁ hkill₁ rfl
  have hget : w₁.db.getTask taskId = .ok row := by
    rw [hdb₁]
    exact (w.db.getTask_eq_ok_iff _ _).mpr hrow
  have hrequesting : w₂.procs.kills[k]? =
      some { taskId, callerOwner := row.owner, state := .requesting } := by
    rw [hkill₂]
    simp [Move.run, Move.query, StoreCall.exec, hget, KillCall.authorize, haccepted,
      TaskStatus.isTerminal]
  have hsame₂ : w₂.db = w.db := hdb₂.trans hdb₁
  -- The request is recorded, and the row still waits.
  obtain ⟨w₃, hrequest, hdb₃, hserver₃, hkill₃⟩ := exists_kill_step svc hserver₂ hrequesting rfl
  obtain ⟨db₃, hrun₃⟩ := TaskWrite.run_ok (w := .setCancelRequested) rfl 0 (hsame₂ ▸ hrow)
  have hrow₃ : db₃.tasks.find taskId = some (TaskWrite.setCancelRequested.effect 0 row) := by
    rw [Db.find_write hrun₃, if_pos rfl, hsame₂, hrow]
    rfl
  have hrereading : w₃.procs.kills[k]? =
      some { taskId, callerOwner := row.owner, state := .rereading } := by
    rw [hkill₃]
    simp [Move.run, Move.write, StoreCall.exec, hrun₃]
  have hsame₃ : w₃.db = db₃ := by
    rw [hdb₃]
    simp [Move.run, Move.write, StoreCall.exec, hrun₃]
  obtain ⟨w₃', hreread, hdb₃', hserver₃', hkill₃'⟩ := exists_kill_step svc hserver₃ hrereading rfl
  have hget₃ : w₃.db.getTask taskId = .ok (TaskWrite.setCancelRequested.effect 0 row) := by
    rw [hsame₃]
    exact (db₃.getTask_eq_ok_iff _ _).mpr hrow₃
  have hwaits : (TaskWrite.setCancelRequested.effect 0 row).status = .accepted := haccepted
  have hcancelling : w₃'.procs.kills[k]? =
      some { taskId, callerOwner := row.owner, state := .cancelling } := by
    rw [hkill₃']
    simp [Move.run, Move.query, StoreCall.exec, hget₃, KillCall.requested, hwaits]
  have hsame₃' : w₃'.db = db₃ := hdb₃'.trans hsame₃
  -- The row is cancelled.
  obtain ⟨w₄, hcancel, hdb₄, hserver₄, _⟩ := exists_kill_step svc hserver₃' hcancelling rfl
  obtain ⟨db₄, hrun₄⟩ := TaskWrite.run_ok (w := .cancelAcceptedTask cancelledBeforeExecution) rfl 0
    (hsame₃' ▸ hrow₃)
  have hsame₄ : w₄.db = db₄ := by
    rw [hdb₄]
    simp [Move.run, Move.write, StoreCall.exec, hrun₄]
  refine ⟨w₄, (row.setCancelRequested 0).setCancelled cancelledBeforeExecution 0,
    ((((Reaches.single hreceive).snoc hread).snoc hrequest).snoc hreread).snoc hcancel, hserver₄,
    ?_, ?_, TaskWrite.setCancelled_idle hwaits cancelledBeforeExecution 0, fun j hj => ?_⟩
  · rw [hsame₄, Db.find_write hrun₄, if_pos rfl, hsame₃', hrow₃]
    rfl
  · simp [TaskRecord.setCancelled, TaskRecord.setCancelRequested, haccepted]
  · rw [hsame₄, Db.find_write hrun₄, if_neg hj, hsame₃', Db.find_write hrun₃, if_neg hj, hsame₂]

/-- Waiting tasks can be cancelled one after the other. -/
theorem reaches_all_cancelled (svc : RuntimeService) {d : Dispatcher} {ids : List TaskId}
    (hnodup : ids.Nodup) :
    ∀ w : World, w.procs.server = .serving d →
      (∀ taskId ∈ ids, ∃ row, w.db.tasks.find taskId = some row ∧ row.status = .accepted) →
      ∃ w', Reaches (step svc) w w' ∧
        (∀ taskId ∈ ids, ∃ row', w'.db.tasks.find taskId = some row' ∧
          row'.status = .cancelled ∧ row'.hasActiveReservation = false) ∧
        ∀ taskId, taskId ∉ ids → w'.db.tasks.find taskId = w.db.tasks.find taskId := by
  induction ids with
  | nil => exact fun w _ _ => ⟨w, .refl w, by simp, fun _ _ => rfl⟩
  | cons first rest ih =>
    obtain ⟨hfirst, hrest⟩ := List.nodup_cons.mp hnodup
    intro w hserver hwait
    obtain ⟨row, hrow, haccepted⟩ := hwait first List.mem_cons_self
    obtain ⟨w₁, row', hreaches, hserver₁, hrow', hcancelled, hidle, hothers⟩ :=
      reaches_cancelled svc hserver hrow haccepted
    obtain ⟨w₂, hreaches', hall, hkept⟩ := ih hrest w₁ hserver₁ (fun taskId hmem => by
      rw [hothers taskId (fun heq => hfirst (heq ▸ hmem))]
      exact hwait taskId (List.mem_cons_of_mem _ hmem))
    refine ⟨w₂, hreaches.trans hreaches', fun taskId hmem => ?_, fun taskId hmem => ?_⟩
    · rcases List.mem_cons.mp hmem with rfl | hlater
      · exact ⟨row', (hkept taskId hfirst).trans hrow', hcancelled, hidle⟩
      · exact hall taskId hlater
    · obtain ⟨hne, hlater⟩ := not_or.mp (fun h => hmem (List.mem_cons.mpr h))
      exact (hkept taskId hlater).trans (hothers taskId hne)

/-- No task has to wait for ever. -/
theorem reaches_none_waiting (svc : RuntimeService) {d : Dispatcher}
    (hserver : w.procs.server = .serving d) :
    ∃ w', Reaches (step svc) w w' ∧
      (∀ taskId row, w.db.tasks.find taskId = some row → row.status = .accepted →
        ∃ row', w'.db.tasks.find taskId = some row' ∧ row'.status = .cancelled ∧
          row'.hasActiveReservation = false) ∧
      ∀ taskId, (∀ row, w.db.tasks.find taskId = some row → row.status ≠ .accepted) →
        w'.db.tasks.find taskId = w.db.tasks.find taskId := by
  let waits : TaskRecord → Bool := fun row => decide (row.status = .accepted)
  have hlisted : ∀ taskId ∈ (w.db.tasks.select waits).map TaskRecord.taskId,
      ∃ row, w.db.tasks.find taskId = some row ∧ row.status = .accepted := by
    intro taskId hmem
    obtain ⟨row, hrow, rfl⟩ := List.mem_map.mp hmem
    obtain ⟨hfind, haccepted⟩ := (w.db.tasks.mem_select_iff waits row).mp hrow
    exact ⟨row, hfind, of_decide_eq_true haccepted⟩
  obtain ⟨w', hreaches, hcancelled, hkept⟩ := reaches_all_cancelled svc
    (w.db.tasks.select_nodup waits) w hserver hlisted
  refine ⟨w', hreaches, fun taskId row hrow haccepted => ?_, fun taskId hnot => ?_⟩
  · obtain rfl := w.db.tasks.find_key hrow
    exact hcancelled row.taskId (List.mem_map_of_mem
      ((w.db.tasks.mem_select_iff waits row).mpr ⟨hrow, decide_eq_true haccepted⟩))
  · refine hkept taskId (fun hmem => ?_)
    obtain ⟨row, hrow, haccepted⟩ := hlisted taskId hmem
    exact hnot row hrow haccepted

/-- No workload that has not been waited for has the pid that a running task has
recorded for its shim. -/
def PidsUnclaimed (w : World) : Prop :=
  ∀ shim ∈ w.procs.shims, ∀ workload ∈ shim.workload, workload.waited = none →
    ∀ taskId row, w.db.tasks.find taskId = some row → row.status = .running →
      row.shimPid ≠ some workload.pid

/-- With the shims gone, the recovery pass finds no process for a running task. -/
theorem PidsUnclaimed.shimAlive_eq_false {v : World} (h : w.PidsUnclaimed)
    (hgone : ∀ shim ∈ v.procs.shims, shim.alive = false ∧
      ∃ old ∈ w.procs.shims, shim.workload = old.workload)
    {taskId : TaskId} {row : TaskRecord} (hrow : w.db.tasks.find taskId = some row)
    (hrunning : row.status = .running) :
    Recovery.shimAlive v.procs.processExists row = false := by
  rw [← Bool.not_eq_true]
  intro halive
  obtain ⟨pid, hpid, hexists⟩ := Recovery.exists_pid_of_shimAlive halive
  obtain ⟨shim, hmem, hholds⟩ := List.any_eq_true.mp hexists
  obtain ⟨hdead, old, hold, hsame⟩ := hgone shim hmem
  rw [Shim.holdsPid, hdead, Bool.false_and, Bool.false_or, hsame, Option.any_eq_true] at hholds
  obtain ⟨workload, hworkload, hclaims⟩ := hholds
  rw [Bool.and_eq_true, Option.isNone_iff_eq_none, decide_eq_true_iff] at hclaims
  exact h old hold workload hworkload hclaims.1 taskId row hrow hrunning (hclaims.2 ▸ hpid)

end World

/-- What has become of a row by the end: it is terminal, as it was if it was
terminal before, and else without a claim on the capacity. -/
structure TaskRecord.EndsAs (row row' : TaskRecord) : Prop where
  terminal : row'.status.isTerminal = true
  kept : row.status.isTerminal = true → row' = row
  released : row.status.isTerminal = false → row'.hasActiveReservation = false

namespace World

/-- No dead end: from every state of a run the system can be brought to one in which
every task has ended. -/
theorem exists_run_to_end {svc : RuntimeService} {db : Db} {trace : List (World × Event)}
    {last : World} (hrun : Run svc (serve db) trace last) (hpids : last.PidsUnclaimed) :
    ∃ trace' w', Run svc last trace' w' ∧
      (∀ taskId, last.db.tasks.find taskId = none → w'.db.tasks.find taskId = none) ∧
      ∀ taskId row, last.db.tasks.find taskId = some row →
        ∃ row', w'.db.tasks.find taskId = some row' ∧ row.EndsAs row' := by
  obtain ⟨w₁, hreach₁, hdb₁, hdown₁, hshims₁⟩ := reaches_down svc last
  obtain ⟨w₂, hreach₂, hdb₂, hdown₂, hgone⟩ := reaches_all_gone svc (w := w₁)
    (fun shim hmem => manned_of_run hrun shim (hshims₁ ▸ hmem))
  obtain ⟨w₃, pass, hreach₃, hserver₃, hpass⟩ :=
    reaches_recovered svc (hdown₂.trans hdown₁)
  rw [hdb₂.trans hdb₁] at hpass
  obtain ⟨habsent, hsettled, _⟩ := (recover_settles _ _).2 pass w₃.db hpass
  obtain ⟨w₄, hreach₄, hcancelled, hkept⟩ := reaches_none_waiting svc hserver₃
  obtain ⟨trace', hrun'⟩ := ((hreach₁.trans hreach₂).trans hreach₃).trans hreach₄
  refine ⟨trace', w₄, hrun', fun taskId hnone => ?_, fun taskId row hrow => ?_⟩
  · have hnone₃ := habsent taskId hnone
    exact (hkept taskId (fun row hrow => by simp [hnone₃] at hrow)).trans hnone₃
  obtain ⟨row₃, hrow₃, hset⟩ := hsettled taskId row hrow
  have hsame : row₃.status ≠ .accepted → w₄.db.tasks.find taskId = some row₃ := by
    intro hstatus
    refine (hkept taskId fun other hother => ?_).trans hrow₃
    rw [hrow₃] at hother
    cases hother
    exact hstatus
  have hcases : row.status = .accepted ∨ row.status = .running ∨ row.status.isTerminal = true := by
    cases row.status <;> simp [TaskStatus.isTerminal]
  rcases hcases with haccepted | hrunning | hterminal
  · obtain ⟨row₄, hrow₄, hstatus, hidle⟩ :=
      hcancelled taskId row₃ hrow₃ (hset.accepted haccepted).1
    refine ⟨row₄, hrow₄, by rw [hstatus]; rfl, fun h => ?_, fun _ => hidle⟩
    rw [haccepted] at h
    cases h
  · have hdead : Recovery.shimAlive w₂.procs.processExists row = false :=
      hpids.shimAlive_eq_false (hshims₁ ▸ hgone) hrow hrunning
    obtain ⟨hfailed, _, _, _, hidle⟩ := hset.lost hrunning hdead
    refine ⟨row₃, hsame (by rw [hfailed]; simp), by rw [hfailed]; rfl, fun h => ?_,
      fun _ => hidle⟩
    rw [hrunning] at h
    cases h
  · obtain rfl := hset.terminal hterminal
    refine ⟨row₃, hsame fun haccepted => ?_, hterminal, fun _ => rfl, fun h => ?_⟩
    · rw [haccepted] at hterminal
      cases hterminal
    · rw [hterminal] at h
      cases h

/-- No workload has the pid of a shim that a row names. -/
private def pidsApart (w : World) : Bool :=
  w.procs.shims.all (fun shim => shim.workload.all (fun workload =>
    w.db.tasks.rows.all (fun row => decide (row.shimPid ≠ some workload.pid))))

theorem PidsUnclaimed.of_pidsApart {w : World} (h : w.pidsApart = true) : w.PidsUnclaimed := by
  intro shim hshim workload hworkload _ taskId row hrow _
  have hall := List.all_eq_true.mp h shim hshim
  rw [hworkload, Option.all_some] at hall
  exact of_decide_eq_true
    (List.all_eq_true.mp hall row ((w.db.tasks.find_eq_some_iff taskId row).mp hrow).1)

/-- One task runs, with its workload, and one waits. -/
theorem exists_run_to_end_of_two : ∃ trace w row waiting trace' w' row' waiting',
    Run (smallService ⟨1, none, none⟩) init trace w ∧ w.procs.shims.any Shim.unreaped = true ∧
    w.db.tasks.find "a" = some row ∧ row.status = .running ∧
    w.db.tasks.find "b" = some waiting ∧ waiting.status = .accepted ∧
    Run (smallService ⟨1, none, none⟩) w trace' w' ∧
    w'.db.tasks.find "a" = some row' ∧ row.EndsAs row' ∧
    w'.db.tasks.find "b" = some waiting' ∧ waiting.EndsAs waiting' := by
  have hexec : (execute (smallService ⟨1, none, none⟩) (fun _ _ => true)
      (events (submitActions 0 (commandRequest "a") ++ dispatchActions 10 ++
        (shimActions 0 20).take 5 ++ submitActions 1 (commandRequest "b")))).any (fun w =>
          w.pidsApart && (w.procs.shims.any Shim.unreaped &&
          ((w.db.tasks.find "a").any (fun row => decide (row.status = .running)) &&
          (w.db.tasks.find "b").any (fun row => decide (row.status = .accepted))))) = true := by
    decide +kernel
  obtain ⟨trace, w, hrun, _, _, htest⟩ := Runs.exists_run_of_exec hexec
  rw [Bool.and_eq_true, Bool.and_eq_true, Bool.and_eq_true] at htest
  obtain ⟨hapart, hunreaped, hruns, hwaits⟩ := htest
  obtain ⟨row, hrow, hrunning⟩ := (Option.any_eq_true _ _).mp hruns
  obtain ⟨waiting, hwaiting, haccepted⟩ := (Option.any_eq_true _ _).mp hwaits
  obtain ⟨trace', w', hrun', _, hends⟩ := exists_run_to_end hrun (.of_pidsApart hapart)
  obtain ⟨row', hrow', hend⟩ := hends "a" row hrow
  obtain ⟨waiting', hwaiting', hend'⟩ := hends "b" waiting hwaiting
  exact ⟨trace, w, row, waiting, trace', w', row', waiting', hrun, hunreaped, hrow,
    of_decide_eq_true hrunning, hwaiting, of_decide_eq_true haccepted, hrun', hrow', hend,
    hwaiting', hend'⟩

end World

end ExecgoRuntime
