import ExecgoRuntime.Requests

/-!
The owner gate of `kill_task`. The caller is compared with the owner on the row
that the kill reads first; the flag is set by id in a later transaction. A row
keeps its owner for as long as it exists, so the comparison still holds unless
the row is collected in between and its id submitted again for someone else. A
refused kill is refused in its first step and leaves no trace.
-/
namespace ExecgoRuntime

theorem TaskWrite.effect_owner (w : TaskWrite) (now : Timestamp) (row : TaskRecord) :
    (w.effect now row).owner = row.owner := by
  unfold TaskRecord.owner
  rw [w.effect_controlContext now row]

/-- The only write that marks a row as to be cancelled. -/
theorem TaskWrite.effect_not_marking {w : TaskWrite} (h : w ≠ .setCancelRequested)
    (now : Timestamp) (row : TaskRecord) :
    (w.effect now row).killRequested = row.killRequested ∧
      (w.emits row).count .killRequested = 0 := by
  have hrelease : (releaseEvents row).count .killRequested = 0 := by
    unfold releaseEvents
    split <;> rfl
  cases w with
  | setCancelRequested => exact absurd rfl h
  | markDispatched _ =>
    simp only [effect, TaskRecord.setDispatched]
    split <;> exact ⟨rfl, rfl⟩
  | releaseResources _ =>
    refine ⟨?_, hrelease⟩
    simp only [effect]
    split <;> rfl
  | cancelAcceptedTask _ =>
    refine ⟨?_, ?_⟩
    · simp only [effect, TaskRecord.setCancelled]
      split <;> rfl
    · rw [emits, List.count_append, hrelease]
      rfl
  | completeTask update =>
    refine ⟨rfl, ?_⟩
    rw [emits, List.count_append, hrelease]
    cases update.status <;> rfl
  | markRecovered =>
    simp only [effect, TaskRecord.setRecovered]
    split <;> exact ⟨rfl, rfl⟩
  | _ => exact ⟨rfl, rfl⟩

def AppError.isPermissionDenied : AppError → Bool
  | .permissionDenied _ => true
  | _ => false

/-- The environment answers with a refusal, which neither the repository nor a
signal does. -/
def Event.refuses (e : Event) : Bool :=
  e.failure.any AppError.isPermissionDenied ||
    match e.action with
    | .kill _ signalError => signalError.any AppError.isPermissionDenied
    | _ => false

/-- The kill has passed the gate. -/
def KillState.passed : KillState → Bool
  | .received => false
  | .returned (.error e) => !e.isPermissionDenied
  | _ => true

theorem KillCall.passed_requested (kill : KillCall) (updated : TaskRecord) :
    (kill.requested updated).state.passed = true := by
  unfold requested
  by_cases haccepted : updated.status = .accepted
  · rw [if_pos haccepted]
    rfl
  · rw [if_neg haccepted]
    rfl

namespace KillCall

@[simp]
theorem authorize_callerOwner (kill : KillCall) (task : TaskRecord) :
    (kill.authorize task).callerOwner = kill.callerOwner := by
  unfold authorize
  split
  · rfl
  · split <;> rfl

theorem owner_of_authorize {kill : KillCall} {task : TaskRecord} {owner : String}
    (h : (kill.authorize task).state = .requesting) (howner : task.owner = some owner) :
    kill.callerOwner = some owner := by
  unfold authorize at h
  split at h
  · cases h
  · rename_i hgate
    by_contra hne
    exact hgate (by simp [howner, hne])

end KillCall

theorem KillStep.passed_of_write {signalError : Option AppError} {now : Timestamp}
    {failure : Option AppError} {db db' : Db} {committed : Option StoreCall}
    {kill kill' : KillCall} (h : KillStep signalError now failure db kill committed db' kill')
    (hwrites : ¬ Move.Quiet committed) : kill'.state.passed = true := by
  cases h with
  | flagged _ _ => rfl
  | cancelled _ _ => rfl
  | _ => exact absurd ‹_› hwrites

/-- A kill that has passed the gate is not refused later. -/
theorem KillStep.passed {signalError : Option AppError} {now : Timestamp}
    {failure : Option AppError} {db db' : Db} {committed : Option StoreCall}
    {kill kill' : KillCall} (h : KillStep signalError now failure db kill committed db' kill')
    (hpassed : kill.state.passed = true)
    (hfailure : failure.any AppError.isPermissionDenied = false)
    (hsignal : signalError.any AppError.isPermissionDenied = false) :
    kill'.state.passed = true := by
  cases h with
  | failed e _ hcause =>
    have hother : e.isPermissionDenied = false := by
      cases hcause with
      | call hcall => simpa [hcall] using hfailure
      | signal hcall => simpa [hcall] using hsignal
      | absent _ htext => rw [htext]; rfl
      | store _ htext => rw [htext]; rfl
    simp [KillCall.fail, KillState.passed, hother]
  | authorized _ hstate _ =>
    rw [hstate] at hpassed
    cases hpassed
  | requested _ _ _ _ => exact kill.passed_requested _
  | _ => rfl

namespace World

variable {svc : RuntimeService} {w w' : World} {e : Event}

/-- The step sets the `kill_requested` flag of the row or appends a `kill_requested`
event to it. -/
def MarksCancel (w w' : World) (taskId : TaskId) : Prop :=
  (∃ row', w'.db.tasks.find taskId = some row' ∧ row'.killRequested = true ∧
    ∀ row, w.db.tasks.find taskId = some row → row.killRequested = false) ∨
  (w.db.stream taskId).count .killRequested < (w'.db.stream taskId).count .killRequested

/-- The step is one of a kill by the owner. -/
def ByOwner (w : World) (e : Event) (taskId : TaskId) (owner : String) : Prop :=
  ∃ i signalError kill, e.action = .kill i signalError ∧ w.procs.kills[i]? = some kill ∧
    kill.taskId = taskId ∧ kill.callerOwner = some owner

/-- A row with an owner is marked by this owner only. -/
def OwnerGated (w : World) (e : Event) (w' : World) : Prop :=
  ∀ taskId row' owner, w'.db.tasks.find taskId = some row' → row'.owner = some owner →
    w.MarksCancel w' taskId → w.ByOwner e taskId owner

/-- No id is submitted for an owner while a kill by someone else has passed the
gate for this id and has not set the flag. -/
def KeepsOwners (svc : RuntimeService) (w : World) (e : Event) : Prop :=
  ∀ new owner, w.committed svc e = some (.insertTask new) →
    new.controlContext.bind ControlContext.owner = some owner →
    ∀ kill ∈ w.procs.kills, kill.state = .requesting → kill.taskId = new.taskId →
      kill.callerOwner = some owner

/-- A kill that has passed the gate still passes it. -/
def GatesHold (w : World) : Prop :=
  ∀ kill ∈ w.procs.kills, kill.state = .requesting →
    ∀ row owner, w.db.tasks.find kill.taskId = some row → row.owner = some owner →
      kill.callerOwner = some owner

theorem gatesHold_serve (db : Db) : (serve db).GatesHold := by
  intro kill hkill
  cases hkill

/-- The gate of a waiting kill is kept by whatever happens to the row. -/
theorem GatesHold.row_step (hgates : w.GatesHold) (hguard : w.KeepsOwners svc e)
    (h : w.step svc e = some w') {kill : KillCall} (hkill : kill ∈ w.procs.kills)
    (hstate : kill.state = .requesting) {row' : TaskRecord} {owner : String}
    (hrow' : w'.db.tasks.find kill.taskId = some row') (howner : row'.owner = some owner) :
    kill.callerOwner = some owner := by
  cases step_origin h hrow' with
  | inserted new hcommitted hid _ hnew _ =>
    subst hnew
    exact hguard new owner hcommitted howner kill hkill hstate hid.symm
  | kept hrow _ _ => exact hgates kill hkill hstate row' owner hrow howner
  | written write row _ hrow heffect _ =>
    subst heffect
    rw [TaskWrite.effect_owner] at howner
    exact hgates kill hkill hstate row owner hrow howner

theorem GatesHold.step (hgates : w.GatesHold) (hguard : w.KeepsOwners svc e)
    (h : w.step svc e = some w') : w'.GatesHold := by
  intro kill' hkill' hstate row' owner hrow' howner
  rcases mem_kills_of_step h hkill' with hold | ⟨_, _, _, rfl⟩ | ⟨_, _, kill, _, _, hstep⟩
  · exact hgates.row_step hguard h hold hstate hrow' howner
  · cases hstate
  · generalize w.committed svc e = committed at hstep
    generalize hdb : w'.db = db' at hstep hrow'
    cases hstep with
    | @authorized _ task _ _ hrow =>
      rw [KillCall.authorize_taskId, hrow] at hrow'
      cases hrow'
      rw [KillCall.authorize_callerOwner]
      exact KillCall.owner_of_authorize hstate howner
    | requested _ _ _ _ =>
      unfold KillCall.requested at hstate
      split at hstate <;> cases hstate
    | _ => cases hstate

/-- Only a kill that has passed the gate marks a row. -/
theorem GatesHold.ownerGated (hgates : w.GatesHold) (h : w.step svc e = some w') :
    w.OwnerGated e w' := by
  intro taskId row' owner hrow' howner hmarks
  cases step_origin h hrow' with
  | inserted new _ _ hfree hnew hstream =>
    rcases hmarks with ⟨row, hrow, hflag, _⟩ | hcount
    · rw [hrow'] at hrow
      cases hrow
      rw [hnew] at hflag
      cases hflag
    · have hnone : (Db.insertEvents new).count .killRequested = 0 := by
        unfold Db.insertEvents
        split <;> rfl
      rw [hstream, hnone] at hcount
      omega
  | kept hrow hstream _ =>
    rcases hmarks with ⟨row, hrow₁, hflag, hbefore⟩ | hcount
    · rw [hrow'] at hrow₁
      cases hrow₁
      rw [hbefore row' hrow] at hflag
      cases hflag
    · rw [hstream] at hcount
      omega
  | written write row hcommitted hrow heffect hstream =>
    subst heffect
    rw [TaskWrite.effect_owner] at howner
    by_cases hwrite : write = .setCancelRequested
    · subst hwrite
      cases step_write h hcommitted with
      | dispatch _ _ _ _ _ hfrom _ => cases hfrom
      | recover _ _ _ _ _ hfrom _ => cases hfrom
      | shim _ _ _ _ _ _ _ hfrom _ => cases hfrom
      | request haction _ =>
        obtain ⟨i, signalError, kill, hkill, hi, hid, hfrom⟩ := step_kill_write h haction hcommitted
        cases hfrom with
        | requested hstate =>
          subst hid
          exact ⟨i, signalError, kill, hkill, hi, rfl,
            hgates kill (List.mem_of_getElem? hi) hstate row owner hrow howner⟩
    · obtain ⟨hsame, hnone⟩ := TaskWrite.effect_not_marking hwrite e.now row
      rcases hmarks with ⟨row₁, hrow₁, hflag, hbefore⟩ | hcount
      · rw [hrow'] at hrow₁
        cases hrow₁
        rw [hsame, hbefore row hrow] at hflag
        cases hflag
      · rw [hstream, List.count_append, hnone] at hcount
        omega

/-- The `i`-th kill has passed the gate. -/
def KillPassed (i : ℕ) (w : World) : Prop :=
  ∃ kill, w.procs.kills[i]? = some kill ∧ kill.state.passed = true

theorem KillPassed.step {i : ℕ} (hpassed : KillPassed i w) (hlife : e.action.isCrash = false)
    (hhonest : e.refuses = false) (h : w.step svc e = some w') : KillPassed i w' := by
  obtain ⟨kill, hkill, hstate⟩ := hpassed
  have hlt : i < w.procs.kills.length := (List.getElem?_eq_some_iff.mp hkill).1
  cases step_requests h with
  | same _ _ hkills _ => exact ⟨kill, by rw [hkills]; exact hkill, hstate⟩
  | lost haction _ _ =>
    rw [haction] at hlife
    cases hlife
  | submitReceived _ _ _ _ hprocs => exact ⟨kill, by rw [hprocs]; exact hkill, hstate⟩
  | submit _ _ _ _ _ _ hprocs => exact ⟨kill, by rw [hprocs]; exact hkill, hstate⟩
  | escalate _ _ _ _ _ _ hprocs => exact ⟨kill, by rw [hprocs]; exact hkill, hstate⟩
  | killReceived _ _ _ _ hprocs =>
    refine ⟨kill, ?_, hstate⟩
    rw [hprocs]
    exact (List.getElem?_append_left hlt).trans hkill
  | kill j signalError moved moved' haction hmoved hstep hprocs =>
    have hkills : w'.procs.kills = w.procs.kills.set j moved' := by rw [hprocs]; rfl
    by_cases hj : j = i
    · subst hj
      rw [hkill] at hmoved
      cases hmoved
      simp only [Event.refuses, haction, Bool.or_eq_false_iff] at hhonest
      refine ⟨moved', ?_, hstep.passed hstate hhonest.1 hhonest.2⟩
      rw [hkills]
      exact List.getElem?_set_self hlt
    · refine ⟨kill, ?_, hstate⟩
      rw [hkills, List.getElem?_set_ne hj]
      exact hkill

/-- A step of a kill that writes to the store passes the gate. -/
theorem killPassed_of_write {i : ℕ} {signalError : Option AppError}
    (haction : e.action = .kill i signalError) (hwrites : ¬ Move.Quiet (w.committed svc e))
    (h : w.step svc e = some w') : KillPassed i w' := by
  rcases step_handler h (by rw [haction]; rfl) hwrites with
    ⟨_, _, _, heq, _, _⟩ | ⟨_, _, _, moved', heq, hmoved, hstep, hprocs⟩
  · rw [haction] at heq
    cases heq
  · rw [haction] at heq
    cases heq
    have hlt : i < w.procs.kills.length := (List.getElem?_eq_some_iff.mp hmoved).1
    have hkills : w'.procs.kills = w.procs.kills.set i moved' := by rw [hprocs]; rfl
    refine ⟨moved', ?_, hstep.passed_of_write hwrites⟩
    rw [hkills]
    exact List.getElem?_set_self hlt

end World

/-- The owner gate, in runs that submit no id for another owner while a kill has
passed the gate for it: a row with an owner is marked by this owner's kills only.
A kill that is refused changes the store in none of its steps. -/
theorem owner_gate (svc : RuntimeService) (db : Db) (trace : List (World × Event)) (last : World)
    (hrun : World.Run svc (.serve db) trace last)
    (howners : ∀ x ∈ trace, x.1.KeepsOwners svc x.2)
    (hhonest : ∀ x ∈ trace, x.2.refuses = false) :
    (∀ x ∈ trace, ∀ w', x.1.step svc x.2 = some w' → x.1.OwnerGated x.2 w') ∧
    ∀ lives life, trace = lives ++ life → World.OneLife life → ∀ i kill message,
      last.procs.kills[i]? = some kill →
      kill.state = .returned (.error (.permissionDenied message)) →
      ∀ x ∈ life, ∀ signalError, x.2.action = .kill i signalError → ∀ w',
        x.1.step svc x.2 = some w' → w'.db = x.1.db := by
  refine ⟨?_, ?_⟩
  · have hgates := hrun.invariant_visited (World.gatesHold_serve db)
      (fun w e w' hw hg ht => World.GatesHold.step (e := e) hw hg ht) howners
    intro x hx w' hstep
    exact (hgates x.1 (List.mem_append_left _ (List.mem_map_of_mem hx))).ownerGated hstep
  · intro lives life hsplit hlife i kill message hkill hrefused x hx signalError haction w' hstep
    by_contra hchanged
    have hwrites : ¬ Move.Quiet (x.1.committed svc x.2) := by
      intro hquiet
      apply hchanged
      rcases World.step_db hstep with ⟨_, hdb⟩ | ⟨call, hcall, hexec⟩
      · exact hdb
      · rcases hquiet with hnone | hread
        · rw [hnone] at hcall
          cases hcall
        · rw [hread] at hcall
          cases hcall
          exact (Except.ok.inj hexec).symm
    obtain ⟨earlier, later, rfl⟩ := List.append_of_mem hx
    have htrace : trace = (lives ++ earlier) ++ x :: later := by
      rw [hsplit, List.append_assoc]
    rw [htrace] at hrun hhonest
    obtain ⟨t, _, ht, hlater⟩ := hrun.split
    rw [hstep] at ht
    cases ht
    obtain ⟨kill', hkill', hpassed⟩ := hlater.invariant
      (G := fun _ e => e.action.isCrash = false ∧ e.refuses = false)
      (World.killPassed_of_write haction hwrites hstep)
      (fun w e w' hw hg ht => World.KillPassed.step (e := e) hw hg.1 hg.2 ht)
      (fun y hy => ⟨hlife y (by simp [hy]), hhonest y (by simp [hy])⟩)
    rw [hkill] at hkill'
    cases hkill'
    rw [hrefused] at hpassed
    cases hpassed

/-- A task that belongs to the owner. -/
private def ownedRequest (owner : String) : SubmitTaskRequest :=
  commandRequest "a" (some { owner := some owner })

/-- A check that implies `KeepsOwners`. -/
private def submitsBeforeKills (svc : RuntimeService) (w : World) (e : Event) : Bool :=
  match w.committed svc e with
  | some (.insertTask _) => w.procs.kills.isEmpty
  | _ => true

private theorem keepsOwners_of_check {svc : RuntimeService} {w : World} {e : Event}
    (h : submitsBeforeKills svc w e = true) : w.KeepsOwners svc e := by
  intro new owner hcommitted _ kill hkill
  simp only [submitsBeforeKills, hcommitted, List.isEmpty_iff] at h
  rw [h] at hkill
  cases hkill

/-- A kill by someone else, which is refused, and then one by the owner. -/
theorem owner_gate_of_two_callers :
    ∃ trace last, World.Run (smallService ⟨1, none, none⟩) (.serve .empty) trace last ∧
      trace.map Prod.snd = events (submitActions 0 (ownedRequest "alice") ++
        [.receiveKill "a" (some "bob"), .kill 0 none, .receiveKill "a" (some "alice"),
          .kill 1 none, .kill 1 none, .kill 1 none, .kill 1 none, .kill 1 none]) ∧
      (∀ x ∈ trace, ∀ w', x.1.step (smallService ⟨1, none, none⟩) x.2 = some w' →
        x.1.OwnerGated x.2 w') ∧
      ∀ lives life, trace = lives ++ life → World.OneLife life → ∀ i kill message,
        last.procs.kills[i]? = some kill →
        kill.state = .returned (.error (.permissionDenied message)) →
        ∀ x ∈ life, ∀ signalError, x.2.action = .kill i signalError → ∀ w',
          x.1.step (smallService ⟨1, none, none⟩) x.2 = some w' → w'.db = x.1.db := by
  let svc := smallService ⟨1, none, none⟩
  let labels := events (submitActions 0 (ownedRequest "alice") ++
    [.receiveKill "a" (some "bob"), .kill 0 none, .receiveKill "a" (some "alice"),
      .kill 1 none, .kill 1 none, .kill 1 none, .kill 1 none, .kill 1 none])
  have hexec : (World.execute svc (submitsBeforeKills svc) labels).any (fun _ => true) = true := by
    decide +kernel
  obtain ⟨trace, last, hrun, hlabels, hcheck, _⟩ := Runs.exists_run_of_exec hexec
  exact ⟨trace, last, hrun, hlabels, owner_gate svc .empty trace last hrun
    (fun x hx => keepsOwners_of_check (hcheck x hx))
    (Runs.forall_of_labels (P := fun e => e.refuses = false) hlabels (by decide))⟩

/-- While a kill by alice waits between her check and the flag, her task is
cancelled and collected, and bob submits his own under the same id. -/
private def takeoverEvents : List Event :=
  events (submitActions 0 (ownedRequest "alice") ++
    [.receiveKill "a" (some "alice"), .kill 0 none, .receiveKill "a" (some "alice"),
      .kill 1 none, .kill 1 none, .kill 1 none, .kill 1 none]) ++
    [⟨.gc true, 3600000, none⟩, ⟨.gc true, 3600000, none⟩] ++
    events (submitActions 1 (ownedRequest "bob"))

/-- The next step of alice's kill sets the flag on bob's row. -/
private def aliceCancelsBob (svc : RuntimeService) (w : World) : Bool :=
  (w.db.tasks.find "a").all (fun row => !row.killRequested) &&
    (w.procs.kills[0]?).any (fun kill => decide (kill.callerOwner = some "alice")) &&
    (w.step svc ⟨.kill 0 none, 0, none⟩).any (fun w' =>
      (w'.db.tasks.find "a").any (fun row =>
        row.killRequested && decide (row.owner = some "bob")))

theorem owner_gate_passed_by_previous_owner :
    ¬ ∀ svc trace last, World.Run svc .init trace last →
      ∀ x ∈ trace, ∀ w', x.1.step svc x.2 = some w' → x.1.OwnerGated x.2 w' := by
  intro hclaim
  let svc := smallService ⟨1, none, none⟩
  have hexec : (World.execute svc (fun _ _ => true) takeoverEvents).any
      (aliceCancelsBob svc) = true := by decide +kernel
  obtain ⟨trace, last, hrun, _, _, htest⟩ := Runs.exists_run_of_exec hexec
  simp only [aliceCancelsBob, Bool.and_eq_true, Option.any_eq_true, decide_eq_true_eq] at htest
  obtain ⟨⟨hbefore, kill, hkill, hcaller⟩, w', hstep, row', hrow', hflag, howner⟩ := htest
  have hgated := hclaim svc _ w' (hrun.snoc hstep) (last, ⟨.kill 0 none, 0, none⟩) (by simp) w'
    hstep
  obtain ⟨i, _, kill', haction, hkill', _, hcaller'⟩ := hgated "a" row' "bob" hrow' howner
    (.inl ⟨row', hrow', hflag, fun row hrow => by simpa [hrow] using hbefore⟩)
  cases haction
  rw [hkill] at hkill'
  cases hkill'
  rw [hcaller] at hcaller'
  exact absurd hcaller' (by decide)

end ExecgoRuntime
