import ExecgoRuntime.Overtaking
import ExecgoRuntime.ResourcesView

/-!
The accounts of a dispatch cycle that nobody interrupts. Its totals are the sums
of the active reservations in the store, capped at the top of the word, and the
steps of the loop keep them so, with two exceptions: the spawn of a task with a
tenant fails, which lowers the total of the runtime but not that of the tenant,
and the cancellation of a task that holds a reservation, which lowers neither.
Where neither happens the cycle conserves work: what it has passed over does not
fit next to what is reserved at its end.
-/
namespace ExecgoRuntime

open KeyedTable

namespace Dispatcher

/-- The tasks of the cycle, the one at hand first. -/
def agenda : Dispatcher → List TaskId
  | .idle | .listing _ => []
  | .scanning _ tasks => tasks.map TaskRecord.taskId
  | .launching _ task _ rest | .dispatching _ task _ rest | .failing _ task _ _ rest =>
    task.taskId :: rest.map TaskRecord.taskId
  | .persisting _ taskId rest => taskId :: rest.map TaskRecord.taskId

/-- The task that the cycle has reserved and not started a shim for. -/
def held : Dispatcher → Option (TaskRecord × TaskResourceReservation)
  | .launching _ task reservation _ | .failing _ task reservation _ _ => some (task, reservation)
  | _ => none

def totals : Dispatcher → Option CycleTotals
  | .idle => none
  | .listing totals | .scanning totals _ | .launching totals _ _ _ | .dispatching totals _ _ _
  | .failing totals _ _ _ _ | .persisting totals _ _ => some totals

theorem mem_agenda_of_subject {d : Dispatcher} {taskId : TaskId} (h : d.subject = some taskId) :
    taskId ∈ d.agenda := by
  cases d with
  | idle => cases h
  | listing totals => cases h
  | scanning totals tasks =>
    cases tasks with
    | nil => cases h
    | cons task rest =>
      cases h
      exact List.mem_cons_self ..
  | _ =>
    cases h
    exact List.mem_cons_self ..

end Dispatcher

namespace LoneCycle

/-- The rows are as the cycle knows them: those it has yet to look at are as they
were listed, and the one at hand is reserved. -/
structure Rows (s : LoneCycle) : Prop where
  nodup : s.2.agenda.Nodup
  stored : ∀ taskId ∈ s.2.agenda, ∃ row, s.1.tasks.find taskId = some row
  pending : ∀ task ∈ s.2.pending, s.1.tasks.find task.taskId = some task ∧ task.status = .accepted
  held : ∀ task reservation, s.2.held = some (task, reservation) →
    ∃ now, s.1.tasks.find task.taskId = some (task.setReserved reservation now)

theorem rows_loopHead (svc : RuntimeService) (db : Db) : Rows (loopHead svc db) where
  nodup := db.listAccepted_nodup svc.settings.maxQueuedTasks
  stored taskId hmem := by
    obtain ⟨task, htask, rfl⟩ := List.mem_map.mp hmem
    exact ⟨task, (Db.mem_listAccepted htask).1⟩
  pending task htask := Db.mem_listAccepted htask
  held task reservation hsome := by
    have hnone : (loopHead svc db).2.held = none := rfl
    rw [hnone] at hsome
    cases hsome

/-- A store call of the loop does not fail for want of a row. -/
theorem Rows.breaks {s : LoneCycle} {a : CycleAnswer} (h : Rows s) (hbreaks : Breaks s a) :
    (∃ e, a.failure = some e) ∨ ∃ message, a.outcome = .noExecutable message := by
  rcases hbreaks with hfailure | houtcome | ⟨taskId, hsubject, hnone⟩
  · exact .inl hfailure
  · exact .inr houtcome
  · obtain ⟨row, hrow⟩ := h.stored taskId (Dispatcher.mem_agenda_of_subject hsubject)
    rw [hnone] at hrow
    cases hrow

section Writes

variable {db db' : Db} {d d' : Dispatcher} {now : Timestamp} {taskId : TaskId} {w : TaskWrite}
  {rest : List TaskRecord}

/-- The loop writes to the task at hand, which is none of the later ones. -/
theorem Rows.write (h : Rows (db, d)) (hrun : w.run now taskId db = .ok db')
    (hagenda : d.agenda = taskId :: rest.map TaskRecord.taskId)
    (hpending : rest <:+ d.pending) (hagenda' : d'.agenda <:+ d.agenda)
    (hpending' : d'.pending = rest)
    (hheld : ∀ task reservation, d'.held = some (task, reservation) →
      task.taskId = taskId ∧ w.effect now task = task.setReserved reservation now ∧
        db.tasks.find taskId = some task) :
    Rows (db', d') where
  nodup := h.nodup.sublist hagenda'.sublist
  stored other hother := by
    obtain ⟨row, hrow⟩ := h.stored other (hagenda'.subset hother)
    rw [Db.find_write hrun]
    split
    · rename_i heq
      rw [heq] at hrow
      exact ⟨_, by rw [hrow]; rfl⟩
    · exact ⟨row, hrow⟩
  pending task htask := by
    rw [hpending'] at htask
    have hnot : task.taskId ≠ taskId := by
      have hnodup : (taskId :: rest.map TaskRecord.taskId).Nodup := hagenda ▸ h.nodup
      intro heq
      exact (List.nodup_cons.mp hnodup).1 (heq ▸ List.mem_map_of_mem htask)
    rw [Db.find_write hrun, if_neg hnot]
    exact h.pending task (hpending.subset htask)
  held task reservation hsome := by
    obtain ⟨hid, heffect, hrow⟩ := hheld task reservation hsome
    exact ⟨now, by rw [Db.find_write hrun, if_pos hid, hrow, Option.map_some, heffect]⟩

/-- A step that leaves the store alone. -/
theorem Rows.quiet (h : Rows (db, d)) (hagenda : d'.agenda <:+ d.agenda)
    (hpending : d'.pending <:+ d.pending)
    (hheld : ∀ held, d'.held = some held → d.held = some held) : Rows (db, d') where
  nodup := h.nodup.sublist hagenda.sublist
  stored other hother := h.stored other (hagenda.subset hother)
  pending task htask := h.pending task (hpending.subset htask)
  held task reservation hsome := h.held task reservation (hheld _ hsome)

end Writes

variable {svc : RuntimeService} {s s' : LoneCycle} {a : CycleAnswer} {reserved : Option TaskId}

theorem CycleStep.rows (h : CycleStep svc a s reserved s') (hrows : Rows s) : Rows s' := by
  have hpending := h.pending
  have hnone : ∀ {d : Dispatcher} {x : TaskRecord × TaskResourceReservation} {P : Prop},
      d.held = none → d.held = some x → P := by
    intro d x P hd hx
    rw [hd] at hx
    cases hx
  cases h with
  | returned => exact hrows.quiet List.nil_suffix List.nil_suffix (fun _ => hnone rfl)
  | broken _ => exact hrows.quiet List.nil_suffix List.nil_suffix (fun _ => hnone rfl)
  | skipped _ => exact hrows.quiet (List.suffix_cons _ _) hpending (fun _ => hnone rfl)
  | spawned _ => exact hrows.quiet List.suffix_rfl hpending (fun _ => hnone rfl)
  | notSpawned _ => exact hrows.quiet List.suffix_rfl hpending (fun _ hsome => hsome)
  | persisted => exact hrows.quiet (List.suffix_cons _ _) hpending (fun _ => hnone rfl)
  | cancelled _ hrun =>
    exact hrows.write hrun rfl hpending List.suffix_rfl rfl (fun _ _ => hnone rfl)
  | dispatched hrun =>
    exact hrows.write hrun rfl hpending (List.suffix_cons _ _) rfl (fun _ _ => hnone rfl)
  | failed hrun => exact hrows.write hrun rfl hpending List.suffix_rfl rfl (fun _ _ => hnone rfl)
  | reserved hdecision hrun =>
    refine hrows.write hrun rfl hpending List.suffix_rfl rfl ?_
    rintro task reservation ⟨⟩
    exact ⟨rfl, rfl, (hrows.pending _ (List.mem_cons_self ..)).1⟩

theorem rows_of_run {db : Db} {trace : List (LoneCycle × CycleAnswer)} {last : LoneCycle}
    (hrun : Runs.Run (step svc) (loopHead svc db) trace last) :
    ∀ s ∈ Runs.visited trace last, Rows s :=
  hrun.invariant_visited (G := fun _ _ => True) (rows_loopHead svc db)
    (fun _ _ _ hs _ hstep => (step_cases hstep).rows hs) (fun _ _ => trivial)

/-- The totals are the sums of the store, capped. -/
def Accounts (ledger : ResourceLedger) (db : Db) (totals : CycleTotals) : Prop :=
  ∀ (scope : Scope) (c : Component),
    c.level (scope.total ledger totals) = min (scope.sum db c) u64Max

/-- The totals of the loop are. -/
def Accounted (svc : RuntimeService) (s : LoneCycle) : Prop :=
  ∀ totals, s.2.totals = some totals → Accounts svc.ledger s.1 totals

theorem accounted_loopHead (svc : RuntimeService) (db : Db) : Accounted svc (loopHead svc db) := by
  rintro totals ⟨⟩
  intro scope c
  exact Scope.level_total_ofActive svc.ledger db scope c

theorem weight_setReserved (scope : Scope) (c : Component) (task : TaskRecord)
    (reservation : TaskResourceReservation) (now : Timestamp) :
    scope.weight c (task.setReserved reservation now) =
      if scope.counts task.tenant then c.amount reservation else 0 := by
  have hactive : (task.setReserved reservation now).hasActiveReservation = true := rfl
  unfold Scope.weight
  rw [hactive, Bool.true_and]
  rfl

/-- A reservation is charged to every total that counts it. -/
theorem Accounts.charge {ledger : ResourceLedger} {db db' : Db} {totals : CycleTotals}
    {task : TaskRecord} {reservation : TaskResourceReservation} {message : String}
    {now : Timestamp} (h : Accounts ledger db totals)
    (hrow : db.tasks.find task.taskId = some task) (hidle : task.hasActiveReservation = false)
    (hrun : (TaskWrite.reserveResources reservation message).run now task.taskId db = .ok db') :
    Accounts ledger db' (totals.charge ledger task.tenant reservation) := by
  intro scope c
  have hlevel := h scope c
  have hsum := Scope.sum_write scope c hrun hrow
  have heffect : (TaskWrite.reserveResources reservation message).effect now task =
      task.setReserved reservation now := rfl
  rw [Scope.weight_of_idle scope c hidle, heffect, weight_setReserved] at hsum
  rw [Scope.total_charge]
  cases hcounts : scope.counts task.tenant with
  | false =>
    rw [hcounts] at hsum
    simp only [Bool.false_eq_true, if_false] at hsum ⊢
    omega
  | true =>
    rw [hcounts] at hsum
    simp only [if_true] at hsum ⊢
    rw [level_addReservation c reservation (by omega), hlevel]
    unfold satAdd Saturating.add
    omega

/-- A write that leaves the reservation of its row alone leaves the sums alone. -/
theorem Accounts.write {ledger : ResourceLedger} {db db' : Db} {totals : CycleTotals}
    {taskId : TaskId} {w : TaskWrite} {now : Timestamp} {row : TaskRecord}
    (h : Accounts ledger db totals) (hrow : db.tasks.find taskId = some row)
    (hrun : w.run now taskId db = .ok db')
    (hsame : ∀ (scope : Scope) (c : Component),
      scope.weight c (w.effect now row) = scope.weight c row) :
    Accounts ledger db' totals := by
  intro scope c
  have hsum := Scope.sum_write scope c hrun hrow
  rw [hsame scope c] at hsum
  have hequal : scope.sum db' c = scope.sum db c := by omega
  rw [hequal]
  exact h scope c

theorem weight_setDispatched (scope : Scope) (c : Component) (shimPid : ℕ) (now : Timestamp)
    (row : TaskRecord) : scope.weight c (row.setDispatched shimPid now) = scope.weight c row := by
  unfold TaskRecord.setDispatched
  split <;> rfl

/-- The step releases a reservation in the store. -/
def Releases (d : Dispatcher) : Prop :=
  match d with
  | .scanning _ (task :: _) => task.killRequested = true ∧ task.hasActiveReservation = true
  | .failing _ _ _ _ _ => True
  | _ => False

/-- It leaves some of what it releases in a total. -/
def Misses (d : Dispatcher) : Prop :=
  match d with
  | .scanning _ (task :: _) =>
    task.killRequested = true ∧ task.hasActiveReservation = true ∧
      ∃ c : Component, c.share task.reservation ≠ 0
  | .failing _ task reservation _ _ =>
    (∃ name, task.tenant = some name) ∧ ∃ c : Component, c.amount reservation ≠ 0
  | _ => False

/-- No sum of the store exceeds the word. -/
def Bounded (db : Db) : Prop := ∀ c : Component, db.activeSum c (fun _ => true) ≤ u64Max

theorem sum_le_of_bounded {db : Db} (h : Bounded db) (scope : Scope) (c : Component) :
    scope.sum db c ≤ u64Max := by
  refine le_trans ?_ (h c)
  change scope.sum db c ≤ Scope.runtime.sum db c
  rw [Scope.sum_eq_total, Scope.sum_eq_total]
  refine List.sum_le_sum ?_
  intro row _
  unfold Scope.weight
  cases row.hasActiveReservation with
  | false => exact Nat.le_refl _
  | true =>
    cases scope.counts row.tenant with
    | false => exact Nat.zero_le _
    | true => exact Nat.le_refl _

section Misses

variable {ledger : ResourceLedger} {db db' : Db} {totals : CycleTotals} {now : Timestamp}
  {task : TaskRecord}

theorem killRequested_iff_cancel (ledger : ResourceLedger) (totals : CycleTotals)
    (task : TaskRecord) :
    consider ledger totals task = .cancel ↔ task.killRequested = true := by
  constructor
  · exact CycleTotals.killRequested_of_cancel
  · intro hkill
    unfold consider
    rw [if_pos hkill]

/-- A cancellation keeps the accounts if the task held nothing. -/
theorem accounts_cancel_iff (h : Accounts ledger db totals) (hbound : Bounded db)
    (hrow : db.tasks.find task.taskId = some task) (haccepted : task.status = .accepted)
    {error : RuntimeErrorInfo}
    (hrun : (TaskWrite.cancelAcceptedTask error).run now task.taskId db = .ok db') :
    Accounts ledger db' totals ↔
      ¬ (task.hasActiveReservation = true ∧ ∃ c : Component, c.share task.reservation ≠ 0) := by
  have hgone : ∀ (scope : Scope) (c : Component),
      scope.sum db' c + scope.weight c task = scope.sum db c := by
    intro scope c
    have hsum := Scope.sum_write scope c hrun hrow
    have hidle : ((TaskWrite.cancelAcceptedTask error).effect now task).hasActiveReservation =
        false := TaskWrite.setCancelled_idle haccepted error now
    rw [Scope.weight_of_idle scope c hidle] at hsum
    omega
  constructor
  · rintro hafter ⟨hactive, c, hshare⟩
    have hweight : Scope.runtime.weight c task = c.share task.reservation := by
      unfold Scope.weight
      rw [hactive]
      rfl
    have hbefore := h .runtime c
    have hnow := hafter .runtime c
    have hsum := hgone .runtime c
    have hle := sum_le_of_bounded hbound .runtime c
    rw [hweight] at hsum
    omega
  · intro hnothing scope c
    have hweight : scope.weight c task = 0 := by
      unfold Scope.weight
      by_cases hactive : task.hasActiveReservation = true
      · by_contra hshare
        refine hnothing ⟨hactive, c, fun hzero => hshare ?_⟩
        rw [hzero]
        split <;> rfl
      · simp [hactive]
    have hsum := hgone scope c
    rw [hweight, Nat.add_zero] at hsum
    rw [hsum]
    exact h scope c

/-- The failure of a spawn keeps the accounts if no tenant is concerned. -/
theorem accounts_refund_iff {reservation : TaskResourceReservation} {update : CompletionUpdate}
    {since : Timestamp} (h : Accounts ledger db totals) (hbound : Bounded db)
    (hrow : db.tasks.find task.taskId = some (task.setReserved reservation since))
    (hrun : (TaskWrite.completeTask update).run now task.taskId db = .ok db') :
    Accounts ledger db' (totals.refund reservation) ↔
      ¬ ((∃ name, task.tenant = some name) ∧ ∃ c : Component, c.amount reservation ≠ 0) := by
  have hgone : ∀ (scope : Scope) (c : Component),
      scope.sum db' c + (if scope.counts task.tenant then c.amount reservation else 0) =
        scope.sum db c := by
    intro scope c
    have hsum := Scope.sum_write scope c hrun hrow
    have hidle : ((TaskWrite.completeTask update).effect now
        (task.setReserved reservation since)).hasActiveReservation = false :=
      TaskWrite.setCompleted_idle update _
    rw [Scope.weight_of_idle scope c hidle, weight_setReserved] at hsum
    omega
  constructor
  · rintro hafter ⟨⟨name, htenant⟩, c, hamount⟩
    have hcounts : (Scope.tenant name).counts task.tenant = true := decide_eq_true htenant
    have hsum := hgone (.tenant name) c
    rw [if_pos hcounts] at hsum
    have hbefore : c.level (totals.tenantLevel ledger (some name)) = _ := h (.tenant name) c
    have hnow : c.level (totals.tenantLevel ledger (some name)) = _ := hafter (.tenant name) c
    have hle := sum_le_of_bounded hbound (.tenant name) c
    omega
  · intro hnothing scope c
    have hsum := hgone scope c
    have hle := sum_le_of_bounded hbound scope c
    have hbefore := h scope c
    cases scope with
    | runtime =>
      have hlevel : c.level (Scope.runtime.total ledger (totals.refund reservation)) = _ :=
        level_subtractReservation c totals.currentReserved reservation
      have hsame : c.level totals.currentReserved = _ := hbefore
      have hcounts : Scope.runtime.counts task.tenant = true := rfl
      rw [if_pos hcounts] at hsum
      rw [hlevel, hsame]
      omega
    | tenant name =>
      have hzero : (if (Scope.tenant name).counts task.tenant then c.amount reservation else 0) =
          0 := by
        split
        · rename_i hcounts
          by_contra hamount
          exact hnothing ⟨⟨name, of_decide_eq_true hcounts⟩, c, hamount⟩
        · rfl
      rw [hzero, Nat.add_zero] at hsum
      rw [hsum]
      exact hbefore

end Misses

theorem accounted_iff_accounts {db : Db} {d : Dispatcher} (totals : CycleTotals)
    (h : d.totals = some totals) :
    Accounted svc (db, d) ↔ Accounts svc.ledger db totals := by
  constructor
  · intro haccounted
    exact haccounted totals h
  · intro haccounts totals' htotals'
    have heq : totals' = totals := Option.some.inj (htotals'.symm.trans h)
    rw [heq]
    exact haccounts

theorem releases_of_misses {d : Dispatcher} (h : Misses d) : Releases d := by
  cases d with
  | scanning totals tasks =>
    cases tasks with
    | nil => exact h
    | cons task rest => exact ⟨h.1, h.2.1⟩
  | failing _ _ _ _ _ => trivial
  | _ => exact h

/-- A step that releases nothing keeps the accounts. -/
theorem CycleStep.accounted (h : CycleStep svc a s reserved s') (hrows : Rows s)
    (haccounted : Accounted svc s) (hkeeps : ¬ Releases s.2) : Accounted svc s' := by
  have hquiet : ∀ {db : Db} {d d' : Dispatcher} {totals : CycleTotals}, d.totals = some totals →
      d'.totals = some totals → Accounted svc (db, d) → Accounted svc (db, d') :=
    fun hd hd' hbefore =>
      (accounted_iff_accounts _ hd').mpr ((accounted_iff_accounts _ hd).mp hbefore)
  cases h with
  | returned => exact nofun
  | broken _ => exact nofun
  | skipped _ => exact hquiet rfl rfl haccounted
  | spawned _ => exact hquiet rfl rfl haccounted
  | notSpawned _ => exact hquiet rfl rfl haccounted
  | persisted => exact hquiet rfl rfl haccounted
  | failed _ => exact absurd trivial hkeeps
  | @cancelled db db' totals task rest hdecision hrun =>
    rw [accounted_iff_accounts totals rfl] at haccounted ⊢
    obtain ⟨hrow, haccepted⟩ := hrows.pending task (List.mem_cons_self ..)
    have hkill := (killRequested_iff_cancel _ _ _).mp hdecision
    have hidle : task.hasActiveReservation = false :=
      Bool.eq_false_iff.mpr (fun hactive => hkeeps ⟨hkill, hactive⟩)
    refine haccounted.write hrow hrun ?_
    intro scope c
    rw [Scope.weight_of_idle scope c hidle]
    exact Scope.weight_of_idle scope c (TaskWrite.setCancelled_idle haccepted _ _)
  | @reserved db db' totals task rest reservation hdecision hrun =>
    rw [accounted_iff_accounts totals rfl] at haccounted
    rw [accounted_iff_accounts _ rfl]
    obtain ⟨hrow, _⟩ := hrows.pending task (List.mem_cons_self ..)
    obtain ⟨_, hidle, _⟩ := CycleTotals.admits_of_consider hdecision
    exact haccounted.charge hrow hidle hrun
  | @dispatched db db' totals task shimPid rest hrun =>
    rw [accounted_iff_accounts totals rfl] at haccounted ⊢
    obtain ⟨row, hrow⟩ := hrows.stored task.taskId (List.mem_cons_self ..)
    exact haccounted.write hrow hrun (fun scope c => weight_setDispatched scope c shimPid a.now row)

/-- A step that releases something is a cancellation or the failure of a spawn. -/
theorem CycleStep.persisting_of_releases (h : CycleStep svc a s reserved s')
    (hreleases : Releases s.2) (hgoing : s'.2 ≠ .idle) :
    ∃ totals taskId rest, s'.2 = .persisting totals taskId rest := by
  have hcancel : ∀ {totals task} {decision : Decision}, task.killRequested = true →
      consider svc.ledger totals task = decision → decision = .cancel := by
    intro totals task decision hkill hdecision
    rw [← hdecision]
    exact (killRequested_iff_cancel _ _ _).mpr hkill
  cases h with
  | returned => exact absurd rfl hgoing
  | broken _ => exact absurd rfl hgoing
  | skipped hdecision => cases hcancel hreleases.1 hdecision
  | reserved hdecision _ => cases hcancel hreleases.1 hdecision
  | cancelled _ _ => exact ⟨_, _, _, rfl⟩
  | failed _ => exact ⟨_, _, _, rfl⟩
  | spawned _ => exact hreleases.elim
  | notSpawned _ => exact hreleases.elim
  | dispatched _ => exact hreleases.elim
  | persisted => exact hreleases.elim

/-- A step keeps the accounts exactly when it leaves no amount in a total. -/
theorem CycleStep.accounted_iff_not_misses (h : CycleStep svc a s reserved s') (hrows : Rows s)
    (haccounted : Accounted svc s) (hbound : Bounded s.1) (hgoing : s'.2 ≠ .idle) :
    Accounted svc s' ↔ ¬ Misses s.2 := by
  by_cases hreleases : Releases s.2
  · obtain ⟨totals', taskId', rest', hs'⟩ := h.persisting_of_releases hreleases hgoing
    cases h with
    | @cancelled db db' totals task rest hdecision hrun =>
      rw [accounted_iff_accounts totals rfl] at haccounted ⊢
      obtain ⟨hrow, haccepted⟩ := hrows.pending task (List.mem_cons_self ..)
      rw [accounts_cancel_iff haccounted hbound hrow haccepted hrun]
      simp [Misses, hreleases.1]
    | @failed db db' totals task reservation message rest hrun =>
      rw [accounted_iff_accounts totals rfl] at haccounted
      rw [accounted_iff_accounts _ rfl]
      obtain ⟨since, hrow⟩ := hrows.held task reservation rfl
      exact accounts_refund_iff haccounted hbound hrow hrun
    | persisted => exact hreleases.elim
    | _ => cases hs'
  · exact iff_of_true (h.accounted hrows haccounted hreleases)
      (fun hmisses => hreleases (releases_of_misses hmisses))

/-- The accounts as the source keeps them: `current_reserved` is the capacity that
the ledger reserves for the active rows, and the entry of a tenant the sum over its
active reservations. An absent entry or amount counts as zero. -/
structure Exact (ledger : ResourceLedger) (db : Db) (totals : CycleTotals) : Prop where
  runtime : SameLevels totals.currentReserved
    (ledger.reservedCapacity (db.listActiveReservations.filterMap TaskRecord.reservation))
  tenants : ∀ (tenant : String) (c : Component),
    ((totals.tenantReserved.lookup tenant).bind c.of).getD 0 =
      db.activeSum c (World.ofTenant tenant)

theorem exact_iff {ledger : ResourceLedger} {db : Db} {totals : CycleTotals} (h : Bounded db) :
    Exact ledger db totals ↔ Accounts ledger db totals := by
  have hruntime : ∀ c : Component, c.level (ledger.reservedCapacity
      (db.listActiveReservations.filterMap TaskRecord.reservation)) =
        min (Scope.runtime.sum db c) u64Max := by
    intro c
    exact Scope.level_total_ofActive ledger db .runtime c
  have htenant : ∀ (name : String) (c : Component),
      ((totals.tenantReserved.lookup name).bind c.of).getD 0 =
        c.level (totals.tenantLevel ledger (some name)) := by
    intro name c
    unfold CycleTotals.tenantLevel
    rw [Option.bind_some]
    cases totals.tenantReserved.lookup name with
    | none => exact (level_emptyTenantCap ledger c name).symm
    | some entry => rfl
  constructor
  · rintro ⟨hlevels, hentries⟩ scope c
    cases scope with
    | runtime => exact (hlevels c).trans (hruntime c)
    | tenant name =>
      have hle := sum_le_of_bounded h (.tenant name) c
      have hentry := hentries name c
      rw [htenant name c] at hentry
      exact hentry.trans (Nat.min_eq_left hle).symm
  · intro haccounts
    refine ⟨fun c => (haccounts .runtime c).trans (hruntime c).symm, ?_⟩
    intro name c
    have hle := sum_le_of_bounded h (.tenant name) c
    rw [htenant name c]
    exact (haccounts (.tenant name) c).trans (Nat.min_eq_left hle)

variable {db : Db} {trace : List (LoneCycle × CycleAnswer)} {last : LoneCycle}

/-- A run that stands at the head of the loop has not ended before. -/
theorem going_of_run (hrun : Runs.Run (step svc) (loopHead svc db) trace last)
    (hlast : last.2 ≠ .idle) : ∀ s ∈ Runs.visited trace last, s.2 ≠ .idle := by
  intro s hs hended
  rcases List.mem_append.mp hs with hearlier | hnow
  · obtain ⟨x, hx, rfl⟩ := List.mem_map.mp hearlier
    obtain ⟨s', hstep⟩ := hrun.step_of_mem hx
    exact (step_outcome hstep).choose_spec.2.1 hended
  · rw [List.mem_singleton.mp hnow] at hended
    exact hlast hended

/-- The state after an iteration shows the accounts with which the iteration ended. -/
theorem accounted_of_persisting (hrun : Runs.Run (step svc) (loopHead svc db) trace last)
    (hhead : ∃ totals tasks, last.2 = .scanning totals tasks)
    (hexact : ∀ s ∈ Runs.visited trace last, ∀ totals tasks, s.2 = .scanning totals tasks →
      Accounts svc.ledger s.1 totals) :
    ∀ s ∈ Runs.visited trace last, ∀ totals taskId rest, s.2 = .persisting totals taskId rest →
      Accounted svc s := by
  intro s hs totals taskId rest hpersisting
  have hgoing := going_of_run hrun (by
    obtain ⟨totals, tasks, hlast⟩ := hhead
    rw [hlast]
    nofun)
  rcases List.mem_append.mp hs with hearlier | hnow
  · obtain ⟨⟨s, a⟩, hx, rfl⟩ := List.mem_map.mp hearlier
    obtain ⟨s', hstep, hs'⟩ := hrun.next_mem_visited hx
    have hcase := step_cases hstep
    obtain ⟨db₀, d⟩ := s
    change d = .persisting totals taskId rest at hpersisting
    subst hpersisting
    generalize reservedTask svc (db₀, _) a = reserved at hcase
    cases hcase with
    | broken _ => exact absurd rfl (hgoing _ hs')
    | persisted =>
      exact (accounted_iff_accounts _ rfl).mpr (hexact _ hs' totals rest rfl)
  · obtain ⟨totals', tasks, hlast⟩ := hhead
    rw [List.mem_singleton.mp hnow, hlast] at hpersisting
    cases hpersisting

/-- At the head of the loop the accounts are exact for as long as no step leaves
in a total what it releases in the store. -/
theorem exact_iff_no_miss (hrun : Runs.Run (step svc) (loopHead svc db) trace last)
    (hhead : ∃ totals tasks, last.2 = .scanning totals tasks)
    (hbound : ∀ s ∈ Runs.visited trace last, Bounded s.1) :
    (∀ s ∈ Runs.visited trace last, ∀ totals tasks, s.2 = .scanning totals tasks →
      Exact svc.ledger s.1 totals) ↔ ∀ x ∈ trace, ¬ Misses x.1.2 := by
  have hgoing := going_of_run hrun (by
    obtain ⟨totals, tasks, hlast⟩ := hhead
    rw [hlast]
    nofun)
  have hwithin : ∀ s ∈ Runs.visited trace last, Rows s ∧ Bounded s.1 ∧ s.2 ≠ .idle :=
    fun s hs => ⟨rows_of_run hrun s hs, hbound s hs, hgoing s hs⟩
  have hall : (∀ s ∈ Runs.visited trace last, Accounted svc s) ↔ ∀ x ∈ trace, ¬ Misses x.1.2 := by
    refine hrun.invariant_iff_within (I := Accounted svc) (G := fun s _ => ¬ Misses s.2)
      (accounted_loopHead svc db) ?_ hwithin
    rintro s a s' ⟨hrows, hb, _⟩ ⟨_, _, hnext⟩ haccounted hstep
    exact (step_cases hstep).accounted_iff_not_misses hrows haccounted hb hnext
  rw [← hall]
  constructor
  · intro hexact
    have hheads : ∀ s ∈ Runs.visited trace last, ∀ totals tasks, s.2 = .scanning totals tasks →
        Accounts svc.ledger s.1 totals := fun s hs totals tasks hs' =>
      (exact_iff (hbound s hs)).mp (hexact s hs totals tasks hs')
    have hpersisting := accounted_of_persisting hrun hhead hheads
    refine hrun.invariant_visited (I := Accounted svc)
      (G := fun s a => Rows s ∧ Bounded s.1 ∧ ∀ s', step svc s a = some s' → s'.2 ≠ .idle ∧
        ∀ totals taskId rest, s'.2 = .persisting totals taskId rest → Accounted svc s')
      (accounted_loopHead svc db) ?_ ?_
    · rintro s a s' haccounted ⟨hrows, hb, hnext⟩ hstep
      obtain ⟨hidle, hlater⟩ := hnext s' hstep
      by_cases hmisses : Misses s.2
      · obtain ⟨totals, taskId, rest, hs'⟩ :=
          (step_cases hstep).persisting_of_releases (releases_of_misses hmisses) hidle
        exact hlater totals taskId rest hs'
      · exact ((step_cases hstep).accounted_iff_not_misses hrows haccounted hb hidle).mpr hmisses
    · intro x hx
      have hx' : x.1 ∈ Runs.visited trace last := List.mem_append_left _ (List.mem_map_of_mem hx)
      obtain ⟨hrows, hb, _⟩ := hwithin x.1 hx'
      refine ⟨hrows, hb, ?_⟩
      intro s' hstep
      obtain ⟨t, ht, hmem⟩ := hrun.next_mem_visited hx
      rw [hstep] at ht
      cases ht
      exact ⟨hgoing s' hmem, hpersisting s' hmem⟩
  · intro haccounted s hs totals tasks hscanning
    refine (exact_iff (hbound s hs)).mpr (haccounted s hs totals ?_)
    rw [hscanning]
    rfl

/-- `Bounded` as a test. -/
def isBounded (db : Db) : Bool :=
  [Component.taskSlots, .memoryBytes, .pids].all (fun c =>
    decide (db.activeSum c (fun _ => true) ≤ u64Max))

theorem bounded_of_test {db : Db} (h : isBounded db = true) : Bounded db := by
  intro c
  have hall := List.all_eq_true.mp h
  cases c with
  | taskSlots => exact of_decide_eq_true (hall .taskSlots (by simp))
  | memoryBytes => exact of_decide_eq_true (hall .memoryBytes (by simp))
  | pids => exact of_decide_eq_true (hall .pids (by simp))

theorem bounded_of_checked {trace : List (LoneCycle × CycleAnswer)} {last : LoneCycle}
    (htrace : ∀ x ∈ trace, isBounded x.1.1 = true) (hlast : isBounded last.1 = true) :
    ∀ s ∈ Runs.visited trace last, Bounded s.1 := by
  intro s hs
  rcases List.mem_append.mp hs with hearlier | hnow
  · obtain ⟨x, hx, rfl⟩ := List.mem_map.mp hearlier
    exact bounded_of_test (htrace x hx)
  · rw [List.mem_singleton.mp hnow]
    exact bounded_of_test hlast

/-- The head of the loop, as a test. -/
def isHead (d : Dispatcher) : Bool :=
  match d with
  | .scanning _ _ => true
  | _ => false

theorem head_of_test {d : Dispatcher} (h : isHead d = true) :
    ∃ totals tasks, d = .scanning totals tasks := by
  cases d with
  | scanning totals tasks => exact ⟨totals, tasks, rfl⟩
  | _ => cases h

/-- Two tasks, one of a tenant, and a slot for each. The spawn of the one without
tenant fails. -/
theorem exact_iff_no_miss_of_two_tasks :
    ∃ db trace last, Runs.Run (step (smallService ⟨2, some 100, none⟩))
        (loopHead (smallService ⟨2, some 100, none⟩) db) trace last ∧
      ((∀ s ∈ Runs.visited trace last, ∀ totals tasks, s.2 = .scanning totals tasks →
        Exact (smallService ⟨2, some 100, none⟩).ledger s.1 totals) ↔
          ∀ x ∈ trace, ¬ Misses x.1.2) ∧ last.2.pending = [] := by
  have hexec : (execute (smallService ⟨2, some 100, none⟩) (fun s _ => isBounded s.1)
      (events (submitActions 0 (commandRequest "a") ++
        submitActions 1 (commandRequest "b" (some { tenant := some "t" }))))
      (List.replicate 4 { outcome := .spawnFailed "no memory" } ++
        List.replicate 3 { outcome := .spawned 10 })).any (fun s =>
          isBounded s.2.1 && isHead s.2.2 && s.2.2.pending.isEmpty) = true := by decide +kernel
  obtain ⟨db, trace, last, hrun, _, hcheck, htest⟩ := exists_run_of_execute hexec
  simp only [Bool.and_eq_true] at htest
  exact ⟨db, trace, last, hrun, exact_iff_no_miss hrun (head_of_test htest.1.2)
    (bounded_of_checked hcheck htest.1.1), List.isEmpty_iff.mp htest.2⟩

/-- The spawn of the only task of a tenant fails. Its reservation is released, and
the entry of the tenant still counts it. -/
theorem failed_spawn_stays_in_tenant_total :
    ¬ ∀ svc db trace last, Runs.Run (step svc) (loopHead svc db) trace last →
      (∀ s ∈ Runs.visited trace last, Bounded s.1) →
      ∀ s ∈ Runs.visited trace last, ∀ totals tasks, s.2 = .scanning totals tasks →
        Exact svc.ledger s.1 totals := by
  intro hclaim
  have hexec : (execute (smallService ⟨1, some 100, none⟩) (fun s _ => isBounded s.1)
      (events (submitActions 0 (commandRequest "a" (some { tenant := some "t" }))))
      (List.replicate 4 { outcome := .spawnFailed "no memory" })).any (fun s =>
        isBounded s.2.1 && isHead s.2.2 &&
          s.2.2.totals.all (fun totals => decide
            (((totals.tenantReserved.lookup "t").bind Component.taskSlots.of).getD 0 = 1 ∧
              s.2.1.activeSum .taskSlots (World.ofTenant "t") = 0))) = true := by decide +kernel
  obtain ⟨db, trace, last, hrun, _, hcheck, htest⟩ := exists_run_of_execute hexec
  simp only [Bool.and_eq_true] at htest
  obtain ⟨⟨hbound, hhead⟩, hentry⟩ := htest
  obtain ⟨totals, tasks, hlast⟩ := head_of_test hhead
  rw [hlast] at hentry
  obtain ⟨hone, hzero⟩ := of_decide_eq_true hentry
  have hexact := hclaim _ db trace last hrun (bounded_of_checked hcheck hbound) last
    (Runs.last_mem_visited trace last) totals tasks hlast
  have htenants := hexact.tenants "t" .taskSlots
  rw [hone, hzero] at htenants
  cases htenants

end LoneCycle
end ExecgoRuntime
