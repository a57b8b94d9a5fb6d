import ExecgoRuntime.Steps

/-!
Metering: a dispatch cycle admits tasks against totals it holds in memory, and
the store never holds more than those totals say. A meter is one component of
one total together with the rows it counts and its limit; the total of the
whole runtime and the totals of the tenants are meters. The invariant is that
the view over-approximates the active reservations of the counted rows, between
a reservation and its spawn even when the row just reserved is given up again.
-/
namespace ExecgoRuntime

open KeyedTable

/-- What a reservation contributes to a meter; no reservation contributes nothing. -/
def Component.share (c : Component) (reservation : Option TaskResourceReservation) : ℕ :=
  (reservation.map c.amount).getD 0

structure Meter (ledger : ResourceLedger) where
  component : Component
  counts : Option ControlContext → Bool
  limit : ℕ
  view : CycleTotals → ResourceCapacity
  below : limit < u64Max
  /-- The first view is the sum over the snapshot, capped. -/
  start : ∀ active : List TaskRecord,
    component.of (view (.ofActive ledger active)) =
      some (min ((active.map (fun row =>
        if counts row.controlContext then component.share row.reservation else 0)).sum) u64Max)
  /-- What the cycle admits stays within the limit and is added to the view. -/
  charge : ∀ totals task reservation level,
    consider ledger totals task = .reserve reservation →
    component.of (view totals) = some level → level ≤ limit →
    level + (if counts task.controlContext then component.amount reservation else 0) ≤ limit ∧
      component.of (view (totals.charge ledger task.tenant reservation)) =
        some (level + if counts task.controlContext then component.amount reservation else 0)
  /-- A failed spawn takes no more than the share of its task out of the view. -/
  refund : ∀ totals (task : TaskRecord) reservation level,
    component.of (view totals) = some level →
    ∃ level', component.of (view (totals.refund reservation)) = some level' ∧ level' ≤ level ∧
      level ≤ level' + if counts task.controlContext then component.amount reservation else 0

namespace Meter

variable {ledger : ResourceLedger} (m : Meter ledger)

/-- The weight of a row in the store. -/
def weight (row : TaskRecord) : ℕ :=
  if row.hasActiveReservation then
    if m.counts row.controlContext then m.component.share row.reservation else 0
  else 0

/-- The sum over the active reservations of the counted rows. -/
def activeTotal (db : Db) : ℕ := db.tasks.total m.weight

/-- The same sum without one task. -/
def otherTotal (db : Db) (taskId : TaskId) : ℕ := (db.tasks.erase taskId).total m.weight

/-- The share that a reservation has for this task. -/
def charged (task : TaskRecord) (reservation : TaskResourceReservation) : ℕ :=
  if m.counts task.controlContext then m.component.amount reservation else 0

/-- The view is within the limit and at least `amount`. -/
def Covers (totals : CycleTotals) (amount : ℕ) : Prop :=
  ∃ level, m.component.of (m.view totals) = some level ∧ amount ≤ level ∧ level ≤ m.limit

/-- The invariant of a cycle. -/
def CycleCovers (db : Db) : Dispatcher → Prop
  | .idle => True
  | .listing totals | .scanning totals _ | .dispatching totals _ _ _ | .persisting totals _ _ =>
    m.Covers totals (m.activeTotal db)
  | .launching totals task reservation _ | .failing totals task reservation _ _ =>
    m.Covers totals (m.activeTotal db) ∧
      m.Covers totals (m.otherTotal db task.taskId + m.charged task reservation)

structure Safe (w : World) (dispatcher : Dispatcher) : Prop where
  serving : w.procs.server = .serving dispatcher
  limit : m.activeTotal w.db ≤ m.limit
  covers : m.CycleCovers w.db dispatcher

variable {m}

theorem Covers.mono {totals : CycleTotals} {a b : ℕ} (h : m.Covers totals b) (hab : a ≤ b) :
    m.Covers totals a := by
  obtain ⟨level, hlevel, hb, hlimit⟩ := h
  exact ⟨level, hlevel, hab.trans hb, hlimit⟩

/-- A weight that no write of the call raises is not raised in total. -/
theorem total_exec_le {call : StoreCall} {now : Timestamp} {db db' : Db} (W : TaskRecord → ℕ)
    (hnew : ∀ new now, W (NewTaskRecord.toRow new now) = 0)
    (hwrite : ∀ taskId w, call = .write taskId w → ∀ row, W (w.effect now row) ≤ W row)
    (h : call.exec now db = .ok db') : db'.tasks.total W ≤ db.tasks.total W := by
  cases call with
  | read =>
    cases h
    exact Nat.le_refl _
  | insertTask new =>
    obtain ⟨hfree, hleaves⟩ := Db.insertTask_spec h
    rw [hleaves.tasks, Table.total_insert, hnew, Nat.add_zero]
  | write taskId w =>
    rw [(TaskWrite.run_spec h).tasks]
    exact Table.total_update_le _ _ _ _ _ (hwrite taskId w rfl)
  | deleteTask taskId =>
    rw [(Db.deleteTask_spec h).1]
    exact Table.total_erase_le _ _ _

theorem weight_effect_le {w : TaskWrite} (h : w.reserves = false) (now : Timestamp)
    (row : TaskRecord) : m.weight (w.effect now row) ≤ m.weight row := by
  unfold weight
  rw [TaskWrite.effect_controlContext, TaskWrite.effect_reservation h]
  by_cases hactive : (w.effect now row).hasActiveReservation = true
  · rw [if_pos hactive, if_pos (TaskWrite.active_of_effect h hactive)]
  · rw [if_neg hactive]
    exact Nat.zero_le _

/-- The calls of every actor but the one that reserves. -/
def Releases (call : StoreCall) : Prop := ∀ taskId w, call = .write taskId w → w.reserves = false

theorem activeTotal_exec_le {call : StoreCall} {now : Timestamp} {db db' : Db}
    (hcall : Releases call) (h : call.exec now db = .ok db') :
    m.activeTotal db' ≤ m.activeTotal db :=
  total_exec_le m.weight (fun _ _ => rfl)
    (fun taskId w hw row => weight_effect_le (hcall taskId w hw) now row) h

theorem otherTotal_exec_le {call : StoreCall} {now : Timestamp} {db db' : Db}
    (hcall : Releases call) (h : call.exec now db = .ok db') (taskId : TaskId) :
    m.otherTotal db' taskId ≤ m.otherTotal db taskId := by
  unfold otherTotal
  rw [Table.total_erase, Table.total_erase]
  refine total_exec_le _ ?_ ?_ h
  · intro new now
    split <;> rfl
  · intro taskId' w hw row
    rw [w.keeps_effect now row]
    split
    · exact Nat.le_refl _
    · exact weight_effect_le (hcall taskId' w hw) now row

/-- A cycle that does not move itself stays covered when others change the store. -/
theorem CycleCovers.exec {dispatcher : Dispatcher} {call : StoreCall} {now : Timestamp}
    {db db' : Db} (hcovers : m.CycleCovers db dispatcher) (hcall : Releases call)
    (h : call.exec now db = .ok db') : m.CycleCovers db' dispatcher := by
  have htotal : m.activeTotal db' ≤ m.activeTotal db := activeTotal_exec_le hcall h
  cases dispatcher with
  | idle => trivial
  | launching totals task reservation rest =>
    exact ⟨hcovers.1.mono htotal,
      hcovers.2.mono (Nat.add_le_add_right (otherTotal_exec_le hcall h _) _)⟩
  | failing totals task reservation message rest =>
    exact ⟨hcovers.1.mono htotal,
      hcovers.2.mono (Nat.add_le_add_right (otherTotal_exec_le hcall h _) _)⟩
  | listing _ => exact Covers.mono hcovers htotal
  | scanning _ _ => exact Covers.mono hcovers htotal
  | dispatching _ _ _ _ => exact Covers.mono hcovers htotal
  | persisting _ _ _ => exact Covers.mono hcovers htotal

theorem activeTotal_eq_other_add (db : Db) (taskId : TaskId) :
    m.activeTotal db = m.otherTotal db taskId + ((db.tasks.find taskId).map m.weight).getD 0 :=
  Table.total_eq_erase_add _ _ _

/-- A reservation replaces what its own row held by its share. -/
theorem activeTotal_reserve {db db' : Db} {now : Timestamp} {task : TaskRecord}
    {reservation : TaskResourceReservation} {message : String}
    (hlink : ∀ row, db.tasks.find task.taskId = some row →
      m.counts row.controlContext = m.counts task.controlContext)
    (h : (TaskWrite.reserveResources reservation message).run now task.taskId db = .ok db') :
    m.activeTotal db' = m.otherTotal db task.taskId + m.charged task reservation ∧
      m.otherTotal db' task.taskId = m.otherTotal db task.taskId := by
  have hother : m.otherTotal db' task.taskId = m.otherTotal db task.taskId := by
    unfold otherTotal
    rw [(TaskWrite.run_spec h).tasks, Table.erase_update_self]
  obtain ⟨row, hrow⟩ := TaskWrite.find_of_run rfl h
  refine ⟨?_, hother⟩
  rw [activeTotal_eq_other_add db' task.taskId, hother, Db.find_write h, if_pos rfl, hrow]
  have hweight : m.weight (row.setReserved reservation now) = m.charged task reservation := by
    simp [weight, charged, TaskRecord.setReserved, TaskRecord.hasActiveReservation,
      Component.share, hlink row hrow]
  simp [TaskWrite.effect, hweight]

/-- Completing a task gives up what its row held. -/
theorem activeTotal_complete_le {db db' : Db} {now : Timestamp} {taskId : TaskId}
    {update : CompletionUpdate} (h : (TaskWrite.completeTask update).run now taskId db = .ok db') :
    m.activeTotal db' ≤ m.otherTotal db taskId := by
  have hother : m.otherTotal db' taskId = m.otherTotal db taskId := by
    unfold otherTotal
    rw [(TaskWrite.run_spec h).tasks, Table.erase_update_self]
  rw [activeTotal_eq_other_add db' taskId, hother, Db.find_write h, if_pos rfl]
  cases db.tasks.find taskId with
  | none => simp
  | some row =>
    simp [TaskWrite.effect, weight, TaskWrite.setCompleted_idle update row]

/-- The snapshot of the active reservations gives a covering view. -/
theorem covers_ofActive {db : Db} (hlimit : m.activeTotal db ≤ m.limit) :
    m.Covers (.ofActive ledger db.listActiveReservations) (m.activeTotal db) := by
  have hsum : ((db.listActiveReservations.map (fun row =>
      if m.counts row.controlContext then m.component.share row.reservation else 0)).sum) =
      m.activeTotal db := by
    rw [((Db.listActiveReservations_perm db).map _).sum_eq, Table.select_sum]
    rfl
  have hbelow := m.below
  refine ⟨_, m.start _, ?_, ?_⟩
  · rw [hsum]
    omega
  · rw [hsum]
    omega

/-- What a write other than a reservation does to a covered cycle. -/
theorem covers_write {totals : CycleTotals} {db db' : Db} {now : Timestamp} {taskId : TaskId}
    {w : TaskWrite} (hlimit : m.activeTotal db ≤ m.limit)
    (hcovers : m.Covers totals (m.activeTotal db)) (hw : w.reserves = false)
    (h : w.run now taskId db = .ok db') :
    m.activeTotal db' ≤ m.limit ∧ m.Covers totals (m.activeTotal db') := by
  have hreleases : Releases (.write taskId w) := by
    rintro _ _ ⟨⟩
    exact hw
  have htotal : m.activeTotal db' ≤ m.activeTotal db := activeTotal_exec_le hreleases h
  exact ⟨htotal.trans hlimit, hcovers.mono htotal⟩

/-- What the cycle admits keeps the sum within the limit. -/
theorem covers_reserve {totals : CycleTotals} {db db' : Db} {now : Timestamp} {task : TaskRecord}
    {reservation : TaskResourceReservation} {message : String} {rest : List TaskRecord}
    (hcovers : m.Covers totals (m.activeTotal db))
    (hlink : ∀ row, db.tasks.find task.taskId = some row →
      m.counts row.controlContext = m.counts task.controlContext)
    (hdecision : consider ledger totals task = .reserve reservation)
    (h : (TaskWrite.reserveResources reservation message).run now task.taskId db = .ok db') :
    m.activeTotal db' ≤ m.limit ∧
      m.CycleCovers db'
        (.launching (totals.charge ledger task.tenant reservation) task reservation rest) := by
  obtain ⟨level, hlevel, htotal, hbound⟩ := hcovers
  obtain ⟨hadmitted, hview⟩ := m.charge totals task reservation level hdecision hlevel hbound
  obtain ⟨htotal', hother'⟩ := activeTotal_reserve hlink h
  have hother := activeTotal_eq_other_add (m := m) db task.taskId
  unfold charged at htotal'
  refine ⟨by omega, ⟨_, hview, by omega, by omega⟩, ⟨_, hview, ?_, by omega⟩⟩
  unfold charged
  omega

/-- The row of a failed spawn gives up its share, so the lowered view still
covers the others. -/
theorem covers_refund {totals : CycleTotals} {db db' : Db} {now : Timestamp} {task : TaskRecord}
    {reservation : TaskResourceReservation} {update : CompletionUpdate}
    (hcovers : m.Covers totals (m.otherTotal db task.taskId + m.charged task reservation))
    (h : (TaskWrite.completeTask update).run now task.taskId db = .ok db') :
    m.activeTotal db' ≤ m.limit ∧ m.Covers (totals.refund reservation) (m.activeTotal db') := by
  obtain ⟨level, hlevel, hshare, hbound⟩ := hcovers
  obtain ⟨level', hlevel', hle, hrefund⟩ := m.refund totals task reservation level hlevel
  have htotal : m.activeTotal db' ≤ m.otherTotal db task.taskId := activeTotal_complete_le h
  unfold charged at hshare
  exact ⟨by omega, level', hlevel', by omega, by omega⟩

/-- One move of the cycle keeps the limit and the covering of the view. -/
theorem dispatch_covers {svc : RuntimeService} {m : Meter svc.ledger} {now : Timestamp}
    {outcome : SpawnOutcome} {db db' : Db} {d d' : Dispatcher} {committed : Option StoreCall}
    (hlimit : m.activeTotal db ≤ m.limit) (hcovers : m.CycleCovers db d)
    (hlink : ∀ task ∈ d.pending, ∀ row, db.tasks.find task.taskId = some row →
      m.counts row.controlContext = m.counts task.controlContext)
    (h : DispatchStep svc now outcome db committed db' d d') :
    m.activeTotal db' ≤ m.limit ∧ m.CycleCovers db' d' := by
  cases h with
  | stop _ => exact ⟨hlimit, trivial⟩
  | started _ => exact ⟨hlimit, covers_ofActive hlimit⟩
  | listed _ => exact ⟨hlimit, hcovers⟩
  | skipped _ => exact ⟨hlimit, hcovers⟩
  | cancelled hrun => exact covers_write hlimit hcovers rfl hrun
  | reserved hdecision hrun =>
    exact covers_reserve hcovers (hlink _ (List.mem_cons_self ..)) hdecision hrun
  | spawned _ _ => exact ⟨hlimit, hcovers.1⟩
  | notSpawned _ _ => exact ⟨hlimit, hcovers⟩
  | dispatched hrun => exact covers_write hlimit hcovers rfl hrun
  | failed hrun => exact covers_refund hcovers.2 hrun
  | persisted _ => exact ⟨hlimit, hcovers⟩

/-- The calls of requests, garbage collection and shims reserve nothing. -/
theorem Safe.exec {w w' : World} {d : Dispatcher} {call : StoreCall} {now : Timestamp}
    (hsafe : m.Safe w d) (hserving : w'.procs.server = .serving d) (hcall : Releases call)
    (h : call.exec now w.db = .ok w'.db) : m.Safe w' d where
  serving := hserving
  limit := (activeTotal_exec_le hcall h).trans hsafe.limit
  covers := hsafe.covers.exec hcall h

theorem releases_of_request {call : StoreCall} (h : RequestCall call) : Releases call := by
  rintro taskId w rfl
  cases h <;> rfl

theorem releases_of_gc {call : StoreCall} (h : GcCall call) : Releases call := by
  rintro taskId w rfl
  cases h

theorem releases_of_shim {now : Timestamp} {failure : Option AppError} {choice : ShimChoice}
    {db db' : Db} {shim shim' : Shim} {committed : Option StoreCall}
    (h : ShimStep now failure choice db shim committed db' shim')
    {call : StoreCall} (hcall : committed = some call) : Releases call := by
  rintro taskId w rfl
  rcases h.call hcall with hread | ⟨w', hw, hwrite⟩
  · cases hread
  · cases hw
    cases hwrite <;> rfl

/-- In one server life every step keeps the meter safe. The link says that a task
of the cycle's list is still counted as its row is. -/
theorem Safe.step {svc : RuntimeService} {m : Meter svc.ledger} {w w' : World} {e : Event}
    {d : Dispatcher} (hsafe : m.Safe w d)
    (hlink : ∀ task ∈ d.pending, ∀ row, w.db.tasks.find task.taskId = some row →
      m.counts row.controlContext = m.counts task.controlContext)
    (hlife : e.action.isCrash = false) (hstep : w.step svc e = some w') : ∃ d', m.Safe w' d' := by
  have hother : w'.procs.server = .serving d →
      (∀ call, w.committed svc e = some call → Releases call) → ∃ d', m.Safe w' d' := by
    intro hserving hreleases
    rcases World.step_db hstep with ⟨_, hdb⟩ | ⟨call, hcall, hexec⟩
    · exact ⟨d, hserving, by rw [hdb]; exact hsafe.limit, by rw [hdb]; exact hsafe.covers⟩
    · exact ⟨d, hsafe.exec hserving (hreleases call hcall) hexec⟩
  have hd : ∀ d', w.procs.server = .serving d' → d' = d := by
    intro d' hserver
    rw [hsafe.serving] at hserver
    cases hserver
    rfl
  cases World.step_cases hstep with
  | request d₀ _ hserver hserver' _ hcall =>
    rw [hd d₀ hserver] at hserver'
    exact hother hserver' (fun call h => releases_of_request (hcall call h))
  | gc removed d₀ _ hserver hserver' _ hcall =>
    rw [hd d₀ hserver] at hserver'
    exact hother hserver' (fun call h => releases_of_gc (hcall call h))
  | dispatch outcome d₀ d' _ hserver _ hmove hprocs =>
    rw [hd d₀ hserver] at hmove
    obtain ⟨hlimit, hcovers⟩ := dispatch_covers hsafe.limit hsafe.covers hlink hmove
    exact ⟨d', by rw [hprocs]; rfl, hlimit, hcovers⟩
  | recover pidTaken r r' _ hserver _ _ =>
    rw [hsafe.serving] at hserver
    cases hserver
  | shim i choice shim shim' _ _ _ hmove hprocs =>
    have hserving : w'.procs.server = .serving d := by
      rw [hprocs]
      exact hsafe.serving
    exact hother hserving (fun call h => releases_of_shim hmove h)
  | crash haction _ _ _ =>
    rw [haction] at hlife
    cases hlife
  | restart _ _ _ hserver _ =>
    rw [hsafe.serving] at hserver
    cases hserver

theorem safe_init (ledger : ResourceLedger) (m : Meter ledger) : m.Safe .init .idle where
  serving := rfl
  limit := Nat.zero_le _
  covers := trivial

end Meter

end ExecgoRuntime
