import ExecgoRuntime.Requests

/-!
The length of the queue. `submit_task` compares the number of accepted rows with
the limit and inserts its row in a later transaction, so two submissions can see
the same count. Nothing but an insertion makes the queue longer: the other calls
never turn a row into an accepted one.
-/
namespace ExecgoRuntime

open KeyedTable

namespace Db

/-- What a row contributes to the queue. -/
def queued (row : TaskRecord) : ℕ := if row.status = .accepted then 1 else 0

theorem countAccepted_eq_total (db : Db) : db.countAccepted = db.tasks.total queued := by
  have hsum := Table.select_sum db.tasks (fun row => decide (row.status = .accepted)) (fun _ => 1)
  have hweight : (fun row : TaskRecord => if decide (row.status = .accepted) = true then 1 else 0) =
      queued := by
    funext row
    simp [queued]
  rw [hweight] at hsum
  rw [← hsum, List.map_const', List.sum_replicate_nat, Nat.mul_one]
  rfl

/-- No write puts a row into the queue. -/
theorem queued_effect_le (w : TaskWrite) (now : Timestamp) (row : TaskRecord) :
    queued (w.effect now row) ≤ queued row := by
  unfold queued
  by_cases haccepted : row.status = .accepted
  · rw [if_pos haccepted]
    split <;> omega
  · have hnot : (w.effect now row).status ≠ .accepted := w.effect_not_accepted now haccepted
    rw [if_neg haccepted, if_neg hnot]

theorem countAccepted_insert {db db' : Db} {now : Timestamp} {new : NewTaskRecord}
    (h : db.insertTask now new = .ok db') : db'.countAccepted = db.countAccepted + 1 := by
  obtain ⟨hfree, hleaves⟩ := insertTask_spec h
  rw [countAccepted_eq_total, countAccepted_eq_total, hleaves.tasks, Table.total_insert]
  rfl

theorem countAccepted_write_le {db db' : Db} {now : Timestamp} {taskId : TaskId} {w : TaskWrite}
    (h : w.run now taskId db = .ok db') : db'.countAccepted ≤ db.countAccepted := by
  rw [countAccepted_eq_total, countAccepted_eq_total, (TaskWrite.run_spec h).tasks]
  exact Table.total_update_le _ _ _ _ _ (queued_effect_le w now)

theorem countAccepted_delete_le {db db' : Db} {taskId : TaskId}
    (h : db.deleteTask taskId = .ok db') : db'.countAccepted ≤ db.countAccepted := by
  rw [countAccepted_eq_total, countAccepted_eq_total, (deleteTask_spec h).1]
  exact Table.total_erase_le _ _ _

end Db

namespace World

variable {svc : RuntimeService} {w w' : World} {e : Event}

/-- The limit that `submit_task` checks is kept. -/
def QueueBounded (svc : RuntimeService) (w : World) : Prop :=
  w.db.countAccepted ≤ svc.settings.maxQueuedTasks

/-- When `insert_task` takes effect, the queue still has room. -/
def InsertsWithRoom (svc : RuntimeService) (w : World) (e : Event) : Prop :=
  ∀ new, w.committed svc e = some (.insertTask new) →
    w.db.countAccepted < svc.settings.maxQueuedTasks

theorem queueBounded_step_iff (h : w.step svc e = some w') (hbounded : w.QueueBounded svc) :
    w'.QueueBounded svc ↔ w.InsertsWithRoom svc e := by
  have hother : (∀ new, w.committed svc e ≠ some (.insertTask new)) →
      w'.db.countAccepted ≤ w.db.countAccepted →
      (w'.QueueBounded svc ↔ w.InsertsWithRoom svc e) := by
    intro hne hle
    refine iff_of_true (Nat.le_trans hle hbounded) ?_
    intro new hcommitted
    exact absurd hcommitted (hne new)
  rcases step_db h with ⟨hnone, hdb⟩ | ⟨call, hcall, hexec⟩
  · exact hother (by simp [hnone]) (by rw [hdb])
  cases call with
  | read =>
    have hsame : w.db = w'.db := Except.ok.inj hexec
    exact hother (by simp [hcall]) (by rw [hsame])
  | write taskId write =>
    exact hother (by simp [hcall]) (Db.countAccepted_write_le hexec)
  | deleteTask taskId =>
    exact hother (by simp [hcall]) (Db.countAccepted_delete_le hexec)
  | insertTask new =>
    have hcount := Db.countAccepted_insert hexec
    unfold QueueBounded InsertsWithRoom
    rw [hcount]
    constructor
    · intro hle _ _
      omega
    · intro hroom
      have := hroom new hcall
      omega

end World

/-- The queue stays within its limit throughout a run exactly when every
`insert_task` of the run takes effect while the queue has room. -/
theorem queue_bounded_iff (svc : RuntimeService) (trace : List (World × Event)) (last : World)
    (hrun : World.Run svc .init trace last) :
    (∀ s ∈ Runs.visited trace last, s.db.countAccepted ≤ svc.settings.maxQueuedTasks) ↔
      ∀ x ∈ trace, x.1.InsertsWithRoom svc x.2 := by
  refine hrun.invariant_iff (I := World.QueueBounded svc) ?_
    (fun w e w' hw ht => World.queueBounded_step_iff ht hw)
  exact Nat.zero_le _

/-- A service whose queue holds one task. -/
private def oneQueued : RuntimeService :=
  let svc := smallService ⟨1, none, none⟩
  { svc with settings := { svc.settings with maxQueuedTasks := 1 } }

/-- A second submission that arrives when the first one has returned. -/
theorem queue_bounded_iff_of_sequential :
    ∃ trace last, World.Run oneQueued .init trace last ∧
      trace.map Prod.snd = events (submitActions 0 (commandRequest "a") ++
        [.receiveSubmit (commandRequest "b") "", .submit 1]) ∧
      ((∀ s ∈ Runs.visited trace last, s.db.countAccepted ≤ oneQueued.settings.maxQueuedTasks) ↔
        ∀ x ∈ trace, x.1.InsertsWithRoom oneQueued x.2) := by
  have hexec : (World.execute oneQueued (fun _ _ => true)
      (events (submitActions 0 (commandRequest "a") ++
        [.receiveSubmit (commandRequest "b") "", .submit 1]))).any (fun _ => true) = true := by
    decide +kernel
  obtain ⟨trace, last, hrun, hlabels, _, _⟩ := Runs.exists_run_of_exec hexec
  exact ⟨trace, last, hrun, hlabels, queue_bounded_iff _ trace last hrun⟩

/-- Two submissions that count the queue before either inserts its row. -/
theorem queue_exceeds_limit :
    ¬ ∀ svc trace last, World.Run svc .init trace last →
      ∀ s ∈ Runs.visited trace last, s.db.countAccepted ≤ svc.settings.maxQueuedTasks := by
  intro hclaim
  have hexec : (World.execute oneQueued (fun _ _ => true)
      (events [.receiveSubmit (commandRequest "a") "", .receiveSubmit (commandRequest "b") "",
        .submit 0, .submit 1, .submit 0, .submit 1])).any
        (fun w => decide (oneQueued.settings.maxQueuedTasks < w.db.countAccepted)) = true := by
    decide +kernel
  obtain ⟨trace, last, hrun, _, _, hexceeds⟩ := Runs.exists_run_of_exec hexec
  have hle := hclaim oneQueued trace last hrun last (Runs.last_mem_visited trace last)
  have hlt := of_decide_eq_true hexceeds
  omega

end ExecgoRuntime
