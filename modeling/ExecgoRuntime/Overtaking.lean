import ExecgoRuntime.LoneCycle

/-!
No task is overtaken by an equal one within a cycle. The totals go up with every
reservation and down again with a failed spawn, but from one task of the list to
the next they never shrink as far as an admission can tell: what a failed spawn
gives back was admitted, so it had been added without a cap. A task that was
refused therefore stays refused, and so does every later task with its tenant
and its reservation.
-/
namespace ExecgoRuntime

/-- The totals have `P`, also after the reservation at hand is given back. -/
def Dispatcher.TotalsHave (P : CycleTotals → Prop) : Dispatcher → Prop
  | .idle | .listing _ => True
  | .scanning totals _ | .dispatching totals _ _ _ | .persisting totals _ _ => P totals
  | .launching totals _ reservation _ | .failing totals _ reservation _ _ =>
    P totals ∧ P (totals.refund reservation)

namespace LoneCycle

variable {svc : RuntimeService} {s s' : LoneCycle} {a : CycleAnswer} {reserved : Option TaskId}

/-- The loop goes through its list from the front. -/
theorem CycleStep.pending (h : CycleStep svc a s reserved s') : s'.2.pending <:+ s.2.pending := by
  cases h with
  | returned => exact List.nil_suffix
  | broken _ => exact List.nil_suffix
  | skipped _ => exact List.suffix_cons _ _
  | cancelled _ _ => exact List.suffix_cons _ _
  | reserved _ _ => exact List.suffix_cons _ _
  | spawned _ => exact List.suffix_rfl
  | notSpawned _ => exact List.suffix_rfl
  | dispatched _ => exact List.suffix_rfl
  | failed _ => exact List.suffix_rfl
  | persisted => exact List.suffix_rfl

/-- What has risen from some totals keeps doing so. -/
theorem CycleStep.rises {totals : CycleTotals} (h : CycleStep svc a s reserved s')
    (hrisen : s.2.TotalsHave (totals.Rises svc.ledger)) :
    s'.2.TotalsHave (totals.Rises svc.ledger) := by
  cases h with
  | returned => trivial
  | broken _ => trivial
  | skipped _ => exact hrisen
  | cancelled _ _ => exact hrisen
  | reserved hdecision _ =>
    obtain ⟨hrequested, _, hadmits⟩ := CycleTotals.admits_of_consider hdecision
    rw [← hrequested] at hadmits
    exact ⟨CycleTotals.Rises.trans hrisen (CycleTotals.rises_charge _ _ _ _),
      CycleTotals.Rises.trans hrisen (CycleTotals.rises_charge_refund hadmits)⟩
  | spawned _ => exact hrisen.1
  | notSpawned _ => exact hrisen
  | dispatched _ => exact hrisen
  | failed _ => exact hrisen.2
  | persisted => exact hrisen

/-- Only the task in front of the list is reserved, and then it is admitted. -/
theorem CycleStep.of_reserved {taskId : TaskId} (h : CycleStep svc a s (some taskId) s') :
    ∃ totals task rest, s.2 = .scanning totals (task :: rest) ∧ task.taskId = taskId ∧
      totals.Admits svc.ledger task.tenant task.requestedReservation := by
  cases h with
  | reserved hdecision _ =>
    obtain ⟨_, _, hadmits⟩ := CycleTotals.admits_of_consider hdecision
    exact ⟨_, _, _, rfl, rfl, hadmits⟩

/-- The totals refuse the task, and those of the loop have risen from them. -/
def Refused (svc : RuntimeService) (task : TaskRecord) (d : Dispatcher) : Prop :=
  ∃ totals : CycleTotals, ¬ totals.Admits svc.ledger task.tenant task.requestedReservation ∧
    d.TotalsHave (totals.Rises svc.ledger)

/-- The loop has not come to the task, or has reserved it, or has refused it. -/
theorem CycleStep.settles {task : TaskRecord} (h : CycleStep svc a s reserved s')
    (hkill : task.killRequested = false) (hidle : task.hasActiveReservation = false)
    (hpending : task ∈ s.2.pending) :
    task ∈ s'.2.pending ∨ reserved = some task.taskId ∨ s'.2 = .idle ∨
      Refused svc task s'.2 := by
  cases h with
  | returned => exact .inr (.inr (.inl rfl))
  | broken _ => exact .inr (.inr (.inl rfl))
  | skipped hdecision =>
    rcases List.mem_cons.mp hpending with rfl | hrest
    · refine .inr (.inr (.inr ⟨_, CycleTotals.not_admits_of_skip hdecision hidle, ?_⟩))
      exact CycleTotals.Rises.refl _ _
    · exact .inl hrest
  | cancelled hdecision _ =>
    rcases List.mem_cons.mp hpending with rfl | hrest
    · rw [CycleTotals.killRequested_of_cancel hdecision] at hkill
      cases hkill
    · exact .inl hrest
  | reserved _ _ =>
    rcases List.mem_cons.mp hpending with rfl | hrest
    · exact .inr (.inl rfl)
    · exact .inl hrest
  | spawned _ => exact .inl hpending
  | notSpawned _ => exact .inl hpending
  | dispatched _ => exact .inl hpending
  | failed _ => exact .inl hpending
  | persisted => exact .inl hpending

variable {db : Db} {trace : List (LoneCycle × CycleAnswer)} {last : LoneCycle}

theorem pending_of_run (hrun : Runs.Run (step svc) (loopHead svc db) trace last) :
    last.2.pending <:+ db.listAccepted svc.settings.maxQueuedTasks := by
  refine hrun.invariant (I := fun s => s.2.pending <:+ db.listAccepted svc.settings.maxQueuedTasks)
    (G := fun _ _ => True) List.suffix_rfl ?_ (fun _ _ => trivial)
  intro s a s' hs _ hstep
  exact (step_cases hstep).pending.trans hs

/-- What a run of the loop has done about a task of its list. -/
theorem settled_of_run (hrun : Runs.Run (step svc) (loopHead svc db) trace last)
    {task : TaskRecord} (htask : task ∈ db.listAccepted svc.settings.maxQueuedTasks)
    (hkill : task.killRequested = false) (hidle : task.hasActiveReservation = false) :
    task ∈ last.2.pending ∨ (∃ y ∈ trace, reservedTask svc y.1 y.2 = some task.taskId) ∨
      last.2 = .idle ∨ Refused svc task last.2 := by
  induction hrun with
  | nil => exact .inl htask
  | @snoc trace s a s' _ hstep ih =>
    have hcase := step_cases hstep
    rcases ih with hpending | ⟨y, hy, hreserved⟩ | hended | ⟨totals, hrefused, hrisen⟩
    · rcases hcase.settles hkill hidle hpending with hlater | hnow | hended | hrefused
      · exact .inl hlater
      · exact .inr (.inl ⟨(s, a), by simp, hnow⟩)
      · exact .inr (.inr (.inl hended))
      · exact .inr (.inr (.inr hrefused))
    · exact .inr (.inl ⟨y, List.mem_append_left _ hy, hreserved⟩)
    · obtain ⟨_, _, hgoing, _⟩ := step_outcome hstep
      exact absurd hended hgoing
    · exact .inr (.inr (.inr ⟨totals, hrefused, hcase.rises hrisen⟩))

/-- In a list without duplicates a suffix that begins in the later part has
nothing of the earlier part. -/
private theorem not_mem_of_suffix {earlier later rest : List TaskId} {x y : TaskId}
    (hnodup : (earlier ++ later).Nodup) (hx : x ∈ earlier) (hy : y ∈ later)
    (hsuffix : y :: rest <:+ earlier ++ later) : x ∉ y :: rest := by
  obtain ⟨done, hdone⟩ := hsuffix
  have hdisjoint := List.disjoint_of_nodup_append hnodup
  rcases List.append_eq_append_iff.mp hdone with ⟨more, hearlier, hrest⟩ | ⟨more, hdone', hlater⟩
  · cases more with
    | nil =>
      rw [List.append_nil] at hearlier
      rw [List.nil_append] at hrest
      rw [hrest]
      exact fun hmem => hdisjoint hx hmem
    | cons head more =>
      cases hrest
      exact absurd hy (hdisjoint (by simp [hearlier]))
  · intro hmem
    exact hdisjoint hx (by rw [hlater]; exact List.mem_append_right _ hmem)

/-- No overtaking among equals: a task is not reserved before one that stands
earlier in the list, with the same tenant and the same reservation, unless that
one is to be cancelled or was reserved already. -/
theorem reserved_in_order (hrun : Runs.Run (step svc) (loopHead svc db) trace last)
    {earlier later : List TaskRecord}
    (hlist : db.listAccepted svc.settings.maxQueuedTasks = earlier ++ later)
    {first second : TaskRecord} (hfirst : first ∈ earlier) (hsecond : second ∈ later)
    (htenant : first.tenant = second.tenant)
    (hsame : first.requestedReservation = second.requestedReservation)
    (hkill : first.killRequested = false) (hidle : first.hasActiveReservation = false)
    {before after : List (LoneCycle × CycleAnswer)} {x : LoneCycle × CycleAnswer}
    (htrace : trace = before ++ x :: after)
    (hreserved : reservedTask svc x.1 x.2 = some second.taskId) :
    ∃ y ∈ before, reservedTask svc y.1 y.2 = some first.taskId := by
  subst htrace
  obtain ⟨s', hbefore, hstep, _⟩ := hrun.split
  have hcase := step_cases hstep
  rw [hreserved] at hcase
  obtain ⟨totals, task, rest, hscanning, htaskId, hadmits⟩ := hcase.of_reserved
  have hmem : first ∈ db.listAccepted svc.settings.maxQueuedTasks := by
    rw [hlist]
    exact List.mem_append_left _ hfirst
  have hsuffix := pending_of_run hbefore
  rw [hscanning] at hsuffix
  have hids : ∀ row ∈ db.listAccepted svc.settings.maxQueuedTasks,
      db.tasks.find row.taskId = some row := fun row hrow => (Db.mem_listAccepted hrow).1
  have htask : task = second := by
    have hfound := hids task (hsuffix.subset (List.mem_cons_self ..))
    have hfound' := hids second (by rw [hlist]; exact List.mem_append_right _ hsecond)
    rw [htaskId, hfound'] at hfound
    exact (Option.some.inj hfound).symm
  subst htask
  rcases settled_of_run hbefore hmem hkill hidle with hpending | hdone | hended | hrefused
  · have hnodup := db.listAccepted_nodup svc.settings.maxQueuedTasks
    rw [hlist, List.map_append] at hnodup
    rw [hlist] at hsuffix
    have hmapped := hsuffix.map TaskRecord.taskId
    rw [List.map_append] at hmapped
    rw [hscanning] at hpending
    exact absurd (List.mem_map_of_mem hpending) (not_mem_of_suffix hnodup
      (List.mem_map_of_mem hfirst) (List.mem_map_of_mem hsecond) hmapped)
  · exact hdone
  · rw [hscanning] at hended
    cases hended
  · obtain ⟨totals₀, hno, hrisen⟩ := hrefused
    rw [hscanning] at hrisen
    rw [← htenant, ← hsame] at hadmits
    exact absurd (CycleTotals.Rises.admits hrisen hadmits) hno

/-- Two equal tasks on one slot. The spawn of the first fails, so the second gets
the slot, after the first had it. -/
theorem reserved_in_order_of_failed_spawn :
    ∃ db trace last a s', Runs.Run (step (smallService ⟨1, some 100, none⟩))
        (loopHead (smallService ⟨1, some 100, none⟩) db) (trace ++ [(last, a)]) s' ∧
      reservedTask (smallService ⟨1, some 100, none⟩) last a = some "b" ∧
      ∃ y ∈ trace, reservedTask (smallService ⟨1, some 100, none⟩) y.1 y.2 = some "a" := by
  let svc := smallService ⟨1, some 100, none⟩
  let a : CycleAnswer := { outcome := .spawned 10 }
  have hexec : (execute svc (fun _ _ => true)
      (events (submitActions 0 (commandRequest "a" (some { tenant := some "t" })) ++
        submitActions 1 (commandRequest "b" (some { tenant := some "t" }))))
      (List.replicate 4 { outcome := .spawnFailed "no memory" })).any (fun s =>
        decide ((s.1.listAccepted svc.settings.maxQueuedTasks).map (fun row => (row.taskId,
          row.tenant, row.requestedReservation, row.killRequested, row.hasActiveReservation)) =
          [("a", some "t", ⟨1, none, none⟩, false, false),
            ("b", some "t", ⟨1, none, none⟩, false, false)]) &&
        decide (reservedTask svc s.2 a = some "b") && (step svc s.2 a).isSome) = true := by
    decide
  obtain ⟨db, trace, last, hrun, _, _, htest⟩ := exists_run_of_execute hexec
  simp only [Bool.and_eq_true, decide_eq_true_eq] at htest
  obtain ⟨⟨hrows, hsecond⟩, hnext⟩ := htest
  obtain ⟨s', hs'⟩ := Option.isSome_iff_exists.mp hnext
  obtain ⟨first, rest, hlist, hfirst, hrest⟩ := List.map_eq_cons_iff.mp hrows
  obtain ⟨second, tail, hlist', hsecond', htail⟩ := List.map_eq_cons_iff.mp hrest
  simp only [Prod.mk.injEq] at hfirst hsecond'
  obtain ⟨hid, htenant, hrequested, hkill, hidle⟩ := hfirst
  obtain ⟨hid', htenant', hrequested', _⟩ := hsecond'
  have hsplit : db.listAccepted svc.settings.maxQueuedTasks = [first] ++ rest := hlist
  refine ⟨db, trace, last, a, s', hrun.snoc hs', hsecond, ?_⟩
  rw [← hid]
  have hmem : second ∈ rest := by
    rw [hlist']
    exact List.mem_cons_self ..
  exact reserved_in_order (hrun.snoc hs') hsplit (List.mem_singleton_self _) hmem
    (htenant.trans htenant'.symm) (hrequested.trans hrequested'.symm) hkill hidle rfl
    (hsecond.trans (congrArg some hid'.symm))

end LoneCycle
end ExecgoRuntime
