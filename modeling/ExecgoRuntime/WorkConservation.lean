import ExecgoRuntime.CycleAccounts

/-!
A dispatch cycle conserves work. In a cycle that nobody interrupts, none of whose
steps fails and that finds no reservation to release, the totals are the capped
sums of the store from beginning to end. A task that was passed over did not fit
some totals; those at the end have risen from them and are what an aggregation of
the rows gives, so the task does not fit that either. The result of a task that is
cancelled on the way is written to its file by the cycle itself: a file that
cannot be written ends the cycle in front of tasks that fit.
-/
namespace ExecgoRuntime

open KeyedTable

/-- No accepted task that is to be cancelled holds a reservation. -/
def Db.NoneToRelease (db : Db) : Prop :=
  ∀ taskId row, db.tasks.find taskId = some row → row.status = .accepted →
    row.killRequested = true → row.hasActiveReservation = false

/-- The row has an active reservation. -/
def Db.Reserved (db : Db) (taskId : TaskId) : Prop :=
  ∃ row, db.tasks.find taskId = some row ∧ row.hasActiveReservation = true

/-- The store call, the result file and the spawn succeed, whichever of them the
step is about. -/
def CycleAnswer.Succeeds (a : CycleAnswer) : Prop :=
  a.failure = none ∧ ∃ pid, a.outcome = .spawned pid

/-- The next step is `persist_latest_result`. -/
def Dispatcher.persists : Dispatcher → Bool
  | .persisting _ _ _ => true
  | _ => false

/-- The store call and the spawn succeed, but a result file may be out of reach. -/
def CycleAnswer.SparesStore (a : CycleAnswer) (d : Dispatcher) : Prop :=
  (∀ e ∈ a.failure, d.persists = true ∧ ∃ message, e = .io message) ∧
    ∃ pid, a.outcome = .spawned pid

/-- The task does not fit next to all that is reserved, or does not fit next to
what its tenant has reserved. -/
def Db.Refuses (ledger : ResourceLedger) (db : Db) (task : TaskRecord) : Prop :=
  ledger.canReserve (ledger.reservedCapacity
      (db.listActiveReservations.filterMap TaskRecord.reservation))
      task.requestedReservation = false ∨
    ledger.canReserveForTenant task.tenant
      ((CycleTotals.ofActive ledger db.listActiveReservations).tenantLevel ledger task.tenant)
      task.requestedReservation = false

instance (ledger : ResourceLedger) (db : Db) (task : TaskRecord) :
    Decidable (db.Refuses ledger task) :=
  inferInstanceAs (Decidable (_ = false ∨ _ = false))

namespace LoneCycle

variable {svc : RuntimeService} {s s' : LoneCycle} {a : CycleAnswer} {reserved : Option TaskId}
  {db : Db} {trace : List (LoneCycle × CycleAnswer)} {last : LoneCycle}

/-- The totals that an aggregation of the rows gives are not below those of the loop. -/
theorem Accounts.rises {ledger : ResourceLedger} {totals : CycleTotals}
    (h : Accounts ledger db totals) :
    totals.Rises ledger (.ofActive ledger db.listActiveReservations) := by
  intro scope limit hlimit c bound hbound _ x hx
  have hpresent := Scope.isSome_total_ofActive hlimit (c := c) (by rw [hbound]; rfl)
    db.listActiveReservations
  obtain ⟨y, hy⟩ := Option.isSome_iff_exists.mp hpresent
  have hlow := h scope c
  have hhigh := Scope.level_total_ofActive ledger db scope c
  unfold Component.level at hlow hhigh
  rw [hx, Option.getD_some] at hlow
  rw [hy, Option.getD_some] at hhigh
  exact ⟨y, hy, by omega⟩

/-- A reservation outlives every step that releases nothing. -/
theorem CycleStep.reservedRow (h : CycleStep svc a s reserved s') (hrows : Rows s)
    (hkeeps : ¬ Releases s.2) {taskId : TaskId}
    (hbefore : s.1.Reserved taskId ∨ reserved = some taskId) : s'.1.Reserved taskId := by
  have hsame : ∀ {P : Prop}, (none : Option TaskId) = some taskId → P := nofun
  have hwrite : ∀ {w : TaskWrite} {now : Timestamp} {written : TaskId} {db db' : Db},
      w.run now written db = .ok db' → db.Reserved taskId →
      (∀ row, db.tasks.find taskId = some row → row.hasActiveReservation = true →
        written = taskId → (w.effect now row).hasActiveReservation = true) →
      db'.Reserved taskId := by
    rintro w now written db db' hrun ⟨row, hrow, hactive⟩ heffect
    unfold Db.Reserved
    rw [Db.find_write hrun]
    split
    · rename_i hid
      subst hid
      exact ⟨w.effect now row, by rw [hrow]; rfl, heffect row hrow hactive rfl⟩
    · exact ⟨row, hrow, hactive⟩
  cases h with
  | returned => exact hbefore.elim id hsame
  | broken _ => exact hbefore.elim id hsame
  | skipped _ => exact hbefore.elim id hsame
  | spawned _ => exact hbefore.elim id hsame
  | notSpawned _ => exact hbefore.elim id hsame
  | persisted => exact hbefore.elim id hsame
  | failed _ => exact absurd trivial hkeeps
  | @cancelled db db' totals task rest hdecision hrun =>
    refine hwrite hrun (hbefore.elim id hsame) ?_
    rintro row hrow hactive rfl
    have htask := (hrows.pending task (List.mem_cons_self ..)).1
    rw [hrow] at htask
    cases htask
    exact absurd ⟨(killRequested_iff_cancel _ _ _).mp hdecision, hactive⟩ hkeeps
  | @dispatched db db' totals task shimPid rest hrun =>
    refine hwrite hrun (hbefore.elim id hsame) ?_
    intro row _ hactive _
    simp only [TaskWrite.effect, TaskRecord.setDispatched]
    split <;> exact hactive
  | @reserved db db' totals task rest reservation _ hrun =>
    rcases hbefore with hheld | hnow
    · exact hwrite hrun hheld (fun _ _ _ _ => rfl)
    · cases hnow
      obtain ⟨hrow, _⟩ := hrows.pending task (List.mem_cons_self ..)
      exact ⟨_, by rw [Db.find_write hrun, if_pos rfl, hrow]; rfl, rfl⟩

/-- A bound on the steps that the loop still takes. -/
def remaining : Dispatcher → ℕ
  | .idle | .listing _ => 0
  | .scanning _ tasks => 4 * tasks.length + 1
  | .launching _ _ _ rest => 4 * rest.length + 4
  | .dispatching _ _ _ rest | .failing _ _ _ _ rest => 4 * rest.length + 3
  | .persisting _ _ rest => 4 * rest.length + 2

theorem remaining_pos {d : Dispatcher} (hidle : d ≠ .idle) (hlisted : d.hasListed = true) :
    0 < remaining d := by
  cases d with
  | idle => exact absurd rfl hidle
  | listing totals => cases hlisted
  | _ => simp [remaining]

/-- Every step goes on with the task at hand, to the next one or to the end. -/
theorem remaining_of_step (h : step svc s a = some s') : remaining s'.2 < remaining s.2 := by
  obtain ⟨_, _, hidle, hlisted, _⟩ := step_outcome h
  have hpos := remaining_pos hidle hlisted
  have hcase := step_cases h
  generalize reservedTask svc s a = reserved at hcase
  cases hcase with
  | returned => simp [remaining]
  | broken _ => exact hpos
  | _ =>
    simp only [remaining, List.length_cons]
    omega

/-- Until its end the loop takes a step, whatever the outside answers. -/
theorem exists_step (svc : RuntimeService) {d : Dispatcher} (hidle : d ≠ .idle)
    (hlisted : d.hasListed = true) (db : Db) (a : CycleAnswer) :
    ∃ s', step svc (db, d) a = some s' := by
  cases d with
  | idle => exact absurd rfl hidle
  | listing totals => cases hlisted
  | _ => exact ⟨_, rfl⟩

/-- The loop has listed its tasks, or it has ended. -/
theorem listed_step (h : step svc s a = some s') : s'.2.hasListed = true ∨ s'.2 = .idle := by
  have hcase := step_cases h
  generalize reservedTask svc s a = reserved at hcase
  cases hcase with
  | returned | broken _ => exact .inr rfl
  | _ => exact .inl rfl

/-- The loop comes to its end, whatever the outside answers. -/
theorem exists_run_to_idle (svc : RuntimeService) (db : Db) (answers : ℕ → CycleAnswer) :
    ∃ trace last, Runs.Run (step svc) (loopHead svc db) trace last ∧ last.2 = .idle ∧
      trace.map Prod.snd = (List.range trace.length).map answers := by
  refine Runs.exists_run_to (I := fun s => s.2.hasListed = true ∨ s.2 = .idle)
    (E := fun s => s.2 = .idle) (fun s => remaining s.2) ?_ (loopHead svc db) (.inl rfl) answers
  rintro ⟨db', d⟩ a hlisted hidle
  obtain ⟨s', hstep⟩ := exists_step svc hidle (hlisted.resolve_right hidle) db' a
  exact ⟨s', hstep, listed_step hstep, remaining_of_step hstep⟩

/-- The loop is about to fail the task at hand. -/
def isFailing (d : Dispatcher) : Bool :=
  match d with
  | .failing _ _ _ _ _ => true
  | _ => false

/-- A cycle whose spawns succeed finds nothing to release if there was nothing. -/
theorem not_releases_of_run (hdb : db.NoneToRelease)
    (hrun : Runs.Run (step svc) (loopHead svc db) trace last)
    (hanswers : ∀ x ∈ trace, x.2.Succeeds) : ∀ s ∈ Runs.visited trace last, ¬ Releases s.2 := by
  have hinv : ∀ s ∈ Runs.visited trace last,
      s.2.pending <:+ db.listAccepted svc.settings.maxQueuedTasks ∧ isFailing s.2 = false := by
    refine hrun.invariant_visited (G := fun _ a => a.Succeeds) ⟨List.suffix_rfl, rfl⟩ ?_ hanswers
    rintro s a s' ⟨hpending, _⟩ ⟨_, pid, houtcome⟩ hstep
    have hcase := step_cases hstep
    refine ⟨hcase.pending.trans hpending, ?_⟩
    generalize reservedTask svc s a = reserved at hcase
    cases hcase with
    | notSpawned hfailed =>
      rw [houtcome] at hfailed
      cases hfailed
    | _ => rfl
  intro s hs hreleases
  obtain ⟨hpending, hnot⟩ := hinv s hs
  unfold Releases at hreleases
  split at hreleases
  · rename_i totals task rest hscanning
    rw [hscanning] at hpending
    have hmem := hpending.subset (List.mem_cons_self ..)
    obtain ⟨hrow, haccepted⟩ := Db.mem_listAccepted hmem
    have hidle := hdb task.taskId task hrow haccepted hreleases.1
    rw [hreleases.2] at hidle
    cases hidle
  · rename_i hfailing
    rw [hfailing] at hnot
    cases hnot
  · exact hreleases

theorem accounted_of_run (hrun : Runs.Run (step svc) (loopHead svc db) trace last)
    (hkeeps : ∀ s ∈ Runs.visited trace last, ¬ Releases s.2) : Accounted svc last := by
  refine hrun.invariant (I := Accounted svc) (G := fun s _ => Rows s ∧ ¬ Releases s.2)
    (accounted_loopHead svc db) ?_ ?_
  · rintro s a s' haccounted ⟨hrows, hnot⟩ hstep
    exact (step_cases hstep).accounted hrows haccounted hnot
  · intro x hx
    have hx' : x.1 ∈ Runs.visited trace last := List.mem_append_left _ (List.mem_map_of_mem hx)
    exact ⟨rows_of_run hrun x.1 hx', hkeeps x.1 hx'⟩

/-- What was reserved at the start or in the run is reserved at its end. -/
theorem reservedRow_of_run (hrun : Runs.Run (step svc) (loopHead svc db) trace last)
    (hkeeps : ∀ s ∈ Runs.visited trace last, ¬ Releases s.2) {taskId : TaskId}
    (h : db.Reserved taskId ∨ ∃ y ∈ trace, reservedTask svc y.1 y.2 = some taskId) :
    last.1.Reserved taskId := by
  induction hrun with
  | nil => exact h.elim id (by rintro ⟨y, hy, _⟩; cases hy)
  | @snoc trace s a s' hrun hstep ih =>
    have hsplit : Runs.visited (trace ++ [(s, a)]) s' = Runs.visited trace s ++ [s'] := by
      simp [Runs.visited]
    rw [hsplit] at hkeeps
    have hearlier : ∀ t ∈ Runs.visited trace s, ¬ Releases t.2 :=
      fun t ht => hkeeps t (List.mem_append_left _ ht)
    have hs := Runs.last_mem_visited trace s
    refine (step_cases hstep).reservedRow (rows_of_run hrun s hs) (hearlier s hs) ?_
    rcases h with hstart | ⟨y, hy, hreserved⟩
    · exact .inl (ih hearlier (.inl hstart))
    · rcases List.mem_append.mp hy with hold | hnew
      · exact .inl (ih hearlier (.inr ⟨y, hold, hreserved⟩))
      · rw [List.mem_singleton.mp hnew] at hreserved
        exact .inr hreserved

/-- A run that has ended stands on one that came to the end of its list. -/
theorem ended_of_run (hrun : Runs.Run (step svc) (loopHead svc db) trace last)
    (hended : last.2 = .idle) (hanswers : ∀ x ∈ trace, x.2.Succeeds) :
    ∃ earlier a totals, trace = earlier ++ [((last.1, .scanning totals []), a)] ∧
      Runs.Run (step svc) (loopHead svc db) earlier (last.1, .scanning totals []) := by
  cases hrun with
  | nil => cases hended
  | @snoc earlier s a s' hrun hstep =>
    have hcase := step_cases hstep
    generalize reservedTask svc s a = reserved at hcase
    cases hcase with
    | returned => exact ⟨earlier, a, _, rfl, hrun⟩
    | broken hbreaks =>
      obtain ⟨hfailure, pid, houtcome⟩ := hanswers _ List.mem_concat_self
      have hrows := rows_of_run hrun _ (Runs.last_mem_visited earlier _)
      rcases hrows.breaks hbreaks with ⟨e, he⟩ | ⟨message, hmessage⟩
      · rw [hfailure] at he
        cases he
      · rw [houtcome] at hmessage
        cases hmessage
    | _ => cases hended

theorem noneToRelease_of_test {db : Db} (h : db.tasks.rows.all (fun row =>
    !(decide (row.status = .accepted) && row.killRequested && row.hasActiveReservation)) = true) :
    db.NoneToRelease := by
  intro taskId row hrow haccepted hkill
  have hmem : row ∈ db.tasks.rows := ((db.tasks.find_eq_some_iff taskId row).mp hrow).1
  have htest := List.all_eq_true.mp h row hmem
  simpa [haccepted, hkill] using htest

/-- The second task of a list of two. -/
private theorem exists_second_of_listed {tasks : List TaskRecord} {a b : TaskId} {kill : Bool}
    (h : tasks.map (fun row => (row.taskId, row.killRequested)) = [(a, kill), (b, false)]) :
    ∃ task ∈ tasks, task.taskId = b ∧ task.killRequested = false := by
  obtain ⟨first, rest, rfl, _, hrest⟩ := List.map_eq_cons_iff.mp h
  obtain ⟨task, tail, rfl, htask, _⟩ := List.map_eq_cons_iff.mp hrest
  obtain ⟨hid, hkill⟩ := Prod.mk.inj htask
  exact ⟨task, List.mem_cons_of_mem _ (List.mem_cons_self ..), hid, hkill⟩

private theorem idle_of_totals {d : Dispatcher} (h : d.totals.isNone = true) : d = .idle := by
  cases d <;> simp [Dispatcher.totals] at h ⊢

private theorem not_reserved_of_test {db : Db} {taskId : TaskId}
    (h : (!(db.tasks.find taskId).any TaskRecord.hasActiveReservation) = true) :
    ¬ db.Reserved taskId := by
  rintro ⟨row, hrow, hactive⟩
  simp [hrow, hactive] at h

/-- An answer that spares the store, with its spawn. -/
private def sparesStore (s : LoneCycle) (a : CycleAnswer) : Bool :=
  (match a.failure with
    | none => true
    | some (.io _) => s.2.persists
    | some _ => false) &&
  match a.outcome with
  | .spawned _ => true
  | _ => false

private theorem sparesStore_of_check {s : LoneCycle} {a : CycleAnswer}
    (h : sparesStore s a = true) : a.SparesStore s.2 := by
  obtain ⟨now, failure, outcome⟩ := a
  obtain ⟨hfailure, houtcome⟩ := Bool.and_eq_true_iff.mp h
  constructor
  · rintro e ⟨⟩
    cases e with
    | io message => exact ⟨hfailure, message, rfl⟩
    | _ => cases hfailure
  · cases outcome with
    | spawned pid => exact ⟨pid, rfl⟩
    | _ => cases houtcome

end LoneCycle
end ExecgoRuntime
