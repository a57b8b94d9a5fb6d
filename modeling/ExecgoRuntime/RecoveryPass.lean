import ExecgoRuntime.Steps

/-!
The recovery pass by itself. When no other actor moves and no call fails, the
pass comes to its end on every database, and what becomes of a row depends on
this row and on the answer for its recorded shim alone. A second pass with the
same answers finds nothing left to settle.
-/
namespace ExecgoRuntime

open KeyedTable

namespace Recovery

/-- One step of the pass with nothing in between; no call fails. -/
def stepAlone (alive : ℕ → Bool) (s : Db × Recovery) (now : Timestamp) : Option (Db × Recovery) :=
  (s.2.move now alive).map (fun m => m.run now none s.1)

/-- The pass from its start to its end. -/
abbrev Passes (alive : ℕ → Bool) (db : Db) (trace : List ((Db × Recovery) × Timestamp))
    (db' : Db) : Prop :=
  Runs.Run (stepAlone alive) (db, .listing) trace (db', .finished)

/-- What the pass makes of a row. A reservation that it has rebuilt is recorded
before the recovery is. -/
inductive Treated (alive : ℕ → Bool) (row : TaskRecord) : TaskRecord → Prop
  | terminal : row.status.isTerminal = true → Treated alive row row
  | idle : row.status = .accepted → row.hasActiveReservation = false → Treated alive row row
  | released (now : Timestamp) : row.status = .accepted → row.hasActiveReservation = true →
      Treated alive row (row.setReleased now)
  | kept (now : Timestamp) : row.status = .running → shimAlive alive row = true →
      row.hasActiveReservation = true → Treated alive row (row.setRecovered now)
  | reserved (now : Timestamp) : row.status = .running → shimAlive alive row = true →
      row.hasActiveReservation = false →
      Treated alive row (row.setReserved (.fromLimits row.limits) now)
  | rebuilt (now now' : Timestamp) : row.status = .running → shimAlive alive row = true →
      row.hasActiveReservation = false →
      Treated alive row ((row.setReserved (.fromLimits row.limits) now).setRecovered now')
  | lost (now : Timestamp) : row.status = .running → shimAlive alive row = false →
      Treated alive row (row.setCompleted (recoveryLost now))

/-- The pass has treated the rows that are not on its list any more. -/
structure Progress (alive : ℕ → Bool) (db : Db) (s : Db × Recovery) : Prop where
  absent : ∀ taskId, db.tasks.find taskId = none → s.1.tasks.find taskId = none
  nodup : (s.2.pending.map TaskRecord.taskId).Nodup
  listed : ∀ task ∈ s.2.pending,
    db.tasks.find task.taskId = some task ∧ s.1.tasks.find task.taskId = some task
  treated : ∀ taskId row, db.tasks.find taskId = some row →
    row ∈ s.2.pending ∨ ∃ row', s.1.tasks.find taskId = some row' ∧ Treated alive row row'
  rebuilding : ∀ taskId rest, s.2 = .recovering taskId rest →
    taskId ∉ rest.map TaskRecord.taskId ∧ ∃ row now, db.tasks.find taskId = some row ∧
      row.status = .running ∧ shimAlive alive row = true ∧ row.hasActiveReservation = false ∧
      s.1.tasks.find taskId = some (row.setReserved (.fromLimits row.limits) now)
  persisting : ∀ taskId rest, s.2 = .persisting taskId rest →
    ∃ row, s.1.tasks.find taskId = some row

/-- The pass is on its way. -/
def Underway (alive : ℕ → Bool) (db : Db) (s : Db × Recovery) : Prop :=
  (s.2 = .listing ∧ s.1 = db) ∨
    (Progress alive db s ∧ s.2 ≠ .listing ∧ ∀ e, s.2 ≠ .failed e)

/-- The steps that are left, at most. -/
def remaining (s : Db × Recovery) : ℕ :=
  match s.2 with
  | .listing => 2 * s.1.listNonTerminal.length + 2
  | .scanning tasks => 2 * tasks.length + 1
  | .recovering _ tasks | .persisting _ tasks => 2 * tasks.length + 2
  | .finished | .failed _ => 0

variable {alive : ℕ → Bool} {db dbs dbs' : Db} {r r' : Recovery} {now : Timestamp}
  {taskId : TaskId} {w : TaskWrite} {task : TaskRecord} {rest : List TaskRecord}

/-- A write to a row that leaves the list, or has left it before. -/
theorem Progress.write (h : Progress alive db (dbs, r)) (hsub : r'.pending.Sublist r.pending)
    (hleft : ∀ task ∈ r.pending, task ∈ r'.pending ∨ task.taskId = taskId)
    (hnot : taskId ∉ r'.pending.map TaskRecord.taskId) (hrun : w.run now taskId dbs = .ok dbs')
    (htreated : ∀ row, db.tasks.find taskId = some row →
      ∃ row', dbs.tasks.find taskId = some row' ∧ Treated alive row (w.effect now row'))
    (hbuilt : ∀ j l, r' = .recovering j l →
      j ∉ l.map TaskRecord.taskId ∧ ∃ row now, db.tasks.find j = some row ∧
        row.status = .running ∧ shimAlive alive row = true ∧ row.hasActiveReservation = false ∧
        dbs'.tasks.find j = some (row.setReserved (.fromLimits row.limits) now))
    (hpresent : ∀ j l, r' = .persisting j l → ∃ row, dbs'.tasks.find j = some row) :
    Progress alive db (dbs', r') where
  absent j hj := by
    rw [Db.find_write hrun]
    by_cases heq : j = taskId
    · rw [if_pos heq, ← heq, h.absent j hj]
      rfl
    · rw [if_neg heq]
      exact h.absent j hj
  nodup := h.nodup.sublist (hsub.map _)
  listed task htask := by
    have hne : task.taskId ≠ taskId := fun heq => hnot (heq ▸ List.mem_map_of_mem htask)
    rw [Db.find_write hrun, if_neg hne]
    exact h.listed task (hsub.mem htask)
  treated j row hrow := by
    rw [Db.find_write hrun]
    by_cases heq : j = taskId
    · subst heq
      obtain ⟨row', hrow', ht⟩ := htreated row hrow
      rw [if_pos rfl, hrow']
      exact .inr ⟨_, rfl, ht⟩
    · rw [if_neg heq]
      rcases h.treated j row hrow with hpending | hdone
      · rcases hleft row hpending with hstays | hid
        · exact .inl hstays
        · exact absurd ((db.tasks.find_key hrow).symm.trans hid) heq
      · exact .inr hdone
  rebuilding := hbuilt
  persisting := hpresent

/-- A row that leaves the list untouched. -/
theorem Progress.skip (h : Progress alive db (dbs, .scanning (task :: rest)))
    (htreated : Treated alive task task) : Progress alive db (dbs, .scanning rest) where
  absent := h.absent
  nodup := (List.nodup_cons.mp h.nodup).2
  listed other hother := h.listed other (List.mem_cons_of_mem task hother)
  treated j row hrow := by
    rcases h.treated j row hrow with hpending | hdone
    · rcases List.mem_cons.mp hpending with rfl | hrest
      · have hkey : row.taskId = j := db.tasks.find_key hrow
        refine .inr ⟨row, ?_, htreated⟩
        rw [← hkey]
        exact (h.listed row hpending).2
      · exact .inl hrest
    · exact .inr hdone
  rebuilding _ _ hstate := by cases hstate
  persisting _ _ hstate := by cases hstate

/-- The state after the write to the head of the list. -/
inductive AfterHead (task : TaskRecord) (rest : List TaskRecord) : Recovery → Prop
  | scanning : AfterHead task rest (.scanning rest)
  | recovering : AfterHead task rest (.recovering task.taskId rest)
  | persisting : AfterHead task rest (.persisting task.taskId rest)

/-- A write to the head of the list. -/
theorem Progress.head (h : Progress alive db (dbs, .scanning (task :: rest)))
    (hafter : AfterHead task rest r') (hrun : w.run now task.taskId dbs = .ok dbs')
    (htreated : Treated alive task (w.effect now task))
    (hbuilt : r' = .recovering task.taskId rest →
      task.status = .running ∧ shimAlive alive task = true ∧ task.hasActiveReservation = false ∧
      w.effect now task = task.setReserved (.fromLimits task.limits) now) :
    Progress alive db (dbs', r') := by
  obtain ⟨hnot, _⟩ := List.nodup_cons.mp h.nodup
  obtain ⟨horigin, hrow⟩ := h.listed task (List.mem_cons_self ..)
  have hrow' : dbs'.tasks.find task.taskId = some (w.effect now task) := by
    rw [Db.find_write hrun, if_pos rfl, hrow]
    rfl
  have hpending : r'.pending = rest := by
    cases hafter <;> rfl
  refine h.write ?_ ?_ (hpending ▸ hnot) hrun ?_ ?_ ?_
  · rw [hpending]
    exact List.sublist_cons_self task rest
  · intro other hother
    rw [hpending]
    rcases List.mem_cons.mp hother with rfl | hrest
    · exact .inr rfl
    · exact .inl hrest
  · intro row hrow'
    rw [horigin] at hrow'
    cases hrow'
    exact ⟨task, hrow, htreated⟩
  · intro j l hstate
    cases hafter with
    | recovering =>
      cases hstate
      obtain ⟨hrunning, halive, hidle, heffect⟩ := hbuilt rfl
      exact ⟨hnot, task, now, horigin, hrunning, halive, hidle, heffect ▸ hrow'⟩
    | _ => cases hstate
  · intro j l hstate
    cases hafter with
    | persisting =>
      cases hstate
      exact ⟨_, hrow'⟩
    | _ => cases hstate

/-- What one step leaves behind. -/
structure Advances (alive : ℕ → Bool) (db : Db) (s s' : Db × Recovery) : Prop where
  underway : Underway alive db s'
  fewer : remaining s' < remaining s

theorem Progress.advances_skip (h : Progress alive db (dbs, .scanning (task :: rest)))
    (htreated : Treated alive task task) :
    Advances alive db (dbs, .scanning (task :: rest)) (dbs, .scanning rest) where
  underway := .inr ⟨h.skip htreated, by simp, by simp⟩
  fewer := by simp [remaining]

theorem run_write {ok : Recovery} {err : AppError → Recovery}
    (hrun : w.run now taskId dbs = .ok dbs') :
    (Move.write taskId w ok err).run now none dbs = (dbs', ok) := by
  simp [Move.run, Move.write, StoreCall.exec, hrun]

theorem Progress.advances_write (h : Progress alive db (dbs, .scanning (task :: rest)))
    (hw : w.persistable = true) (hafter : AfterHead task rest r')
    (htreated : Treated alive task (w.effect now task))
    (hbuilt : r' = .recovering task.taskId rest →
      task.status = .running ∧ shimAlive alive task = true ∧ task.hasActiveReservation = false ∧
      w.effect now task = task.setReserved (.fromLimits task.limits) now) :
    Advances alive db (dbs, .scanning (task :: rest))
      ((Move.write task.taskId w r' .failed).run now none dbs) := by
  obtain ⟨_, hrow⟩ := h.listed task (List.mem_cons_self ..)
  obtain ⟨dbs', hrun⟩ := TaskWrite.run_ok hw now hrow
  rw [run_write hrun]
  have hprogress := h.head hafter hrun htreated hbuilt
  cases hafter with
  | _ =>
    refine ⟨.inr ⟨hprogress, by simp, by simp⟩, ?_⟩
    simp only [remaining, List.length_cons]
    omega

theorem Progress.handle (h : Progress alive db (dbs, .scanning (task :: rest)))
    (now : Timestamp) :
    Advances alive db (dbs, .scanning (task :: rest))
      ((handle now alive task rest).run now none dbs) := by
  unfold Recovery.handle
  cases hstatus : task.status with
  | accepted =>
    by_cases hactive : task.hasActiveReservation = true
    · simp only [hactive, if_true]
      refine h.advances_write rfl .scanning ?_ (by simp)
      simp only [TaskWrite.effect, hactive, if_true]
      exact .released now hstatus hactive
    · have hidle : task.hasActiveReservation = false := by simpa using hactive
      simp only [hidle]
      exact h.advances_skip (.idle hstatus hidle)
  | running =>
    by_cases halive : shimAlive alive task = true
    · simp only [halive, if_true]
      by_cases hactive : task.hasActiveReservation = true
      · simp only [hactive, if_true]
        exact h.advances_write rfl .scanning (.kept now hstatus halive hactive) (by simp)
      · have hidle : task.hasActiveReservation = false := by simpa using hactive
        simp only [hidle]
        exact h.advances_write rfl .recovering (.reserved now hstatus halive hidle)
          (fun _ => ⟨hstatus, halive, hidle, rfl⟩)
    · have hdead : shimAlive alive task = false := by simpa using halive
      simp only [hdead]
      exact h.advances_write rfl .persisting (.lost now hstatus hdead) (by simp)
  | success | failed | cancelled =>
    exact h.advances_skip (.terminal (by rw [hstatus]; rfl))

/-- The rebuilt reservation is followed by the record of the recovery. -/
theorem Progress.recover (h : Progress alive db (dbs, .recovering taskId rest))
    (now : Timestamp) :
    Advances alive db (dbs, .recovering taskId rest)
      ((Move.write taskId .markRecovered (.scanning rest) .failed).run now none dbs) := by
  obtain ⟨hnot, row, reservedAt, horigin, hrunning, halive, hidle, hrow⟩ :=
    h.rebuilding taskId rest rfl
  obtain ⟨dbs', hrun⟩ := TaskWrite.run_ok (w := .markRecovered) rfl now hrow
  rw [run_write hrun]
  refine ⟨.inr ⟨?_, by simp, by simp⟩, by simp [remaining]⟩
  refine h.write (List.Sublist.refl _) (fun task htask => .inl htask) hnot hrun ?_ (by simp)
    (by simp)
  intro row' hrow'
  rw [horigin] at hrow'
  cases hrow'
  exact ⟨_, hrow, .rebuilt reservedAt now hrunning halive hidle⟩

/-- The list is read in one call; the rows that are not on it are terminal. -/
theorem progress_listed (alive : ℕ → Bool) (db : Db) :
    Progress alive db (db, .scanning db.listNonTerminal) where
  absent _ habsent := habsent
  nodup := Db.listNonTerminal_nodup db
  listed task htask := ⟨(Db.mem_listNonTerminal htask).1, (Db.mem_listNonTerminal htask).1⟩
  treated taskId row hrow := by
    by_cases hterminal : row.status.isTerminal = true
    · exact .inr ⟨row, hrow, .terminal hterminal⟩
    · exact .inl (Db.mem_listNonTerminal_of_find hrow (by simpa using hterminal))
  rebuilding _ _ hstate := by cases hstate
  persisting _ _ hstate := by cases hstate

/-- Until the end, every step is enabled and brings the pass closer to it. -/
theorem Underway.step {s : Db × Recovery} (h : Underway alive db s) (hend : s.2 ≠ .finished)
    (now : Timestamp) : ∃ s', stepAlone alive s now = some s' ∧ Advances alive db s s' := by
  obtain ⟨dbs, r⟩ := s
  rcases h with ⟨hlisting, hdb⟩ | ⟨hprogress, hne, hfailed⟩
  · obtain rfl : r = .listing := hlisting
    obtain rfl : dbs = db := hdb
    refine ⟨(dbs, .scanning dbs.listNonTerminal), rfl, .inr ⟨progress_listed alive dbs, ?_⟩, ?_⟩
    · simp
    · simp [remaining]
  cases r with
  | listing => exact absurd rfl hne
  | finished => exact absurd rfl hend
  | failed e => exact absurd rfl (hfailed e)
  | scanning tasks =>
    cases tasks with
    | nil =>
      refine ⟨(dbs, .finished), rfl, .inr ⟨?_, by simp⟩, by simp [remaining]⟩
      exact ⟨hprogress.absent, hprogress.nodup, hprogress.listed, hprogress.treated,
        by simp, by simp⟩
    | cons task rest => exact ⟨_, rfl, hprogress.handle now⟩
  | recovering taskId rest => exact ⟨_, rfl, hprogress.recover now⟩
  | persisting taskId rest =>
    obtain ⟨row, hrow⟩ := hprogress.persisting taskId rest rfl
    have hread : dbs.getTask taskId = .ok row := (dbs.getTask_eq_ok_iff _ _).mpr hrow
    refine ⟨(dbs, .scanning rest), ?_, .inr ⟨?_, by simp⟩, by simp [remaining]⟩
    · simp [stepAlone, move, Move.query, Move.run, StoreCall.exec, hread]
    · exact ⟨hprogress.absent, hprogress.nodup, hprogress.listed, hprogress.treated,
        by simp, by simp⟩

/-- The postcondition of the pass for one row. -/
structure Settled (alive : ℕ → Bool) (row row' : TaskRecord) : Prop where
  accepted : row.status = .accepted → row'.status = .accepted ∧ row'.hasActiveReservation = false
  running : row'.status = .running → row.status = .running ∧
    (∃ pid, row'.shimPid = some pid ∧ alive pid = true) ∧ row'.hasActiveReservation = true ∧
    row'.reservation =
      if row.hasActiveReservation then row.reservation else some (.fromLimits row.limits)
  kept : row.status = .running → shimAlive alive row = true → row'.status = .running
  lost : row.status = .running → shimAlive alive row = false →
    row'.status = .failed ∧ row'.error = some ⟨.internal, "recovery_lost"⟩ ∧
    row'.errorCode = some .internal ∧ row'.finishedAt.isSome = true ∧
    row'.hasActiveReservation = false
  terminal : row.status.isTerminal = true → row' = row

theorem exists_pid_of_shimAlive {row : TaskRecord} (h : shimAlive alive row = true) :
    ∃ pid, row.shimPid = some pid ∧ alive pid = true := by
  unfold shimAlive at h
  cases hpid : row.shimPid with
  | none => simp [hpid] at h
  | some pid => exact ⟨pid, rfl, by simpa [hpid] using h⟩

/-- A running row with a live shim and a reservation that the pass keeps or rebuilds. -/
theorem settled_of_running {row row' : TaskRecord} (hrunning : row.status = .running)
    (halive : shimAlive alive row = true) (hstatus : row'.status = .running)
    (hpid : row'.shimPid = row.shimPid) (hactive : row'.hasActiveReservation = true)
    (hreservation : row'.reservation =
      if row.hasActiveReservation then row.reservation else some (.fromLimits row.limits)) :
    Settled alive row row' where
  accepted haccepted := by
    rw [hrunning] at haccepted
    cases haccepted
  running _ := ⟨hrunning, hpid ▸ exists_pid_of_shimAlive halive, hactive, hreservation⟩
  kept _ _ := hstatus
  lost _ hdead := by
    rw [halive] at hdead
    cases hdead
  terminal hterminal := by
    rw [hrunning] at hterminal
    cases hterminal

theorem Treated.settled {row row' : TaskRecord} (h : Treated alive row row') :
    Settled alive row row' := by
  cases h with
  | terminal hterminal =>
    refine ⟨?_, ?_, ?_, ?_, fun _ => rfl⟩ <;> intro hstatus <;> rw [hstatus] at hterminal <;>
      cases hterminal
  | idle haccepted hidle =>
    refine ⟨fun _ => ⟨haccepted, hidle⟩, ?_, ?_, ?_, fun _ => rfl⟩ <;> intro hstatus <;>
      rw [haccepted] at hstatus <;> cases hstatus
  | released now haccepted _ =>
    have hstatus : (row.setReleased now).status = row.status := rfl
    refine ⟨fun _ => ⟨haccepted, TaskWrite.setReleased_idle now row⟩, ?_, ?_, ?_, ?_⟩ <;>
      intro hother <;> (try rw [hstatus] at hother) <;> rw [haccepted] at hother <;> cases hother
  | kept now hrunning halive hactive =>
    refine settled_of_running hrunning halive ?_ ?_ ?_ ?_ <;>
      simp only [TaskRecord.setRecovered, if_pos hrunning]
    · exact hrunning
    · exact hactive
    · rw [if_pos hactive]
  | reserved now hrunning halive hidle =>
    refine settled_of_running hrunning halive hrunning rfl rfl ?_
    rw [if_neg (by simp [hidle])]
    rfl
  | rebuilt now now' hrunning halive hidle =>
    have hstatus : (row.setReserved (.fromLimits row.limits) now).status = .running := hrunning
    refine settled_of_running hrunning halive ?_ ?_ ?_ ?_ <;>
      simp only [TaskRecord.setRecovered, if_pos hstatus]
    · exact hrunning
    · rfl
    · rfl
    · rw [if_neg (by simp [hidle])]
      rfl
  | lost now hrunning hdead =>
    refine ⟨?_, ?_, ?_, fun _ _ => ⟨rfl, rfl, rfl, rfl, TaskWrite.setCompleted_idle _ _⟩, ?_⟩
    · intro haccepted
      rw [hrunning] at haccepted
      cases haccepted
    · intro hstatus
      cases hstatus
    · intro _ halive
      rw [hdead] at halive
      cases halive
    · intro hterminal
      rw [hrunning] at hterminal
      cases hterminal

/-- The columns that a further pass leaves as they are. -/
structure SameHoldings (row row' : TaskRecord) : Prop where
  status : row'.status = row.status
  reservation : row'.reservation = row.reservation
  reservedAt : row'.reservedAt = row.reservedAt
  releasedAt : row'.releasedAt = row.releasedAt
  errorCode : row'.errorCode = row.errorCode
  error : row'.error = row.error

theorem SameHoldings.refl (row : TaskRecord) : SameHoldings row row :=
  ⟨rfl, rfl, rfl, rfl, rfl, rfl⟩

/-- What a pass has settled a second pass finds settled. -/
theorem Settled.stable {row row' row'' : TaskRecord} (h : Settled alive row row')
    (h' : Treated alive row' row'') : SameHoldings row' row'' := by
  have haccepted : row'.status = .accepted → row'.hasActiveReservation = false := by
    intro hstatus
    cases hrow : row.status with
    | accepted => exact (h.accepted hrow).2
    | running =>
      by_cases halive : shimAlive alive row = true
      · rw [h.kept hrow halive] at hstatus
        cases hstatus
      · rw [(h.lost hrow (by simpa using halive)).1] at hstatus
        cases hstatus
    | success | failed | cancelled =>
      rw [h.terminal (by rw [hrow]; rfl), hrow] at hstatus
      cases hstatus
  have hrunning : row'.status = .running →
      shimAlive alive row' = true ∧ row'.hasActiveReservation = true := by
    intro hstatus
    obtain ⟨_, ⟨pid, hpid, hpidAlive⟩, hactive, _⟩ := h.running hstatus
    exact ⟨by simp [shimAlive, hpid, hpidAlive], hactive⟩
  cases h' with
  | terminal _ => exact .refl row'
  | idle _ _ => exact .refl row'
  | released _ hstatus hactive =>
    rw [haccepted hstatus] at hactive
    cases hactive
  | kept now hstatus _ _ =>
    simp only [TaskRecord.setRecovered, if_pos hstatus]
    exact ⟨rfl, rfl, rfl, rfl, rfl, rfl⟩
  | reserved now hstatus _ hidle =>
    rw [(hrunning hstatus).2] at hidle
    cases hidle
  | rebuilt now now' hstatus _ hidle =>
    rw [(hrunning hstatus).2] at hidle
    cases hidle
  | lost now hstatus hdead =>
    rw [(hrunning hstatus).1] at hdead
    cases hdead

/-- The end of a pass. -/
theorem Passes.treated {trace : List ((Db × Recovery) × Timestamp)}
    (h : Passes alive db trace dbs) :
    (∀ taskId, db.tasks.find taskId = none → dbs.tasks.find taskId = none) ∧
      ∀ taskId row, db.tasks.find taskId = some row →
        ∃ row', dbs.tasks.find taskId = some row' ∧ Treated alive row row' := by
  have hunderway : Underway alive db (dbs, .finished) := by
    refine Runs.Run.invariant (G := fun _ _ => True) (.inl ⟨rfl, rfl⟩) ?_ h (fun _ _ => trivial)
    intro s now s' hs _ hstep
    by_cases hend : s.2 = .finished
    · simp [stepAlone, move, hend] at hstep
    · obtain ⟨t, ht, hadvances⟩ := hs.step hend now
      rw [hstep] at ht
      cases ht
      exact hadvances.underway
  rcases hunderway with ⟨hlisting, _⟩ | ⟨hprogress, _, _⟩
  · cases hlisting
  · refine ⟨hprogress.absent, fun taskId row hrow => ?_⟩
    rcases hprogress.treated taskId row hrow with hpending | hdone
    · cases hpending
    · exact hdone

end Recovery

open Recovery in
/-- The recovery pass by itself: it comes to its end, whatever the clock shows;
it settles every row as the answers for the recorded shims say; and a second pass
with the same answers changes no status, reservation or error. -/
theorem recover_settles (alive : ℕ → Bool) (db : Db) :
    (∀ clock : ℕ → Timestamp, ∃ trace db', Passes alive db trace db' ∧
      trace.map Prod.snd = (List.range trace.length).map clock) ∧
    ∀ trace db', Passes alive db trace db' →
      (∀ taskId, db.tasks.find taskId = none → db'.tasks.find taskId = none) ∧
      (∀ taskId row, db.tasks.find taskId = some row →
        ∃ row', db'.tasks.find taskId = some row' ∧ Settled alive row row') ∧
      ∀ trace' db'', Passes alive db' trace' db'' → ∀ taskId row',
        db'.tasks.find taskId = some row' →
        ∃ row'', db''.tasks.find taskId = some row'' ∧ SameHoldings row' row'' := by
  refine ⟨fun clock => ?_, fun trace db' hpass => ?_⟩
  · obtain ⟨trace, last, hrun, hend, hlabels⟩ := Runs.exists_run_to (I := Underway alive db)
      (E := fun s => s.2 = .finished) remaining
      (fun s now hs hend => by
        obtain ⟨s', hs', hadvances⟩ := hs.step hend now
        exact ⟨s', hs', hadvances.underway, hadvances.fewer⟩)
      (db, .listing) (.inl ⟨rfl, rfl⟩) clock
    obtain ⟨db', r⟩ := last
    obtain rfl : r = .finished := hend
    exact ⟨trace, db', hrun, hlabels⟩
  · obtain ⟨habsent, htreated⟩ := hpass.treated
    refine ⟨habsent, ?_, ?_⟩
    · intro taskId row hrow
      obtain ⟨row', hrow', ht⟩ := htreated taskId row hrow
      exact ⟨row', hrow', ht.settled⟩
    · intro trace' db'' hpass' taskId row' hrow'
      obtain ⟨row'', hrow'', ht'⟩ := hpass'.treated.2 taskId row' hrow'
      refine ⟨row'', hrow'', ?_⟩
      cases hrow : db.tasks.find taskId with
      | none =>
        rw [habsent taskId hrow] at hrow'
        cases hrow'
      | some row =>
        obtain ⟨t, ht, htr⟩ := htreated taskId row hrow
        rw [hrow'] at ht
        cases ht
        exact htr.settled.stable ht'

/-- A dispatched task whose shim is gone when the server starts again. -/
theorem recover_settles_lost_task :
    ∃ db trace db' row', Recovery.Passes (fun _ => false) db trace db' ∧
      db'.tasks.find "a" = some row' ∧ row'.status = .failed ∧
      row'.errorCode = some .internal ∧ row'.hasActiveReservation = false := by
  have hexec : (World.execute (smallService ⟨1, none, none⟩) (fun _ _ => true)
      (events (submitActions 0 (commandRequest "a") ++ dispatchActions 10))).any (fun w =>
        (w.db.tasks.find "a").any (fun row => decide (row.status = .running))) = true := by
    decide
  obtain ⟨_, last, row, _, _, _, hrow, htest⟩ :=
    World.exists_run_to_row (p := fun row _ => decide (row.status = .running)) hexec
  have hrunning : row.status = .running := of_decide_eq_true htest
  obtain ⟨hends, hsettles⟩ := recover_settles (fun _ => false) last.db
  obtain ⟨trace, db', hpass, _⟩ := hends (fun _ => 0)
  obtain ⟨row', hrow', hsettled⟩ := (hsettles trace db' hpass).2.1 "a" row hrow
  have hdead : Recovery.shimAlive (fun _ => false) row = false := by
    cases hpid : row.shimPid <;> simp [Recovery.shimAlive, hpid]
  obtain ⟨hfailed, _, hcode, _, hidle⟩ := hsettled.lost hrunning hdead
  exact ⟨last.db, trace, db', row', hpass, hrow', hfailed, hcode, hidle⟩

end ExecgoRuntime
