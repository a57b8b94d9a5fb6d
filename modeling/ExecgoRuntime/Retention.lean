import ExecgoRuntime.Removal

/-!
The retention of finished tasks. A pass of the garbage collection fixes a cutoff
and then removes, one after another, the directories and rows of the tasks that
had ended by then. The retention is a number of seconds up to `u64::MAX`; beyond
what `chrono` can hold in milliseconds the cutoff falls back to the present, and
the pass removes everything that has ended. An expired task called `.` or `..` takes
the directories of the others along.
-/
namespace ExecgoRuntime

/-- `timestamp_millis` of a time in nanoseconds. -/
def timestampMillis (nanos : ℤ) : Timestamp := nanos / 1000000

/-- The largest time a `chrono` date holds, in milliseconds. -/
def maxTimestamp : Timestamp := 8210266876799999

/-- The retention is a duration of `chrono`. -/
def Representable (resultRetentionSecs : ℕ) : Prop := resultRetentionSecs * 1000 ≤ i64Max

/-- The task ended at least so many seconds before a time in nanoseconds. -/
def TaskRecord.Expired (row : TaskRecord) (resultRetentionSecs : ℕ) (nowNanos : ℤ) : Prop :=
  row.status.isTerminal = true ∧ ∃ finished, row.finishedAt = some finished ∧
    finished * 1000000 + resultRetentionSecs * 1000000000 ≤ nowNanos

namespace Gc

/-- The rows that a pass lists at this time; it lists nothing when it panics. -/
def candidates (resultRetentionSecs : ℕ) (now : Timestamp) (db : Db) : List TaskRecord :=
  ((cutoff resultRetentionSecs now).map db.listGcCandidates).getD []

/-- The answers of the environment to a step of a pass. -/
structure Answer where
  now : Timestamp
  removed : Bool
  failure : Option AppError := none

/-- A step of the garbage collection alone. -/
def step (svc : RuntimeService) (s : Db × Gc) (a : Answer) : Option (Db × Gc) :=
  some ((s.2.move svc a.now a.removed).run a.now a.failure s.1)

/-- One pass, with its cutoff from this time: the first step lists, the others delete. -/
structure Pass (svc : RuntimeService) (now : Timestamp) (db : Db)
    (trace : List ((Db × Gc) × Answer)) (last : Db × Gc) : Prop where
  run : ∃ first middle, first.now = now ∧ step svc (db, .idle) first = some middle ∧
    Runs.Run (step svc) middle trace last
  deletes : ∀ x ∈ trace, x.1.2 ≠ .idle

/-- A pass deletes the row that it has listed, and removes the directories of expired
tasks only. -/
def Respects (svc : RuntimeService) (nowNanos : ℤ) (db : Db) : Prop :=
  ∀ trace last, Pass svc (timestampMillis nowNanos) db trace last →
    ∀ x ∈ trace, ∀ task ∈ x.1.2.victim, x.1.1.tasks.find task.taskId = some task ∧
      ∀ taskId row, x.1.1.tasks.find taskId = some row → task.Sweeps row.taskDir →
        row.Expired svc.settings.resultRetentionSecs nowNanos

/-- No row is eligible that is not eligible under a smaller retention. -/
def Monotone (svc : RuntimeService) (nowNanos : ℤ) (db : Db) : Prop :=
  ∀ smaller ≤ svc.settings.resultRetentionSecs,
    ∀ row ∈ candidates svc.settings.resultRetentionSecs (timestampMillis nowNanos) db,
      row ∈ candidates smaller (timestampMillis nowNanos) db

end Gc

/-- Every row has an accepted id, the directory of that id, and a time of `chrono`
for its end. -/
structure Db.Housed (svc : RuntimeService) (db : Db) : Prop where
  accepted : ∀ taskId row, db.tasks.find taskId = some row → AcceptedId taskId
  taskDir : ∀ taskId row, db.tasks.find taskId = some row → row.taskDir = svc.taskDir taskId
  finishedAt : ∀ taskId row, db.tasks.find taskId = some row → ∀ finished ∈ row.finishedAt,
    Gc.minTimestamp ≤ finished

/-- No expired task has one of the two special ids, unless all that lies in its
directory has expired as well. -/
def Db.NoneSwept (db : Db) (resultRetentionSecs : ℕ) (nowNanos : ℤ) : Prop :=
  ∀ taskId task, db.tasks.find taskId = some task → task.Expired resultRetentionSecs nowNanos →
    ∀ otherId other, db.tasks.find otherId = some other →
      ¬ other.Expired resultRetentionSecs nowNanos →
      ¬ (taskId = ".." ∨ (taskId = "." ∧ otherId ≠ ".."))

namespace Gc

section Cutoff

variable {resultRetentionSecs : ℕ} {now : Timestamp} {db : Db} {row : TaskRecord}

theorem cutoff_of_representable (h : Representable resultRetentionSecs) (now : Timestamp) :
    cutoff resultRetentionSecs now =
      if minTimestamp ≤ now - resultRetentionSecs * 1000 then
        some (now - resultRetentionSecs * 1000)
      else none := by
  have hcast : ((resultRetentionSecs * 1000 : ℕ) : ℤ) = resultRetentionSecs * 1000 := by omega
  unfold Representable at h
  unfold cutoff
  rw [if_neg (by omega), hcast]

theorem cutoff_of_not_representable (h : ¬ Representable resultRetentionSecs) :
    cutoff resultRetentionSecs now = some now := by
  unfold Representable at h
  unfold cutoff
  rw [if_pos (by omega)]

theorem cutoff_le {bound : Timestamp} (h : cutoff resultRetentionSecs now = some bound) :
    bound ≤ now := by
  by_cases hrepresentable : Representable resultRetentionSecs
  · rw [cutoff_of_representable hrepresentable] at h
    split at h
    · cases h
      have hsecs : (0 : ℤ) ≤ resultRetentionSecs * 1000 := by omega
      exact Int.sub_le_self now hsecs
    · cases h
  · rw [cutoff_of_not_representable hrepresentable] at h
    cases h
    exact le_refl _

theorem mem_candidates_iff :
    row ∈ candidates resultRetentionSecs now db ↔
      ∃ bound, cutoff resultRetentionSecs now = some bound ∧
        db.tasks.find row.taskId = some row ∧ row.status.isTerminal = true ∧
        ∃ finished, row.finishedAt = some finished ∧ finished ≤ bound := by
  unfold candidates
  cases hcutoff : cutoff resultRetentionSecs now with
  | none => simp
  | some bound =>
    simp only [Option.map_some, Option.getD_some, Db.listGcCandidates, Db.byFinish,
      (List.perm_insertionSort _ _).mem_iff, KeyedTable.Table.mem_select_iff, Bool.and_eq_true,
      Option.any_eq_true, decide_eq_true_eq, Option.some.injEq, exists_eq_left']

/-- A difference of whole milliseconds is the same before and after the rounding. -/
theorem expired_iff (finished nowNanos : ℤ) :
    finished * 1000000 + resultRetentionSecs * 1000000000 ≤ nowNanos ↔
      finished ≤ timestampMillis nowNanos - resultRetentionSecs * 1000 := by
  unfold timestampMillis
  omega

theorem candidates_subset_of_representable (h : Representable resultRetentionSecs) {smaller : ℕ}
    (hle : smaller ≤ resultRetentionSecs) (hrow : row ∈ candidates resultRetentionSecs now db) :
    row ∈ candidates smaller now db := by
  obtain ⟨bound, hbound, hfind, hterminal, finished, hfinished, hbefore⟩ :=
    mem_candidates_iff.mp hrow
  have hsmall : Representable smaller := (Nat.mul_le_mul_right 1000 hle).trans h
  rw [cutoff_of_representable h] at hbound
  split at hbound
  · rename_i hmin
    cases hbound
    have hsecs : (smaller : ℤ) * 1000 ≤ resultRetentionSecs * 1000 := by omega
    have hlater : now - resultRetentionSecs * 1000 ≤ now - smaller * 1000 :=
      Int.sub_le_sub_left hsecs now
    have hcutoff := cutoff_of_representable hsmall now
    rw [if_pos (hmin.trans hlater)] at hcutoff
    apply mem_candidates_iff.mpr
    exact ⟨_, hcutoff, hfind, hterminal, finished, hfinished, hbefore.trans hlater⟩
  · cases hbound

theorem not_mem_candidates (h : ∀ taskId row, db.tasks.find taskId = some row →
      row.status.isTerminal = true → ∀ finished ∈ row.finishedAt, now < finished)
    (row : TaskRecord) : row ∉ candidates resultRetentionSecs now db := by
  intro hrow
  obtain ⟨bound, hbound, hfind, hterminal, finished, hfinished, hbefore⟩ :=
    mem_candidates_iff.mp hrow
  have hlater := h row.taskId row hfind hterminal finished hfinished
  exact absurd (hbefore.trans (cutoff_le hbound)) (not_le.mpr hlater)

/-- Nothing has ended at a time that the largest retention leaves in range. -/
theorem candidates_eq_nil_of_largest (hnow : now ≤ maxTimestamp) :
    candidates (i64Max / 1000) now db = [] := by
  have hlargest : Representable (i64Max / 1000) := Nat.div_mul_le_self i64Max 1000
  have hcutoff := cutoff_of_representable hlargest now
  have hrange : maxTimestamp - (i64Max / 1000 : ℕ) * 1000 < minTimestamp := by decide
  have hmin : now - (i64Max / 1000 : ℕ) * 1000 < minTimestamp :=
    (Int.sub_le_sub_right hnow _).trans_lt hrange
  rw [if_neg (not_le.mpr hmin)] at hcutoff
  rw [candidates, hcutoff]
  rfl

end Cutoff

section Passes

variable {svc : RuntimeService} {now : Timestamp} {db : Db} {trace : List ((Db × Gc) × Answer)}
  {last : Db × Gc}

/-- What is still to be deleted was listed and is in the store, which loses rows only. -/
structure Listed (svc : RuntimeService) (now : Timestamp) (db : Db) (s : Db × Gc) : Prop where
  listed : ∀ task ∈ s.2.tasks, task ∈ candidates svc.settings.resultRetentionSecs now db
  stored : ∀ task ∈ s.2.tasks, s.1.tasks.find task.taskId = some task
  nodup : (s.2.tasks.map TaskRecord.taskId).Nodup
  kept : ∀ taskId row, s.1.tasks.find taskId = some row → db.tasks.find taskId = some row

theorem listed_of_first {first : Answer} {middle : Db × Gc} (hnow : first.now = now)
    (h : step svc (db, .idle) first = some middle) : Listed svc now db middle := by
  have hempty : Listed svc now db (db, .idle) :=
    ⟨fun _ hmem => absurd hmem List.not_mem_nil, fun _ hmem => absurd hmem List.not_mem_nil,
      List.nodup_nil, fun _ _ hrow => hrow⟩
  have hmiddle := Option.some.inj h
  have hout := Move.outcome_run (move svc first.now first.removed .idle) first.now first.failure db
  rw [hmiddle, hnow] at hout
  obtain ⟨db', gc'⟩ := middle
  simp only [move] at hout
  split at hout
  · rename_i bound hbound
    obtain ⟨_, rfl, ⟨rows, hrows, rfl, _⟩ | ⟨_, rfl, _⟩⟩ := Move.outcome_query hout
    · cases hrows
      have hlist : candidates svc.settings.resultRetentionSecs now db' =
          db'.listGcCandidates bound := by
        rw [candidates, hbound]
        rfl
      refine ⟨fun task hmem => ?_, fun task hmem => ?_, Db.listGcCandidates_nodup db' bound,
        fun _ _ hrow => hrow⟩
      · rw [hlist]
        exact hmem
      · exact (Db.mem_listGcCandidates hmem).1
    · exact hempty
  · obtain ⟨_, rfl, rfl⟩ := Move.outcome_silent hout
    exact hempty

theorem Listed.step {s s' : Db × Gc} {a : Answer} (hs : Listed svc now db s)
    (hdeletes : s.2 ≠ .idle) (h : step svc s a = some s') : Listed svc now db s' := by
  obtain ⟨current, gc⟩ := s
  obtain ⟨next, gc'⟩ := s'
  have hout := Move.outcome_run (gc.move svc a.now a.removed) a.now a.failure current
  rw [Option.some.inj h] at hout
  dsimp only at hout hdeletes
  have hstep := move_cases hout
  generalize Move.committed _ _ _ _ = committed at hstep
  cases hstep with
  | stop _ =>
    exact ⟨fun _ hmem => absurd hmem List.not_mem_nil, fun _ hmem => absurd hmem List.not_mem_nil,
      List.nodup_nil, hs.kept⟩
  | listed bound _ => exact absurd rfl hdeletes
  | @skipped _ task rest _ =>
    refine ⟨fun other hmem => hs.listed other (List.mem_cons_of_mem _ hmem),
      fun other hmem => hs.stored other (List.mem_cons_of_mem _ hmem), ?_, hs.kept⟩
    exact (List.nodup_cons.mp hs.nodup).2
  | @deleted task rest _ hdelete =>
    obtain ⟨hfresh, hnodup⟩ := List.nodup_cons.mp hs.nodup
    refine ⟨fun other hmem => hs.listed other (List.mem_cons_of_mem _ hmem), ?_, hnodup, ?_⟩
    · intro other hmem
      have hne : other.taskId ≠ task.taskId := by
        intro heq
        exact hfresh (heq ▸ List.mem_map_of_mem hmem)
      rw [(Db.deleteTask_spec hdelete).1, KeyedTable.Table.find_erase, if_neg hne]
      exact hs.stored other (List.mem_cons_of_mem _ hmem)
    · intro taskId row hrow
      rw [(Db.deleteTask_spec hdelete).1, KeyedTable.Table.find_erase] at hrow
      split at hrow
      · cases hrow
      · exact hs.kept taskId row hrow

/-- What a pass removes was listed and is removed as it was listed, and the rows that
are left are those of the start. -/
theorem Pass.victim (h : Pass svc now db trace last) {x : (Db × Gc) × Answer} (hx : x ∈ trace)
    {task : TaskRecord} (htask : x.1.2.victim = some task) :
    x.1.1.tasks.find task.taskId = some task ∧
      task ∈ candidates svc.settings.resultRetentionSecs now db ∧
      ∀ taskId row, x.1.1.tasks.find taskId = some row → db.tasks.find taskId = some row := by
  obtain ⟨first, middle, hnow, hfirst, hrun⟩ := h.run
  have hlisted := hrun.invariant_visited (listed_of_first hnow hfirst)
    (G := fun s _ => s.2 ≠ .idle) (fun s a s' hs hdeletes hstep => hs.step hdeletes hstep)
    h.deletes x.1 (List.mem_append_left _ (List.mem_map_of_mem hx))
  have hmem := mem_tasks_of_victim htask
  exact ⟨hlisted.stored task hmem, hlisted.listed task hmem, hlisted.kept⟩

/-- A pass that can remove no directory goes through its list. -/
theorem exists_run_skipping (svc : RuntimeService) (db : Db) (before rest : List TaskRecord) :
    ∃ trace, Runs.Run (step svc) (db, .deleting (before ++ rest)) trace (db, .deleting rest) ∧
      ∀ x ∈ trace, x.1.2 ≠ .idle := by
  induction before with
  | nil => exact ⟨[], .nil, fun _ hx => absurd hx List.not_mem_nil⟩
  | cons task before ih =>
    obtain ⟨trace, hrun, hdeletes⟩ := ih
    have hskip : step svc (db, .deleting (task :: (before ++ rest))) ⟨0, false, none⟩ =
        some (db, .deleting (before ++ rest)) := rfl
    refine ⟨_, (Runs.Run.nil.snoc hskip).append hrun, ?_⟩
    rintro x (_ | ⟨_, hx⟩)
    · nofun
    · exact hdeletes x hx

/-- Every listed task is at some time the next one that a pass removes. -/
theorem exists_pass_to {task : TaskRecord}
    (h : task ∈ candidates svc.settings.resultRetentionSecs now db) :
    ∃ trace last, Pass svc now db trace last ∧
      ∃ x ∈ trace, x.1.1 = db ∧ x.1.2.victim = some task := by
  obtain ⟨before, rest, hlist⟩ := List.append_of_mem h
  have hfirst : Gc.step svc (db, .idle) ⟨now, true, none⟩ =
      some (db, .deleting (before ++ task :: rest)) := by
    unfold candidates at hlist
    unfold Gc.step move
    cases hcutoff : cutoff svc.settings.resultRetentionSecs now with
    | none =>
      rw [hcutoff] at hlist
      simp at hlist
    | some bound =>
      rw [hcutoff, Option.map_some, Option.getD_some] at hlist
      simp only [Move.run, Move.query, StoreCall.exec, hlist]
  obtain ⟨trace, hrun, hdeletes⟩ := exists_run_skipping svc db before (task :: rest)
  have hlast := hrun.snoc (a := ⟨now, false, none⟩) rfl
  refine ⟨_, _, ⟨⟨_, _, rfl, hfirst, hlast⟩, ?_⟩, _, List.mem_concat_self, rfl, rfl⟩
  intro x hx
  rcases List.mem_append.mp hx with hx | hx
  · exact hdeletes x hx
  · rw [List.mem_singleton.mp hx]
    simp

/-- What is listed has to be expired, and so has all that lies in its directory. -/
theorem expired_of_respects {nowNanos : ℤ} (h : Respects svc nowNanos db) {task : TaskRecord}
    (htask : task ∈ candidates svc.settings.resultRetentionSecs (timestampMillis nowNanos) db)
    {taskId : TaskId} {row : TaskRecord} (hrow : db.tasks.find taskId = some row)
    (hsweeps : task.Sweeps row.taskDir) :
    row.Expired svc.settings.resultRetentionSecs nowNanos := by
  obtain ⟨trace, last, hpass, x, hx, hdb, hvictim⟩ := exists_pass_to htask
  refine (h trace last hpass x hx task hvictim).2 taskId row ?_ hsweeps
  rw [hdb]
  exact hrow

theorem expired_of_candidate {resultRetentionSecs : ℕ} (h : Representable resultRetentionSecs)
    {nowNanos : ℤ} {row : TaskRecord}
    (hrow : row ∈ candidates resultRetentionSecs (timestampMillis nowNanos) db) :
    row.Expired resultRetentionSecs nowNanos := by
  obtain ⟨bound, hbound, _, hterminal, finished, hfinished, hbefore⟩ := mem_candidates_iff.mp hrow
  rw [cutoff_of_representable h] at hbound
  split at hbound
  · cases hbound
    exact ⟨hterminal, finished, hfinished, (expired_iff finished nowNanos).mpr hbefore⟩
  · cases hbound

theorem candidate_of_expired {resultRetentionSecs : ℕ} (h : Representable resultRetentionSecs)
    (hdb : db.Housed svc) {nowNanos : ℤ} {row : TaskRecord}
    (hrow : db.tasks.find row.taskId = some row)
    (hexpired : row.Expired resultRetentionSecs nowNanos) :
    row ∈ candidates resultRetentionSecs (timestampMillis nowNanos) db := by
  obtain ⟨hterminal, finished, hfinished, hbefore⟩ := hexpired
  have hle := (expired_iff finished nowNanos).mp hbefore
  have hmin := (hdb.finishedAt _ _ hrow finished hfinished).trans hle
  have hcutoff := cutoff_of_representable h (timestampMillis nowNanos)
  rw [if_pos hmin] at hcutoff
  exact mem_candidates_iff.mpr ⟨_, hcutoff, hrow, hterminal, finished, hfinished, hle⟩

section Swept

variable {nowNanos : ℤ} {dataDir : String}

theorem noneSwept_of_respects (hdir : svc.settings.tasksDir = joinPath dataDir "tasks")
    (hdb : db.Housed svc) (hrepresentable : Representable svc.settings.resultRetentionSecs)
    (h : Respects svc nowNanos db) : db.NoneSwept svc.settings.resultRetentionSecs nowNanos := by
  intro taskId task htask hexpired otherId other hother hnot hspecial
  obtain rfl : task.taskId = taskId := db.tasks.find_key htask
  obtain rfl : other.taskId = otherId := db.tasks.find_key hother
  have hlisted := candidate_of_expired hrepresentable hdb htask hexpired
  refine hnot (expired_of_respects h hlisted hother ?_)
  exact (sweeps_taskDir_iff hdir (hdb.taskDir _ _ htask) (hdb.taskDir _ _ hother)
    (hdb.accepted _ _ htask) (hdb.accepted _ _ hother)).mpr (.inr hspecial)

theorem respects_of_noneSwept (hdir : svc.settings.tasksDir = joinPath dataDir "tasks")
    (hdb : db.Housed svc) (hrepresentable : Representable svc.settings.resultRetentionSecs)
    (h : db.NoneSwept svc.settings.resultRetentionSecs nowNanos) : Respects svc nowNanos db := by
  intro trace last hpass x hx task htask
  obtain ⟨hstored, hlisted, hkept⟩ := hpass.victim hx htask
  have hexpired := expired_of_candidate hrepresentable hlisted
  have hrow := hkept _ _ hstored
  refine ⟨hstored, fun taskId row hnow hsweeps => ?_⟩
  have hother := hkept _ _ hnow
  obtain rfl : row.taskId = taskId := db.tasks.find_key hother
  rcases (sweeps_taskDir_iff hdir (hdb.taskDir _ _ hrow) (hdb.taskDir _ _ hother)
    (hdb.accepted _ _ hrow) (hdb.accepted _ _ hother)).mp hsweeps with hsame | hspecial
  · rw [hsame, hrow] at hother
    cases hother
    exact hexpired
  · by_contra hnot
    exact h _ task hrow hexpired _ row hother hnot hspecial

end Swept

end Passes

end Gc

/-- A pass removes only tasks that ended at least the retention ago, and a larger
retention makes no more of them eligible, exactly when `chrono` can hold the retention
and no expired task has another one's directory in its own, or no task has ended. -/
theorem gc_respects_retention_iff (svc : RuntimeService) (dataDir : String)
    (hdir : svc.settings.tasksDir = joinPath dataDir "tasks") (nowNanos : ℤ) (db : Db)
    (hdb : db.Housed svc) (hnow : timestampMillis nowNanos ≤ maxTimestamp) :
    (Gc.Respects svc nowNanos db ∧ Gc.Monotone svc nowNanos db) ↔
      (Representable svc.settings.resultRetentionSecs ∧
          db.NoneSwept svc.settings.resultRetentionSecs nowNanos) ∨
        ∀ taskId row, db.tasks.find taskId = some row → row.status.isTerminal = true →
          ∀ finished ∈ row.finishedAt, timestampMillis nowNanos < finished := by
  constructor
  · rintro ⟨hrespects, hmonotone⟩
    by_cases hrepresentable : Representable svc.settings.resultRetentionSecs
    · exact .inl ⟨hrepresentable, Gc.noneSwept_of_respects hdir hdb hrepresentable hrespects⟩
    refine .inr fun taskId row hrow hterminal finished hfinished => ?_
    by_contra hbefore
    have hid : row.taskId = taskId := db.tasks.find_key hrow
    have hmem : row ∈ Gc.candidates svc.settings.resultRetentionSecs
        (timestampMillis nowNanos) db := by
      apply Gc.mem_candidates_iff.mpr
      exact ⟨_, Gc.cutoff_of_not_representable hrepresentable, hid ▸ hrow, hterminal, finished,
        hfinished, not_lt.mp hbefore⟩
    have hle : i64Max / 1000 ≤ svc.settings.resultRetentionSecs := by
      unfold Representable at hrepresentable
      omega
    have hlargest := hmonotone (i64Max / 1000) hle row hmem
    rw [Gc.candidates_eq_nil_of_largest hnow] at hlargest
    exact absurd hlargest List.not_mem_nil
  · rintro (⟨hrepresentable, hswept⟩ | hnone)
    · refine ⟨Gc.respects_of_noneSwept hdir hdb hrepresentable hswept,
        fun smaller hle row hrow => ?_⟩
      exact Gc.candidates_subset_of_representable hrepresentable hle hrow
    · refine ⟨fun trace last hpass x hx task htask => ?_, fun smaller _ row hrow => ?_⟩
      · exact absurd (hpass.victim hx htask).2.1 (Gc.not_mem_candidates hnone task)
      · exact absurd hrow (Gc.not_mem_candidates hnone row)

private def oneDayService : RuntimeService :=
  { smallService ⟨1, none, none⟩ with
    settings := { (smallService ⟨1, none, none⟩).settings with resultRetentionSecs := 86400 } }

/-- A submission and a kill before the dispatch, at this time. -/
private def cancelledAt (now : Timestamp) (taskId : TaskId) (i : ℕ) : List Event :=
  (submitActions i (commandRequest taskId) ++
    [Action.receiveKill taskId none, .kill i none, .kill i none, .kill i none, .kill i none,
      .kill i none]).map
      (fun action => { action, now })

/-- The row is one of the two tasks that ended at these times. -/
private def oneOfTwo (first second : Timestamp) (row : TaskRecord) : Bool :=
  row.status.isTerminal &&
    (decide (row.taskId = "a" ∧ row.finishedAt = some first) ||
      decide (row.taskId = "b" ∧ row.finishedAt = some second))

private theorem acceptedId_of_two {taskId : TaskId} (h : taskId = "a" ∨ taskId = "b") :
    AcceptedId taskId := by
  rcases h with rfl | rfl
  · exact ⟨commandRequest "a", rfl, by decide⟩
  · exact ⟨commandRequest "b", rfl, by decide⟩

/-- A retention of one day, at the start of 2026, with a task that ended in 1970 and
one that ended an hour ago. -/
theorem gc_respects_retention_of_one_day :
    ∃ db old recent, db.tasks.find "a" = some old ∧ db.tasks.find "b" = some recent ∧
      old.Expired 86400 1767225600000000000 ∧ recent.status.isTerminal = true ∧
      ¬ recent.Expired 86400 1767225600000000000 ∧
      Gc.Respects oneDayService 1767225600000000000 db ∧
      Gc.Monotone oneDayService 1767225600000000000 db := by
  have hexec : (World.execute oneDayService (fun _ _ => true)
      (cancelledAt 0 "a" 0 ++ cancelledAt 1767222000000 "b" 1)).any (fun w =>
        (w.db.tasks.find "a").isSome && (w.db.tasks.find "b").isSome &&
          w.db.tasks.rows.all (oneOfTwo 0 1767222000000)) = true := by decide +kernel
  obtain ⟨trace, last, hrun, _, _, htest⟩ := Runs.exists_run_of_exec hexec
  simp only [Bool.and_eq_true] at htest
  obtain ⟨⟨ha, hb⟩, hrows⟩ := htest
  obtain ⟨old, hold⟩ := Option.isSome_iff_exists.mp ha
  obtain ⟨recent, hrecent⟩ := Option.isSome_iff_exists.mp hb
  have hone : ∀ taskId row, last.db.tasks.find taskId = some row →
      row.status.isTerminal = true ∧ ((taskId = "a" ∧ row.finishedAt = some 0) ∨
        (taskId = "b" ∧ row.finishedAt = some 1767222000000)) := by
    intro taskId row hrow
    have hkey : row.taskId = taskId := last.db.tasks.find_key hrow
    have hmem : row ∈ last.db.tasks.rows := ((last.db.tasks.find_eq_some_iff taskId row).mp hrow).1
    simpa [oneOfTwo, hkey] using List.all_eq_true.mp hrows row hmem
  have hdb : last.db.Housed oneDayService :=
    { accepted := fun taskId row hrow =>
        acceptedId_of_two ((hone taskId row hrow).2.imp And.left And.left)
      taskDir := World.taskDir_of_run hrun last (Runs.last_mem_visited _ _)
      finishedAt := by
        intro taskId row hrow finished hfinished
        rcases (hone taskId row hrow).2 with ⟨_, hat⟩ | ⟨_, hat⟩ <;>
          (rw [hat] at hfinished; cases hfinished; decide) }
  have hexpired : old.Expired 86400 1767225600000000000 := by
    obtain ⟨hterminal, ⟨_, hat⟩ | ⟨hid, _⟩⟩ := hone "a" old hold
    · exact ⟨hterminal, 0, hat, by decide⟩
    · exact absurd hid (by decide)
  have hlater : ¬ recent.Expired 86400 1767225600000000000 := by
    rintro ⟨_, finished, hfinished, hbefore⟩
    obtain ⟨_, ⟨hid, _⟩ | ⟨_, hat⟩⟩ := hone "b" recent hrecent
    · exact absurd hid (by decide)
    · rw [hat] at hfinished
      cases hfinished
      revert hbefore
      decide
  refine ⟨last.db, old, recent, hold, hrecent, hexpired, (hone "b" recent hrecent).1, hlater, ?_⟩
  refine (gc_respects_retention_iff oneDayService "/data" rfl 1767225600000000000 last.db hdb
    (by decide)).mpr (.inl ⟨by unfold Representable; decide, ?_⟩)
  rintro taskId task htask _ _ _ _ _ (rfl | ⟨rfl, _⟩)
  · rcases (hone _ task htask).2 with ⟨hid, _⟩ | ⟨hid, _⟩ <;> exact absurd hid (by decide)
  · rcases (hone _ task htask).2 with ⟨hid, _⟩ | ⟨hid, _⟩ <;> exact absurd hid (by decide)

private def endlessService : RuntimeService :=
  { smallService ⟨1, none, none⟩ with
    settings := { (smallService ⟨1, none, none⟩).settings with resultRetentionSecs := u64Max } }

/-- A task that was cancelled a millisecond ago is removed under the largest retention. -/
theorem gc_removes_recent_task :
    ¬ ∀ svc trace last, World.Run svc .init trace last → ∀ nowNanos,
      timestampMillis nowNanos ≤ maxTimestamp →
      Gc.Respects svc nowNanos last.db ∧ Gc.Monotone svc nowNanos last.db := by
  intro hclaim
  have hexec : (World.execute endlessService (fun _ _ => true)
      (events (submitActions 0 (commandRequest "a") ++
        [.receiveKill "a" none, .kill 0 none, .kill 0 none, .kill 0 none, .kill 0 none,
          .kill 0 none]))).any
        (fun w => (w.db.listGcCandidates 1).head?.any (fun task =>
          decide (task.finishedAt = some 0))) = true := by decide +kernel
  obtain ⟨trace, last, hrun, _, _, htest⟩ := Runs.exists_run_of_exec hexec
  obtain ⟨task, hhead, hfinished⟩ := (Option.any_eq_true _ _).mp htest
  have hmem : task ∈ last.db.listGcCandidates 1 := List.mem_of_mem_head? hhead
  have hrow := (Db.mem_listGcCandidates hmem).1
  have hlisted : task ∈ Gc.candidates u64Max (timestampMillis 1000000) last.db := hmem
  obtain ⟨_, finished, hsome, hexpired⟩ :=
    Gc.expired_of_respects (hclaim endlessService trace last hrun 1000000 (by decide)).1 hlisted
      hrow (.refl _)
  rw [of_decide_eq_true hfinished] at hsome
  cases hsome
  revert hexpired
  decide

end ExecgoRuntime
