import ExecgoRuntime.Requests

/-!
Garbage collection as a machine. A pass lists the rows that ended long enough
ago and deletes them one after another, each together with its events; what
cannot be removed from the disk is skipped. Nothing else of the system touches
the list of a pass, and nothing else deletes rows.
-/
namespace ExecgoRuntime

/-- The tasks that the pass has listed and not yet deleted. -/
def Gc.tasks : Gc → List TaskRecord
  | idle => []
  | deleting tasks => tasks

/-- A step of the garbage collection. -/
inductive GcStep (now : Timestamp) (db : Db) : Option StoreCall → Db → Gc → Gc → Prop
  | stop {c gc} : Move.Quiet c → GcStep now db c db gc .idle
  | listed {c} (bound : Timestamp) : Move.Quiet c →
      GcStep now db c db .idle (.deleting (db.listGcCandidates bound))
  | skipped {c task rest} : Move.Quiet c →
      GcStep now db c db (.deleting (task :: rest)) (.deleting rest)
  | deleted {task rest db'} : db.deleteTask task.taskId = .ok db' →
      GcStep now db (some (.deleteTask task.taskId)) db' (.deleting (task :: rest)) (.deleting rest)

theorem Gc.move_cases {svc : RuntimeService} {now : Timestamp} {removed : Bool}
    {failure : Option AppError} {db db' : Db} {committed : Option StoreCall} {gc gc' : Gc}
    (h : Move.Outcome (gc.move svc now removed) now failure db committed db' gc') :
    GcStep now db committed db' gc gc' := by
  cases gc with
  | idle =>
    simp only [Gc.move] at h
    split at h
    · obtain ⟨hquiet, rfl, ⟨rows, hrows, rfl, _⟩ | ⟨e, rfl, _⟩⟩ := Move.outcome_query h
      · cases hrows
        exact .listed _ hquiet
      · exact .stop hquiet
    · obtain ⟨hquiet, rfl, rfl⟩ := Move.outcome_silent h
      exact .stop hquiet
  | deleting tasks =>
    cases tasks with
    | nil =>
      obtain ⟨hquiet, rfl, rfl⟩ := Move.outcome_silent h
      exact .stop hquiet
    | cons task rest =>
      simp only [Gc.move] at h
      split at h
      · cases h with
        | silent hcall => cases hcall
        | failed _ _ => exact .skipped (.inl rfl)
        | done hcall hexec _ =>
          cases hcall
          exact .deleted hexec
      · obtain ⟨hquiet, rfl, rfl⟩ := Move.outcome_silent h
        exact .skipped hquiet

/-- The list shrinks by the task that is deleted, or is read afresh. -/
theorem GcStep.tasks {now : Timestamp} {db db' : Db} {committed : Option StoreCall} {gc gc' : Gc}
    (h : GcStep now db committed db' gc gc') :
    (Move.Quiet committed ∧ gc'.tasks.Sublist gc.tasks) ∨
      (Move.Quiet committed ∧ db' = db ∧ ∃ bound, gc'.tasks = db.listGcCandidates bound) ∨
      ∃ task, committed = some (.deleteTask task.taskId) ∧ gc.tasks = task :: gc'.tasks := by
  cases h with
  | stop hquiet => exact .inl ⟨hquiet, List.nil_sublist _⟩
  | listed bound hquiet => exact .inr (.inl ⟨hquiet, rfl, bound, rfl⟩)
  | skipped hquiet => exact .inl ⟨hquiet, List.sublist_cons_self _ _⟩
  | deleted _ => exact .inr (.inr ⟨_, rfl, rfl⟩)

theorem Db.mem_listGcCandidates {db : Db} {bound : Timestamp} {row : TaskRecord}
    (h : row ∈ db.listGcCandidates bound) :
    db.tasks.find row.taskId = some row ∧ row.status.isTerminal = true := by
  have hmem := (List.perm_insertionSort _ _).mem_iff.mp h
  obtain ⟨hrow, hselected⟩ := (KeyedTable.Table.mem_select_iff _ _ _).mp hmem
  exact ⟨hrow, (Bool.and_eq_true_iff.mp hselected).1⟩

theorem Db.listGcCandidates_nodup (db : Db) (bound : Timestamp) :
    ((db.listGcCandidates bound).map TaskRecord.taskId).Nodup :=
  ((List.perm_insertionSort _ _).map _).nodup_iff.mpr (KeyedTable.Table.select_nodup _ _)

namespace World

variable {svc : RuntimeService} {w w' : World} {e : Event}

/-- What a step does to the list of the garbage collection. -/
inductive CollectStep (svc : RuntimeService) (w : World) (e : Event) (w' : World) : Prop
  | kept (hsub : w'.procs.gc.tasks.Sublist w.procs.gc.tasks)
      (hcalls : ∀ taskId, w.committed svc e ≠ some (.deleteTask taskId))
  | listed (bound : Timestamp) (hdb : w'.db = w.db)
      (hcalls : ∀ taskId, w.committed svc e ≠ some (.deleteTask taskId))
      (hlist : w'.procs.gc.tasks = w.db.listGcCandidates bound)
  | deleted (task : TaskRecord) (hcommitted : w.committed svc e = some (.deleteTask task.taskId))
      (hlist : w.procs.gc.tasks = task :: w'.procs.gc.tasks)

theorem step_collect (h : w.step svc e = some w') : CollectStep svc w e w' := by
  have hkept : e.action.isGc = false → w'.procs.gc = w.procs.gc ∨ w'.procs.gc = .idle →
      CollectStep svc w e w' := by
    intro haction hgc
    refine .kept ?_ (not_deletes_of_step h haction)
    rcases hgc with hsame | hidle
    · rw [hsame]
    · rw [hidle]
      exact List.nil_sublist _
  cases step_cases h with
  | request d haction hserver hserver' hshims hcall =>
    have hnot : e.action.isGc = false := by
      cases hcase : e.action <;> rw [hcase] at haction <;> first | rfl | cases haction
    cases step_requests h with
    | same hother _ _ _ =>
      rw [haction] at hother
      cases hother
    | lost hcrash _ _ =>
      rw [hcrash] at haction
      cases haction
    | submitReceived _ _ _ _ hprocs => exact hkept hnot (.inl (by rw [hprocs]))
    | submit _ _ _ _ _ _ hprocs => exact hkept hnot (.inl (by rw [hprocs]))
    | killReceived _ _ _ _ hprocs => exact hkept hnot (.inl (by rw [hprocs]))
    | kill _ _ _ _ _ _ _ hprocs => exact hkept hnot (.inl (by rw [hprocs]; rfl))
    | escalate _ _ _ _ _ _ hprocs => exact hkept hnot (.inl (by rw [hprocs]))
  | gc removed d haction hserver _ _ _ =>
    obtain ⟨m, hm, _, hout⟩ := step_actor h
    rw [haction] at hm
    simp only [Procs.actorMove, hserver, Option.some.injEq] at hm
    subst hm
    obtain ⟨gc', hout, hprocs⟩ := Move.outcome_map hout
    have hgc' : w'.procs.gc = gc' := by rw [hprocs]
    have hquiet : Move.Quiet (w.committed svc e) →
        ∀ taskId, w.committed svc e ≠ some (.deleteTask taskId) := by
      intro hno taskId hdelete
      cases hno.call_eq hdelete
    rw [← hgc'] at hout
    rcases (Gc.move_cases hout).tasks with ⟨hno, hsub⟩ | ⟨hno, hdb, bound, hlist⟩ |
      ⟨task, hcommitted, hlist⟩
    · exact .kept hsub (hquiet hno)
    · exact .listed bound hdb (hquiet hno) hlist
    · exact .deleted task hcommitted hlist
  | dispatch _ _ _ haction _ _ _ hprocs =>
    exact hkept (by rw [haction]; rfl) (.inl (by rw [hprocs]; rfl))
  | recover _ r r' haction _ _ hprocs =>
    refine hkept (by rw [haction]; rfl) (.inl ?_)
    rw [hprocs]
    cases r' <;> rfl
  | shim _ _ _ _ haction _ _ _ hprocs =>
    exact hkept (by rw [haction]; rfl) (.inl (by rw [hprocs]))
  | crash haction _ _ hprocs => exact hkept (by rw [haction]; rfl) (.inr (by rw [hprocs]; rfl))
  | restart haction _ _ _ hprocs => exact hkept (by rw [haction]; rfl) (.inl (by rw [hprocs]))

end World

end ExecgoRuntime
