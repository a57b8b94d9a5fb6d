import ExecgoRuntime.Columns
import ExecgoRuntime.CycleAccounts

/-!
Admission and dispatch. A submission is checked against the limits alone, a task
of the list against the limits and what is reserved already. On a store that holds
no reservation the two agree: the empty totals are zero wherever a limit looks, and
zero plus a word is the word. Such a cycle reserves its first task exactly when the
submission of the task would be accepted by the ledger.
-/
namespace ExecgoRuntime

/-- The reservation asks for no more than the limit in any component. -/
def RequestedWithin (limit : ResourceCapacity) (r : TaskResourceReservation) : Prop :=
  ∀ (c : Component) (value bound : ℕ), c.requested r = some value → c.of limit = some bound →
    value ≤ bound

theorem exceeds_eq_none_iff (requested limit : Option ℕ) :
    exceeds requested limit = none ↔
      ∀ value bound, requested = some value → limit = some bound → value ≤ bound := by
  cases requested <;> cases limit <;> simp [exceeds]

theorem ensureWithin_eq_ok_iff (who what : String) (limit : ResourceCapacity)
    (r : TaskResourceReservation) :
    ensureWithin who what limit r = .ok () ↔ RequestedWithin limit r := by
  have hchecks : ensureWithin who what limit r = .ok () ↔
      ¬ limit.taskSlots < r.taskSlots ∧ exceeds r.memoryBytes limit.memoryBytes = none ∧
        exceeds r.pids limit.pids = none := by
    unfold ensureWithin
    by_cases hslots : limit.taskSlots < r.taskSlots
    · simp [hslots, throw, throwThe, MonadExceptOf.throw, bind, Except.bind]
    · cases exceeds r.memoryBytes limit.memoryBytes <;> cases exceeds r.pids limit.pids <;>
        simp [hslots, throw, throwThe, MonadExceptOf.throw, bind, Except.bind, pure, Except.pure]
  rw [hchecks, exceeds_eq_none_iff, exceeds_eq_none_iff, Nat.not_lt]
  constructor
  · rintro ⟨hslots, hmemory, hpids⟩ c value bound hvalue hbound
    cases c with
    | taskSlots =>
      cases hvalue
      cases hbound
      exact hslots
    | memoryBytes => exact hmemory value bound hvalue hbound
    | pids => exact hpids value bound hvalue hbound
  · intro h
    exact ⟨h .taskSlots _ _ rfl rfl, h .memoryBytes, h .pids⟩

namespace TaskResourceReservation

/-- The amounts are words. -/
def Words (r : TaskResourceReservation) : Prop :=
  ∀ (c : Component) (value : ℕ), c.requested r = some value → value ≤ u64Max

theorem words_fromLimits {limits : ResourceLimits} (h : limits.Words) :
    (fromLimits limits).Words := by
  obtain ⟨_, _, hmemory, hpids, _⟩ := h
  intro c value hvalue
  cases c with
  | taskSlots =>
    cases hvalue
    have hone : 1 ≤ u64Max := by decide
    exact hone
  | memoryBytes => exact hmemory value hvalue
  | pids => exact hpids value hvalue

end TaskResourceReservation

/-- Above nothing at all, what fits is what is within the limit. -/
theorem fitsWithin_empty_iff {limit reserved : ResourceCapacity} {r : TaskResourceReservation}
    (hempty : ∀ c : Component, (c.of limit).isSome = true → c.of reserved = some 0)
    (hwords : r.Words) : fitsWithin limit reserved r = true ↔ RequestedWithin limit r := by
  rw [fitsWithin_iff]
  constructor
  · intro h c value bound hvalue hbound
    have hzero := hempty c (by rw [hbound]; rfl)
    have hfits := (componentFits_iff _ _ _).mp (h c) 0 value bound hzero hvalue hbound
    have hword := hwords c value hvalue
    unfold satAdd Saturating.add at hfits
    omega
  · intro h c
    rw [componentFits_iff]
    intro level value bound hlevel hvalue hbound
    have hzero := hempty c (by rw [hbound]; rfl)
    rw [hzero] at hlevel
    cases hlevel
    have hwithin := h c value bound hvalue hbound
    unfold satAdd Saturating.add
    omega

/-- Both ledger checks of `submit_task`. -/
def RuntimeService.PassesLedger (svc : RuntimeService) (request : SubmitTaskRequest) : Prop :=
  svc.ledger.ensureWithinCapacity (.fromLimits request.limits) = .ok () ∧
    svc.ledger.ensureWithinTenantQuota request.tenant (.fromLimits request.limits) = .ok ()

/-- The checks, scope by scope. -/
theorem passesLedger_iff (svc : RuntimeService) (request : SubmitTaskRequest) :
    svc.PassesLedger request ↔
      ∀ (scope : Scope) (limit : ResourceCapacity), scope.counts request.tenant = true →
        scope.limit svc.ledger = some limit →
        RequestedWithin limit (.fromLimits request.limits) := by
  unfold RuntimeService.PassesLedger ResourceLedger.ensureWithinCapacity
    ResourceLedger.ensureWithinTenantQuota
  rw [ensureWithin_eq_ok_iff]
  constructor
  · rintro ⟨hcapacity, hquota⟩ scope limit hcounts hlimit
    cases scope with
    | runtime =>
      cases hlimit
      exact hcapacity
    | tenant name =>
      have htenant : request.tenant = some name := of_decide_eq_true hcounts
      have hlookup : svc.ledger.tenantQuota name = some limit := hlimit
      simp only [htenant, Option.bind_some, hlookup] at hquota
      exact (ensureWithin_eq_ok_iff _ _ _ _).mp hquota
  · intro h
    refine ⟨h .runtime svc.ledger.capacity rfl rfl, ?_⟩
    cases htenant : request.tenant with
    | none => rfl
    | some name =>
      rw [Option.bind_some]
      cases hquota : svc.ledger.tenantQuota name with
      | none => rfl
      | some quota =>
        have hcounts : (Scope.tenant name).counts request.tenant = true := decide_eq_true htenant
        exact (ensureWithin_eq_ok_iff _ _ _ _).mpr (h (.tenant name) quota hcounts hquota)

/-- `submit_task` goes on to the queue when the request is valid, has a plan and
passes the ledger. -/
theorem checkRequest_eq_ok_iff (svc : RuntimeService) (request : SubmitTaskRequest)
    (plan : ExecutionPlan) :
    svc.checkRequest request = .ok plan ↔
      request.validate = .ok () ∧
      Policy.resolveExecutionPlan request svc.capabilities svc.settings.defaultCapabilityMode =
        .ok plan ∧ svc.PassesLedger request := by
  simp only [RuntimeService.checkRequest, RuntimeService.PassesLedger]
  generalize svc.ledger.ensureWithinCapacity (.fromLimits request.limits) = capacityCheck
  generalize svc.ledger.ensureWithinTenantQuota request.tenant (.fromLimits request.limits) =
    quotaCheck
  cases request.validate with
  | error e => simp [bind, Except.bind]
  | ok _ =>
    cases Policy.resolveExecutionPlan request svc.capabilities
        svc.settings.defaultCapabilityMode with
    | error e => simp [bind, Except.bind]
    | ok resolved =>
      cases capacityCheck <;> cases quotaCheck <;> simp [bind, Except.bind, pure, Except.pure]

/-- The task of the request as it is stored: never reserved and not to be killed. -/
structure StoredFor (request : SubmitTaskRequest) (row : TaskRecord) : Prop where
  limits : row.limits = request.limits
  controlContext : row.controlContext = request.controlContext
  killRequested : row.killRequested = false
  reservation : row.reservation = none

theorem storedFor_toRow {svc : RuntimeService} {request : SubmitTaskRequest} {taskId : TaskId}
    {plan : ExecutionPlan} {new : NewTaskRecord} (h : svc.newTask request taskId plan = .ok new)
    (now : Timestamp) : StoredFor request (new.toRow now) := by
  simp only [RuntimeService.newTask] at h
  cases hdir : resolveWorkspaceDir (joinPath svc.settings.tasksDir taskId) request.sandbox with
  | error e =>
    rw [hdir] at h
    cases h
  | ok dir =>
    rw [hdir] at h
    cases h
    exact ⟨rfl, rfl, rfl, rfl⟩

/-- Before anything is reserved, every total is zero where its limit looks. -/
theorem total_ofActive_nil {ledger : ResourceLedger} {scope : Scope} {limit : ResourceCapacity}
    (hlimit : scope.limit ledger = some limit) {c : Component}
    (h : (c.of limit).isSome = true) :
    c.of (scope.total ledger (.ofActive ledger [])) = some 0 := by
  have hsome := Scope.isSome_start hlimit h
  have hzero := Scope.level_start ledger scope c
  rw [Scope.total_ofActive]
  obtain ⟨level, hlevel⟩ := Option.isSome_iff_exists.mp hsome
  rw [Component.level, hlevel, Option.getD_some] at hzero
  rw [hzero] at hlevel
  exact hlevel

theorem admits_ofActive_nil_iff (svc : RuntimeService) {request : SubmitTaskRequest}
    (hwords : request.limits.Words) :
    (CycleTotals.ofActive svc.ledger []).Admits svc.ledger request.tenant
        (.fromLimits request.limits) ↔ svc.PassesLedger request := by
  rw [CycleTotals.admits_iff, passesLedger_iff]
  have hwords := TaskResourceReservation.words_fromLimits hwords
  refine forall_congr' fun scope => forall_congr' fun limit => ?_
  refine imp_congr_right fun _ => imp_congr_right fun hlimit => ?_
  exact fitsWithin_empty_iff (fun c h => total_ofActive_nil hlimit h) hwords

theorem StoredFor.tenant {request : SubmitTaskRequest} {row : TaskRecord}
    (h : StoredFor request row) : row.tenant = request.tenant := by
  rw [TaskRecord.tenant, h.controlContext]
  rfl

theorem StoredFor.hasActiveReservation {request : SubmitTaskRequest} {row : TaskRecord}
    (h : StoredFor request row) : row.hasActiveReservation = false := by
  rw [TaskRecord.hasActiveReservation, h.reservation]
  rfl

theorem StoredFor.requestedReservation {request : SubmitTaskRequest} {row : TaskRecord}
    (h : StoredFor request row) : row.requestedReservation = .fromLimits request.limits := by
  rw [TaskRecord.requestedReservation, h.reservation, h.limits]
  rfl

namespace LoneCycle

variable {svc : RuntimeService} {db : Db} {row : TaskRecord} {rest : List TaskRecord}

/-- A task that the first totals admit is reserved by the first step. -/
theorem reservedTask_loopHead (hlist : db.listAccepted svc.settings.maxQueuedTasks = row :: rest)
    (hkill : row.killRequested = false) (hidle : row.hasActiveReservation = false)
    (hadmits : (CycleTotals.ofActive svc.ledger db.listActiveReservations).Admits svc.ledger
      row.tenant row.requestedReservation) {a : CycleAnswer} (hcall : a.failure = none) :
    reservedTask svc (loopHead svc db) a = some row.taskId := by
  have hdecision : consider svc.ledger (.ofActive svc.ledger db.listActiveReservations) row =
      .reserve row.requestedReservation := by
    simp [consider, hkill, hidle, hadmits.1, hadmits.2]
  have hmem : row ∈ db.listAccepted svc.settings.maxQueuedTasks := by
    rw [hlist]
    exact List.mem_cons_self
  obtain ⟨db', hwrite⟩ := TaskWrite.run_ok
    (w := .reserveResources row.requestedReservation "task resources reserved") rfl a.now
    (Db.mem_listAccepted hmem).1
  have hmove : (loopHead svc db).2.move svc a.now a.outcome =
      .write row.taskId (.reserveResources row.requestedReservation "task resources reserved")
        (.launching ((CycleTotals.ofActive svc.ledger db.listActiveReservations).charge svc.ledger
          row.tenant row.requestedReservation) row row.requestedReservation rest)
        Dispatcher.abandon := by
    simp only [loopHead, hlist, Dispatcher.move, hdecision]
  have hexec : (StoreCall.write row.taskId (.reserveResources row.requestedReservation
      "task resources reserved")).exec a.now (loopHead svc db).1 = .ok db' := hwrite
  rw [reservedTask, hmove, hcall]
  simp only [Move.committed, Move.write, hexec]
  rfl

/-- After a step of the list its task is not ahead any more. -/
theorem CycleStep.pending_of_scanning {s s' : LoneCycle} {a : CycleAnswer}
    {reserved : Option TaskId} {totals : CycleTotals} {task : TaskRecord}
    (h : CycleStep svc a s reserved s') (hs : s.2 = .scanning totals (task :: rest)) :
    s'.2.pending <:+ rest := by
  cases h with
  | broken _ => exact List.nil_suffix
  | skipped _ =>
    cases hs
    exact List.suffix_rfl
  | cancelled _ _ =>
    cases hs
    exact List.suffix_rfl
  | reserved _ _ =>
    cases hs
    exact List.suffix_rfl
  | _ => cases hs

/-- The first task is reserved at once or not at all. -/
theorem not_reserved_of_not_admits {trace : List (LoneCycle × CycleAnswer)} {last : LoneCycle}
    (hrun : Runs.Run (step svc) (loopHead svc db) trace last)
    (hlist : db.listAccepted svc.settings.maxQueuedTasks = row :: rest)
    (hrefused : ¬ (CycleTotals.ofActive svc.ledger db.listActiveReservations).Admits svc.ledger
      row.tenant row.requestedReservation) :
    ∀ x ∈ trace, reservedTask svc x.1 x.2 ≠ some row.taskId := by
  have hhead : (loopHead svc db).2 =
      .scanning (.ofActive svc.ledger db.listActiveReservations) (row :: rest) := by
    rw [← hlist]
    rfl
  have hbehind : row.taskId ∉ rest.map TaskRecord.taskId := by
    have hnodup := db.listAccepted_nodup svc.settings.maxQueuedTasks
    rw [hlist, List.map_cons] at hnodup
    exact (List.nodup_cons.mp hnodup).1
  have hvisited : ∀ s ∈ Runs.visited trace last,
      s = loopHead svc db ∨ row.taskId ∉ s.2.pending.map TaskRecord.taskId := by
    refine hrun.invariant_visited (G := fun _ _ => True) (.inl rfl) ?_ (fun _ _ => trivial)
    rintro s a s' (rfl | hpast) _ hstep
    · have hsuffix := (step_cases hstep).pending_of_scanning hhead
      exact .inr (fun hmem => hbehind ((hsuffix.map TaskRecord.taskId).subset hmem))
    · have hsuffix := (step_cases hstep).pending
      exact .inr (fun hmem => hpast ((hsuffix.map TaskRecord.taskId).subset hmem))
  intro x hx hreserved
  obtain ⟨s', hstep, _⟩ := hrun.next_mem_visited hx
  have hcase := step_cases hstep
  rw [hreserved] at hcase
  obtain ⟨totals, task, tasks, hscanning, htaskId, hadmits⟩ := hcase.of_reserved
  have hmem : x.1 ∈ Runs.visited trace last :=
    List.mem_append_left _ (List.mem_map_of_mem hx)
  rcases hvisited x.1 hmem with hstart | hpast
  · rw [hstart, hhead] at hscanning
    cases hscanning
    exact hrefused hadmits
  · rw [hscanning] at hpast
    exact hpast (by rw [← htaskId]; exact List.mem_map_of_mem List.mem_cons_self)

end LoneCycle

/-- Admission agrees with dispatch: the ledger checks accept a request exactly when
a cycle that finds nothing reserved and the task of the request first in its list
reserves the task, if the repository call for it does not fail. -/
theorem admission_agrees_with_dispatch {svc : RuntimeService} {request : SubmitTaskRequest}
    (hwords : request.limits.Words) {db : Db} (hfree : db.listActiveReservations = [])
    {row : TaskRecord} {rest : List TaskRecord}
    (hlist : db.listAccepted svc.settings.maxQueuedTasks = row :: rest)
    (hstored : StoredFor request row) {trace : List (LoneCycle × CycleAnswer)} {last : LoneCycle}
    (hrun : Runs.Run (LoneCycle.step svc) (LoneCycle.loopHead svc db) trace last)
    (hended : last.2 = .idle) (hcall : ∀ x ∈ trace.head?, x.2.failure = none) :
    (svc.ledger.ensureWithinCapacity (.fromLimits request.limits) = .ok () ∧
        svc.ledger.ensureWithinTenantQuota request.tenant (.fromLimits request.limits) = .ok ()) ↔
      ∃ x ∈ trace, LoneCycle.reservedTask svc x.1 x.2 = some row.taskId := by
  have hagree := admits_ofActive_nil_iff svc hwords
  rw [← hstored.tenant, ← hstored.requestedReservation, ← hfree] at hagree
  refine hagree.symm.trans ⟨fun hadmits => ?_, fun hreserved => ?_⟩
  · cases trace with
    | nil =>
      rw [hrun.eq_of_nil] at hended
      cases hended
    | cons x after =>
      refine ⟨x, List.mem_cons_self, ?_⟩
      rw [hrun.eq_of_cons]
      exact LoneCycle.reservedTask_loopHead hlist hstored.killRequested
        hstored.hasActiveReservation hadmits (hcall x rfl)
  · by_contra hrefused
    obtain ⟨x, hx, htask⟩ := hreserved
    exact LoneCycle.not_reserved_of_not_admits hrun hlist hrefused x hx htask

/-- A store with one task, which the capacity admits. -/
theorem admission_agrees_with_dispatch_of_one_task :
    ∃ db trace last, Runs.Run (LoneCycle.step (smallService ⟨1, some 100, none⟩))
        (LoneCycle.loopHead (smallService ⟨1, some 100, none⟩) db) trace last ∧
      ∃ x ∈ trace,
        LoneCycle.reservedTask (smallService ⟨1, some 100, none⟩) x.1 x.2 = some "a" := by
  let svc := smallService ⟨1, some 100, none⟩
  let request := commandRequest "a"
  have hexec : (LoneCycle.execute svc (fun _ a => a.failure.isNone)
      (events (submitActions 0 request)) (List.replicate 4 { outcome := .spawned 10 })).any
        (fun s =>
          s.1.listActiveReservations.isEmpty &&
          decide ((s.1.listAccepted svc.settings.maxQueuedTasks).map (fun row => (row.taskId,
            row.limits, row.killRequested, row.reservation)) =
              [("a", request.limits, false, none)]) &&
          (s.1.listAccepted svc.settings.maxQueuedTasks).all
            (fun row => row.controlContext.isNone) &&
          s.2.2.totals.isNone) = true := by
    decide
  obtain ⟨db, trace, last, hrun, _, hcalls, htest⟩ := LoneCycle.exists_run_of_execute hexec
  simp only [Bool.and_eq_true, decide_eq_true_eq] at htest
  obtain ⟨⟨⟨hfree, hlist⟩, hcontext⟩, hended⟩ := htest
  obtain ⟨row, rest, hrows, hrow, _⟩ := List.map_eq_cons_iff.mp hlist
  obtain ⟨hid, hlimits, hkill, hreservation⟩ : row.taskId = "a" ∧ row.limits = request.limits ∧
      row.killRequested = false ∧ row.reservation = none := by simpa using hrow
  have hstored : StoredFor request row := by
    refine ⟨hlimits, ?_, hkill, hreservation⟩
    have hnone := List.all_eq_true.mp hcontext row (by rw [hrows]; exact List.mem_cons_self)
    exact Option.isNone_iff_eq_none.mp hnone
  have hlast : last.2 = .idle := by
    revert hended
    cases last.2 <;> simp [Dispatcher.totals]
  have hwords : request.limits.Words := by
    unfold ResourceLimits.Words
    decide
  refine ⟨db, trace, last, hrun, ?_⟩
  rw [← hid]
  exact (admission_agrees_with_dispatch hwords (List.isEmpty_iff.mp hfree) hrows hstored hrun hlast
    (fun x hx => Option.isNone_iff_eq_none.mp (hcalls x (List.mem_of_mem_head? hx)))).mp ⟨rfl, rfl⟩

end ExecgoRuntime
