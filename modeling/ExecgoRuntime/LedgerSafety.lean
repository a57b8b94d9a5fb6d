import ExecgoRuntime.Metering

/-!
The ledger is safe: in one server life the active reservations stay within the
capacity, and those of a tenant within its quota, in every component that is
configured. Both are the metering invariant, at the total of the whole runtime
and at the lazily filled entry of a tenant. The second needs in addition that a
listed task still belongs to the tenant of its row, which a resubmission of a
deleted id could break.
-/
namespace ExecgoRuntime

open KeyedTable

namespace Db

/-- The sum over the active reservations of the rows that `p` selects. -/
def activeSum (db : Db) (c : Component) (p : TaskRecord → Bool) : ℕ :=
  ((db.tasks.select (fun row => row.hasActiveReservation && p row)).map
    (fun row => c.share row.reservation)).sum

end Db

namespace Meter

variable {ledger : ResourceLedger}

theorem activeSum_eq (m : Meter ledger) (db : Db) :
    db.activeSum m.component (fun row => m.counts row.controlContext) = m.activeTotal db := by
  unfold Db.activeSum activeTotal
  rw [Table.select_sum]
  congr 1
  funext row
  unfold weight
  cases hactive : row.hasActiveReservation <;> cases hcounts : m.counts row.controlContext <;>
    simp [hcounts]

theorem filterMap_amount_sum (c : Component) (active : List TaskRecord) :
    ((active.filterMap TaskRecord.reservation).map c.amount).sum =
      (active.map (fun row => c.share row.reservation)).sum := by
  rw [List.map_filterMap, Saturating.sum_filterMap]
  rfl

/-- The total of the whole runtime as a meter. -/
def ofCapacity (ledger : ResourceLedger) (c : Component) (limit : ℕ)
    (hlimit : c.of ledger.capacity = some limit) (hbelow : limit < u64Max) : Meter ledger where
  component := c
  counts _ := true
  limit := limit
  view := CycleTotals.currentReserved
  below := hbelow
  start active := by
    have hpresent : (c.of ledger.capacity).isSome = true := by rw [hlimit]; rfl
    have hview : c.of (CycleTotals.ofActive ledger active).currentReserved = _ :=
      of_reservedCapacity ledger c (active.filterMap TaskRecord.reservation) hpresent
    rw [hview, filterMap_amount_sum]
    rfl
  charge totals task reservation level hdecision hlevel hle := by
    obtain ⟨_, _, hfits, _⟩ := consider_eq_reserve hdecision
    have hsum : level + c.amount reservation ≤ limit :=
      add_amount_le hfits hlimit hbelow hlevel hle
    refine ⟨hsum, ?_⟩
    have hview : c.of (totals.charge ledger task.tenant reservation).currentReserved = _ :=
      of_addReservation c totals.currentReserved reservation
    rw [hview, hlevel, addComponent_some c reservation (by omega), min_eq_left (by omega)]
    rfl
  refund totals task reservation level hlevel := by
    have hview : c.of (totals.refund reservation).currentReserved = _ :=
      of_subtractReservation c totals.currentReserved reservation
    rw [hview, hlevel]
    exact subtractComponent_some c reservation level

/-- The entry of a tenant after the tasks of the snapshot were charged. -/
private theorem tenantTotals_level (ledger : ResourceLedger) (c : Component) (tenant : String)
    (active : List TaskRecord) (reserved : TenantMap) {level : ℕ} (hle : level ≤ u64Max)
    (h : c.of ((reserved.lookup tenant).getD (ledger.emptyTenantCap tenant)) = some level) :
    c.of (((active.foldl
        (fun reserved task =>
          match task.reservation, task.tenant with
          | some reservation, some tenant => ledger.chargeTenant reserved tenant reservation
          | _, _ => reserved) reserved).lookup tenant).getD (ledger.emptyTenantCap tenant)) =
      some (min (level + (active.map (fun row =>
        if decide (row.tenant = some tenant) then c.share row.reservation else 0)).sum)
        u64Max) := by
  induction active generalizing reserved level with
  | nil => simpa [hle] using h
  | cons row rest ih =>
    rw [List.foldl_cons, List.map_cons, List.sum_cons]
    cases hreservation : row.reservation with
    | none =>
      have hzero : (if decide (row.tenant = some tenant) then c.share none else 0) = 0 := by
        split <;> rfl
      rw [hzero, Nat.zero_add]
      exact ih reserved hle h
    | some reservation =>
      cases htenant : row.tenant with
      | none => simpa [htenant, hreservation] using ih reserved hle h
      | some other =>
        by_cases hother : other = tenant
        · subst hother
          have hcharged : c.of (((ledger.chargeTenant reserved other reservation).lookup
              other).getD (ledger.emptyTenantCap other)) =
              some (min (level + c.amount reservation) u64Max) := by
            rw [lookup_chargeTenant_self, Option.getD_some, of_addReservation, h,
              addComponent_some c reservation hle]
          rw [if_pos (decide_eq_true rfl)]
          refine (ih _ (Nat.min_le_right _ _) hcharged).trans ?_
          congr 1
          simp only [Component.share, Option.map_some, Option.getD_some]
          omega
        · have hne : tenant ≠ other := Ne.symm hother
          have hkept : c.of (((ledger.chargeTenant reserved other reservation).lookup
              tenant).getD (ledger.emptyTenantCap tenant)) = some level := by
            rw [lookup_chargeTenant_of_ne ledger reserved reservation hne]
            exact h
          rw [if_neg (by simpa using hother), Nat.zero_add]
          exact ih _ hle hkept

/-- The entry of a tenant with a quota as a meter. -/
def ofTenant (ledger : ResourceLedger) (tenant : String) (quota : ResourceCapacity)
    (hquota : ledger.tenantQuota tenant = some quota) (c : Component) (limit : ℕ)
    (hlimit : c.of quota = some limit) (hbelow : limit < u64Max) : Meter ledger where
  component := c
  counts context := decide (context.bind ControlContext.tenant = some tenant)
  limit := limit
  view totals := totals.tenantLevel ledger (some tenant)
  below := hbelow
  start active := by
    have hempty : c.of (((∅ : TenantMap).lookup tenant).getD (ledger.emptyTenantCap tenant)) =
        some 0 := of_emptyTenantCap ledger c hquota (by rw [hlimit]; rfl)
    refine (tenantTotals_level ledger c tenant active ∅ (Nat.zero_le _) hempty).trans ?_
    rw [Nat.zero_add]
    rfl
  charge totals task reservation level hdecision hlevel hle := by
    obtain ⟨_, _, _, hfits⟩ := consider_eq_reserve hdecision
    by_cases htenant : task.tenant = some tenant
    · have hcounts : decide (task.controlContext.bind ControlContext.tenant = some tenant) = true :=
        decide_eq_true htenant
      rw [htenant] at hfits ⊢
      simp only [ResourceLedger.canReserveForTenant, Option.bind_some, hquota] at hfits
      have hsum : level + c.amount reservation ≤ limit :=
        add_amount_le hfits hlimit hbelow hlevel hle
      rw [hcounts, if_pos rfl]
      refine ⟨hsum, ?_⟩
      simp only [CycleTotals.tenantLevel, CycleTotals.charge, Option.bind_some, Option.getD_some]
        at hlevel ⊢
      rw [lookup_chargeTenant_self, Option.getD_some, of_addReservation, hlevel,
        addComponent_some c reservation (by omega), min_eq_left (by omega)]
    · have hcounts :
          decide (task.controlContext.bind ControlContext.tenant = some tenant) = false :=
        decide_eq_false htenant
      rw [hcounts]
      refine ⟨by simpa using hle, ?_⟩
      cases hother : task.tenant with
      | none => simpa [CycleTotals.tenantLevel, CycleTotals.charge] using hlevel
      | some other =>
        have hne : tenant ≠ other := by
          rintro rfl
          exact htenant hother
        simpa [CycleTotals.tenantLevel, CycleTotals.charge,
          lookup_chargeTenant_of_ne ledger _ _ hne] using hlevel
  refund totals task reservation level hlevel :=
    ⟨level, hlevel, Nat.le_refl _, Nat.le_add_right _ _⟩

end Meter

namespace World

/-- The rows of a tenant. -/
def ofTenant (tenant : String) (row : TaskRecord) : Bool := decide (row.tenant = some tenant)

/-- One component whose limit the saturating arithmetic can tell apart from its top. -/
theorem active_sum_le_of_below {svc : RuntimeService} {trace : List (World × Event)} {last : World}
    (hrun : Run svc init trace last) (hlife : OneLife trace) {c : Component} {limit : ℕ}
    (hlimit : c.of svc.ledger.capacity = some limit) (hbelow : limit < u64Max) :
    ∀ s ∈ Runs.visited trace last, s.db.activeSum c (fun _ => true) ≤ limit := by
  intro s hs
  let m := Meter.ofCapacity svc.ledger c limit hlimit hbelow
  have hsafe : ∀ s ∈ Runs.visited trace last, ∃ d, m.Safe s d := by
    refine hrun.invariant_visited (G := fun _ e => e.action.isCrash = false)
      ⟨.idle, Meter.safe_init _ m⟩ ?_ hlife
    rintro w e w' ⟨d, hd⟩ hlife hstep
    exact hd.step (fun _ _ _ _ => rfl) hlife hstep
  obtain ⟨d, hd⟩ := hsafe s hs
  exact (m.activeSum_eq s.db).trans_le hd.limit

/-- Ledger safety: the active reservations of all rows stay within the capacity
in every component that the capacity has. -/
theorem active_sum_le_capacity {svc : RuntimeService} {trace : List (World × Event)} {last : World}
    (hrun : Run svc init trace last) (hlife : OneLife trace)
    (hbelow : ∀ c limit, Component.of c svc.ledger.capacity = some limit → limit < u64Max) :
    ∀ s ∈ Runs.visited trace last, ∀ c limit, Component.of c svc.ledger.capacity = some limit →
      s.db.activeSum c (fun _ => true) ≤ limit := by
  intro s hs c limit hlimit
  exact active_sum_le_of_below hrun hlife hlimit (hbelow c limit hlimit) s hs

/-- Two tasks on one slot: the second waits until the first is done. -/
theorem active_sum_le_capacity_of_one_slot :
    ∃ trace last, Run (smallService ⟨1, some 100, none⟩) init trace last ∧
      trace.map Prod.snd =
        events (submitActions 0 (commandRequest "a") ++ dispatchActions 10 ++
          submitActions 1 (commandRequest "b") ++ dispatchActions 11 ++ shimActions 0 12) ∧
      ∀ s ∈ Runs.visited trace last, ∀ c limit,
        Component.of c (⟨1, some 100, none⟩ : ResourceCapacity) = some limit →
          s.db.activeSum c (fun _ => true) ≤ limit := by
  have hexec : (execute (smallService ⟨1, some 100, none⟩) (fun _ _ => true)
      (events (submitActions 0 (commandRequest "a") ++ dispatchActions 10 ++
        submitActions 1 (commandRequest "b") ++ dispatchActions 11 ++ shimActions 0 12))).any
      (fun _ => true) = true := by decide +kernel
  obtain ⟨trace, last, hrun, hlabels, _, _⟩ := Runs.exists_run_of_exec hexec
  refine ⟨trace, last, hrun, hlabels, active_sum_le_capacity hrun ?_ ?_⟩
  · exact Runs.forall_of_labels (P := fun e => e.action.isCrash = false) hlabels (by decide)
  · intro c limit hlimit
    cases c <;> cases hlimit <;> decide

/-- The task is still the one of its row, or its row is gone for good. -/
def Known (w : World) (task : TaskRecord) : Prop :=
  (∃ row, w.db.tasks.find task.taskId = some row ∧ row.controlContext = task.controlContext) ∨
    (w.db.tasks.find task.taskId = none ∧ task.taskId ∈ w.deleted)

/-- A listed task stays known as long as deleted ids are not submitted again. -/
theorem Known.step {svc : RuntimeService} {w w' : World} {e : Event} {task : TaskRecord}
    (h : Known w task) (hnew : NoResubmission svc w e) (hstep : w.step svc e = some w') :
    Known w' task :=
  Established.step (P := fun row => row.controlContext = task.controlContext)
    (fun write now row hcontext => (write.effect_controlContext now row).trans hcontext)
    h hnew hstep

/-- Every task on the server's list is known. -/
def PendingKnown (w : World) : Prop := ∀ task ∈ w.pending, Known w task

theorem PendingKnown.step {svc : RuntimeService} {w w' : World} {e : Event}
    (h : PendingKnown w) (hnew : NoResubmission svc w e) (hstep : w.step svc e = some w') :
    PendingKnown w' := by
  intro task htask
  have hlisted : w'.db = w.db → w.db.tasks.find task.taskId = some task → Known w' task := by
    intro hdb hfind
    exact .inl ⟨task, by rw [hdb]; exact hfind, rfl⟩
  rcases step_pending hstep with hsub | ⟨hdb, haccepted | hrecovered⟩
  · exact (h task (hsub.mem htask)).step hnew hstep
  · rw [haccepted] at htask
    exact hlisted hdb (Db.mem_listAccepted htask).1
  · rw [hrecovered] at htask
    exact hlisted hdb (Db.mem_listNonTerminal htask).1

/-- Tenant quota safety: the active reservations of the rows of a tenant stay
within its quota in every component that the quota sets. -/
theorem tenant_sum_le_quota {svc : RuntimeService} {trace : List (World × Event)} {last : World}
    (hrun : Run svc init trace last) (hlife : OneLife trace)
    (hnew : ∀ x ∈ trace, x.1.NoResubmission svc x.2)
    (hbelow : ∀ tenant quota, svc.ledger.tenantQuota tenant = some quota →
      ∀ c limit, Component.of c quota = some limit → limit < u64Max) :
    ∀ s ∈ Runs.visited trace last, ∀ tenant quota, svc.ledger.tenantQuota tenant = some quota →
      ∀ c limit, Component.of c quota = some limit →
        s.db.activeSum c (ofTenant tenant) ≤ limit := by
  intro s hs tenant quota hquota c limit hlimit
  let m := Meter.ofTenant svc.ledger tenant quota hquota c limit hlimit
    (hbelow tenant quota hquota c limit hlimit)
  have hsafe : ∀ s ∈ Runs.visited trace last, (∃ d, m.Safe s d) ∧ PendingKnown s := by
    refine hrun.invariant_visited
      (G := fun w e => e.action.isCrash = false ∧ w.NoResubmission svc e)
      ⟨⟨.idle, Meter.safe_init _ m⟩, ?_⟩ ?_ (fun x hx => ⟨hlife x hx, hnew x hx⟩)
    · intro task htask
      cases htask
    · rintro w e w' ⟨⟨d, hd⟩, hknown⟩ ⟨hlife, hnew⟩ hstep
      refine ⟨hd.step ?_ hlife hstep, hknown.step hnew hstep⟩
      have hpending : w.pending = d.pending := by simp only [pending, hd.serving]
      intro task htask row hrow
      rcases hknown task (hpending ▸ htask) with ⟨row', hrow', hcontext⟩ | ⟨hnone, _⟩
      · rw [hrow] at hrow'
        cases hrow'
        rw [hcontext]
      · rw [hrow] at hnone
        cases hnone
  obtain ⟨⟨d, hd⟩, _⟩ := hsafe s hs
  exact (m.activeSum_eq s.db).trans_le hd.limit

/-- Two tasks of a tenant with one slot, on a runtime with two. -/
theorem tenant_sum_le_quota_of_one_slot :
    ∃ trace last,
      Run (smallService ⟨2, none, none⟩ ((∅ : TenantMap).insert "t" ⟨1, none, some 8⟩)) init trace
        last ∧
      trace.map Prod.snd =
        events (submitActions 0 (commandRequest "a" (some { tenant := some "t" })) ++
          dispatchActions 10 ++
          submitActions 1 (commandRequest "b" (some { tenant := some "t" })) ++
          dispatchActions 11) ∧
      ∀ s ∈ Runs.visited trace last, ∀ c limit,
        Component.of c (⟨1, none, some 8⟩ : ResourceCapacity) = some limit →
          s.db.activeSum c (ofTenant "t") ≤ limit := by
  let svc := smallService ⟨2, none, none⟩ ((∅ : TenantMap).insert "t" ⟨1, none, some 8⟩)
  have hexec : (execute svc (submitsFresh svc)
      (events (submitActions 0 (commandRequest "a" (some { tenant := some "t" })) ++
        dispatchActions 10 ++ submitActions 1 (commandRequest "b" (some { tenant := some "t" })) ++
        dispatchActions 11))).any (fun _ => true) = true := by decide +kernel
  obtain ⟨trace, last, hrun, hlabels, hcheck, _⟩ := Runs.exists_run_of_exec hexec
  have hquota : svc.ledger.tenantQuota "t" = some ⟨1, none, some 8⟩ := by decide
  refine ⟨trace, last, hrun, hlabels,
    fun s hs => tenant_sum_le_quota hrun ?_ ?_ ?_ s hs "t" _ hquota⟩
  · exact Runs.forall_of_labels (P := fun e => e.action.isCrash = false) hlabels (by decide)
  · exact fun x hx => noResubmission_of_fresh (hcheck x hx)
  · intro tenant quota htenant c limit hlimit
    obtain ⟨_, rfl⟩ := smallService_tenantQuota htenant
    cases c <;> cases hlimit <;> decide

end World

end ExecgoRuntime
