import ExecgoRuntime.LedgerSafety

/-!
The scopes of admission. The whole runtime has a limit, its capacity, and so has
every tenant with a quota. Of each scope the dispatch cycle keeps a total in
memory, and the store holds the sum of the active reservations of its rows. A
task is admitted when it fits the limits of the scopes that count it. That check
is antitone in the totals with respect to an order that ignores what no limit
can tell apart: absent components, and amounts at the top of the word.
-/
namespace ExecgoRuntime

open KeyedTable

inductive Scope
  | runtime
  | tenant (name : String)

namespace Scope

/-- The scope counts the tasks of this tenant. -/
def counts : Scope → Option String → Bool
  | runtime, _ => true
  | tenant name, owner => decide (owner = some name)

def limit (ledger : ResourceLedger) : Scope → Option ResourceCapacity
  | runtime => some ledger.capacity
  | tenant name => ledger.tenantQuota name

/-- What the cycle has in memory. -/
def total (ledger : ResourceLedger) (totals : CycleTotals) : Scope → ResourceCapacity
  | runtime => totals.currentReserved
  | tenant name => totals.tenantLevel ledger (some name)

/-- What the store holds. -/
def sum (scope : Scope) (db : Db) (c : Component) : ℕ :=
  db.activeSum c (fun row => scope.counts row.tenant)

end Scope

/-- As far as `limit` can tell, no component is lower in `high` than in `low`. -/
def AtLeast (limit low high : ResourceCapacity) : Prop :=
  ∀ (c : Component) (bound : ℕ), c.of limit = some bound → bound < u64Max →
    ∀ x, c.of low = some x → ∃ y, c.of high = some y ∧ min x u64Max ≤ y

theorem AtLeast.refl (limit current : ResourceCapacity) : AtLeast limit current current := by
  intro c bound _ _ x hx
  exact ⟨x, hx, Nat.min_le_left _ _⟩

theorem AtLeast.trans {limit low middle high : ResourceCapacity} (h : AtLeast limit low middle)
    (h' : AtLeast limit middle high) : AtLeast limit low high := by
  intro c bound hbound hbelow x hx
  obtain ⟨y, hy, hxy⟩ := h c bound hbound hbelow x hx
  obtain ⟨z, hz, hyz⟩ := h' c bound hbound hbelow y hy
  exact ⟨z, hz, by omega⟩

/-- What fits above a total fits above a lower one. -/
theorem AtLeast.fits {limit low high : ResourceCapacity} {r : TaskResourceReservation}
    (h : AtLeast limit low high) (hfits : fitsWithin limit high r = true) :
    fitsWithin limit low r = true := by
  rw [fitsWithin_iff] at hfits ⊢
  intro c
  rw [componentFits_iff]
  intro x amount bound hx hamount hbound
  by_cases hbelow : bound < u64Max
  · obtain ⟨y, hy, hxy⟩ := h c bound hbound hbelow x hx
    have hle := (componentFits_iff _ _ _).mp (hfits c) y amount bound hy hamount hbound
    unfold satAdd Saturating.add at hle ⊢
    omega
  · have htop : satAdd x amount ≤ u64Max := Saturating.add_le_top _ _ _
    omega

theorem atLeast_add (limit current : ResourceCapacity) (r : TaskResourceReservation) :
    AtLeast limit current (addReservation current r) := by
  intro c bound _ _ x hx
  rw [of_addReservation, hx]
  cases c.requested r with
  | none => exact ⟨x, rfl, Nat.min_le_left _ _⟩
  | some amount =>
    refine ⟨satAdd x amount, rfl, ?_⟩
    unfold satAdd Saturating.add
    omega

/-- What was admitted was added without a cap, so taking it away again leads back. -/
theorem atLeast_add_subtract {limit current : ResourceCapacity} {r : TaskResourceReservation}
    (hfits : fitsWithin limit current r = true) :
    AtLeast limit current (subtractReservation (addReservation current r) r) := by
  intro c bound hbound hbelow x hx
  rw [of_subtractReservation, of_addReservation, hx]
  cases hamount : c.requested r with
  | none => exact ⟨x, rfl, Nat.min_le_left _ _⟩
  | some amount =>
    have hle := (componentFits_iff _ _ _).mp ((fitsWithin_iff _ _ _).mp hfits c) x amount bound hx
      hamount hbound
    refine ⟨satAdd x amount - amount, rfl, ?_⟩
    unfold satAdd Saturating.add at hle ⊢
    omega

namespace CycleTotals

variable {ledger : ResourceLedger} {totals totals' totals'' : CycleTotals}

/-- Both checks that a task has to pass. -/
def Admits (ledger : ResourceLedger) (totals : CycleTotals) (tenant : Option String)
    (r : TaskResourceReservation) : Prop :=
  ledger.canReserve totals.currentReserved r = true ∧
    ledger.canReserveForTenant tenant (totals.tenantLevel ledger tenant) r = true

theorem admits_iff (ledger : ResourceLedger) (totals : CycleTotals) (tenant : Option String)
    (r : TaskResourceReservation) :
    totals.Admits ledger tenant r ↔
      ∀ (scope : Scope) (limit : ResourceCapacity), scope.counts tenant = true →
        scope.limit ledger = some limit →
        fitsWithin limit (scope.total ledger totals) r = true := by
  constructor
  · rintro ⟨hcapacity, hquota⟩ scope limit hcounts hlimit
    cases scope with
    | runtime =>
      cases hlimit
      exact hcapacity
    | tenant name =>
      have htenant : tenant = some name := of_decide_eq_true hcounts
      have hlookup : ledger.tenantQuota name = some limit := hlimit
      rw [htenant] at hquota
      unfold ResourceLedger.canReserveForTenant at hquota
      rw [Option.bind_some, hlookup] at hquota
      exact hquota
  · intro h
    refine ⟨h .runtime ledger.capacity rfl rfl, ?_⟩
    unfold ResourceLedger.canReserveForTenant
    cases tenant with
    | none => rfl
    | some name =>
      rw [Option.bind_some]
      cases hquota : ledger.tenantQuota name with
      | none => rfl
      | some quota => exact h (.tenant name) quota (decide_eq_true rfl) hquota

theorem admits_of_consider {task : TaskRecord} {reservation : TaskResourceReservation}
    (h : consider ledger totals task = .reserve reservation) :
    reservation = task.requestedReservation ∧ task.hasActiveReservation = false ∧
      totals.Admits ledger task.tenant task.requestedReservation := by
  obtain ⟨hrequested, hidle, hcapacity, hquota⟩ := consider_eq_reserve h
  rw [hrequested] at hcapacity hquota
  exact ⟨hrequested, hidle, hcapacity, hquota⟩

/-- A task is passed over because it is reserved already or because it does not fit. -/
theorem not_admits_of_skip {task : TaskRecord} (h : consider ledger totals task = .skip)
    (hidle : task.hasActiveReservation = false) :
    ¬ totals.Admits ledger task.tenant task.requestedReservation := by
  rintro ⟨hcapacity, hquota⟩
  unfold consider at h
  rw [hcapacity, hquota, hidle] at h
  cases hkill : task.killRequested <;> simp [hkill] at h

theorem killRequested_of_cancel {task : TaskRecord} (h : consider ledger totals task = .cancel) :
    task.killRequested = true := by
  cases hkill : task.killRequested with
  | true => rfl
  | false =>
    unfold consider at h
    rw [hkill] at h
    simp only [Bool.false_eq_true, if_false] at h
    split at h
    · cases h
    split at h
    · cases h
    split at h <;> cases h

/-- No total shrinks as far as its limit can tell. -/
def Rises (ledger : ResourceLedger) (totals totals' : CycleTotals) : Prop :=
  ∀ (scope : Scope) (limit : ResourceCapacity), scope.limit ledger = some limit →
    AtLeast limit (scope.total ledger totals) (scope.total ledger totals')

theorem Rises.refl (ledger : ResourceLedger) (totals : CycleTotals) :
    totals.Rises ledger totals := fun _ _ _ => AtLeast.refl _ _

theorem Rises.trans (h : totals.Rises ledger totals') (h' : totals'.Rises ledger totals'') :
    totals.Rises ledger totals'' := fun scope limit hlimit =>
  (h scope limit hlimit).trans (h' scope limit hlimit)

theorem Rises.admits (h : totals.Rises ledger totals') {tenant : Option String}
    {r : TaskResourceReservation} (hadmits : totals'.Admits ledger tenant r) :
    totals.Admits ledger tenant r := by
  rw [admits_iff] at hadmits ⊢
  intro scope limit hcounts hlimit
  exact (h scope limit hlimit).fits (hadmits scope limit hcounts hlimit)

end CycleTotals

namespace Scope

variable (ledger : ResourceLedger) (totals : CycleTotals) (scope : Scope)

/-- A reservation is added to the scopes that count its task. -/
theorem total_charge (owner : Option String) (r : TaskResourceReservation) :
    scope.total ledger (totals.charge ledger owner r) =
      if scope.counts owner then addReservation (scope.total ledger totals) r
      else scope.total ledger totals := by
  cases scope with
  | runtime => rfl
  | tenant name =>
    by_cases howner : owner = some name
    · have hcounts : (tenant name).counts owner = true := decide_eq_true howner
      rw [if_pos hcounts, howner]
      exact congrArg (fun entry => Option.getD entry (ledger.emptyTenantCap name))
        (lookup_chargeTenant_self ledger totals.tenantReserved name r)
    · have hcounts : (tenant name).counts owner = false := decide_eq_false howner
      rw [if_neg (by simp [hcounts])]
      cases owner with
      | none => rfl
      | some other =>
        have hne : name ≠ other := by
          rintro rfl
          exact howner rfl
        exact congrArg (fun entry => Option.getD entry (ledger.emptyTenantCap name))
          (lookup_chargeTenant_of_ne ledger totals.tenantReserved r hne)

end Scope

namespace CycleTotals

variable {ledger : ResourceLedger} {totals : CycleTotals}

theorem rises_charge (ledger : ResourceLedger) (totals : CycleTotals) (owner : Option String)
    (r : TaskResourceReservation) : totals.Rises ledger (totals.charge ledger owner r) := by
  intro scope limit _
  rw [Scope.total_charge]
  split
  · exact atLeast_add _ _ _
  · exact AtLeast.refl _ _

/-- A failed spawn gives back no more than its own reservation. -/
theorem rises_charge_refund {owner : Option String} {r : TaskResourceReservation}
    (hadmits : totals.Admits ledger owner r) :
    totals.Rises ledger ((totals.charge ledger owner r).refund r) := by
  intro scope limit hlimit
  cases scope with
  | runtime =>
    cases hlimit
    exact atLeast_add_subtract hadmits.1
  | tenant name => exact rises_charge ledger totals owner r (.tenant name) limit hlimit

end CycleTotals

namespace Scope

/-- What a row has in the sum of a scope. -/
def weight (scope : Scope) (c : Component) (row : TaskRecord) : ℕ :=
  if row.hasActiveReservation && scope.counts row.tenant then c.share row.reservation else 0

theorem sum_eq_total (scope : Scope) (db : Db) (c : Component) :
    scope.sum db c = db.tasks.total (scope.weight c) := Table.select_sum _ _ _

theorem weight_of_idle (scope : Scope) (c : Component) {row : TaskRecord}
    (h : row.hasActiveReservation = false) : scope.weight c row = 0 := by
  simp [weight, h]

/-- A write changes a sum by what it changes in its own row. -/
theorem sum_write (scope : Scope) (c : Component) {w : TaskWrite} {now : Timestamp}
    {taskId : TaskId} {db db' : Db} {row : TaskRecord} (hrun : w.run now taskId db = .ok db')
    (hrow : db.tasks.find taskId = some row) :
    scope.sum db' c + scope.weight c row = scope.sum db c + scope.weight c (w.effect now row) := by
  have hbefore := db.tasks.total_eq_erase_add taskId (scope.weight c)
  have hafter := db'.tasks.total_eq_erase_add taskId (scope.weight c)
  have hothers : db'.tasks.erase taskId = db.tasks.erase taskId := by
    rw [(TaskWrite.run_spec hrun).tasks, Table.erase_update_self]
  rw [hrow] at hbefore
  rw [hothers, Db.find_write hrun, if_pos rfl, hrow] at hafter
  simp only [Option.map_some, Option.getD_some] at hbefore hafter
  rw [sum_eq_total, sum_eq_total]
  omega

/-- The amounts of the empty total of a scope. -/
def start (ledger : ResourceLedger) : Scope → ResourceCapacity
  | runtime =>
    { taskSlots := 0
      memoryBytes := ledger.capacity.memoryBytes.map (fun _ => 0)
      pids := ledger.capacity.pids.map (fun _ => 0) }
  | tenant name => ledger.emptyTenantCap name

theorem level_start (ledger : ResourceLedger) (scope : Scope) (c : Component) :
    c.level (scope.start ledger) = 0 := by
  cases scope with
  | runtime => exact getD_reservedCapacity_nil ledger c
  | tenant name => exact level_emptyTenantCap ledger c name

/-- A component with a limit is present from the start. -/
theorem isSome_start {ledger : ResourceLedger} {scope : Scope} {limit : ResourceCapacity}
    (hlimit : scope.limit ledger = some limit) {c : Component} (h : (c.of limit).isSome = true) :
    (c.of (scope.start ledger)).isSome = true := by
  cases scope with
  | runtime =>
    cases hlimit
    have hzero : c.of (runtime.start ledger) = (c.of ledger.capacity).map (fun _ => 0) :=
      of_reservedCapacity_nil ledger c
    rw [hzero, Option.isSome_map]
    exact h
  | tenant name =>
    have hempty := of_emptyTenantCap ledger c hlimit h
    exact Option.isSome_iff_exists.mpr ⟨_, hempty⟩

/-- The reservations that a snapshot has for a scope. -/
def reservations (scope : Scope) (active : List TaskRecord) : List TaskResourceReservation :=
  (active.filter (fun row => scope.counts row.tenant)).filterMap TaskRecord.reservation

private theorem reservations_cons (scope : Scope) (row : TaskRecord) (rest : List TaskRecord) :
    scope.reservations (row :: rest) =
      (if scope.counts row.tenant then row.reservation.toList else []) ++
        scope.reservations rest := by
  unfold reservations
  cases hcounts : scope.counts row.tenant with
  | false => simp [hcounts]
  | true => cases hreservation : row.reservation <;> simp [hcounts, hreservation]

private theorem entry_tenantTotals (ledger : ResourceLedger) (name : String)
    (active : List TaskRecord) (reserved : TenantMap) :
    ((active.foldl
        (fun reserved task =>
          match task.reservation, task.tenant with
          | some reservation, some owner => ledger.chargeTenant reserved owner reservation
          | _, _ => reserved) reserved).lookup name).getD (ledger.emptyTenantCap name) =
      ((tenant name).reservations active).foldl addReservation
        ((reserved.lookup name).getD (ledger.emptyTenantCap name)) := by
  induction active generalizing reserved with
  | nil => rfl
  | cons row rest ih =>
    rw [List.foldl_cons, ih, reservations_cons, List.foldl_append]
    congr 1
    by_cases howner : row.tenant = some name
    · have hcounts : (tenant name).counts row.tenant = true := decide_eq_true howner
      rw [if_pos hcounts, howner]
      cases row.reservation with
      | none => rfl
      | some reservation =>
        simp only [lookup_chargeTenant_self, Option.getD_some, Option.toList_some, List.foldl_cons,
          List.foldl_nil]
    · have hcounts : (tenant name).counts row.tenant = false := decide_eq_false howner
      rw [hcounts, if_neg Bool.false_ne_true, List.foldl_nil]
      cases hreservation : row.reservation with
      | none => rfl
      | some reservation =>
        cases hother : row.tenant with
        | none => rfl
        | some owner =>
          have hne : name ≠ owner := by
            rintro rfl
            exact howner hother
          simp only [lookup_chargeTenant_of_ne ledger _ _ hne]

/-- The first totals of a cycle are folds over the snapshot. -/
theorem total_ofActive (ledger : ResourceLedger) (active : List TaskRecord) (scope : Scope) :
    scope.total ledger (.ofActive ledger active) =
      (scope.reservations active).foldl addReservation (scope.start ledger) := by
  cases scope with
  | runtime =>
    have hall : active.filter (fun row => runtime.counts row.tenant) = active :=
      List.filter_eq_self.mpr (fun _ _ => rfl)
    unfold reservations
    rw [hall]
    rfl
  | tenant name => exact entry_tenantTotals ledger name active ∅

theorem sum_reservations (scope : Scope) (db : Db) (c : Component) :
    ((scope.reservations db.listActiveReservations).map c.amount).sum = scope.sum db c := by
  have hperm := (db.listActiveReservations_perm.filter (fun row => scope.counts row.tenant)).map
    (fun row => c.share row.reservation)
  unfold reservations
  rw [Meter.filterMap_amount_sum, hperm.sum_eq]
  unfold sum Db.activeSum Table.select
  rw [List.filter_filter]
  congr 3
  funext row
  exact Bool.and_comm _ _

/-- They are the sums of the store, capped. -/
theorem level_total_ofActive (ledger : ResourceLedger) (db : Db) (scope : Scope) (c : Component) :
    c.level (scope.total ledger (.ofActive ledger db.listActiveReservations)) =
      min (scope.sum db c) u64Max := by
  have hstart := level_start ledger scope c
  rw [total_ofActive, level_foldl_reserved c _ _ (hstart.trans_le (Nat.zero_le _)), hstart,
    Nat.zero_add, sum_reservations]

theorem isSome_total_ofActive {ledger : ResourceLedger} {scope : Scope} {limit : ResourceCapacity}
    (hlimit : scope.limit ledger = some limit) {c : Component} (h : (c.of limit).isSome = true)
    (active : List TaskRecord) :
    (c.of (scope.total ledger (.ofActive ledger active))).isSome = true := by
  have hstart := isSome_start hlimit h
  rw [Option.isSome_iff_ne_none] at hstart ⊢
  rw [total_ofActive, of_foldl_reserved]
  intro hnone
  exact hstart ((Saturating.foldl_addOption_eq_none_iff _ _).mp hnone).1

end Scope

end ExecgoRuntime
