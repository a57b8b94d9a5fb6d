import ExecgoRuntime.LedgerSafety

/-!
The resources view (`runtime_resources`) beside the dispatcher. Both aggregate
the same active tasks, the view into what is available and the dispatcher into
what is reserved, with different starting entries for a tenant. A component has
the same level on both sides, and what fits into the available amounts is what
the dispatcher's checks accept.
-/
namespace ExecgoRuntime

structure ActiveTaskReservation where
  taskId : TaskId
  status : TaskStatus
  reservation : TaskResourceReservation
  reservedAt : Option Timestamp

structure TenantResourceView where
  tenant : String
  quota : Option ResourceCapacity
  reserved : ResourceCapacity
  available : Option ResourceCapacity

structure RuntimeResourcesResponse where
  runtimeId : String
  capacity : ResourceCapacity
  reserved : ResourceCapacity
  available : ResourceCapacity
  activeReservations : List ActiveTaskReservation
  acceptedWaitingTasks : ℕ
  tenants : List TenantResourceView

/-- The body shared by `available_capacity` and `tenant_available_capacity`. -/
def remaining (limit reserved : ResourceCapacity) : ResourceCapacity where
  taskSlots := Saturating.sub limit.taskSlots reserved.taskSlots
  memoryBytes :=
    limit.memoryBytes.map (fun value => Saturating.sub value (reserved.memoryBytes.getD 0))
  pids := limit.pids.map (fun value => Saturating.sub value (reserved.pids.getD 0))

namespace ResourceLedger

def availableCapacity (ledger : ResourceLedger) (reserved : ResourceCapacity) :
    ResourceCapacity :=
  remaining ledger.capacity reserved

def tenantAvailableCapacity (quota reserved : ResourceCapacity) : ResourceCapacity :=
  remaining quota reserved

end ResourceLedger

/-- The entry that the view starts a tenant with. -/
def noCapacity : ResourceCapacity := { taskSlots := 0 }

def perTenant (active : List TaskRecord) : TenantMap :=
  active.foldl
    (fun reserved task =>
      match task.reservation, task.tenant with
      | some reservation, some tenant =>
        reserved.insert tenant
          (addReservation ((reserved.lookup tenant).getD noCapacity) reservation)
      | _, _ => reserved)
    ∅

/-- Every tenant with a quota gets an entry. -/
def withQuotaTenants (quotas reserved : TenantMap) : TenantMap :=
  quotas.keys.foldl
    (fun reserved tenant =>
      match reserved.lookup tenant with
      | some _ => reserved
      | none => reserved.insert tenant noCapacity)
    reserved

namespace ResourceLedger

def tenantView (ledger : ResourceLedger) (tenant : String) (reserved : ResourceCapacity) :
    TenantResourceView where
  tenant := tenant
  quota := ledger.tenantQuota tenant
  reserved := reserved
  available := (ledger.tenantQuota tenant).map (fun quota =>
    tenantAvailableCapacity quota reserved)

/-- The entries of the map in the order of their keys. -/
def tenantViews (ledger : ResourceLedger) (active : List TaskRecord) : List TenantResourceView :=
  ((withQuotaTenants ledger.tenantQuotas (perTenant active)).entries.insertionSort
    (fun a b => a.1 ≤ b.1)).map (fun entry => ledger.tenantView entry.1 entry.2)

end ResourceLedger

def TaskRecord.activeReservation (task : TaskRecord) : Option ActiveTaskReservation :=
  task.reservation.map (fun reservation =>
    { taskId := task.taskId
      status := task.status
      reservation
      reservedAt := task.reservedAt })

/-- `active` and `waiting` are the answers of the repository. -/
def RuntimeService.runtimeResources (svc : RuntimeService) (runtimeId : String)
    (active : List TaskRecord) (waiting : ℕ) : RuntimeResourcesResponse :=
  let reserved := svc.ledger.reservedCapacity (active.filterMap TaskRecord.reservation)
  { runtimeId
    capacity := svc.ledger.capacity
    reserved
    available := svc.ledger.availableCapacity reserved
    activeReservations := active.filterMap TaskRecord.activeReservation
    acceptedWaitingTasks := waiting
    tenants := svc.ledger.tenantViews active }

/-- What the view says is available to a tenant. -/
def RuntimeResourcesResponse.tenantAvailable (response : RuntimeResourcesResponse)
    (tenant : String) : Option ResourceCapacity :=
  (response.tenants.find? (fun view => view.tenant == tenant)).bind TenantResourceView.available

/-- A reservation fits in every component that is present on both sides. -/
def ResourceCapacity.Fits (available : ResourceCapacity) (r : TaskResourceReservation) : Prop :=
  ∀ (c : Component) (amount requested : ℕ), c.of available = some amount →
    c.requested r = some requested → requested ≤ amount

theorem of_remaining (c : Component) (limit reserved : ResourceCapacity) :
    c.of (remaining limit reserved) =
      (c.of limit).map (fun value => value - (c.of reserved).getD 0) := by
  cases c <;> rfl

/-- A reservation is admitted on top of what is reserved exactly when it fits into
what remains, if the levels are within a limit that can be told apart. -/
theorem fitsWithin_iff_fits {limit reserved shown : ResourceCapacity}
    {r : TaskResourceReservation}
    (hlevel : ∀ c bound, Component.of c limit = some bound →
      bound < u64Max ∧ ∃ level ≤ bound, c.of reserved = some level ∧
        (c.of shown).getD 0 = level) :
    fitsWithin limit reserved r = true ↔ (remaining limit shown).Fits r := by
  rw [fitsWithin_iff]
  constructor
  · intro hfits c amount requested hamount hrequested
    rw [of_remaining] at hamount
    obtain ⟨bound, hbound, rfl⟩ := Option.map_eq_some_iff.mp hamount
    obtain ⟨hbelow, level, hle, hreserved, hshown⟩ := hlevel c bound hbound
    have hadd := (componentFits_iff _ _ _).mp (hfits c) level requested bound hreserved
      hrequested hbound
    rw [Saturating.add_le_iff hbelow] at hadd
    rw [hshown]
    omega
  · intro hfits c
    refine (componentFits_iff _ _ _).mpr ?_
    intro level requested bound hreserved hrequested hbound
    obtain ⟨hbelow, level', hle, hreserved', hshown⟩ := hlevel c bound hbound
    rw [hreserved] at hreserved'
    cases hreserved'
    have hroom := hfits c (bound - level) requested (by rw [of_remaining, hbound, ← hshown]; rfl)
      hrequested
    rw [Saturating.add_le_iff hbelow]
    omega

/-- Two amounts agree in every component, an absent one counting as zero. -/
def SameLevels (shown held : ResourceCapacity) : Prop :=
  ∀ c : Component, (c.of shown).getD 0 = (c.of held).getD 0

theorem SameLevels.add {shown held : ResourceCapacity} (h : SameLevels shown held)
    (r : TaskResourceReservation) :
    SameLevels (addReservation shown r) (addReservation held r) := by
  intro c
  rw [of_addReservation, of_addReservation]
  cases hrequested : c.requested r with
  | none => exact h c
  | some value => simp only [addComponent, Option.getD_some, h c]

theorem sameLevels_empty (ledger : ResourceLedger) (tenant : String) :
    SameLevels noCapacity (ledger.emptyTenantCap tenant) := by
  intro c
  cases c with
  | taskSlots => rfl
  | memoryBytes =>
    simp only [Component.of, noCapacity, ResourceLedger.emptyTenantCap]
    cases (ledger.tenantQuota tenant).bind ResourceCapacity.memoryBytes <;> rfl
  | pids =>
    simp only [Component.of, noCapacity, ResourceLedger.emptyTenantCap]
    cases (ledger.tenantQuota tenant).bind ResourceCapacity.pids <;> rfl

/-- The map of the view and that of the dispatcher, at one tenant. -/
def SameEntry (ledger : ResourceLedger) (shown held : TenantMap) (tenant : String) : Prop :=
  SameLevels ((shown.lookup tenant).getD noCapacity)
    ((held.lookup tenant).getD (ledger.emptyTenantCap tenant))

theorem SameEntry.charge {ledger : ResourceLedger} {shown held : TenantMap}
    (h : ∀ tenant, SameEntry ledger shown held tenant) (tenant : String)
    (r : TaskResourceReservation) (other : String) :
    SameEntry ledger
      (shown.insert tenant (addReservation ((shown.lookup tenant).getD noCapacity) r))
      (ledger.chargeTenant held tenant r) other := by
  unfold SameEntry
  by_cases hother : other = tenant
  · subst hother
    rw [AList.lookup_insert, lookup_chargeTenant_self]
    exact (h other).add r
  · rw [AList.lookup_insert_ne hother, lookup_chargeTenant_of_ne ledger held r hother]
    exact h other

/-- Both maps are filled from the same tasks, with the same levels. -/
theorem perTenant_same (ledger : ResourceLedger) (active : List TaskRecord) (tenant : String) :
    SameEntry ledger (perTenant active) (CycleTotals.tenantTotals ledger active) tenant := by
  have hfill : ∀ (active : List TaskRecord) (shown held : TenantMap),
      (∀ tenant, SameEntry ledger shown held tenant) →
      ∀ tenant, SameEntry ledger
        (active.foldl (fun reserved task =>
          match task.reservation, task.tenant with
          | some reservation, some tenant =>
            reserved.insert tenant
              (addReservation ((reserved.lookup tenant).getD noCapacity) reservation)
          | _, _ => reserved) shown)
        (active.foldl (fun reserved task =>
          match task.reservation, task.tenant with
          | some reservation, some tenant => ledger.chargeTenant reserved tenant reservation
          | _, _ => reserved) held) tenant := by
    intro active
    induction active with
    | nil => exact fun shown held h => h
    | cons task rest ih =>
      intro shown held h
      rw [List.foldl_cons, List.foldl_cons]
      apply ih
      cases task.reservation with
      | none => exact h
      | some reservation =>
        cases task.tenant with
        | none => exact h
        | some tenant => exact SameEntry.charge h tenant reservation
  exact hfill active ∅ ∅ (sameLevels_empty ledger) tenant

/-- The entries that are added for quotas are empty. -/
theorem lookup_withQuotaTenants (quotas reserved : TenantMap) (tenant : String) :
    ((withQuotaTenants quotas reserved).lookup tenant).getD noCapacity =
      (reserved.lookup tenant).getD noCapacity := by
  unfold withQuotaTenants
  generalize quotas.keys = keys
  induction keys generalizing reserved with
  | nil => rfl
  | cons key rest ih =>
    rw [List.foldl_cons, ih]
    cases hkey : reserved.lookup key with
    | some entry => rfl
    | none =>
      by_cases htenant : tenant = key
      · subst htenant
        rw [AList.lookup_insert, hkey]
        rfl
      · rw [AList.lookup_insert_ne htenant]

theorem isSome_withQuotaTenants (quotas reserved : TenantMap) {tenant : String}
    (h : tenant ∈ quotas.keys) :
    ((withQuotaTenants quotas reserved).lookup tenant).isSome = true := by
  unfold withQuotaTenants
  generalize quotas.keys = keys at h
  have hfill : tenant ∈ keys ∨ (reserved.lookup tenant).isSome = true := .inl h
  clear h
  induction keys generalizing reserved with
  | nil => exact hfill.resolve_left List.not_mem_nil
  | cons key rest ih =>
    rw [List.foldl_cons]
    apply ih
    cases hkey : reserved.lookup key with
    | some entry =>
      rcases hfill with hmem | hsome
      · rcases List.mem_cons.mp hmem with rfl | hrest
        · exact .inr (by simp [hkey])
        · exact .inl hrest
      · exact .inr hsome
    | none =>
      by_cases htenant : tenant = key
      · subst htenant
        exact .inr (by simp)
      · rcases hfill with hmem | hsome
        · exact .inl ((List.mem_cons.mp hmem).resolve_left htenant)
        · exact .inr (by simpa [AList.lookup_insert_ne htenant] using hsome)

/-- The list of the view has the entries of the map, each under its own tenant. -/
theorem mem_tenantViews_iff (ledger : ResourceLedger) (active : List TaskRecord)
    (view : TenantResourceView) :
    view ∈ ledger.tenantViews active ↔
      ∃ tenant reserved,
        (withQuotaTenants ledger.tenantQuotas (perTenant active)).lookup tenant = some reserved ∧
          view = ledger.tenantView tenant reserved := by
  simp only [ResourceLedger.tenantViews, List.mem_map, List.mem_insertionSort]
  constructor
  · rintro ⟨⟨tenant, reserved⟩, hentry, rfl⟩
    exact ⟨tenant, reserved, AList.mem_lookup_iff.mpr hentry, rfl⟩
  · rintro ⟨tenant, reserved, hlookup, rfl⟩
    exact ⟨⟨tenant, reserved⟩, AList.mem_lookup_iff.mp hlookup, rfl⟩

/-- What the view says is available to a tenant with a quota. -/
theorem tenantAvailable_eq (svc : RuntimeService) (runtimeId : String) (active : List TaskRecord)
    (waiting : ℕ) {tenant : String} {quota : ResourceCapacity}
    (hquota : svc.ledger.tenantQuota tenant = some quota) :
    (svc.runtimeResources runtimeId active waiting).tenantAvailable tenant =
      some (remaining quota (((perTenant active).lookup tenant).getD noCapacity)) := by
  have hkey : tenant ∈ svc.ledger.tenantQuotas.keys :=
    AList.mem_keys.mp (AList.lookup_isSome.mp (by
      rw [ResourceLedger.tenantQuota] at hquota
      rw [hquota]
      rfl))
  obtain ⟨reserved, hreserved⟩ := Option.isSome_iff_exists.mp
    (isSome_withQuotaTenants svc.ledger.tenantQuotas (perTenant active) hkey)
  have hentry : ((perTenant active).lookup tenant).getD noCapacity = reserved := by
    rw [← lookup_withQuotaTenants svc.ledger.tenantQuotas, hreserved]
    rfl
  unfold RuntimeResourcesResponse.tenantAvailable
  cases hfind : (svc.runtimeResources runtimeId active waiting).tenants.find?
      (fun view => view.tenant == tenant) with
  | none =>
    have hmem : svc.ledger.tenantView tenant reserved ∈ svc.ledger.tenantViews active :=
      (mem_tenantViews_iff _ _ _).mpr ⟨tenant, reserved, hreserved, rfl⟩
    have hother := List.find?_eq_none.mp hfind _ hmem
    simp [ResourceLedger.tenantView] at hother
  | some view =>
    have hname : view.tenant = tenant := by simpa using List.find?_some hfind
    obtain ⟨tenant', reserved', hreserved', rfl⟩ :=
      (mem_tenantViews_iff _ _ _).mp (List.mem_of_find?_eq_some hfind)
    obtain rfl : tenant' = tenant := hname
    rw [hreserved] at hreserved'
    cases hreserved'
    simp only [Option.bind_some, ResourceLedger.tenantView, hquota, Option.map_some,
      ResourceLedger.tenantAvailableCapacity, hentry]

/-- The sum over the active tasks that `p` selects. -/
def taskSum (active : List TaskRecord) (c : Component) (p : TaskRecord → Bool) : ℕ :=
  (active.map (fun task => if p task then c.share task.reservation else 0)).sum

/-- The amounts of a limit are below the top, and the tasks stay within them. -/
def Within (active : List TaskRecord) (p : TaskRecord → Bool) (limit : ResourceCapacity) : Prop :=
  ∀ c bound, Component.of c limit = some bound → bound < u64Max ∧ taskSum active c p ≤ bound

/-- The resources view agrees with the dispatcher: both of its checks accept a
reservation exactly when it fits into what the view shows as available, to the
runtime and to a tenant with a quota. -/
theorem resources_view_agrees {svc : RuntimeService} {active : List TaskRecord}
    (hcapacity : Within active (fun _ => true) svc.ledger.capacity)
    (hquotas : ∀ tenant quota, svc.ledger.tenantQuota tenant = some quota →
      Within active (World.ofTenant tenant) quota)
    (runtimeId : String) (waiting : ℕ) (tenant : Option String) (r : TaskResourceReservation) :
    (svc.ledger.canReserve (CycleTotals.ofActive svc.ledger active).currentReserved r = true ∧
      svc.ledger.canReserveForTenant tenant
        ((CycleTotals.ofActive svc.ledger active).tenantLevel svc.ledger tenant) r = true) ↔
    (svc.runtimeResources runtimeId active waiting).available.Fits r ∧
      ∀ name quota, tenant = some name → svc.ledger.tenantQuota name = some quota →
        ∃ available,
          (svc.runtimeResources runtimeId active waiting).tenantAvailable name = some available ∧
          available.Fits r := by
  refine and_congr ?_ ?_
  · refine fitsWithin_iff_fits fun c bound hbound => ?_
    obtain ⟨hbelow, hsum⟩ := hcapacity c bound hbound
    have hlevel : c.of (CycleTotals.ofActive svc.ledger active).currentReserved =
        some (min (taskSum active c (fun _ => true)) u64Max) :=
      (Meter.ofCapacity svc.ledger c bound hbound hbelow).start active
    rw [min_eq_left (by omega)] at hlevel
    refine ⟨hbelow, _, hsum, hlevel, ?_⟩
    exact congrArg (fun level => level.getD 0) hlevel
  · cases tenant with
    | none => simp [ResourceLedger.canReserveForTenant]
    | some name =>
      cases hquota : svc.ledger.tenantQuota name with
      | none =>
        simp only [ResourceLedger.canReserveForTenant, Option.bind_some, hquota, true_iff]
        rintro name' quota hname hquota'
        cases hname
        rw [hquota] at hquota'
        cases hquota'
      | some quota =>
        have hfits : fitsWithin quota
            ((CycleTotals.ofActive svc.ledger active).tenantLevel svc.ledger (some name)) r =
              true ↔
            (remaining quota (((perTenant active).lookup name).getD noCapacity)).Fits r := by
          refine fitsWithin_iff_fits fun c bound hbound => ?_
          obtain ⟨hbelow, hsum⟩ := hquotas name quota hquota c bound hbound
          have hlevel : c.of ((CycleTotals.ofActive svc.ledger active).tenantLevel svc.ledger
              (some name)) = some (min (taskSum active c (World.ofTenant name)) u64Max) :=
            (Meter.ofTenant svc.ledger name quota hquota c bound hbound hbelow).start active
          rw [min_eq_left (by omega)] at hlevel
          refine ⟨hbelow, _, hsum, hlevel, (perTenant_same svc.ledger active name c).trans ?_⟩
          exact congrArg (fun level => level.getD 0) hlevel
        simp only [ResourceLedger.canReserveForTenant, Option.bind_some, hquota, hfits]
        constructor
        · rintro hroom name' quota' hname hquota'
          cases hname
          rw [hquota] at hquota'
          cases hquota'
          exact ⟨_, tenantAvailable_eq svc runtimeId active waiting hquota, hroom⟩
        · intro hview
          obtain ⟨available, havailable, hroom⟩ := hview name quota rfl hquota
          rw [tenantAvailable_eq svc runtimeId active waiting hquota] at havailable
          cases havailable
          exact hroom

/-- A running task of the tenant `t` on one slot. -/
private def oneActive : List TaskRecord :=
  [{ taskId := "a", handleId := "a", status := .running
     execution := { kind := .command, program := some "true" }
     limits := {}, sandbox := {}, metadata := [], createdAt := 0, updatedAt := 0
     taskDir := "/t/a", workspaceDir := "/t/a/workspace", requestPath := "/t/a/request.json"
     resultPath := "/t/a/result.json", stdoutPath := "/t/a/stdout.log"
     stderrPath := "/t/a/stderr.log", stdoutMaxBytes := 1, stderrMaxBytes := 1
     controlContext := some { tenant := some "t" }
     reservation := some ⟨1, none, none⟩, reservedAt := some 0 }]

/-- The tenant's one slot is taken, and the view says so. -/
theorem resources_view_agrees_of_one_slot :
    ¬ ∃ available, ((smallService ⟨2, none, none⟩
        ((∅ : TenantMap).insert "t" ⟨1, none, none⟩)).runtimeResources "r" oneActive
          0).tenantAvailable "t" = some available ∧ available.Fits ⟨1, none, none⟩ := by
  let svc := smallService ⟨2, none, none⟩ ((∅ : TenantMap).insert "t" ⟨1, none, none⟩)
  have hcapacity : Within oneActive (fun _ => true) svc.ledger.capacity := by
    intro c bound hbound
    cases c <;> cases hbound
    decide
  have hquotas : ∀ tenant quota, svc.ledger.tenantQuota tenant = some quota →
      Within oneActive (World.ofTenant tenant) quota := by
    intro tenant quota hquota c bound hbound
    obtain ⟨rfl, rfl⟩ := smallService_tenantQuota hquota
    cases c <;> cases hbound
    decide
  have hagree := resources_view_agrees hcapacity hquotas "r" 0 (some "t") ⟨1, none, none⟩
  have hroom : (svc.runtimeResources "r" oneActive 0).available.Fits ⟨1, none, none⟩ := by
    intro c amount requested hamount hrequested
    cases c <;> cases hamount
    cases hrequested
    decide
  have hheld : svc.ledger.canReserveForTenant (some "t")
      ((CycleTotals.ofActive svc.ledger oneActive).tenantLevel svc.ledger (some "t"))
      ⟨1, none, none⟩ = false := by decide
  rintro ⟨available, havailable, hfits⟩
  obtain ⟨_, haccepted⟩ := hagree.mpr ⟨hroom, fun name quota hname _ => by
    cases hname
    exact ⟨available, havailable, hfits⟩⟩
  rw [hheld] at haccepted
  cases haccepted

end ExecgoRuntime
