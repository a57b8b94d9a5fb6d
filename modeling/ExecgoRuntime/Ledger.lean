import ExecgoRuntime.Lib.Saturating
import ExecgoRuntime.Types
import Mathlib.Algebra.Order.Group.Nat
import Mathlib.Data.List.AList

/-!
The resource ledger (`ledger.rs`) and the running totals the dispatcher keeps
with it. A capacity and a reservation have three components. The source treats
them in three parallel branches; the lemmas here speak of one component `c` and
are used at all three.
-/
namespace ExecgoRuntime

/-- `u64::saturating_add`. -/
abbrev satAdd (a b : ℕ) : ℕ := Saturating.add u64Max a b

abbrev TenantMap := AList (fun _ : String => ResourceCapacity)

structure ResourceLedger where
  capacity : ResourceCapacity
  tenantQuotas : TenantMap := ∅

/-- An optional amount that is absent on any side is not checked. -/
def componentFits (reserved requested limit : Option ℕ) : Bool :=
  match reserved, requested, limit with
  | some reserved, some requested, some limit => decide (satAdd reserved requested ≤ limit)
  | _, _, _ => true

/-- The body shared by `can_reserve` and `can_reserve_for_tenant`. -/
def fitsWithin (limit reserved : ResourceCapacity) (reservation : TaskResourceReservation) : Bool :=
  decide (satAdd reserved.taskSlots reservation.taskSlots ≤ limit.taskSlots) &&
    componentFits reserved.memoryBytes reservation.memoryBytes limit.memoryBytes &&
    componentFits reserved.pids reservation.pids limit.pids

def exceeds (requested limit : Option ℕ) : Option (ℕ × ℕ) :=
  match requested, limit with
  | some requested, some limit => if limit < requested then some (requested, limit) else none
  | _, _ => none

/-- The body shared by `ensure_within_capacity` and `ensure_within_tenant_quota`. -/
def ensureWithin (who what : String) (limit : ResourceCapacity)
    (reservation : TaskResourceReservation) : AppResult Unit := do
  let reject (requested limit : ℕ) (component : String) : AppError :=
    .insufficientResources (who ++ "task requires " ++ toString requested ++ " " ++ component ++
      " but " ++ what ++ " is " ++ toString limit)
  if limit.taskSlots < reservation.taskSlots then
    throw (reject reservation.taskSlots limit.taskSlots "task slots")
  if let some (requested, limit) := exceeds reservation.memoryBytes limit.memoryBytes then
    throw (reject requested limit "memory_bytes")
  if let some (requested, limit) := exceeds reservation.pids limit.pids then
    throw (reject requested limit "pids")

def addComponent (current requested : Option ℕ) : Option ℕ :=
  match requested with
  | some value => some (satAdd (current.getD 0) value)
  | none => current

def subtractComponent (current requested : Option ℕ) : Option ℕ :=
  match requested with
  | some value => current.map (fun reserved => Saturating.sub reserved value)
  | none => current

def addReservation (current : ResourceCapacity) (reservation : TaskResourceReservation) :
    ResourceCapacity where
  taskSlots := satAdd current.taskSlots reservation.taskSlots
  memoryBytes := addComponent current.memoryBytes reservation.memoryBytes
  pids := addComponent current.pids reservation.pids

def subtractReservation (current : ResourceCapacity) (reservation : TaskResourceReservation) :
    ResourceCapacity where
  taskSlots := Saturating.sub current.taskSlots reservation.taskSlots
  memoryBytes := subtractComponent current.memoryBytes reservation.memoryBytes
  pids := subtractComponent current.pids reservation.pids

namespace ResourceLedger

def tenantQuota (ledger : ResourceLedger) (tenant : String) : Option ResourceCapacity :=
  ledger.tenantQuotas.lookup tenant

def ensureWithinCapacity (ledger : ResourceLedger) (reservation : TaskResourceReservation) :
    AppResult Unit :=
  ensureWithin "" "runtime capacity" ledger.capacity reservation

def ensureWithinTenantQuota (ledger : ResourceLedger) (tenant : Option String)
    (reservation : TaskResourceReservation) : AppResult Unit :=
  match tenant.bind ledger.tenantQuota with
  | some quota =>
    ensureWithin ("tenant '" ++ tenant.getD "" ++ "': ") "tenant quota" quota reservation
  | none => .ok ()

def canReserve (ledger : ResourceLedger) (currentlyReserved : ResourceCapacity)
    (reservation : TaskResourceReservation) : Bool :=
  fitsWithin ledger.capacity currentlyReserved reservation

def canReserveForTenant (ledger : ResourceLedger) (tenant : Option String)
    (tenantReserved : ResourceCapacity) (reservation : TaskResourceReservation) : Bool :=
  match tenant.bind ledger.tenantQuota with
  | some quota => fitsWithin quota tenantReserved reservation
  | none => true

def reservedCapacity (ledger : ResourceLedger) (reservations : List TaskResourceReservation) :
    ResourceCapacity :=
  reservations.foldl
    (fun reserved reservation => {
      taskSlots := satAdd reserved.taskSlots reservation.taskSlots
      memoryBytes := addComponent reserved.memoryBytes reservation.memoryBytes
      pids := addComponent reserved.pids reservation.pids })
    { taskSlots := 0
      memoryBytes := ledger.capacity.memoryBytes.map (fun _ => 0)
      pids := ledger.capacity.pids.map (fun _ => 0) }

/-- The entry the dispatcher starts a tenant with: zero in every component the
tenant's quota sets, and no amount in the others. -/
def emptyTenantCap (ledger : ResourceLedger) (tenant : String) : ResourceCapacity where
  taskSlots := 0
  memoryBytes := ((ledger.tenantQuota tenant).bind ResourceCapacity.memoryBytes).map (fun _ => 0)
  pids := ((ledger.tenantQuota tenant).bind ResourceCapacity.pids).map (fun _ => 0)

/-- `entry(tenant).or_insert(..)` followed by `add_reservation`. -/
def chargeTenant (ledger : ResourceLedger) (reserved : TenantMap) (tenant : String)
    (reservation : TaskResourceReservation) : TenantMap :=
  reserved.insert tenant
    (addReservation ((reserved.lookup tenant).getD (ledger.emptyTenantCap tenant)) reservation)

end ResourceLedger

inductive Component
  | taskSlots
  | memoryBytes
  | pids
  deriving DecidableEq, Repr

namespace Component

def of : Component → ResourceCapacity → Option ℕ
  | taskSlots, capacity => some capacity.taskSlots
  | memoryBytes, capacity => capacity.memoryBytes
  | pids, capacity => capacity.pids

def requested : Component → TaskResourceReservation → Option ℕ
  | taskSlots, reservation => some reservation.taskSlots
  | memoryBytes, reservation => reservation.memoryBytes
  | pids, reservation => reservation.pids

/-- What a reservation contributes to a sum; an absent amount counts as zero. -/
def amount (c : Component) (reservation : TaskResourceReservation) : ℕ :=
  (c.requested reservation).getD 0

end Component

theorem componentFits_iff (reserved requested limit : Option ℕ) :
    componentFits reserved requested limit = true ↔
      ∀ x y z, reserved = some x → requested = some y → limit = some z → satAdd x y ≤ z := by
  cases reserved <;> cases requested <;> cases limit <;> simp [componentFits]

theorem fitsWithin_iff (limit reserved : ResourceCapacity) (r : TaskResourceReservation) :
    fitsWithin limit reserved r = true ↔
      ∀ c : Component, componentFits (c.of reserved) (c.requested r) (c.of limit) = true := by
  constructor
  · intro h c
    simp only [fitsWithin, Bool.and_eq_true] at h
    cases c with
    | taskSlots => simpa [Component.of, Component.requested, componentFits] using h.1.1
    | memoryBytes => exact h.1.2
    | pids => exact h.2
  · intro h
    have hslots := h .taskSlots
    simp only [fitsWithin, Bool.and_eq_true]
    refine ⟨⟨?_, h .memoryBytes⟩, h .pids⟩
    simpa [Component.of, Component.requested, componentFits] using hslots

/-- An admitted reservation keeps a component within its limit, in true arithmetic. -/
theorem add_amount_le {limit reserved : ResourceCapacity} {r : TaskResourceReservation}
    (hfits : fitsWithin limit reserved r = true) {c : Component} {bound level : ℕ}
    (hlimit : c.of limit = some bound) (hbound : bound < u64Max)
    (hlevel : c.of reserved = some level) (hle : level ≤ bound) :
    level + c.amount r ≤ bound := by
  cases hr : c.requested r with
  | none => simpa [Component.amount, hr] using hle
  | some value =>
    have hcap : satAdd level value ≤ bound :=
      (componentFits_iff _ _ _).mp ((fitsWithin_iff _ _ _).mp hfits c) level value bound hlevel hr
        hlimit
    simpa [Component.amount, hr] using (Saturating.add_le_iff hbound).mp hcap

theorem of_addReservation (c : Component) (current : ResourceCapacity)
    (r : TaskResourceReservation) :
    c.of (addReservation current r) = addComponent (c.of current) (c.requested r) := by
  cases c <;> rfl

theorem of_subtractReservation (c : Component) (current : ResourceCapacity)
    (r : TaskResourceReservation) :
    c.of (subtractReservation current r) = subtractComponent (c.of current) (c.requested r) := by
  cases c <;> rfl

/-- Adding to a component that is present adds the amount, up to the cap. -/
theorem addComponent_some (c : Component) (r : TaskResourceReservation) {level : ℕ}
    (h : level ≤ u64Max) :
    addComponent (some level) (c.requested r) = some (min (level + c.amount r) u64Max) := by
  unfold Component.amount
  cases c.requested r with
  | none => simp [addComponent, h]
  | some value => rfl

/-- Subtracting from a component that is present takes at most the amount away. -/
theorem subtractComponent_some (c : Component) (r : TaskResourceReservation) (level : ℕ) :
    ∃ level', subtractComponent (some level) (c.requested r) = some level' ∧ level' ≤ level ∧
      level ≤ level' + c.amount r := by
  unfold Component.amount
  cases c.requested r with
  | none => exact ⟨level, rfl, Nat.le_refl _, Nat.le_add_right _ _⟩
  | some value =>
    refine ⟨level - value, rfl, Nat.sub_le _ _, ?_⟩
    rw [Option.getD_some]
    omega

theorem addComponent_eq (current requested : Option ℕ) :
    addComponent current requested = Saturating.addOption u64Max current requested := by
  cases requested <;> rfl

theorem of_foldl_reserved (c : Component) (start : ResourceCapacity)
    (reservations : List TaskResourceReservation) :
    c.of (reservations.foldl addReservation start) =
      reservations.foldl (fun current r => Saturating.addOption u64Max current (c.requested r))
        (c.of start) := by
  induction reservations generalizing start with
  | nil => rfl
  | cons r rest ih =>
    rw [List.foldl_cons, List.foldl_cons, ih, of_addReservation, addComponent_eq]

/-- The step of `reserved_capacity` is `add_reservation`. -/
theorem reservedCapacity_eq_foldl (ledger : ResourceLedger)
    (reservations : List TaskResourceReservation) :
    ledger.reservedCapacity reservations =
      reservations.foldl addReservation (ledger.reservedCapacity []) := rfl

/-- It starts with zero in every component that the capacity sets. -/
theorem of_reservedCapacity_nil (ledger : ResourceLedger) (c : Component) :
    c.of (ledger.reservedCapacity []) = (c.of ledger.capacity).map (fun _ => 0) := by
  cases c <;> rfl

theorem getD_reservedCapacity_nil (ledger : ResourceLedger) (c : Component) :
    (c.of (ledger.reservedCapacity [])).getD 0 = 0 := by
  rw [of_reservedCapacity_nil]
  cases c.of ledger.capacity <;> rfl

/-- A component is the true sum of the amounts that are there, capped once. It has no
amount when the capacity has none and no reservation brings one. -/
theorem of_reservedCapacity_eq (ledger : ResourceLedger) (c : Component)
    (reservations : List TaskResourceReservation) :
    c.of (ledger.reservedCapacity reservations) =
      if c.of ledger.capacity = none ∧ ∀ r ∈ reservations, c.requested r = none then none
      else some (min (reservations.filterMap c.requested).sum u64Max) := by
  have hzero := getD_reservedCapacity_nil ledger c
  have hfold := Saturating.foldl_addOption c.requested reservations
    (hzero.trans_le (Nat.zero_le u64Max))
  rw [hzero, Nat.zero_add] at hfold
  rw [reservedCapacity_eq_foldl, of_foldl_reserved, hfold]
  simp only [of_reservedCapacity_nil, Option.map_eq_none_iff]

/-- A component that the capacity sets is aggregated as the true sum, capped once. -/
theorem of_reservedCapacity (ledger : ResourceLedger) (c : Component)
    (reservations : List TaskResourceReservation)
    (h : (c.of ledger.capacity).isSome = true) :
    c.of (ledger.reservedCapacity reservations) =
      some (min (reservations.map c.amount).sum u64Max) := by
  have hpresent : ¬ (c.of ledger.capacity = none ∧ ∀ r ∈ reservations, c.requested r = none) :=
    fun hnone => Option.isSome_iff_ne_none.mp h hnone.1
  rw [of_reservedCapacity_eq, if_neg hpresent, Saturating.sum_filterMap]
  rfl

theorem of_emptyTenantCap (ledger : ResourceLedger) (c : Component) {tenant : String}
    {quota : ResourceCapacity} (hquota : ledger.tenantQuota tenant = some quota)
    (h : (c.of quota).isSome = true) : c.of (ledger.emptyTenantCap tenant) = some 0 := by
  obtain ⟨x, hx⟩ := Option.isSome_iff_exists.mp h
  cases c with
  | taskSlots => rfl
  | memoryBytes =>
    simp only [Component.of] at hx ⊢
    simp [ResourceLedger.emptyTenantCap, hquota, hx]
  | pids =>
    simp only [Component.of] at hx ⊢
    simp [ResourceLedger.emptyTenantCap, hquota, hx]

theorem lookup_chargeTenant_self (ledger : ResourceLedger) (reserved : TenantMap)
    (tenant : String) (r : TaskResourceReservation) :
    (ledger.chargeTenant reserved tenant r).lookup tenant =
      some (addReservation ((reserved.lookup tenant).getD (ledger.emptyTenantCap tenant)) r) :=
  AList.lookup_insert reserved

theorem lookup_chargeTenant_of_ne (ledger : ResourceLedger) (reserved : TenantMap)
    {tenant other : String} (r : TaskResourceReservation) (h : other ≠ tenant) :
    (ledger.chargeTenant reserved tenant r).lookup other = reserved.lookup other :=
  AList.lookup_insert_ne h

/-- The amount of a component, an absent one counting as zero. -/
def Component.level (c : Component) (capacity : ResourceCapacity) : ℕ := (c.of capacity).getD 0

theorem level_addReservation (c : Component) {current : ResourceCapacity}
    (r : TaskResourceReservation) (h : c.level current ≤ u64Max) :
    c.level (addReservation current r) = satAdd (c.level current) (c.amount r) := by
  unfold Component.level at *
  rw [of_addReservation, addComponent_eq, Saturating.getD_addOption h]
  rfl

theorem level_subtractReservation (c : Component) (current : ResourceCapacity)
    (r : TaskResourceReservation) :
    c.level (subtractReservation current r) = c.level current - c.amount r := by
  unfold Component.level Component.amount
  rw [of_subtractReservation]
  cases c.requested r with
  | none => rfl
  | some value =>
    cases c.of current with
    | none => simp [subtractComponent]
    | some reserved => rfl

theorem level_foldl_reserved (c : Component) (reservations : List TaskResourceReservation)
    (start : ResourceCapacity) (h : c.level start ≤ u64Max) :
    c.level (reservations.foldl addReservation start) =
      min (c.level start + (reservations.map c.amount).sum) u64Max := by
  unfold Component.level at *
  rw [of_foldl_reserved, Saturating.getD_foldl_addOption c.requested reservations h,
    Saturating.sum_filterMap]
  rfl

theorem level_emptyTenantCap (ledger : ResourceLedger) (c : Component) (tenant : String) :
    c.level (ledger.emptyTenantCap tenant) = 0 := by
  cases c with
  | taskSlots => rfl
  | memoryBytes =>
    simp only [Component.level, Component.of, ResourceLedger.emptyTenantCap]
    cases (ledger.tenantQuota tenant).bind ResourceCapacity.memoryBytes <;> rfl
  | pids =>
    simp only [Component.level, Component.of, ResourceLedger.emptyTenantCap]
    cases (ledger.tenantQuota tenant).bind ResourceCapacity.pids <;> rfl

end ExecgoRuntime
