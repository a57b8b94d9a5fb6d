import ExecgoRuntime.Scopes

/-!
Batch and incremental aggregation. `reserved_capacity` adds up a list of
reservations at once, and the dispatcher then adds one reservation after the other
to its result. The order of the reservations makes no difference, and neither does
the point where the second way takes over from the first.
-/
namespace ExecgoRuntime

theorem eq_of_components {current current' : ResourceCapacity}
    (h : ∀ c : Component, c.of current = c.of current') : current = current' := by
  have hslots : current.taskSlots = current'.taskSlots := Option.some.inj (h .taskSlots)
  have hmemory : current.memoryBytes = current'.memoryBytes := h .memoryBytes
  have hpids : current.pids = current'.pids := h .pids
  obtain ⟨slots, memory, pids⟩ := current
  obtain ⟨slots', memory', pids'⟩ := current'
  cases hslots
  cases hmemory
  cases hpids
  rfl

theorem foldl_addReservation_perm {xs ys : List TaskResourceReservation} (h : xs.Perm ys)
    (start : ResourceCapacity) :
    xs.foldl addReservation start = ys.foldl addReservation start := by
  apply eq_of_components
  intro c
  rw [of_foldl_reserved, of_foldl_reserved]
  exact Saturating.foldl_addOption_perm c.requested h (c.of start)

theorem reservedCapacity_perm (ledger : ResourceLedger) {xs ys : List TaskResourceReservation}
    (h : xs.Perm ys) : ledger.reservedCapacity xs = ledger.reservedCapacity ys := by
  rw [reservedCapacity_eq_foldl ledger xs, reservedCapacity_eq_foldl ledger ys]
  exact foldl_addReservation_perm h _

theorem reservedCapacity_append (ledger : ResourceLedger) (xs ys : List TaskResourceReservation) :
    ledger.reservedCapacity (xs ++ ys) = ys.foldl addReservation (ledger.reservedCapacity xs) := by
  rw [reservedCapacity_eq_foldl ledger (xs ++ ys), List.foldl_append,
    ← reservedCapacity_eq_foldl ledger xs]

/-- The result depends on no order, can be continued by single additions, and is the
true sum of the present amounts, capped once. -/
theorem aggregations_agree (ledger : ResourceLedger) (xs : List TaskResourceReservation) :
    (∀ ys : List TaskResourceReservation, ys.Perm xs →
      ledger.reservedCapacity ys = ledger.reservedCapacity xs) ∧
    (∀ ys : List TaskResourceReservation,
      ledger.reservedCapacity (xs ++ ys) =
        ys.foldl addReservation (ledger.reservedCapacity xs)) ∧
    ∀ c : Component, c.of (ledger.reservedCapacity xs) =
      if c.of ledger.capacity = none ∧ ∀ r ∈ xs, c.requested r = none then none
      else some (min (xs.filterMap c.requested).sum u64Max) :=
  ⟨fun _ hperm => reservedCapacity_perm ledger hperm, reservedCapacity_append ledger xs,
    fun c => of_reservedCapacity_eq ledger c xs⟩

/-- Two amounts of memory above the cap, on a host that sets no memory. -/
theorem aggregations_agree_above_cap :
    ResourceLedger.reservedCapacity ⟨⟨4, none, none⟩, ∅⟩
        [⟨2, some 7, none⟩, ⟨1, some u64Max, none⟩] =
      ResourceLedger.reservedCapacity ⟨⟨4, none, none⟩, ∅⟩
        [⟨1, some u64Max, none⟩, ⟨2, some 7, none⟩] ∧
    ResourceLedger.reservedCapacity ⟨⟨4, none, none⟩, ∅⟩
        [⟨1, some u64Max, none⟩, ⟨2, some 7, none⟩] = ⟨3, some u64Max, none⟩ :=
  ⟨(aggregations_agree ⟨⟨4, none, none⟩, ∅⟩
      [⟨1, some u64Max, none⟩, ⟨2, some 7, none⟩]).1 _ (List.Perm.swap _ _ _), by decide⟩

end ExecgoRuntime
