import ExecgoRuntime.Lib.KeyedTable
import Mathlib.Data.List.Forall2
import Mathlib.Data.List.Sort

/-!
Two tables that are related row by row, such as the rows as they are stored and
the values they stand for. The rows correspond in order, so the relation is kept
by every operation that treats related rows alike, and a query on one table gives
a list that is related to the answer of the other. Operations that may fail are
compared by their outcomes.
-/
namespace KeyedTable

variable {κ ρ σ : Type*} {key : ρ → κ} {key' : σ → κ} {R : ρ → σ → Prop}

/-- Related rows have the same key. -/
def SameKeys (key : ρ → κ) (key' : σ → κ) (R : ρ → σ → Prop) : Prop :=
  ∀ r q, R r q → key r = key' q

namespace Table

def Related (R : ρ → σ → Prop) (t : Table key) (u : Table key') : Prop :=
  List.Forall₂ R t.rows u.rows

theorem related_empty : (empty : Table key).Related R (empty : Table key') := .nil

variable {t : Table key} {u : Table key'}

theorem Related.select (h : t.Related R u) {p : ρ → Bool} {q : σ → Bool}
    (hpq : ∀ r s, R r s → p r = q s) : List.Forall₂ R (t.select p) (u.select q) := by
  refine List.rel_filter (fun r s hrs => ?_) h
  change p r = true ↔ q s = true
  rw [hpq r s hrs]

variable [DecidableEq κ]

theorem Related.find (h : t.Related R u) (hkeys : SameKeys key key' R) (k : κ) :
    Option.Rel R (t.find k) (u.find k) := by
  have hfind : ∀ {rows : List ρ} {rows' : List σ}, List.Forall₂ R rows rows' →
      Option.Rel R (rows.find? (fun r => decide (key r = k)))
        (rows'.find? (fun r => decide (key' r = k))) := by
    intro rows rows' hrows
    induction hrows with
    | nil => exact .none
    | @cons r s _ _ hrs _ ih =>
      have hsame := hkeys r s hrs
      by_cases hk : key' s = k
      · simpa [hsame, hk] using Option.Rel.some hrs
      · simpa [hsame, hk] using ih
  exact hfind h

theorem rel_isSome {a : Option ρ} {b : Option σ} (h : Option.Rel R a b) : a.isSome = b.isSome := by
  cases h <;> rfl

theorem Related.find_isSome (h : t.Related R u) (hkeys : SameKeys key key' R) (k : κ) :
    (t.find k).isSome = (u.find k).isSome :=
  rel_isSome (h.find hkeys k)

theorem Related.find_none (h : t.Related R u) (hkeys : SameKeys key key' R) (k : κ) :
    t.find k = none ↔ u.find k = none := by
  rw [← Option.not_isSome_iff_eq_none, ← Option.not_isSome_iff_eq_none, h.find_isSome hkeys]

theorem Related.insert (h : t.Related R u) {r : ρ} {s : σ} (hrs : R r s)
    (hr : t.find (key r) = none) (hs : u.find (key' s) = none) :
    (t.insert r hr).Related R (u.insert s hs) :=
  List.rel_append h (.cons hrs .nil)

/-- The updates agree on the rows that have the key. -/
theorem Related.update (h : t.Related R u) (hkeys : SameKeys key key' R) (k : κ) {f : ρ → ρ}
    {g : σ → σ} (hf : KeepsKey key f) (hg : KeepsKey key' g)
    (hfg : ∀ r s, R r s → key r = k → R (f r) (g s)) :
    (t.update k f hf).Related R (u.update k g hg) := by
  refine List.rel_map (fun r s hrs => ?_) h
  have hsame := hkeys r s hrs
  by_cases hk : key r = k
  · simpa only [if_pos hk, if_pos (hsame ▸ hk : key' s = k)] using hfg r s hrs hk
  · simpa only [if_neg hk, if_neg (hsame ▸ hk : ¬ key' s = k)] using hrs

theorem Related.erase (h : t.Related R u) (hkeys : SameKeys key key' R) (k : κ) :
    (t.erase k).Related R (u.erase k) :=
  h.select (p := fun r => decide (key r ≠ k)) (q := fun s => decide (key' s ≠ k))
    (fun r s hrs => by rw [hkeys r s hrs])

end Table

/-- Both fail with the same error, or both succeed with related values. -/
inductive Outcome {ε α β : Type*} (R : α → β → Prop) : Except ε α → Except ε β → Prop
  | ok {a : α} {b : β} : R a b → Outcome R (.ok a) (.ok b)
  | error (e : ε) : Outcome R (.error e) (.error e)

namespace Outcome

variable {ε α β γ δ : Type*} {S : α → β → Prop} {T : γ → δ → Prop} {x : Except ε α}
  {y : Except ε β}

theorem bind (h : Outcome S x y) {f : α → Except ε γ} {g : β → Except ε δ}
    (hfg : ∀ a b, S a b → Outcome T (f a) (g b)) : Outcome T (x.bind f) (y.bind g) := by
  cases h with
  | ok hab => exact hfg _ _ hab
  | error e => exact .error e

theorem exists_of_ok (h : Outcome S x y) {b : β} (hy : y = .ok b) : ∃ a, x = .ok a ∧ S a b := by
  cases h with
  | ok hab =>
    cases hy
    exact ⟨_, rfl, hab⟩
  | error e => cases hy

end Outcome

theorem forall₂_orderedInsert {le : ρ → ρ → Prop} {le' : σ → σ → Prop} [DecidableRel le]
    [DecidableRel le'] (hle : ∀ r r' s s', R r s → R r' s' → (le r r' ↔ le' s s')) {r : ρ} {s : σ}
    (hrs : R r s) {rows : List ρ} {rows' : List σ} (h : List.Forall₂ R rows rows') :
    List.Forall₂ R (rows.orderedInsert le r) (rows'.orderedInsert le' s) := by
  induction h with
  | nil => exact .cons hrs .nil
  | @cons a b as bs hab hrest ih =>
    have hiff := hle r a s b hrs hab
    by_cases hcase : le r a
    · rw [List.orderedInsert_cons_of_le le as hcase,
        List.orderedInsert_cons_of_le le' bs (hiff.mp hcase)]
      exact .cons hrs (.cons hab hrest)
    · rw [List.orderedInsert_of_not_le le as hcase,
        List.orderedInsert_of_not_le le' bs (fun h' => hcase (hiff.mpr h'))]
      exact .cons hab ih

/-- Related rows are sorted alike, ties included. -/
theorem forall₂_insertionSort {le : ρ → ρ → Prop} {le' : σ → σ → Prop} [DecidableRel le]
    [DecidableRel le'] (hle : ∀ r r' s s', R r s → R r' s' → (le r r' ↔ le' s s'))
    {rows : List ρ} {rows' : List σ} (h : List.Forall₂ R rows rows') :
    List.Forall₂ R (rows.insertionSort le) (rows'.insertionSort le') := by
  induction h with
  | nil => exact .nil
  | cons hrs _ ih => exact forall₂_orderedInsert hle hrs ih

theorem map_eq_of_forall₂ {β : Type*} {f : ρ → β} {g : σ → β} (hfg : ∀ r s, R r s → f r = g s)
    {rows : List ρ} {rows' : List σ} (h : List.Forall₂ R rows rows') :
    rows.map f = rows'.map g := by
  induction h with
  | nil => rfl
  | cons hrs _ ih => rw [List.map_cons, List.map_cons, hfg _ _ hrs, ih]

theorem filterMap_eq_of_forall₂ {β : Type*} {f : ρ → Option β} {g : σ → Option β}
    (hfg : ∀ r s, R r s → f r = g s) {rows : List ρ} {rows' : List σ}
    (h : List.Forall₂ R rows rows') : rows.filterMap f = rows'.filterMap g := by
  induction h with
  | nil => rfl
  | cons hrs _ ih => rw [List.filterMap_cons, List.filterMap_cons, hfg _ _ hrs, ih]

/-- The first row that cannot be read fails the list; here none does. -/
theorem mapM_of_forall₂ {ε : Type*} {read : ρ → Except ε σ} {rows : List ρ} {values : List σ}
    (h : List.Forall₂ (fun r q => read r = .ok q) rows values) :
    rows.mapM read = .ok values := by
  induction h with
  | nil => rfl
  | cons hread _ ih =>
    rw [List.mapM_cons, hread, ih]
    rfl

end KeyedTable
