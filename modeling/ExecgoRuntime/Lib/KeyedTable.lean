import Mathlib.Algebra.BigOperators.Group.List.Basic
import Mathlib.Algebra.Order.BigOperators.Group.List
import Mathlib.Algebra.GroupWithZero.Nat
import Mathlib.Algebra.Order.Group.Nat
import Mathlib.Data.List.Nodup

/-!
Tables of rows with a primary key, the value of a relational store.
A table carries the uniqueness of its keys, so an update, an insertion and a
deletion never have to be re-examined for duplicates. Every operation has a
lookup equation and a weight equation; a client proves facts about single rows
with the first kind and facts about sums over all rows with the second.
-/
namespace KeyedTable

variable {κ ρ : Type*} {key : ρ → κ}

/-- Rows in insertion order. No two rows share a key. -/
structure Table {κ ρ : Type*} (key : ρ → κ) where
  rows : List ρ
  nodup : (rows.map key).Nodup

/-- An update may not move a row to another key. -/
def KeepsKey (key : ρ → κ) (f : ρ → ρ) : Prop := ∀ r, key (f r) = key r

namespace Table

theorem ext_rows {t u : Table key} (h : t.rows = u.rows) : t = u := by
  cases t
  cases u
  cases h
  rfl

def empty : Table key := ⟨[], List.nodup_nil⟩

def select (t : Table key) (p : ρ → Bool) : List ρ := t.rows.filter p

theorem select_nodup (t : Table key) (p : ρ → Bool) : ((t.select p).map key).Nodup :=
  t.nodup.sublist (List.filter_sublist.map key)

def total (t : Table key) (w : ρ → ℕ) : ℕ := (t.rows.map w).sum

/-- The weights of the rows a selection keeps are part of the total weight. -/
theorem select_sum (t : Table key) (p : ρ → Bool) (w : ρ → ℕ) :
    ((t.select p).map w).sum = t.total (fun r => if p r then w r else 0) := by
  simp only [select, total]
  induction t.rows with
  | nil => rfl
  | cons r rest ih =>
    cases hp : p r <;> simp [hp, ih]

variable [DecidableEq κ]

def find (t : Table key) (k : κ) : Option ρ := t.rows.find? (fun r => decide (key r = k))

/-- `UPDATE ... WHERE key = k`: no effect when the row is absent. -/
def update (t : Table key) (k : κ) (f : ρ → ρ) (hf : KeepsKey key f) : Table key where
  rows := t.rows.map (fun r => if key r = k then f r else r)
  nodup := by
    have hkeys : (t.rows.map (fun r => if key r = k then f r else r)).map key =
        t.rows.map key := by
      rw [List.map_map]
      apply List.map_congr_left
      intro r _
      simp only [Function.comp_apply]
      split
      · exact hf r
      · rfl
    rw [hkeys]
    exact t.nodup

def insert (t : Table key) (r : ρ) (h : t.find (key r) = none) : Table key where
  rows := t.rows ++ [r]
  nodup := by
    rw [List.map_append, List.nodup_append]
    refine ⟨t.nodup, by simp, ?_⟩
    intro a ha b hb
    simp only [List.map_cons, List.map_nil, List.mem_singleton] at hb
    obtain ⟨q, hq, rfl⟩ := List.mem_map.mp ha
    have hne := List.find?_eq_none.mp h q hq
    simpa [hb] using hne

def erase (t : Table key) (k : κ) : Table key where
  rows := t.rows.filter (fun r => decide (key r ≠ k))
  nodup := t.nodup.sublist (List.filter_sublist.map key)

theorem find_eq_some_iff (t : Table key) (k : κ) (r : ρ) :
    t.find k = some r ↔ r ∈ t.rows ∧ key r = k := by
  constructor
  · intro h
    exact ⟨List.mem_of_find?_eq_some h, by simpa using List.find?_some h⟩
  · rintro ⟨hmem, rfl⟩
    cases hfind : t.find (key r) with
    | none => simpa using List.find?_eq_none.mp hfind r hmem
    | some q =>
      have hq : q ∈ t.rows := List.mem_of_find?_eq_some hfind
      have hkey : key q = key r := by simpa using List.find?_some hfind
      rw [List.inj_on_of_nodup_map t.nodup hq hmem hkey]

theorem find_key (t : Table key) {k : κ} {r : ρ} (h : t.find k = some r) : key r = k :=
  ((t.find_eq_some_iff k r).mp h).2

theorem find_self (t : Table key) {r : ρ} (h : r ∈ t.rows) : t.find (key r) = some r :=
  (t.find_eq_some_iff _ r).mpr ⟨h, rfl⟩

theorem find_eq_none_iff (t : Table key) (k : κ) :
    t.find k = none ↔ ∀ r ∈ t.rows, key r ≠ k := by
  simp [find]

theorem mem_select_iff (t : Table key) (p : ρ → Bool) (r : ρ) :
    r ∈ t.select p ↔ t.find (key r) = some r ∧ p r = true := by
  rw [select, List.mem_filter, find_eq_some_iff]
  simp

@[simp]
theorem find_empty (k : κ) : (empty : Table key).find k = none := rfl

theorem find_update (t : Table key) (k : κ) (f : ρ → ρ) (hf : KeepsKey key f) (j : κ) :
    (t.update k f hf).find j = if j = k then (t.find k).map f else t.find j := by
  have hcomp : (fun r => decide (key (if key r = k then f r else r) = j)) =
      fun r => decide (key r = j) := by
    funext r
    split
    · rw [hf r]
    · rfl
  have hmap : (t.update k f hf).find j =
      (t.find j).map (fun r => if key r = k then f r else r) := by
    simp only [find, update, List.find?_map, Function.comp_def, hcomp]
  rw [hmap]
  by_cases hj : j = k
  · subst hj
    rw [if_pos rfl]
    cases hfind : t.find j with
    | none => rfl
    | some r => simp [t.find_key hfind]
  · rw [if_neg hj]
    cases hfind : t.find j with
    | none => rfl
    | some r => simp [t.find_key hfind, hj]

@[simp]
theorem find_update_self (t : Table key) (k : κ) (f : ρ → ρ) (hf : KeepsKey key f) :
    (t.update k f hf).find k = (t.find k).map f := by
  rw [find_update, if_pos rfl]

/-- An update only matters on the row that has the key. -/
theorem update_congr (t : Table key) (k : κ) {f g : ρ → ρ} (hf : KeepsKey key f)
    (hg : KeepsKey key g) (h : ∀ r, t.find k = some r → f r = g r) :
    t.update k f hf = t.update k g hg := by
  apply ext_rows
  apply List.map_congr_left
  intro r hr
  split
  · rename_i hk
    exact h r (hk ▸ t.find_self hr)
  · rfl

theorem update_eq_self (t : Table key) (k : κ) {f : ρ → ρ} (hf : KeepsKey key f)
    (h : ∀ r, t.find k = some r → f r = r) : t.update k f hf = t := by
  rw [t.update_congr k hf (fun _ => rfl : KeepsKey key id) h]
  apply ext_rows
  simp [update]

theorem find_insert (t : Table key) (r : ρ) (h : t.find (key r) = none) (j : κ) :
    (t.insert r h).find j = if j = key r then some r else t.find j := by
  simp only [find, insert, List.find?_append]
  by_cases hj : j = key r
  · subst hj
    rw [if_pos rfl]
    rw [find] at h
    simp [h]
  · rw [if_neg hj]
    have hne : key r ≠ j := fun he => hj he.symm
    simp [hne]

theorem find_erase (t : Table key) (k j : κ) :
    (t.erase k).find j = if j = k then none else t.find j := by
  by_cases hj : j = k
  · rw [if_pos hj, find_eq_none_iff]
    intro r hr
    simp only [erase, List.mem_filter, decide_eq_true_eq] at hr
    rw [hj]
    exact hr.2
  · rw [if_neg hj]
    apply Option.ext
    intro r
    rw [find_eq_some_iff, find_eq_some_iff]
    simp only [erase, List.mem_filter, decide_eq_true_eq]
    constructor
    · rintro ⟨⟨hr, _⟩, hk⟩
      exact ⟨hr, hk⟩
    · rintro ⟨hr, hk⟩
      exact ⟨⟨hr, fun he => hj (hk.symm.trans he)⟩, hk⟩

theorem total_insert (t : Table key) (r : ρ) (h : t.find (key r) = none) (w : ρ → ℕ) :
    (t.insert r h).total w = t.total w + w r := by
  simp [total, insert]

/-- Erasing a key is giving its row no weight. -/
theorem total_erase (t : Table key) (k : κ) (w : ρ → ℕ) :
    (t.erase k).total w = t.total (fun r => if key r = k then 0 else w r) := by
  simp only [total, erase]
  induction t.rows with
  | nil => rfl
  | cons r rest ih =>
    by_cases hr : key r = k <;> simp [hr] at ih ⊢ <;> exact ih

theorem total_erase_le (t : Table key) (k : κ) (w : ρ → ℕ) : (t.erase k).total w ≤ t.total w :=
  (List.filter_sublist.map w).sum_le_sum (fun _ _ => Nat.zero_le _)

theorem total_update_le (t : Table key) (k : κ) (f : ρ → ρ) (hf : KeepsKey key f) (w : ρ → ℕ)
    (hw : ∀ r, w (f r) ≤ w r) : (t.update k f hf).total w ≤ t.total w := by
  simp only [total, update, List.map_map]
  apply List.sum_le_sum
  intro r _
  simp only [Function.comp_apply]
  split
  · exact hw r
  · exact Nat.le_refl _

/-- Erasing a key forgets whatever an update did to its row. -/
theorem erase_update_self (t : Table key) (k : κ) (f : ρ → ρ) (hf : KeepsKey key f) :
    (t.update k f hf).erase k = t.erase k := by
  apply ext_rows
  simp only [update, erase]
  induction t.rows with
  | nil => rfl
  | cons r rest ih =>
    by_cases hr : key r = k
    · simpa [hr, hf r] using ih
    · simpa [hr] using ih

theorem total_eq_erase_add (t : Table key) (k : κ) (w : ρ → ℕ) :
    t.total w = (t.erase k).total w + ((t.find k).map w).getD 0 := by
  obtain ⟨rows, hnodup⟩ := t
  simp only [total, erase, find]
  induction rows with
  | nil => rfl
  | cons r rest ih =>
    have hrest := (List.nodup_cons.mp hnodup).2
    by_cases hr : key r = k
    · have hnot : ∀ q ∈ rest, key q ≠ k := by
        intro q hq he
        exact (List.nodup_cons.mp hnodup).1 (List.mem_map.mpr ⟨q, hq, he.trans hr.symm⟩)
      have hfilter : rest.filter (fun q => decide (key q ≠ k)) = rest :=
        List.filter_eq_self.mpr (fun q hq => by simpa using hnot q hq)
      have hfilter' : rest.filter (fun q => !decide (key q = k)) = rest := by simpa using hfilter
      simp [hr, hfilter', Nat.add_comm]
    · have hstep := ih hrest
      simp only [List.map_cons, List.sum_cons, List.filter_cons, hr, ne_eq, not_false_eq_true,
        decide_true, if_true, List.find?_cons, decide_false] at hstep ⊢
      omega

/-- Distinct keys whose rows weigh at least one are at most as many as the total weight. -/
theorem length_le_total (t : Table key) (ks : List κ) (w : ρ → ℕ) (hnodup : ks.Nodup)
    (h : ∀ k ∈ ks, ∃ r, t.find k = some r ∧ 1 ≤ w r) : ks.length ≤ t.total w := by
  induction ks generalizing t with
  | nil => exact Nat.zero_le _
  | cons k rest ih =>
    obtain ⟨hnot, hrest⟩ := List.nodup_cons.mp hnodup
    obtain ⟨r, hr, hone⟩ := h k (List.mem_cons_self ..)
    have hothers : rest.length ≤ (t.erase k).total w := by
      refine ih (t.erase k) hrest ?_
      intro j hj
      have hne : j ≠ k := fun heq => hnot (heq ▸ hj)
      rw [find_erase, if_neg hne]
      exact h j (List.mem_cons_of_mem _ hj)
    have hsplit : t.total w = (t.erase k).total w + w r := by
      rw [t.total_eq_erase_add k w, hr]
      rfl
    rw [List.length_cons, hsplit]
    omega

end Table
end KeyedTable
