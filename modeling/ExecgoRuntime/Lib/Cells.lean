import Mathlib.Data.List.Basic

/-!
Cells of a state. Each key has a cell with at most one value; a write is read
back at its key and is not seen at another. After a sequence of writes a cell
holds the last value that was written to it, or what it held before. The state,
the keys and the values are arbitrary.
-/

structure Cells (σ κ ν : Type*) where
  get : σ → κ → Option ν
  set : σ → κ → ν → σ
  get_set_self : ∀ s k v, get (set s k v) k = some v
  get_set_of_ne : ∀ s k v j, j ≠ k → get (set s k v) j = get s j

namespace Cells

variable {σ κ ν : Type*}

def setAll (cells : Cells σ κ ν) (s : σ) (entries : List (κ × ν)) : σ :=
  entries.foldl (fun s entry => cells.set s entry.1 entry.2) s

theorem setAll_cons (cells : Cells σ κ ν) (s : σ) (entry : κ × ν) (entries : List (κ × ν)) :
    cells.setAll s (entry :: entries) = cells.setAll (cells.set s entry.1 entry.2) entries := rfl

theorem get_setAll [BEq κ] [LawfulBEq κ] (cells : Cells σ κ ν) (s : σ) (entries : List (κ × ν))
    (k : κ) :
    cells.get (cells.setAll s entries) k = (entries.reverse.lookup k).or (cells.get s k) := by
  induction entries generalizing s with
  | nil => rfl
  | cons entry entries ih =>
    obtain ⟨j, v⟩ := entry
    rw [setAll_cons, ih, List.reverse_cons, List.lookup_append, Option.or_assoc]
    by_cases hkey : k = j
    · subst k
      simp [cells.get_set_self]
    · have hbeq : (k == j) = false := beq_eq_false_iff_ne.mpr hkey
      rw [cells.get_set_of_ne s j v k hkey]
      simp [List.lookup_cons, hbeq]

end Cells
