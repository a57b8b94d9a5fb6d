import Mathlib.Data.List.Basic

/-!
The boundary of a partitioned list by binary search. A list is partitioned when
the elements that satisfy a predicate come first. The search halves an interval
that holds the boundary; what it finds is the number of elements that satisfy
the predicate. The predicate and the elements are arbitrary.
-/
namespace PartitionPoint

variable {α : Type*} {p : α → Bool} {xs : List α}

/-- What satisfies the predicate stands before what does not. -/
def Partitioned (p : α → Bool) (xs : List α) : Prop :=
  xs.Pairwise (fun a b => p b = true → p a = true)

/-- Whether there is an element at the index and it satisfies the predicate. -/
def holdsAt (p : α → Bool) (xs : List α) (i : ℕ) : Bool := xs[i]?.any p

/-- The loop over the interval of `size` indices from `base`; every round makes it
smaller, so the length of the list is fuel enough. -/
def search (p : α → Bool) (xs : List α) : ℕ → ℕ → ℕ → ℕ
  | 0, base, _ => base
  | fuel + 1, base, size =>
    if size ≤ 1 then base
    else
      let half := size / 2
      let mid := base + half
      search p xs fuel (if holdsAt p xs mid then mid else base) (size - half)

/-- `slice::partition_point`. -/
def partitionPoint (p : α → Bool) (xs : List α) : ℕ :=
  let base := search p xs xs.length 0 xs.length
  if holdsAt p xs base then base + 1 else base

/-- In a partitioned list an index satisfies the predicate when it is below their number. -/
theorem holdsAt_iff (h : Partitioned p xs) (i : ℕ) :
    holdsAt p xs i = true ↔ i < xs.countP p := by
  induction xs generalizing i with
  | nil => simp [holdsAt]
  | cons x xs ih =>
    obtain ⟨hfirst, hrest⟩ := List.pairwise_cons.mp h
    by_cases hx : p x = true
    · rw [List.countP_cons_of_pos hx]
      cases i with
      | zero => simp [holdsAt, hx]
      | succ i =>
        have hi := ih hrest i
        simp only [holdsAt, List.getElem?_cons_succ] at hi ⊢
        rw [hi]
        omega
    · have hnone : ∀ y ∈ x :: xs, ¬ p y = true := by
        intro y hy
        rcases List.mem_cons.mp hy with rfl | hy
        · exact hx
        · exact fun hpy => hx (hfirst y hy hpy)
      rw [List.countP_eq_zero.mpr hnone]
      have hout : holdsAt p (x :: xs) i = false := by
        unfold holdsAt
        cases hget : (x :: xs)[i]? with
        | none => rfl
        | some y =>
          have hy : y ∈ x :: xs := List.mem_of_getElem? hget
          simpa using hnone y hy
      simp [hout]

/-- The interval holds the boundary. -/
def Encloses (p : α → Bool) (xs : List α) (base size : ℕ) : Prop :=
  (base = 0 ∨ base < xs.countP p) ∧ xs.countP p ≤ base + size

theorem encloses_step (h : Partitioned p xs) {base size : ℕ} (hin : Encloses p xs base size) :
    Encloses p xs (if holdsAt p xs (base + size / 2) then base + size / 2 else base)
      (size - size / 2) := by
  obtain ⟨hlow, hhigh⟩ := hin
  have hmid := holdsAt_iff h (base + size / 2)
  split
  · rename_i hholds
    have hbelow : base + size / 2 < xs.countP p := hmid.mp hholds
    exact ⟨.inr hbelow, by omega⟩
  · rename_i hfails
    have habove : xs.countP p ≤ base + size / 2 := Nat.le_of_not_lt (mt hmid.mpr hfails)
    exact ⟨hlow, by omega⟩

theorem encloses_search (h : Partitioned p xs) (fuel : ℕ) {base size : ℕ} (hfuel : size ≤ fuel + 1)
    (hin : Encloses p xs base size) : Encloses p xs (search p xs fuel base size) 1 := by
  induction fuel generalizing base size with
  | zero => exact ⟨hin.1, by have := hin.2; unfold search; omega⟩
  | succ fuel ih =>
    unfold search
    split
    · exact ⟨hin.1, by have := hin.2; omega⟩
    · exact ih (by omega) (encloses_step h hin)

theorem partitionPoint_eq_countP (h : Partitioned p xs) : partitionPoint p xs = xs.countP p := by
  have hstart : Encloses p xs 0 xs.length := ⟨.inl rfl, by simpa using List.countP_le_length⟩
  obtain ⟨hlow, hhigh⟩ := encloses_search h xs.length (Nat.le_succ _) hstart
  have hlast := holdsAt_iff h (search p xs xs.length 0 xs.length)
  simp only [partitionPoint]
  split
  · rename_i hholds
    have hbelow := hlast.mp hholds
    omega
  · rename_i hfails
    have habove := mt hlast.mpr hfails
    omega

/-- A sorted list is partitioned by every initial segment of the order. -/
theorem partitioned_of_pairwise {r : α → α → Prop} (hsorted : xs.Pairwise r)
    (hdown : ∀ a b, r a b → p b = true → p a = true) : Partitioned p xs :=
  hsorted.imp fun {a b} hab => hdown a b hab

end PartitionPoint
