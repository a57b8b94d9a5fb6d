import Mathlib.Algebra.GroupWithZero.Nat
import Mathlib.Data.List.Perm.Basic
import Mathlib.Data.Nat.Init
import Mathlib.Order.MinMax

/-!
Saturating arithmetic of an unsigned machine word whose largest value is `top`.
Values are natural numbers; an addition is capped at `top` and a subtraction at
zero. Below `top` the capped sum decides comparisons exactly as the true sum.

An optional amount is `none` until a first value is added to it. Such amounts can
be added in any order, and a fold of them is the true sum of the values that are
there, capped once.
-/
namespace Saturating

/-- `saturating_add` of a word with largest value `top`. -/
def add (top a b : ℕ) : ℕ := min (a + b) top

/-- `saturating_sub`. -/
def sub (a b : ℕ) : ℕ := a - b

theorem add_le_top (top a b : ℕ) : add top a b ≤ top := Nat.min_le_right _ _

theorem add_comm (top a b : ℕ) : add top a b = add top b a := by
  unfold add
  rw [Nat.add_comm]

theorem add_assoc (top a b c : ℕ) : add top (add top a b) c = add top a (add top b c) := by
  unfold add
  omega

theorem add_right_comm (top a b c : ℕ) : add top (add top a b) c = add top (add top a c) b := by
  rw [add_assoc, add_comm top b c, ← add_assoc]

/-- A limit below `top` is respected by the true sum when the capped sum respects it. -/
theorem add_le_iff {top a b limit : ℕ} (h : limit < top) : add top a b ≤ limit ↔ a + b ≤ limit := by
  unfold add
  omega

/-- Folding capped additions caps the true sum once. -/
theorem foldl_add (top start : ℕ) (l : List ℕ) :
    l.foldl (add top) (min start top) = min (start + l.sum) top := by
  induction l generalizing start with
  | nil => simp
  | cons a rest ih =>
    have hhead : add top (min start top) a = min (start + a) top := by
      unfold add
      omega
    rw [List.foldl_cons, hhead, ih, List.sum_cons, Nat.add_assoc]

/-- Adding nothing changes nothing; adding a value makes an absent amount present. -/
def addOption (top : ℕ) (current amount : Option ℕ) : Option ℕ :=
  match amount with
  | some value => some (add top (current.getD 0) value)
  | none => current

theorem addOption_right_comm (top : ℕ) (current a b : Option ℕ) :
    addOption top (addOption top current a) b = addOption top (addOption top current b) a := by
  cases a with
  | none => rfl
  | some x =>
    cases b with
    | none => rfl
    | some y => exact congrArg some (add_right_comm top (current.getD 0) x y)

theorem addOption_eq_none_iff {top : ℕ} {current amount : Option ℕ} :
    addOption top current amount = none ↔ current = none ∧ amount = none := by
  cases amount with
  | none => simp [addOption]
  | some value => simp [addOption]

/-- An absent amount counts as zero. -/
theorem getD_addOption {top : ℕ} {current : Option ℕ} (h : current.getD 0 ≤ top)
    (amount : Option ℕ) :
    (addOption top current amount).getD 0 = add top (current.getD 0) (amount.getD 0) := by
  cases amount with
  | none =>
    unfold add
    rw [Option.getD_none, Nat.add_zero, Nat.min_eq_left h]
    rfl
  | some value => rfl

/-- The values that are there have the sum of all amounts. -/
theorem sum_filterMap {α : Type*} (f : α → Option ℕ) (l : List α) :
    (l.filterMap f).sum = (l.map (fun x => (f x).getD 0)).sum := by
  induction l with
  | nil => rfl
  | cons x rest ih =>
    rw [List.map_cons, List.sum_cons, ← ih]
    cases hx : f x with
    | none => rw [List.filterMap_cons_none hx, Option.getD_none, Nat.zero_add]
    | some value => rw [List.filterMap_cons_some hx, List.sum_cons, Option.getD_some]

section Fold

variable {α : Type*} {top : ℕ} (f : α → Option ℕ)

theorem foldl_addOption_perm {l l' : List α} (h : l.Perm l') (start : Option ℕ) :
    l.foldl (fun current x => addOption top current (f x)) start =
      l'.foldl (fun current x => addOption top current (f x)) start :=
  h.foldl_eq' (fun x _ y _ current => addOption_right_comm top current (f x) (f y)) start

theorem foldl_addOption_eq_none_iff (l : List α) {start : Option ℕ} :
    l.foldl (fun current x => addOption top current (f x)) start = none ↔
      start = none ∧ ∀ x ∈ l, f x = none := by
  induction l generalizing start with
  | nil => simp
  | cons x rest ih =>
    rw [List.foldl_cons, ih, addOption_eq_none_iff, and_assoc, List.forall_mem_cons]

theorem getD_foldl_addOption (l : List α) {start : Option ℕ} (h : start.getD 0 ≤ top) :
    (l.foldl (fun current x => addOption top current (f x)) start).getD 0 =
      min (start.getD 0 + (l.filterMap f).sum) top := by
  rw [sum_filterMap]
  induction l generalizing start with
  | nil => simp [h]
  | cons x rest ih =>
    have hnext := getD_addOption h (f x)
    have htop : (addOption top start (f x)).getD 0 ≤ top := hnext.trans_le (add_le_top _ _ _)
    rw [List.foldl_cons, ih htop, hnext, List.map_cons, List.sum_cons]
    unfold add
    omega

/-- What a fold of optional amounts is, without the fold. -/
theorem foldl_addOption (l : List α) {start : Option ℕ} (h : start.getD 0 ≤ top) :
    l.foldl (fun current x => addOption top current (f x)) start =
      if start = none ∧ ∀ x ∈ l, f x = none then none
      else some (min (start.getD 0 + (l.filterMap f).sum) top) := by
  have hnone : l.foldl (fun current x => addOption top current (f x)) start = none ↔
      start = none ∧ ∀ x ∈ l, f x = none := foldl_addOption_eq_none_iff f l
  have hsum := getD_foldl_addOption f l h
  cases hfold : l.foldl (fun current x => addOption top current (f x)) start with
  | none => rw [if_pos (hnone.mp hfold)]
  | some total =>
    have hsome : ¬ (start = none ∧ ∀ x ∈ l, f x = none) := by
      rw [← hnone, hfold]
      exact Option.some_ne_none total
    rw [hfold, Option.getD_some] at hsum
    rw [if_neg hsome, hsum]

end Fold

end Saturating
