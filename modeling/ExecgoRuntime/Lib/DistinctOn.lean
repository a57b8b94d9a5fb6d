import Mathlib.Data.List.Basic
import Mathlib.Data.List.Nodup
import Mathlib.Data.List.Perm.Subperm

/-!
Lists some of whose members have distinct keys.
The members in question are those a predicate selects; the others may repeat a
key. Positions are compared, so replacing a member in place needs an argument
about that member alone.
-/
namespace DistinctOn

variable {α κ : Type*} {p : α → Bool} {f : α → κ} {l : List α}

/-- No two selected members share a key. -/
def Distinct (p : α → Bool) (f : α → κ) (l : List α) : Prop :=
  ∀ (i j : ℕ) (a b : α), l[i]? = some a → l[j]? = some b → p a = true → p b = true →
    f a = f b → i = j

theorem distinct_nil : Distinct p f [] := by
  intro i j a b ha
  simp at ha

theorem Distinct.eq_of_mem (h : Distinct p f l) {a b : α} (ha : a ∈ l) (hb : b ∈ l)
    (hpa : p a = true) (hpb : p b = true) (hkey : f a = f b) : a = b := by
  obtain ⟨i, hi⟩ := List.mem_iff_getElem?.mp ha
  obtain ⟨j, hj⟩ := List.mem_iff_getElem?.mp hb
  have hij : i = j := h i j a b hi hj hpa hpb hkey
  rw [hij, hj] at hi
  exact (Option.some.inj hi).symm

theorem Distinct.mono (h : Distinct p f l) {q : α → Bool} (hq : ∀ a, q a = true → p a = true) :
    Distinct q f l := by
  intro i j a b ha hb hqa hqb hkey
  exact h i j a b ha hb (hq a hqa) (hq b hqb) hkey

/-- The members of a list with one of them replaced. -/
theorem forall_mem_set {P : α → Prop} {i : ℕ} {b : α} (hnew : P b)
    (hothers : ∀ (j : ℕ) (c : α), l[j]? = some c → j ≠ i → P c) : ∀ c ∈ l.set i b, P c := by
  intro c hc
  obtain ⟨j, hj⟩ := List.mem_iff_getElem?.mp hc
  by_cases hij : i = j
  · subst hij
    obtain ⟨hlt, heq⟩ := List.getElem?_eq_some_iff.mp hj
    rw [List.getElem_set_self] at heq
    exact heq ▸ hnew
  · rw [List.getElem?_set_ne hij] at hj
    exact hothers j c hj (Ne.symm hij)

/-- A member may be replaced by one whose key no other selected member has. -/
theorem Distinct.set (h : Distinct p f l) {i : ℕ} {b : α}
    (hnew : p b = true → ∀ j c, l[j]? = some c → j ≠ i → p c = true → f c ≠ f b) :
    Distinct p f (l.set i b) := by
  intro j k c d hc hd hpc hpd hkey
  by_cases hj : i = j <;> by_cases hk : i = k
  · exact hj.symm.trans hk
  · subst hj
    rw [List.getElem?_set_ne hk] at hd
    obtain ⟨hlt, hcb⟩ := List.getElem?_eq_some_iff.mp hc
    rw [List.getElem_set_self] at hcb
    subst hcb
    exact absurd hkey.symm (hnew hpc k d hd (Ne.symm hk) hpd)
  · subst hk
    rw [List.getElem?_set_ne hj] at hc
    obtain ⟨hlt, hdb⟩ := List.getElem?_eq_some_iff.mp hd
    rw [List.getElem_set_self] at hdb
    subst hdb
    exact absurd hkey (hnew hpd j c hc (Ne.symm hj) hpc)
  · rw [List.getElem?_set_ne hj] at hc
    rw [List.getElem?_set_ne hk] at hd
    exact h j k c d hc hd hpc hpd hkey

/-- In particular by one with the same key, if that is selected only where the old one was. -/
theorem Distinct.set_of_key (h : Distinct p f l) {i : ℕ} {a b : α} (ha : l[i]? = some a)
    (hselected : p b = true → p a = true) (hkey : f b = f a) : Distinct p f (l.set i b) := by
  refine h.set ?_
  intro hpb j c hc hne hpc heq
  exact hne (h j i c a hc ha hpc (hselected hpb) (heq.trans hkey))

theorem Distinct.append_one (h : Distinct p f l) {b : α}
    (hnew : p b = true → ∀ c ∈ l, p c = true → f c ≠ f b) : Distinct p f (l ++ [b]) := by
  intro i j c d hc hd hpc hpd hkey
  have hcases : ∀ {k : ℕ} {x : α}, (l ++ [b])[k]? = some x →
      l[k]? = some x ∨ (k = l.length ∧ x = b) := by
    intro k x hx
    rw [List.getElem?_append] at hx
    split at hx
    · exact .inl hx
    · rename_i hle
      obtain ⟨hlt, hxb⟩ := List.getElem?_eq_some_iff.mp hx
      simp only [List.length_singleton] at hlt
      refine .inr ⟨by omega, ?_⟩
      simpa using hxb.symm
  rcases hcases hc with hold | ⟨hi, rfl⟩ <;> rcases hcases hd with hold' | ⟨hj, rfl⟩
  · exact h i j c d hold hold' hpc hpd hkey
  · exact absurd hkey (hnew hpd c (List.mem_of_getElem? hold) hpc)
  · exact absurd hkey.symm (hnew hpc d (List.mem_of_getElem? hold') hpd)
  · exact hi.trans hj.symm

/-- The keys of the selected members, as a list without repetition. -/
theorem Distinct.nodup (h : Distinct p f l) : ((l.filter p).map f).Nodup := by
  induction l with
  | nil => exact List.nodup_nil
  | cons a rest ih =>
    have hrest : Distinct p f rest := by
      intro i j c d hc hd hpc hpd hkey
      have hsucc := h (i + 1) (j + 1) c d (by simpa using hc) (by simpa using hd) hpc hpd hkey
      omega
    cases hpa : p a with
    | false => simpa [hpa] using ih hrest
    | true =>
      rw [List.filter_cons_of_pos hpa, List.map_cons, List.nodup_cons]
      refine ⟨?_, ih hrest⟩
      rintro hmem
      obtain ⟨b, hb, hkey⟩ := List.mem_map.mp hmem
      obtain ⟨hb, hpb⟩ := List.mem_filter.mp hb
      obtain ⟨j, hj⟩ := List.mem_iff_getElem?.mp hb
      have hzero := h 0 (j + 1) a b rfl (by simpa using hj) hpa hpb hkey.symm
      omega

/-- Keys below a bound are at most as many as the bound. -/
theorem Distinct.length_le {f : α → ℕ} (h : Distinct p f l) {n : ℕ}
    (hbelow : ∀ a ∈ l, p a = true → f a < n) : (l.filter p).length ≤ n := by
  have hsubset : (l.filter p).map f ⊆ List.range n := by
    intro k hk
    obtain ⟨a, ha, rfl⟩ := List.mem_map.mp hk
    obtain ⟨ha, hpa⟩ := List.mem_filter.mp ha
    exact List.mem_range.mpr (hbelow a ha hpa)
  simpa using (h.nodup.subperm hsubset).length_le

end DistinctOn
