import ExecgoRuntime.Lib.Json
import Mathlib.Data.List.Sort
import Mathlib.Data.String.Basic

/-!
Documents as a reader keeps them that has no order of members: the members of an
object are kept by name, and of two members of one name the later one stays. What
such a reader keeps is a document again, and to read that changes nothing.
-/
namespace Json

def NameLE (m n : String × Value) : Prop := m.1 ≤ n.1

instance : DecidableRel NameLE := fun m n => inferInstanceAs (Decidable (m.1 ≤ n.1))

/-- Put a member in its place; one of the same name goes. -/
def insertMember (members : List (String × Value)) (member : String × Value) :
    List (String × Value) :=
  (members.filter (fun m => m.1 != member.1)).orderedInsert NameLE member

mutual

/-- The document with the members of its objects by name. -/
def Value.sorted : Value → Value
  | .array items => .array (sortedItems items)
  | .object members => .object ((sortedMembers members).foldl insertMember [])
  | .null => .null
  | .bool value => .bool value
  | .number value => .number value
  | .real literal => .real literal
  | .string value => .string value

def sortedItems : List Value → List Value
  | [] => []
  | item :: items => item.sorted :: sortedItems items

def sortedMembers : List (String × Value) → List (String × Value)
  | [] => []
  | (name, value) :: members => (name, value.sorted) :: sortedMembers members

end

/-- The names come in order, each once. -/
def ByName (members : List (String × Value)) : Prop :=
  members.Pairwise (fun m n => m.1 < n.1)

theorem mem_insertMember {members : List (String × Value)} {member m : String × Value}
    (h : m ∈ insertMember members member) : m = member ∨ m ∈ members := by
  rw [insertMember, List.mem_orderedInsert] at h
  exact h.imp_right List.mem_of_mem_filter

theorem mem_foldl_insertMember {done members : List (String × Value)} {m : String × Value}
    (h : m ∈ members.foldl insertMember done) : m ∈ done ∨ m ∈ members := by
  induction members generalizing done with
  | nil => exact .inl h
  | cons first rest ih =>
    rcases ih h with hinsert | hrest
    · rcases mem_insertMember hinsert with rfl | hdone
      · exact .inr List.mem_cons_self
      · exact .inl hdone
    · exact .inr (List.mem_cons_of_mem _ hrest)

theorem byName_orderedInsert {members : List (String × Value)} (h : ByName members)
    {member : String × Value} (hne : ∀ m ∈ members, m.1 ≠ member.1) :
    ByName (members.orderedInsert NameLE member) := by
  induction members with
  | nil => exact List.pairwise_singleton _ _
  | cons first rest ih =>
    obtain ⟨hfirst, hrest⟩ := List.pairwise_cons.mp h
    by_cases hle : NameLE member first
    · rw [List.orderedInsert_cons_of_le _ _ hle]
      have hlt : member.1 < first.1 :=
        lt_of_le_of_ne hle (Ne.symm (hne first List.mem_cons_self))
      refine List.pairwise_cons.mpr ⟨fun m hm => ?_, h⟩
      rcases List.mem_cons.mp hm with rfl | hm
      · exact hlt
      · exact hlt.trans (hfirst m hm)
    · rw [List.orderedInsert_of_not_le _ _ hle]
      refine List.pairwise_cons.mpr ⟨fun m hm => ?_, ?_⟩
      · rw [List.mem_orderedInsert] at hm
        rcases hm with rfl | hm
        · exact lt_of_not_ge hle
        · exact hfirst m hm
      · exact ih hrest (fun m hm => hne m (List.mem_cons_of_mem _ hm))

theorem byName_insertMember {members : List (String × Value)} (h : ByName members)
    (member : String × Value) : ByName (insertMember members member) := by
  refine byName_orderedInsert (h.sublist List.filter_sublist) (fun m hm => ?_)
  simpa using (List.mem_filter.mp hm).2

theorem byName_foldl_insertMember {done : List (String × Value)} (h : ByName done)
    (members : List (String × Value)) : ByName (members.foldl insertMember done) := by
  induction members generalizing done with
  | nil => exact h
  | cons first rest ih => exact ih (byName_insertMember h first)

theorem orderedInsert_last {members : List (String × Value)} {member : String × Value}
    (h : ∀ m ∈ members, m.1 < member.1) :
    members.orderedInsert NameLE member = members ++ [member] := by
  induction members with
  | nil => rfl
  | cons first rest ih =>
    have hnot : ¬ NameLE member first := not_le.mpr (h first List.mem_cons_self)
    rw [List.orderedInsert_of_not_le _ _ hnot,
      ih (fun m hm => h m (List.mem_cons_of_mem _ hm)), List.cons_append]

/-- Members that are in order already are kept as they are. -/
theorem foldl_insertMember_byName {done members : List (String × Value)}
    (h : ByName (done ++ members)) : members.foldl insertMember done = done ++ members := by
  induction members generalizing done with
  | nil => simp
  | cons first rest ih =>
    have hbelow : ∀ m ∈ done, m.1 < first.1 := fun m hm =>
      (List.pairwise_append.mp h).2.2 m hm first List.mem_cons_self
    have hinsert : insertMember done first = done ++ [first] := by
      rw [insertMember, List.filter_eq_self.mpr, orderedInsert_last hbelow]
      intro m hm
      simpa using (hbelow m hm).ne
    rw [List.foldl_cons, hinsert, ih (by simpa using h), List.append_assoc]
    rfl

theorem sortedItems_eq_map (items : List Value) : sortedItems items = items.map Value.sorted := by
  induction items with
  | nil => rfl
  | cons item items ih => rw [sortedItems, ih, List.map_cons]

theorem sortedMembers_eq_map (members : List (String × Value)) :
    sortedMembers members = members.map (fun m => (m.1, m.2.sorted)) := by
  induction members with
  | nil => rfl
  | cons member members ih => rw [sortedMembers, ih, List.map_cons]

/-- Nothing is added to a document. -/
theorem Value.Within.sorted {largest depth : ℕ} {v : Value} (h : v.Within largest depth) :
    v.sorted.Within largest depth := by
  induction depth generalizing v with
  | zero =>
    cases v with
    | array items => exact h.elim
    | object members => exact h.elim
    | _ => simpa only [Value.sorted] using h
  | succ depth ih =>
    cases v with
    | array items =>
      rw [Value.sorted, sortedItems_eq_map]
      intro item hitem
      obtain ⟨old, hold, rfl⟩ := List.mem_map.mp hitem
      exact ih (h old hold)
    | object members =>
      rw [Value.sorted, sortedMembers_eq_map]
      intro m hm
      rcases mem_foldl_insertMember hm with hnil | hmem
      · cases hnil
      · obtain ⟨old, hold, rfl⟩ := List.mem_map.mp hmem
        exact ih (h old hold)
    | _ => simpa only [Value.sorted] using h

theorem Value.sorted_sorted {largest depth : ℕ} {v : Value} (h : v.Within largest depth) :
    v.sorted.sorted = v.sorted := by
  induction depth generalizing v with
  | zero =>
    cases v with
    | array items => exact h.elim
    | object members => exact h.elim
    | _ => simp only [Value.sorted]
  | succ depth ih =>
    cases v with
    | array items =>
      simp only [Value.sorted, sortedItems_eq_map, List.map_map, Value.array.injEq]
      exact List.map_congr_left (fun item hitem => ih (h item hitem))
    | object members =>
      simp only [Value.sorted, sortedMembers_eq_map, Value.object.injEq]
      have hfixed : ∀ m ∈ (members.map (fun m => (m.1, m.2.sorted))).foldl insertMember [],
          (m.1, m.2.sorted) = m := by
        intro m hm
        rcases mem_foldl_insertMember hm with hnil | hmem
        · cases hnil
        · obtain ⟨old, hold, rfl⟩ := List.mem_map.mp hmem
          rw [ih (h old hold)]
      rw [List.map_congr_left hfixed, List.map_id']
      exact foldl_insertMember_byName (byName_foldl_insertMember List.Pairwise.nil _)
    | _ => simp only [Value.sorted]

end Json
