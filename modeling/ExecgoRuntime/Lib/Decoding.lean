import ExecgoRuntime.Lib.Serde

/-!
What a codec reads is a member of the coded type. Writing it again loses nothing
then, so a document can be read and passed on: the next reader gets the same
value. For a record this holds as soon as it holds of its fields.
-/
namespace Serde

open Json

variable {largest : ℕ} {α β σ : Type}

namespace Codec

/-- Whatever is read is valid. -/
def Exact (codec : Codec largest α) : Prop := ∀ v a, codec.decode v = some a → codec.Valid a

theorem exact_of_forall {codec : Codec largest α} (h : ∀ a, codec.Valid a) : codec.Exact :=
  fun _ a _ => h a

theorem exact_string : (Codec.string : Codec largest String).Exact :=
  exact_of_forall fun _ => trivial

theorem exact_word : (Codec.word : Codec largest ℕ).Exact := by
  intro v n h
  cases v with
  | number value =>
    simp only [word] at h
    split at h
    · cases h
      assumption
    · cases h
  | _ => cases h

theorem mem_of_mapM {γ δ : Type} {f : γ → Option δ} {xs : List γ} {ys : List δ}
    (h : xs.mapM f = some ys) : ∀ y ∈ ys, ∃ x ∈ xs, f x = some y := by
  induction xs generalizing ys with
  | nil =>
    cases h
    simp
  | cons x xs ih =>
    rw [List.mapM_cons] at h
    obtain ⟨y, hy, h⟩ := Option.bind_eq_some_iff.mp h
    obtain ⟨rest, hrest, h⟩ := Option.bind_eq_some_iff.mp h
    cases h
    intro z hz
    rcases List.mem_cons.mp hz with rfl | hz
    · exact ⟨x, List.mem_cons_self, hy⟩
    · obtain ⟨x', hx', hread⟩ := ih hrest z hz
      exact ⟨x', List.mem_cons_of_mem _ hx', hread⟩

theorem mem_foldl_insertEntry {entries done : List (String × α)} {e : String × α}
    (h : e ∈ entries.foldl insertEntry done) : e ∈ done ∨ e ∈ entries := by
  induction entries generalizing done with
  | nil => exact .inl h
  | cons entry entries ih =>
    rcases ih h with hdone | hlater
    · rcases List.mem_append.mp hdone with hold | hnew
      · exact .inl (List.mem_filter.mp hold).1
      · exact .inr (List.mem_singleton.mp hnew ▸ List.mem_cons_self)
    · exact .inr (List.mem_cons_of_mem _ hlater)

theorem nodup_insertEntry {done : List (String × α)} (h : (done.map Prod.fst).Nodup)
    (entry : String × α) : ((insertEntry done entry).map Prod.fst).Nodup := by
  rw [insertEntry, List.map_append, List.nodup_append]
  refine ⟨h.sublist (List.filter_sublist.map _), by simp, ?_⟩
  intro a ha b hb heq
  obtain ⟨e, he, rfl⟩ := List.mem_map.mp ha
  have hne := (List.mem_filter.mp he).2
  rw [List.map_singleton, List.mem_singleton] at hb
  simp [heq, hb] at hne

theorem nodup_foldl_insertEntry {entries done : List (String × α)}
    (h : (done.map Prod.fst).Nodup) : ((entries.foldl insertEntry done).map Prod.fst).Nodup := by
  induction entries generalizing done with
  | nil => exact h
  | cons entry entries ih => exact ih (nodup_insertEntry h entry)

theorem Exact.map {codec : Codec largest α} (h : codec.Exact) : codec.map.Exact := by
  intro v entries hread
  cases v with
  | object members =>
    obtain ⟨read, hmapM, rfl⟩ := Option.map_eq_some_iff.mp hread
    refine ⟨nodup_foldl_insertEntry List.nodup_nil, fun e he => ?_⟩
    rcases mem_foldl_insertEntry he with hnone | hmem
    · cases hnone
    · obtain ⟨m, _, hm⟩ := mem_of_mapM hmapM e hmem
      obtain ⟨value, hvalue, rfl⟩ := Option.map_eq_some_iff.mp hm
      exact h m.2 value hvalue
  | _ => cases hread

end Codec

namespace Slot

/-- Whatever is read for the field is valid. -/
def Exact (slot : Slot largest β) : Prop := ∀ v b, slot.read v = some b → slot.Valid b

theorem exact_required {codec : Codec largest β} (h : codec.Exact) : (required codec).Exact := by
  intro v b hread
  cases v with
  | none => cases hread
  | some value => exact h value b hread

theorem exact_defaulted {codec : Codec largest β} (h : codec.Exact) {default : β}
    (hdefault : codec.Valid default) : (defaulted default codec).Exact := by
  intro v b hread
  cases v with
  | none => exact Option.some.inj hread ▸ hdefault
  | some value => exact h value b hread

theorem exact_omittedEmpty {codec : Codec largest (List β)} (h : codec.Exact)
    (hempty : codec.Valid []) : (omittedEmpty codec).Exact := by
  intro v b hread
  cases v with
  | none => exact Option.some.inj hread ▸ hempty
  | some value => exact h value b hread

theorem exact_optional {codec : Codec largest β} (h : codec.Exact) : (optional codec).Exact := by
  intro v b hread value hvalue
  simp only [optional] at hread
  split at hread
  · cases hread
    cases hvalue
  · cases hread
    cases hvalue
  · obtain ⟨a, ha, rfl⟩ := Option.map_eq_some_iff.mp hread
    cases hvalue
    exact h _ value ha

end Slot

namespace Shape

/-- A record is read from the members of an object. -/
theorem of_decode_codec {shape : Shape largest σ σ} {nodup : shape.names.Nodup}
    {complete : ∀ s, shape.build s = s} {v : Value} {s : σ}
    (h : (shape.codec nodup complete).decode v = some s) :
    ∃ members, v = .object members ∧ shape.read members = some s := by
  cases v with
  | object members => exact ⟨members, rfl, h⟩
  | _ => cases h

end Shape

end Serde
