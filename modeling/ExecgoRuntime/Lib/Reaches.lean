import ExecgoRuntime.Lib.Runs

/-!
What a system can be brought to. One state reaches another if some run leads there;
a goal about many items is reached item by item, as long as the way to one item
does not undo the others.
-/
namespace Runs

variable {σ α ι : Type*} {step : σ → α → Option σ}

def Reaches (step : σ → α → Option σ) (s s' : σ) : Prop := ∃ trace, Run step s trace s'

namespace Reaches

theorem refl (s : σ) : Reaches step s s := ⟨[], .nil⟩

theorem single {s s' : σ} {a : α} (h : step s a = some s') : Reaches step s s' :=
  ⟨[(s, a)], by simpa using Run.nil.snoc h⟩

theorem trans {s s' s'' : σ} (h : Reaches step s s') (h' : Reaches step s' s'') :
    Reaches step s s'' := by
  obtain ⟨trace, hrun⟩ := h
  obtain ⟨later, hlater⟩ := h'
  exact ⟨trace ++ later, hrun.append hlater⟩

theorem snoc {s s' s'' : σ} {a : α} (h : Reaches step s s') (hstep : step s' a = some s'') :
    Reaches step s s'' := h.trans (single hstep)

/-- The items are treated one after the other, inside the invariant. -/
theorem exists_forall_mem {I : σ → Prop} {Q : ι → σ → Prop} (items : List ι)
    (htreat : ∀ x ∈ items, ∀ s, I s → ∃ s', Reaches step s s' ∧ I s' ∧ Q x s' ∧
      ∀ y, Q y s → Q y s') :
    ∀ s, I s → ∃ s', Reaches step s s' ∧ I s' ∧ (∀ x ∈ items, Q x s') ∧ ∀ y, Q y s → Q y s' := by
  induction items with
  | nil => exact fun s hs => ⟨s, refl s, hs, by simp, fun _ h => h⟩
  | cons x rest ih =>
    intro s hs
    obtain ⟨t, hst, ht, hx, hkeeps⟩ := htreat x List.mem_cons_self s hs
    obtain ⟨u, htu, hu, hrest, hkeeps'⟩ :=
      ih (fun y hy => htreat y (List.mem_cons_of_mem _ hy)) t ht
    refine ⟨u, hst.trans htu, hu, fun y hy => ?_, fun y hy => hkeeps' y (hkeeps y hy)⟩
    rcases List.mem_cons.mp hy with rfl | hmem
    · exact hkeeps' y hx
    · exact hrest y hmem

/-- A run of a machine, followed by a system that can take each of its steps. -/
theorem follow {τ β : Type*} {step' : τ → β → Option τ} {R : τ → σ → Prop}
    (hstep : ∀ t b t' s, R t s → step' t b = some t' → ∃ s', Reaches step s s' ∧ R t' s')
    {start last : τ} {trace : List (τ × β)} (h : Run step' start trace last) {s : σ}
    (hs : R start s) : ∃ s', Reaches step s s' ∧ R last s' := by
  induction h with
  | nil => exact ⟨s, refl s, hs⟩
  | snoc _ htaken ih =>
    obtain ⟨t, hst, ht⟩ := ih
    obtain ⟨u, htu, hu⟩ := hstep _ _ _ t ht htaken
    exact ⟨u, hst.trans htu, hu⟩

end Reaches

end Runs
