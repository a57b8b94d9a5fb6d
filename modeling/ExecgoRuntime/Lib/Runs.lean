import Mathlib.Data.List.Basic
import Mathlib.Data.List.Chain

/-!
Finite runs of a partial step function with labels.
A run keeps the state in which every label was taken, so a statement can put a
condition on the steps (a guard on state and label) and draw a conclusion about
the states. The two rules are invariance under a guard and, for an invariant
that is lost as soon as the guard fails, an equivalence of the two over the run.
-/
namespace Runs

variable {σ α : Type*} {step : σ → α → Option σ}

inductive Run (step : σ → α → Option σ) (start : σ) : List (σ × α) → σ → Prop
  | nil : Run step start [] start
  | snoc {trace : List (σ × α)} {s : σ} {a : α} {s' : σ} :
      Run step start trace s → step s a = some s' → Run step start (trace ++ [(s, a)]) s'

/-- The states a run passes through, its last one included. -/
def visited (trace : List (σ × α)) (last : σ) : List σ := trace.map Prod.fst ++ [last]

theorem last_mem_visited (trace : List (σ × α)) (last : σ) : last ∈ visited trace last := by
  simp [visited]

/-- Execute a list of labels, each of which has to be enabled. -/
def exec (step : σ → α → Option σ) (start : σ) : List α → Option σ
  | [] => some start
  | a :: rest => (step start a).bind (fun s => exec step s rest)

namespace Run

variable {start last : σ} {trace : List (σ × α)}

theorem append {middle : σ} {later : List (σ × α)} (h : Run step start trace middle)
    (h' : Run step middle later last) : Run step start (trace ++ later) last := by
  induction h' with
  | nil => simpa using h
  | snoc _ hstep ih =>
    rw [← List.append_assoc]
    exact ih.snoc hstep

/-- A run is cut at one of its steps. -/
theorem split {before after : List (σ × α)} {s : σ} {a : α}
    (h : Run step start (before ++ (s, a) :: after) last) :
    ∃ s', Run step start before s ∧ step s a = some s' ∧ Run step s' after last := by
  induction after using List.reverseRecOn generalizing last with
  | nil =>
    generalize htrace : before ++ [(s, a)] = trace at h
    cases h with
    | nil => simp at htrace
    | snoc hrun hstep =>
      obtain ⟨rfl, hlast⟩ := List.append_inj' htrace rfl
      cases hlast
      exact ⟨_, hrun, hstep, .nil⟩
  | append_singleton after x ih =>
    generalize htrace : before ++ (s, a) :: (after ++ [x]) = trace at h
    cases h with
    | nil => simp at htrace
    | @snoc trace t b _ hrun hstep =>
      have hassoc : (before ++ (s, a) :: after) ++ [x] = trace ++ [(t, b)] := by
        simpa using htrace
      obtain ⟨rfl, hx⟩ := List.append_inj' hassoc rfl
      cases hx
      obtain ⟨s', hbefore, hfirst, hafter⟩ := ih hrun
      exact ⟨s', hbefore, hfirst, hafter.snoc hstep⟩

theorem eq_of_nil (h : Run step start [] last) : last = start := by
  generalize htrace : ([] : List (σ × α)) = trace at h
  cases h with
  | nil => rfl
  | snoc _ _ => simp at htrace

/-- The first step is one of the start. -/
theorem eq_of_cons {x : σ × α} (h : Run step start (x :: trace) last) : x.1 = start := by
  have hsplit : Run step start ([] ++ (x.1, x.2) :: trace) last := h
  obtain ⟨_, hbefore, _⟩ := hsplit.split
  exact hbefore.eq_of_nil

theorem step_of_mem (h : Run step start trace last) {x : σ × α} (hx : x ∈ trace) :
    ∃ s', step x.1 x.2 = some s' := by
  induction h with
  | nil => simp at hx
  | snoc _ hstep ih =>
    rcases List.mem_append.mp hx with hold | hnew
    · exact ih hold
    · rw [List.mem_singleton.mp hnew]
      exact ⟨_, hstep⟩

/-- The state that a step of the run leads to is one of the run. -/
theorem next_mem_visited (h : Run step start trace last) {x : σ × α} (hx : x ∈ trace) :
    ∃ s', step x.1 x.2 = some s' ∧ s' ∈ visited trace last := by
  induction h with
  | nil => simp at hx
  | @snoc trace s a s' _ hstep ih =>
    rcases List.mem_append.mp hx with hold | hnew
    · obtain ⟨t, ht, hmem⟩ := ih hold
      exact ⟨t, ht, by simp [visited] at hmem ⊢; tauto⟩
    · rw [List.mem_singleton.mp hnew]
      exact ⟨s', hstep, last_mem_visited _ _⟩

/-- What every guarded step keeps holds in every state of a guarded run. -/
theorem invariant_visited {I : σ → Prop} {G : σ → α → Prop} (hstart : I start)
    (hstep : ∀ s a s', I s → G s a → step s a = some s' → I s')
    (h : Run step start trace last) (hguard : ∀ x ∈ trace, G x.1 x.2) :
    ∀ s ∈ visited trace last, I s := by
  induction h with
  | nil =>
    intro s hs
    rw [visited, List.map_nil, List.nil_append, List.mem_singleton] at hs
    exact hs ▸ hstart
  | @snoc trace s a s' hrun htaken ih =>
    have hguard' : ∀ x ∈ trace, G x.1 x.2 := fun x hx =>
      hguard x (List.mem_append_left _ hx)
    have hprev := ih hguard'
    intro t ht
    simp only [visited, List.map_append, List.map_cons, List.map_nil, List.mem_append,
      List.mem_singleton] at ht
    rcases ht with (ht | rfl) | rfl
    · exact hprev t (by simp [visited, ht])
    · exact hprev t (by simp [visited])
    · exact hstep s a t (hprev s (by simp [visited])) (hguard (s, a) (by simp)) htaken

theorem invariant {I : σ → Prop} {G : σ → α → Prop} (hstart : I start)
    (hstep : ∀ s a s', I s → G s a → step s a = some s' → I s')
    (h : Run step start trace last) (hguard : ∀ x ∈ trace, G x.1 x.2) : I last :=
  invariant_visited hstart hstep h hguard last (last_mem_visited trace last)

/-- An invariant that mentions the time, in a run whose steps are taken in the order
of their times. -/
theorem invariant_of_clock {τ : Type*} [Preorder τ] {time : α → τ} {I : τ → σ → Prop}
    {G : σ → α → Prop} (hstart : ∀ c, I c start)
    (hmono : ∀ c d s, c ≤ d → I c s → I d s)
    (hstep : ∀ s a s', I (time a) s → G s a → step s a = some s' → I (time a) s')
    (h : Run step start trace last) (hclock : (trace.map fun x => time x.2).Pairwise (· ≤ ·))
    (hguard : ∀ x ∈ trace, G x.1 x.2) :
    ∀ c, (∀ x ∈ trace, time x.2 ≤ c) → I c last := by
  induction h with
  | nil => exact fun c _ => hstart c
  | @snoc trace s a s' _ htaken ih =>
    intro c hbound
    rw [List.map_append, List.pairwise_append] at hclock
    obtain ⟨hbefore, _, hlast⟩ := hclock
    have hs : I (time a) s := by
      refine ih hbefore (fun x hx => hguard x (List.mem_append_left _ hx)) (time a)
        (fun x hx => ?_)
      exact hlast _ (List.mem_map_of_mem (f := fun x => time x.2) hx) _ (by simp)
    exact hmono _ _ _ (hbound (s, a) (by simp)) (hstep s a s' hs (hguard (s, a) (by simp)) htaken)

/-- If a step between two states of `P` keeps the invariant exactly when it meets
the guard, a run inside `P` stays inside the invariant exactly when all its steps
meet the guard. -/
theorem invariant_iff_within {I P : σ → Prop} {G : σ → α → Prop} (hstart : I start)
    (hstep : ∀ s a s', P s → P s' → I s → step s a = some s' → (I s' ↔ G s a))
    (h : Run step start trace last) (hwithin : ∀ s ∈ visited trace last, P s) :
    (∀ s ∈ visited trace last, I s) ↔ ∀ x ∈ trace, G x.1 x.2 := by
  induction h with
  | nil =>
    constructor
    · simp
    · intro _ s hs
      rw [visited, List.map_nil, List.nil_append, List.mem_singleton] at hs
      exact hs ▸ hstart
  | @snoc trace s a s' hrun htaken ih =>
    have hsplit : visited (trace ++ [(s, a)]) s' = visited trace s ++ [s'] := by simp [visited]
    rw [hsplit] at hwithin ⊢
    have hbefore := ih (fun t ht => hwithin t (List.mem_append_left _ ht))
    have hs := last_mem_visited trace s
    have hnext := hstep s a s' (hwithin s (List.mem_append_left _ hs))
      (hwithin s' (List.mem_append_right _ (List.mem_singleton_self _)))
    constructor
    · intro hall x hx
      have hI : ∀ t ∈ visited trace s, I t := fun t ht => hall t (List.mem_append_left _ ht)
      rcases List.mem_append.mp hx with hold | hnew
      · exact hbefore.mp hI x hold
      · rw [List.mem_singleton.mp hnew]
        exact (hnext (hI s hs) htaken).mp
          (hall s' (List.mem_append_right _ (List.mem_singleton_self _)))
    · intro hguard t ht
      have hI := hbefore.mpr (fun x hx => hguard x (List.mem_append_left _ hx))
      rcases List.mem_append.mp ht with hold | hnew
      · exact hI t hold
      · rw [List.mem_singleton.mp hnew]
        exact (hnext (hI s hs) htaken).mpr (hguard (s, a) (by simp))

/-- If a step keeps the invariant exactly when it meets the guard, a run stays
inside the invariant exactly when all its steps meet the guard. -/
theorem invariant_iff {I : σ → Prop} {G : σ → α → Prop} (hstart : I start)
    (hstep : ∀ s a s', I s → step s a = some s' → (I s' ↔ G s a))
    (h : Run step start trace last) :
    (∀ s ∈ visited trace last, I s) ↔ ∀ x ∈ trace, G x.1 x.2 :=
  h.invariant_iff_within (P := fun _ => True) hstart (fun s a s' _ _ => hstep s a s')
    (fun _ _ => trivial)

/-- What no step ends holds at the end of a run if it ever did. -/
theorem persist {B : σ → Prop} (hstep : ∀ s a s', B s → step s a = some s' → B s')
    (h : Run step start trace last) : ∀ s ∈ visited trace last, B s → B last := by
  induction h with
  | nil =>
    intro s hs hB
    rw [visited, List.map_nil, List.nil_append, List.mem_singleton] at hs
    exact hs ▸ hB
  | @snoc trace s a s' hrun htaken ih =>
    intro t ht hB
    have hsplit : visited (trace ++ [(s, a)]) s' = visited trace s ++ [s'] := by simp [visited]
    rw [hsplit, List.mem_append, List.mem_singleton] at ht
    rcases ht with hold | rfl
    · exact hstep s a s' (ih t hold hB) htaken
    · exact hB

/-- If a step relates its two states exactly when it meets the guard, the states
of a run form a chain exactly when all its steps meet the guard. -/
theorem isChain_visited_iff {R : σ → σ → Prop} {G : σ → α → Prop}
    (hstep : ∀ s a s', step s a = some s' → (R s s' ↔ G s a)) (h : Run step start trace last) :
    (visited trace last).IsChain R ↔ ∀ x ∈ trace, G x.1 x.2 := by
  induction h with
  | nil => simp [visited]
  | @snoc trace s a s' _ htaken ih =>
    have hsplit : visited (trace ++ [(s, a)]) s' = visited trace s ++ [s'] := by simp [visited]
    have hlast : (visited trace s).getLast? = some s := by simp [visited]
    rw [hsplit, List.isChain_append, ih, hlast]
    constructor
    · rintro ⟨htrace, _, hpair⟩ x hx
      rcases List.mem_append.mp hx with hold | hnew
      · exact htrace x hold
      · rw [List.mem_singleton.mp hnew]
        exact (hstep s a s' htaken).mp (hpair s rfl s' rfl)
    · intro hall
      refine ⟨fun x hx => hall x (List.mem_append_left _ hx), List.isChain_singleton _, ?_⟩
      rintro x ⟨⟩ y ⟨⟩
      exact (hstep s a s' htaken).mpr (hall (s, a) (by simp))

/-- If every step from an invariant state relates its two states, so does a run. -/
theorem isChain_visited {R : σ → σ → Prop} {I : σ → Prop}
    (hstep : ∀ s a s', I s → step s a = some s' → R s s') (h : Run step start trace last)
    (hI : ∀ s ∈ visited trace last, I s) : (visited trace last).IsChain R := by
  refine (isChain_visited_iff (G := fun s a => ∀ s', step s a = some s' → R s s') ?_ h).mpr ?_
  · intro s a s' htaken
    constructor
    · intro hR t ht
      rw [htaken] at ht
      exact Option.some.inj ht ▸ hR
    · intro hG
      exact hG s' htaken
  · intro x hx t ht
    have hx' : x.1 ∈ visited trace last :=
      List.mem_append_left _ (List.mem_map_of_mem hx)
    exact hstep x.1 x.2 t (hI x.1 hx') ht

/-- A guarded run is a run of whatever simulates its steps. -/
theorem simulate {τ β : Type*} {step' : τ → β → Option τ} {G : σ → α → Prop} (f : σ → τ)
    (g : σ → α → β)
    (hstep : ∀ s a s', G s a → step s a = some s' → step' (f s) (g s a) = some (f s'))
    (h : Run step start trace last) (hguard : ∀ x ∈ trace, G x.1 x.2) :
    Run step' (f start) (trace.map (fun x => (f x.1, g x.1 x.2))) (f last) := by
  induction h with
  | nil => exact .nil
  | @snoc trace s a s' _ htaken ih =>
    rw [List.map_append]
    exact (ih (fun x hx => hguard x (List.mem_append_left _ hx))).snoc
      (hstep s a s' (hguard (s, a) (by simp)) htaken)

/-- The part of a run that belongs to a component, each step of the whole being one of
the component or none of its business. -/
theorem project {τ β : Type*} {step' : τ → β → Option τ} (f : σ → τ) (g : σ → α → Option β)
    (hstep : ∀ s a s', step s a = some s' →
      (∃ b, g s a = some b ∧ step' (f s) b = some (f s')) ∨ (g s a = none ∧ f s' = f s))
    (h : Run step start trace last) :
    Run step' (f start) (trace.filterMap fun x => (g x.1 x.2).map fun b => (f x.1, b))
      (f last) := by
  induction h with
  | nil => exact .nil
  | @snoc trace s a s' _ htaken ih =>
    rw [List.filterMap_append]
    rcases hstep s a s' htaken with ⟨b, hb, hown⟩ | ⟨hnone, hsame⟩
    · have hlast : [(s, a)].filterMap (fun x => (g x.1 x.2).map fun b => (f x.1, b)) =
          [(f s, b)] := by simp [hb]
      rw [hlast]
      exact ih.snoc hown
    · have hlast : [(s, a)].filterMap (fun x => (g x.1 x.2).map fun b => (f x.1, b)) = [] := by
        simp [hnone]
      rw [hlast, List.append_nil, hsame]
      exact ih

end Run

/-- Executing labels yields a run that takes exactly these labels. -/
theorem run_of_exec {start last : σ} {labels : List α}
    (h : exec step start labels = some last) :
    ∃ trace, Run step start trace last ∧ trace.map Prod.snd = labels := by
  induction labels generalizing start with
  | nil =>
    cases h
    exact ⟨[], Run.nil, rfl⟩
  | cons a rest ih =>
    obtain ⟨s, hs, hrest⟩ := Option.bind_eq_some_iff.mp h
    obtain ⟨trace, hrun, hlabels⟩ := ih hrest
    refine ⟨(start, a) :: trace, ?_, by simp [hlabels]⟩
    have hfirst : Run step start [(start, a)] s := by simpa using Run.nil.snoc hs
    simpa using hfirst.append hrun

/-- The step function restricted to the steps that pass a check. -/
def checked (check : σ → α → Bool) (step : σ → α → Option σ) (s : σ) (a : α) : Option σ :=
  if check s a then step s a else none

theorem Run.of_checked {check : σ → α → Bool} {start last : σ} {trace : List (σ × α)}
    (h : Run (checked check step) start trace last) :
    Run step start trace last ∧ ∀ x ∈ trace, check x.1 x.2 = true := by
  induction h with
  | nil => exact ⟨.nil, by simp⟩
  | @snoc trace s a s' _ hstep ih =>
    unfold checked at hstep
    split at hstep
    · rename_i hcheck
      refine ⟨ih.1.snoc hstep, ?_⟩
      intro x hx
      rcases List.mem_append.mp hx with hold | hnew
      · exact ih.2 x hold
      · rw [List.mem_singleton.mp hnew]
        exact hcheck
    · cases hstep

/-- Executing labels under a check, and a test on the last state, as a run. -/
theorem exists_run_of_exec {check : σ → α → Bool} {start : σ} {labels : List α} {test : σ → Bool}
    (h : (exec (checked check step) start labels).any test = true) :
    ∃ trace last, Run step start trace last ∧ trace.map Prod.snd = labels ∧
      (∀ x ∈ trace, check x.1 x.2 = true) ∧ test last = true := by
  cases hexec : exec (checked check step) start labels with
  | none => simp [hexec] at h
  | some last =>
    obtain ⟨trace, hrun, hlabels⟩ := run_of_exec hexec
    obtain ⟨hrun', hcheck⟩ := hrun.of_checked
    exact ⟨trace, last, hrun', hlabels, hcheck, by simpa [hexec] using h⟩

theorem exec_append (step : σ → α → Option σ) (start : σ) (labels more : List α) :
    exec step start (labels ++ more) =
      (exec step start labels).bind (fun s => exec step s more) := by
  induction labels generalizing start with
  | nil => rfl
  | cons a rest ih =>
    simp only [List.cons_append, exec, Option.bind_assoc]
    congr 1
    funext s
    exact ih s

/-- The same with a test on the state in which one of the labels is taken. -/
theorem exists_run_through {check : σ → α → Bool} {start : σ} {labels more : List α} {a : α}
    {test test' : σ → Bool} (h : (exec (checked check step) start labels).any test = true)
    (h' : (exec (checked check step) start (labels ++ a :: more)).any test' = true) :
    ∃ before s after last, Run step start (before ++ (s, a) :: after) last ∧
      before.map Prod.snd = labels ∧ after.map Prod.snd = more ∧
      (∀ x ∈ before ++ (s, a) :: after, check x.1 x.2 = true) ∧ test s = true ∧
      test' last = true := by
  rw [exec_append] at h'
  cases hs : exec (checked check step) start labels with
  | none => simp [hs] at h
  | some s =>
    rw [hs] at h h'
    cases hstep : checked check step s a with
    | none => simp [exec, hstep] at h'
    | some t =>
      simp only [Option.bind_some, exec, hstep] at h'
      cases hlast : exec (checked check step) t more with
      | none => simp [hlast] at h'
      | some last =>
        rw [hlast] at h'
        obtain ⟨before, hbefore, hlabels⟩ := run_of_exec hs
        obtain ⟨after, hafter, hmore⟩ := run_of_exec hlast
        have hrun := (hbefore.snoc hstep).append hafter
        rw [List.append_assoc] at hrun
        obtain ⟨hrun', hcheck⟩ := hrun.of_checked
        exact ⟨before, s, after, last, hrun', hlabels, hmore, hcheck, by simpa using h,
          by simpa using h'⟩

/-- If every label is enabled until the end and every step makes the measure
smaller, any sequence of labels leads to the end. -/
theorem exists_run_to {I E : σ → Prop} (μ : σ → ℕ)
    (hstep : ∀ s a, I s → ¬ E s → ∃ s', step s a = some s' ∧ I s' ∧ μ s' < μ s)
    (start : σ) (hstart : I start) (labels : ℕ → α) :
    ∃ trace last, Run step start trace last ∧ E last ∧
      trace.map Prod.snd = (List.range trace.length).map labels := by
  induction hn : μ start using Nat.strong_induction_on generalizing start labels with
  | _ n ih =>
    by_cases hdone : E start
    · exact ⟨[], start, .nil, hdone, rfl⟩
    · obtain ⟨s, hs, hI, hlt⟩ := hstep start (labels 0) hstart hdone
      obtain ⟨trace, last, hrun, hlast, hlabels⟩ :=
        ih (μ s) (hn ▸ hlt) s hI (fun i => labels (i + 1)) rfl
      have hfirst : Run step start [(start, labels 0)] s := by simpa using Run.nil.snoc hs
      refine ⟨(start, labels 0) :: trace, last, hfirst.append hrun, hlast, ?_⟩
      rw [List.map_cons, hlabels, List.length_cons, List.range_succ_eq_map, List.map_cons,
        List.map_map]
      rfl

/-- A property of the labels of a run, from the list of its labels. -/
theorem forall_of_labels {trace : List (σ × α)} {labels : List α} {P : α → Prop}
    (hlabels : trace.map Prod.snd = labels) (h : ∀ a ∈ labels, P a) : ∀ x ∈ trace, P x.2 := by
  intro x hx
  exact h x.2 (hlabels ▸ List.mem_map_of_mem hx)

end Runs
