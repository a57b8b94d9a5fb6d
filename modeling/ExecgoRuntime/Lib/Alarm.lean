import ExecgoRuntime.Lib.Runs

/-!
A two-stage alarm that is polled. The first tick that finds a trigger raises the
alarm and fires its first stage. The second stage fires at the first tick that
comes a given delay after that, which may be the same one. Both latch: a run of
ticks in the order of time fires the first stage, then the second, and nothing
else, whatever triggers it finds.
-/
namespace Alarms

structure Alarm where
  raised : Option ℕ := none
  escalated : Bool := false

structure Tick where
  time : ℕ
  trigger : Bool

inductive Stage
  | first
  | second
  deriving DecidableEq

namespace Alarm

/-- When the alarm was raised, this tick included. -/
def raisedBy (a : Alarm) (t : Tick) : Option ℕ :=
  a.raised.or (if t.trigger then some t.time else none)

def overdue (delay : ℕ) (a : Alarm) (t : Tick) : Bool :=
  (a.raisedBy t).any (fun since => decide (delay ≤ t.time - since))

def next (delay : ℕ) (a : Alarm) (t : Tick) : Alarm where
  raised := a.raisedBy t
  escalated := a.escalated || a.overdue delay t

/-- What the tick fires, in this order. -/
def fires (delay : ℕ) (a : Alarm) (t : Tick) : List Stage :=
  (if a.raised.isNone && t.trigger then [.first] else []) ++
    if a.overdue delay t && !a.escalated then [.second] else []

abbrev Run (delay : ℕ) (trace : List (Alarm × Tick)) (last : Alarm) : Prop :=
  Runs.Run (fun a t => some (next delay a t)) {} trace last

/-- The ticks come in the order of time. -/
def InOrder (trace : List (Alarm × Tick)) : Prop :=
  trace.Pairwise (fun x y => x.2.time ≤ y.2.time)

variable {delay : ℕ} {a : Alarm} {t : Tick}

theorem first_mem_fires_iff :
    Stage.first ∈ a.fires delay t ↔ a.raised = none ∧ t.trigger = true := by
  unfold fires
  cases a.raised <;> cases t.trigger <;> simp

theorem second_mem_fires_iff :
    Stage.second ∈ a.fires delay t ↔ a.overdue delay t = true ∧ a.escalated = false := by
  unfold fires
  rw [List.mem_append]
  constructor
  · rintro (hfirst | hsecond)
    · split at hfirst <;> simp at hfirst
    · split at hsecond
      · rename_i hfires
        simpa using hfires
      · cases hsecond
  · rintro ⟨hoverdue, hescalated⟩
    right
    simp [hoverdue, hescalated]

/-- A tick raises the alarm only when it finds a trigger. -/
theorem raisedBy_eq_some {since : ℕ} (h : a.raisedBy t = some since) :
    a.raised = some since ∨ (a.raised = none ∧ t.trigger = true ∧ since = t.time) := by
  unfold raisedBy at h
  cases hraised : a.raised with
  | some earlier =>
    rw [hraised] at h
    exact .inl h
  | none =>
    rw [hraised, Option.none_or] at h
    split at h
    · rename_i htrigger
      exact .inr ⟨rfl, htrigger, (Option.some.inj h).symm⟩
    · cases h

theorem raisedBy_of_raised {since : ℕ} (h : a.raised = some since) :
    a.raisedBy t = some since := by
  rw [raisedBy, h]
  rfl

/-- What an alarm in this state has fired. -/
def fired (a : Alarm) : List Stage :=
  if a.raised.isNone then [] else if a.escalated then [.first, .second] else [.first]

/-- The second stage comes after the first. -/
def Ordered (a : Alarm) : Prop := a.escalated = true → a.raised.isSome = true

theorem Ordered.next (h : a.Ordered) : (a.next delay t).Ordered := by
  intro hescalated
  change (a.raisedBy t).isSome = true
  unfold Alarm.next at hescalated
  rcases Bool.or_eq_true_iff.mp hescalated with hbefore | hnow
  · obtain ⟨since, hsince⟩ := Option.isSome_iff_exists.mp (h hbefore)
    rw [raisedBy_of_raised hsince]
    rfl
  · unfold overdue at hnow
    cases hraised : a.raisedBy t with
    | none =>
      rw [hraised] at hnow
      cases hnow
    | some since => rfl

theorem fired_next (h : a.Ordered) : (a.next delay t).fired = a.fired ++ a.fires delay t := by
  cases hraised : a.raised with
  | some since =>
    have hby : a.raisedBy t = some since := raisedBy_of_raised hraised
    cases hescalated : a.escalated <;> cases hoverdue : a.overdue delay t <;>
      simp [fired, fires, next, hraised, hby, hescalated, hoverdue]
  | none =>
    have hescalated : a.escalated = false := by
      by_contra hnot
      have hsome := h (by simpa using hnot)
      rw [hraised] at hsome
      cases hsome
    cases htrigger : t.trigger with
    | false =>
      have hby : a.raisedBy t = none := by simp [raisedBy, hraised, htrigger]
      simp [fired, fires, next, hraised, hby, htrigger, overdue]
    | true =>
      have hby : a.raisedBy t = some t.time := by simp [raisedBy, hraised, htrigger]
      cases hoverdue : a.overdue delay t <;>
        simp [fired, fires, next, hraised, hby, htrigger, hescalated, hoverdue]

variable {trace : List (Alarm × Tick)} {last : Alarm}

theorem ordered_of_run (h : Run delay trace last) : last.Ordered := by
  have hstart : Ordered {} := by
    intro hescalated
    cases hescalated
  refine Runs.Run.invariant (I := Ordered) (G := fun _ _ => True) hstart ?_ h (fun _ _ => trivial)
  rintro a t a' ha _ ⟨⟩
  exact ha.next

/-- A run fires what its last state says. -/
theorem fired_of_run (h : Run delay trace last) :
    trace.flatMap (fun x => x.1.fires delay x.2) = last.fired := by
  induction h with
  | nil => rfl
  | @snoc trace a t a' hrun hstep ih =>
    cases hstep
    rw [List.flatMap_append, ih, fired_next (ordered_of_run hrun)]
    simp

/-- The first stage fires at most once, then the second at most once. -/
theorem fires_in_order (h : Run delay trace last) :
    trace.flatMap (fun x => x.1.fires delay x.2) <+: [.first, .second] := by
  rw [fired_of_run h]
  unfold fired
  split
  · exact List.nil_prefix
  split
  · exact List.prefix_rfl
  · exact ⟨[.second], rfl⟩

/-- A raised alarm has fired its first stage, at the time it bears. -/
theorem first_of_raised (h : Run delay trace last) {since : ℕ}
    (hraised : last.raised = some since) :
    ∃ y ∈ trace, Stage.first ∈ y.1.fires delay y.2 ∧ y.2.trigger = true ∧ y.2.time = since := by
  induction h with
  | nil => cases hraised
  | @snoc trace a t a' _ hstep ih =>
    cases hstep
    rcases raisedBy_eq_some hraised with hbefore | ⟨hnone, htrigger, hsince⟩
    · obtain ⟨y, hy, hfirst⟩ := ih hbefore
      exact ⟨y, List.mem_append_left _ hy, hfirst⟩
    · exact ⟨(a, t), by simp, first_mem_fires_iff.mpr ⟨hnone, htrigger⟩, htrigger, hsince.symm⟩

/-- The same for the alarm as this tick leaves it. -/
theorem first_of_raisedBy (h : Run delay trace a) {since : ℕ}
    (hraised : a.raisedBy t = some since) :
    ∃ y ∈ trace ++ [(a, t)],
      Stage.first ∈ y.1.fires delay y.2 ∧ y.2.trigger = true ∧ y.2.time = since := by
  have hnext : Run delay (trace ++ [(a, t)]) (a.next delay t) := h.snoc rfl
  exact first_of_raised hnext hraised

/-- Nothing fires before a trigger. -/
theorem trigger_of_fires (h : Run delay trace a) (hfires : a.fires delay t ≠ []) :
    ∃ y ∈ trace ++ [(a, t)], y.2.trigger = true := by
  have hraised : ∃ since, a.raisedBy t = some since := by
    obtain ⟨stage, hstage⟩ := List.exists_mem_of_ne_nil _ hfires
    cases stage with
    | first =>
      obtain ⟨hnone, htrigger⟩ := first_mem_fires_iff.mp hstage
      exact ⟨t.time, by simp [raisedBy, hnone, htrigger]⟩
    | second =>
      have hoverdue := (second_mem_fires_iff.mp hstage).1
      unfold overdue at hoverdue
      obtain ⟨since, hsince, _⟩ := (Option.any_eq_true _ _).mp hoverdue
      exact ⟨since, hsince⟩
  obtain ⟨since, hsince⟩ := hraised
  obtain ⟨y, hy, _, htrigger, _⟩ := first_of_raisedBy h hsince
  exact ⟨y, hy, htrigger⟩

/-- The second stage fires no less than the delay after the first. -/
theorem first_before_second (h : Run delay trace a) (horder : InOrder (trace ++ [(a, t)]))
    (hsecond : Stage.second ∈ a.fires delay t) :
    ∃ y ∈ trace ++ [(a, t)], Stage.first ∈ y.1.fires delay y.2 ∧ y.2.time + delay ≤ t.time := by
  have hoverdue := (second_mem_fires_iff.mp hsecond).1
  unfold overdue at hoverdue
  obtain ⟨since, hsince, hdelay⟩ := (Option.any_eq_true _ _).mp hoverdue
  obtain ⟨y, hy, hfirst, _, htime⟩ := first_of_raisedBy h hsince
  refine ⟨y, hy, hfirst, ?_⟩
  have hle : y.2.time ≤ t.time := by
    rcases List.mem_append.mp hy with hbefore | hnow
    · exact (List.pairwise_append.mp horder).2.2 y hbefore (a, t) (List.mem_singleton_self _)
    · rw [List.mem_singleton.mp hnow]
  have hdue := of_decide_eq_true hdelay
  omega

/-- After its first stage the alarm bears the time of it, and is not escalated
before the delay is over. -/
theorem waiting_of_run {x : Alarm × Tick} {between : List (Alarm × Tick)} (hpos : 0 < delay)
    (hrun : Runs.Run (fun a t => some (next delay a t)) (x.1.next delay x.2) between a)
    (hraised : (x.1.next delay x.2).raised = some x.2.time)
    (hescalated : (x.1.next delay x.2).escalated = false)
    (hwaiting : ∀ z ∈ between, z.2.time < x.2.time + delay) :
    a.raised = some x.2.time ∧ a.escalated = false := by
  refine hrun.invariant (I := fun a => a.raised = some x.2.time ∧ a.escalated = false)
    (G := fun _ t => t.time < x.2.time + delay) ⟨hraised, hescalated⟩ ?_ hwaiting
  rintro a t a' ⟨hr, he⟩ hlt ⟨⟩
  refine ⟨raisedBy_of_raised hr, ?_⟩
  have hnot : a.overdue delay t = false := by
    unfold overdue
    rw [raisedBy_of_raised hr, Option.any_some]
    simp only [decide_eq_false_iff_not]
    omega
  simp [next, he, hnot]

/-- The second stage fires at the first tick that comes the delay after the first. -/
theorem second_fires_when_due {before between after : List (Alarm × Tick)} {x y : Alarm × Tick}
    {rest : List (Alarm × Tick)} (h : Run delay (before ++ x :: rest) last)
    (hfirst : Stage.first ∈ x.1.fires delay x.2) (hsplit : x :: rest = between ++ y :: after)
    (hwaiting : ∀ z ∈ between, z.2.time < x.2.time + delay)
    (hdue : x.2.time + delay ≤ y.2.time) : Stage.second ∈ y.1.fires delay y.2 := by
  obtain ⟨hnone, htrigger⟩ := first_mem_fires_iff.mp hfirst
  obtain ⟨_, hbefore, hstep, hafter⟩ := h.split
  cases hstep
  have hby : x.1.raisedBy x.2 = some x.2.time := by simp [raisedBy, hnone, htrigger]
  have hidle : x.1.escalated = false := by
    by_contra hnot
    have hsome := ordered_of_run hbefore (by simpa using hnot)
    rw [hnone] at hsome
    cases hsome
  cases between with
  | nil =>
    cases hsplit
    refine second_mem_fires_iff.mpr ⟨?_, hidle⟩
    unfold overdue
    rw [hby, Option.any_some, decide_eq_true_eq]
    omega
  | cons z between =>
    cases hsplit
    obtain ⟨_, hmiddle, hstep', _⟩ := hafter.split
    have hwait := hwaiting x (List.mem_cons_self ..)
    have hnot : (x.1.next delay x.2).escalated = false := by
      unfold next overdue
      rw [hby, Option.any_some, hidle, Bool.false_or, decide_eq_false_iff_not]
      omega
    obtain ⟨hraised, hescalated⟩ := waiting_of_run (by omega) hmiddle hby hnot
      (fun z hz => hwaiting z (List.mem_cons_of_mem _ hz))
    refine second_mem_fires_iff.mpr ⟨?_, hescalated⟩
    unfold overdue
    rw [raisedBy_of_raised hraised, Option.any_some, decide_eq_true_eq]
    omega

end Alarm

end Alarms
