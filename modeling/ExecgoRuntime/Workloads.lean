import ExecgoRuntime.Steps

/-!
The shim and the process it has spawned. The child handle is dropped right after
the spawn, so from then on only `wait_for_pid` stands for the workload. Every
error between the spawn and the end of the wait makes the shim exit, or fail
its row, with the workload still running. A shim that has exited left no workload
behind exactly when none of its steps failed while the workload ran.
-/
namespace ExecgoRuntime

/-- The points at which the shim still attends to a workload it has spawned. -/
def ShimState.attends : ShimState → Bool
  | .confining _ _ | .launched _ _ | .reloading _ | .supervising _ | .timingOut _ _ _ => true
  | _ => false

/-- The points before the workload is spawned. -/
def ShimState.prepares : ShimState → Bool
  | .starting | .launching _ _ => true
  | _ => false

namespace Shim

/-- The shim has made its row terminal or has returned, and its workload has not
been waited for. -/
def Abandoned (shim : Shim) : Prop :=
  shim.unreaped = true ∧ (shim.state = .persisting ∨ ∃ result, shim.state = .exited result)

/-- The workload has not been waited for and never will be. -/
def Doomed (shim : Shim) : Prop := shim.unreaped = true ∧ shim.state.attends = false

theorem Abandoned.doomed {shim : Shim} (h : shim.Abandoned) : shim.Doomed := by
  obtain ⟨hunreaped, hstate | ⟨result, hstate⟩⟩ := h <;> exact ⟨hunreaped, by rw [hstate]; rfl⟩

theorem unreaped_reap (shim : Shim) (usage : WaitUsage) : (shim.reap usage).unreaped = false := by
  cases hworkload : shim.workload <;> simp [unreaped, reap, hworkload]

theorem exited_of_not_alive {shim : Shim} (h : shim.alive = false) :
    ∃ result, shim.state = .exited result := by
  unfold Shim.alive at h
  split at h
  · exact ⟨_, ‹_›⟩
  · cases h

end Shim

/-- Under these answers a step of a shim whose workload runs does not fail:
the cgroup is set up, the wait works, and a repository call succeeds. -/
def ShimChoice.succeeds (failure : Option AppError) (present : Bool) : ShimChoice → Bool
  | .confined (some _) | .waitFailed _ => false
  | .proceed | .tick _ => failure.isNone && present
  | _ => true

theorem ShimSuccess.succeeds {failure : Option AppError} {choice : ShimChoice} {db : Db}
    {shim : Shim} (h : ShimSuccess failure choice db shim) :
    choice.succeeds failure (db.tasks.find shim.taskId).isSome = true := by
  obtain ⟨rfl, ⟨row, hrow⟩, rfl | ⟨elapsed, rfl⟩⟩ := h <;> simp [ShimChoice.succeeds, hrow]

theorem ShimFailure.not_succeeds {failure : Option AppError} {choice : ShimChoice} {db : Db}
    {shim : Shim} (h : ShimFailure failure choice db shim) (hmay : choice.mayFail = true)
    (hattends : shim.state.attends = true) :
    choice.succeeds failure (db.tasks.find shim.taskId).isSome = false := by
  cases h with
  | call hfailure =>
    obtain ⟨e, rfl⟩ := Option.isSome_iff_exists.mp hfailure
    cases choice <;> first | rfl | cases hmay
  | absent habsent =>
    rw [habsent]
    cases choice with
    | proceed => simp [ShimChoice.succeeds]
    | tick elapsed => simp [ShimChoice.succeeds]
    | waitFailed e => rfl
    | _ => cases hmay
  | wait e hchoice =>
    rw [hchoice]
    rfl
  | completion update hstate =>
    rw [hstate] at hattends
    cases hattends

/-- A step of a shim dooms its workload exactly if it fails while the workload runs. -/
theorem ShimStep.doomed_iff {now : Timestamp} {failure : Option AppError} {choice : ShimChoice}
    {db db' : Db} {committed : Option StoreCall} {shim shim' : Shim}
    (h : ShimStep now failure choice db shim committed db' shim') (hshim : ¬ shim.Doomed) :
    ¬ shim'.Doomed ↔ (shim.unreaped = true →
      choice.succeeds failure (db.tasks.find shim.taskId).isSome = true) := by
  have hreaped : shim.state.attends = false → shim.unreaped = false := by
    intro hstate
    cases hunreaped : shim.unreaped with
    | false => rfl
    | true => exact absurd ⟨hunreaped, hstate⟩ hshim
  -- A step out of a point that attends to no workload changes nothing for a workload.
  have hidle : shim.unreaped = false → shim'.unreaped = false →
      (¬ shim'.Doomed ↔ (shim.unreaped = true →
        choice.succeeds failure (db.tasks.find shim.taskId).isSome = true)) := by
    intro hbefore hafter
    refine iff_of_true (fun hdoomed => ?_) (fun hunreaped => ?_)
    · rw [hdoomed.1] at hafter
      cases hafter
    · rw [hbefore] at hunreaped
      cases hunreaped
  have hattends : ShimSuccess failure choice db shim → shim'.state.attends = true →
      (¬ shim'.Doomed ↔ (shim.unreaped = true →
        choice.succeeds failure (db.tasks.find shim.taskId).isSome = true)) := by
    intro hsuccess hstate
    refine iff_of_true (fun hdoomed => ?_) (fun _ => hsuccess.succeeds)
    rw [hdoomed.2] at hstate
    cases hstate
  cases h with
  | failed e _ _ hmay hfailure =>
    cases hunreaped : shim.unreaped with
    | false => exact hunreaped ▸ hidle hunreaped hunreaped
    | true =>
      have hstate : shim.state.attends = true := by
        cases hattends : shim.state.attends with
        | false => rw [hreaped hattends] at hunreaped; cases hunreaped
        | true => rfl
      have hchoice : choice.mayFail = true := by
        rcases hmay with hmay | hno
        · exact hmay
        · rw [hunreaped] at hno
          cases hno
      refine iff_of_false (fun hnot => hnot ⟨hunreaped, rfl⟩) (fun hsucceeds => ?_)
      rw [hfailure.not_succeeds hchoice hstate] at hsucceeds
      cases hsucceeds rfl
  | loaded _ hstate _ =>
    have hbefore := hreaped (by rw [hstate]; rfl)
    refine hidle hbefore ?_
    unfold Shim.load
    split
    · exact hbefore
    · split <;> exact hbefore
  | notSpawned e _ hstate =>
    have hbefore := hreaped (by rw [hstate]; rfl)
    exact hidle hbefore hbefore
  | spawned _ hstate _ =>
    have hbefore := hreaped (by rw [hstate]; rfl)
    refine iff_of_true (fun hdoomed => ?_) (fun hunreaped => ?_)
    · have hafter := hdoomed.2
      unfold Shim.spawn at hafter
      simp only at hafter
      split at hafter <;> cases hafter
    · rw [hbefore] at hunreaped
      cases hunreaped
  | confined _ hstate hchoice =>
    refine iff_of_true (fun hdoomed => ?_) (fun _ => by rw [hchoice]; rfl)
    cases hdoomed.2
  | notConfined e _ hstate hchoice =>
    rw [hchoice]
    cases hunreaped : shim.unreaped with
    | false =>
      refine iff_of_true (fun hdoomed => ?_) (fun hno => by cases hno)
      cases hunreaped.symm.trans hdoomed.1
    | true =>
      refine iff_of_false (fun hnot => hnot ⟨hunreaped, rfl⟩) (fun hsucceeds => ?_)
      cases hsucceeds rfl
  | started hsuccess _ _ _ => exact hattends hsuccess rfl
  | reloaded _ hsuccess _ => exact hattends hsuccess rfl
  | polled _ _ hsuccess _ => exact hattends hsuccess rfl
  | timeoutDue _ _ _ hsuccess _ => exact hattends hsuccess rfl
  | timedOut _ hsuccess _ _ => exact hattends hsuccess rfl
  | reaped usage _ hchoice _ =>
    refine iff_of_true (fun hdoomed => ?_) (fun _ => by rw [hchoice]; rfl)
    cases (shim.unreaped_reap usage).symm.trans hdoomed.1
  | collected update _ _ hbefore => exact hidle hbefore hbefore
  | completed hstate _ =>
    have hbefore := hreaped (by rw [hstate]; rfl)
    exact hidle hbefore hbefore
  | persisted _ hstate =>
    have hbefore := hreaped (by rw [hstate]; rfl)
    exact hidle hbefore hbefore

/-- A shim at a point before the spawn has no workload. -/
def Shim.Unlaunched (shim : Shim) : Prop := shim.state.prepares = true → shim.workload = none

theorem Shim.unlaunched_of_not_prepares {shim : Shim} (h : shim.state.prepares = false) :
    shim.Unlaunched := by
  intro hprepares
  rw [h] at hprepares
  cases hprepares

theorem ShimStep.unlaunched {now : Timestamp} {failure : Option AppError} {choice : ShimChoice}
    {db db' : Db} {committed : Option StoreCall} {shim shim' : Shim}
    (h : ShimStep now failure choice db shim committed db' shim') (hshim : shim.Unlaunched) :
    shim'.Unlaunched := by
  cases h with
  | loaded _ hstate _ =>
    have hnone : shim.workload = none := hshim (by rw [hstate]; rfl)
    unfold Shim.load
    split
    · exact fun _ => hnone
    · split <;> exact fun _ => hnone
  | spawned _ _ _ =>
    refine Shim.unlaunched_of_not_prepares ?_
    unfold Shim.spawn
    simp only
    split <;> rfl
  | reaped _ _ _ hstate =>
    rcases hstate with ⟨s, hstate⟩ | ⟨s, elapsed, b, hstate⟩ <;>
      exact Shim.unlaunched_of_not_prepares (by simp only [Shim.reap, hstate]; rfl)
  | _ => exact Shim.unlaunched_of_not_prepares rfl

/-- A workload that is not waited for when its shim stops attending to it stays so. -/
theorem ShimStep.doomed {now : Timestamp} {failure : Option AppError} {choice : ShimChoice}
    {db db' : Db} {committed : Option StoreCall} {shim shim' : Shim}
    (h : ShimStep now failure choice db shim committed db' shim') (hshim : shim.Unlaunched)
    (hdoomed : shim.Doomed) : shim'.Doomed := by
  obtain ⟨hunreaped, hattends⟩ := hdoomed
  have hprepares : shim.state.prepares = true → shim'.Doomed := by
    intro hstate
    unfold Shim.unreaped at hunreaped
    rw [hshim hstate] at hunreaped
    cases hunreaped
  have hleft : shim.state.attends = true → shim'.Doomed := by
    intro hstate
    rw [hstate] at hattends
    cases hattends
  cases h with
  | failed e _ _ _ _ => exact ⟨hunreaped, rfl⟩
  | completed _ _ => exact ⟨hunreaped, rfl⟩
  | persisted _ _ => exact ⟨hunreaped, rfl⟩
  | loaded _ hstate _ => exact hprepares (by rw [hstate]; rfl)
  | notSpawned _ _ hstate => exact hprepares (by rw [hstate]; rfl)
  | spawned _ hstate _ => exact hprepares (by rw [hstate]; rfl)
  | reaped _ _ _ hstate =>
    rcases hstate with ⟨s, hstate⟩ | ⟨s, elapsed, b, hstate⟩ <;>
      exact hleft (by rw [hstate]; rfl)
  | confined _ hstate _ => exact hleft (by rw [hstate]; rfl)
  | notConfined _ _ hstate _ => exact hleft (by rw [hstate]; rfl)
  | started _ hstate _ _ => exact hleft (by rw [hstate]; rfl)
  | reloaded _ _ hstate => exact hleft (by rw [hstate]; rfl)
  | polled _ _ _ hstate => exact hleft (by rw [hstate]; rfl)
  | timeoutDue _ _ _ _ hstate => exact hleft (by rw [hstate]; rfl)
  | timedOut _ _ hstate _ => exact hleft (by rw [hstate]; rfl)
  | collected _ _ hstate _ => exact hleft (by rw [hstate]; rfl)

namespace World

variable {svc : RuntimeService}

/-- If the step is one of the `i`-th shim and its workload runs, it succeeds. -/
def Supervised (i : ℕ) (w : World) (e : Event) : Prop :=
  ∀ choice shim, e.action = .shim i choice → w.procs.shims[i]? = some shim →
    shim.unreaped = true → choice.succeeds e.failure (w.db.tasks.find shim.taskId).isSome = true

def NeverAbandons (i : ℕ) (states : List World) : Prop :=
  ∀ w ∈ states, ∀ shim, w.procs.shims[i]? = some shim → ¬ shim.Abandoned

def NotDoomed (i : ℕ) (w : World) : Prop :=
  ∀ shim, w.procs.shims[i]? = some shim → ¬ shim.Doomed

theorem step_notDoomed_iff {i : ℕ} {w w' : World} {e : Event} (hdoomed : w.NotDoomed i)
    (h : w.step svc e = some w') : w'.NotDoomed i ↔ w.Supervised i e := by
  have hidle : (∀ choice, e.action ≠ .shim i choice) → w.Supervised i e := by
    intro hother choice _ haction
    exact absurd haction (hother choice)
  cases step_shim h i with
  | same hshim hother =>
    refine iff_of_true ?_ (hidle hother)
    intro shim hfind
    exact hdoomed shim (hshim ▸ hfind)
  | spawned _ _ new _ _ _ hshim hother =>
    refine iff_of_true ?_ (hidle hother)
    intro shim hfind
    rw [hshim] at hfind
    cases hfind
    rintro ⟨hunreaped, _⟩
    cases hunreaped
  | moved choice shim shim' haction hshim hshim' hstep =>
    have hone := hstep.doomed_iff (hdoomed shim hshim)
    constructor
    · intro hlater choice' t haction' ht
      rw [haction] at haction'
      cases haction'
      rw [hshim] at ht
      cases ht
      exact hone.mp (hlater shim' hshim')
    · intro hsupervised t ht
      rw [hshim'] at ht
      cases ht
      exact hone.mpr (hsupervised choice shim haction hshim)

theorem step_unlaunched {i : ℕ} {w w' : World} {e : Event} (h : w.step svc e = some w')
    (hbefore : ∀ shim, w.procs.shims[i]? = some shim → shim.Unlaunched) :
    ∀ shim, w'.procs.shims[i]? = some shim → shim.Unlaunched := by
  intro shim hshim
  cases step_shim h i with
  | same hsame _ => exact hbefore shim (hsame ▸ hshim)
  | spawned _ _ new _ _ _ hnew _ =>
    rw [hnew] at hshim
    cases hshim
    exact fun _ => rfl
  | moved choice t t' _ ht ht' hstep =>
    rw [ht'] at hshim
    cases hshim
    exact hstep.unlaunched (hbefore t ht)

theorem unlaunched_of_run {db : Db} {trace : List (World × Event)} {last : World}
    (hrun : Run svc (serve db) trace last) : ∀ shim ∈ last.procs.shims, shim.Unlaunched := by
  intro shim hmem
  obtain ⟨i, hi⟩ := List.mem_iff_getElem?.mp hmem
  refine hrun.invariant (I := fun w => ∀ shim, w.procs.shims[i]? = some shim → shim.Unlaunched)
    (G := fun _ _ => True) ?_ ?_ (fun _ _ => trivial) shim hi
  · intro t ht
    cases ht
  · intro w e w' hbefore _ hstep
    exact step_unlaunched hstep hbefore

/-- A shim that has left its workload does so until it has exited. -/
theorem step_doomed {i : ℕ} {w w' : World} {e : Event} (h : w.step svc e = some w')
    (hdoomed : ∃ shim, w.procs.shims[i]? = some shim ∧ shim.Unlaunched ∧ shim.Doomed) :
    ∃ shim, w'.procs.shims[i]? = some shim ∧ shim.Unlaunched ∧ shim.Doomed := by
  obtain ⟨shim, hshim, hunlaunched, hdoomed⟩ := hdoomed
  cases step_shim h i with
  | same hsame _ => exact ⟨shim, by rw [hsame, hshim], hunlaunched, hdoomed⟩
  | spawned _ _ _ _ _ hnone _ _ =>
    rw [hshim] at hnone
    cases hnone
  | moved choice t shim' _ ht hshim' hstep =>
    rw [hshim] at ht
    cases ht
    exact ⟨shim', hshim', hstep.unlaunched hunlaunched, hstep.doomed hunlaunched hdoomed⟩

/-- A shim abandons no workload in a run whose steps of that shim succeed while
the workload runs, and one that has exited without abandoning its workload made
no other steps. -/
theorem never_abandons_iff {db : Db} {trace : List (World × Event)} {last : World}
    (hrun : Run svc (serve db) trace last) (i : ℕ) :
    ((∀ x ∈ trace, x.1.Supervised i x.2) → NeverAbandons i (Runs.visited trace last)) ∧
      (∀ shim, last.procs.shims[i]? = some shim → shim.alive = false →
        NeverAbandons i (Runs.visited trace last) → ∀ x ∈ trace, x.1.Supervised i x.2) := by
  have hstart : (serve db).NotDoomed i := by
    intro shim hshim
    cases hshim
  have hiff := hrun.invariant_iff hstart (fun _ _ _ hw hstep => step_notDoomed_iff hw hstep)
  have hunlaunched := hrun.invariant_visited (G := fun _ _ => True)
    (fun shim (hshim : (serve db).procs.shims[i]? = some shim) => by cases hshim)
    (fun _ _ _ hbefore _ hstep => step_unlaunched hstep hbefore) (fun _ _ => trivial)
  constructor
  · intro hsupervised w hw shim hshim
    exact fun habandoned => hiff.mpr hsupervised w hw shim hshim habandoned.doomed
  · intro shim hshim hexited hnever
    refine hiff.mp ?_
    intro w hw t ht hdoomed
    -- A shim that is doomed once is doomed at the end, where it has exited.
    obtain ⟨t', ht', _, hunreaped, _⟩ := hrun.persist (fun _ _ _ hbefore hstep =>
      step_doomed hstep hbefore) w hw ⟨t, ht, hunlaunched w hw t ht, hdoomed⟩
    rw [hshim] at ht'
    cases ht'
    exact hnever last (Runs.last_mem_visited trace last) shim hshim
      ⟨hunreaped, .inr (Shim.exited_of_not_alive hexited)⟩

/-- A task whose workload succeeds under a shim none of whose steps fails. -/
theorem never_abandons_iff_of_success :
    ∃ trace last, Run (smallService ⟨1, none, none⟩) init trace last ∧
      trace.map Prod.snd = events (submitActions 0 (commandRequest "a") ++ dispatchActions 10 ++
        shimActions 0 11) ∧
      ((∀ x ∈ trace, x.1.Supervised 0 x.2) → NeverAbandons 0 (Runs.visited trace last)) ∧
      (∀ shim, last.procs.shims[0]? = some shim → shim.alive = false →
        NeverAbandons 0 (Runs.visited trace last) → ∀ x ∈ trace, x.1.Supervised 0 x.2) := by
  have hexec : (execute (smallService ⟨1, none, none⟩) (fun _ _ => true)
      (events (submitActions 0 (commandRequest "a") ++ dispatchActions 10 ++
        shimActions 0 11))).any (fun _ => true) = true := by decide +kernel
  obtain ⟨trace, last, hrun, hlabels, _, _⟩ := Runs.exists_run_of_exec hexec
  exact ⟨trace, last, hrun, hlabels, never_abandons_iff hrun 0⟩

/-- The cgroup of a spawned workload cannot be set up: the shim fails the row and
returns while the workload runs. -/
theorem workload_abandoned_without_cgroup :
    ¬ ∀ svc db trace last, Run svc (serve db) trace last →
      (∀ x ∈ trace, x.2.plain = true) → ∀ i, NeverAbandons i (Runs.visited trace last) := by
  intro hclaim
  have hexec : (execute (smallService ⟨1, none, none⟩) (fun _ e => e.plain)
      (events (submitActions 0
          { commandRequest "a" with sandbox := { profile := .linuxSandbox } } ++
        dispatchActions 10 ++ [.shim 0 .proceed, .shim 0 (.spawned 11),
          .shim 0 (.confined (some (.io "Read-only file system"))), .shim 0 .proceed,
          .shim 0 .proceed]))).any (fun w =>
        (w.procs.shims[0]?).any (fun shim => shim.unreaped && !shim.alive)) = true := by
    decide +kernel
  obtain ⟨trace, last, hrun, _, hplain, htest⟩ := Runs.exists_run_of_exec hexec
  obtain ⟨shim, hshim, hleft⟩ := (Option.any_eq_true _ _).mp htest
  obtain ⟨hunreaped, hexited⟩ := Bool.and_eq_true_iff.mp hleft
  refine hclaim _ _ trace last hrun hplain 0 last (Runs.last_mem_visited trace last) shim hshim
    ⟨hunreaped, .inr (Shim.exited_of_not_alive ?_)⟩
  simpa using hexited

end World

end ExecgoRuntime
