import ExecgoRuntime.Exclusion

/-!
At-most-once execution. A shim occupies its task while it may still spawn the
workload and from then on. If the recovery pass frees only rows whose shims do
not occupy them, no two shims that occupy a task exist at the same time, so the
workload of a row is spawned at most once, over all crashes and restarts.
-/
namespace ExecgoRuntime

/-- The shim has spawned its workload or may still do so. -/
def Shim.occupies (shim : Shim) : Bool := shim.state.prepares || shim.workload.isSome

theorem Shim.selects_occupies : Shim.Selects Shim.occupies := by
  intro now failure choice db db' committed shim shim' hstep hafter
  have hsame : shim.workload.isSome = true → shim.occupies = true := by
    intro hworkload
    rw [occupies, hworkload, Bool.or_true]
  have hprepares : shim.state.prepares = true → shim.occupies = true := by
    intro hstate
    rw [occupies, hstate, Bool.true_or]
  cases hstep with
  | loaded _ hstate _ => exact hprepares (by rw [hstate]; rfl)
  | notSpawned _ _ hstate => exact hprepares (by rw [hstate]; rfl)
  | spawned _ hstate _ => exact hprepares (by rw [hstate]; rfl)
  | reaped usage _ _ hstate =>
    refine hsame ?_
    rcases hstate with ⟨s, hstate⟩ | ⟨s, elapsed, b, hstate⟩ <;>
      simpa [occupies, reap, hstate, ShimState.prepares] using hafter
  | _ => exact hsame (by simpa [occupies, ShimState.prepares, fail, exit] using hafter)

theorem ShimStep.workload {now : Timestamp} {failure : Option AppError} {choice : ShimChoice}
    {db db' : Db} {committed : Option StoreCall} {shim shim' : Shim}
    (h : ShimStep now failure choice db shim committed db' shim')
    (hworkload : shim.workload.isSome = true) : shim'.workload.isSome = true := by
  cases h with
  | loaded _ _ _ =>
    unfold Shim.load
    split
    · exact hworkload
    · split <;> exact hworkload
  | spawned _ _ _ => rfl
  | reaped usage _ _ _ => simpa [Shim.reap] using hworkload
  | _ => exact hworkload

/-- The spawn of a workload is the step of a shim that is about to launch. -/
theorem Shim.move_spawned {graceMs : ℕ} {now : Timestamp} {pid : ℕ} {shim : Shim} {m : Move Shim}
    (h : shim.move graceMs now (.spawned pid) = some m) :
    ∃ task plan, shim.state = .launching task plan ∧ m = .silent (shim.spawn task plan pid) := by
  unfold Shim.move at h
  cases hstate : shim.state with
  | launching task plan =>
    rw [hstate] at h
    cases h
    exact ⟨task, plan, rfl, rfl⟩
  | _ =>
    rw [hstate] at h
    cases h

namespace World

variable {svc : RuntimeService} {w w' : World} {e : Event}

/-- The task whose workload the step spawns. -/
def launches (w : World) (e : Event) : Option TaskId :=
  match e.action with
  | .shim i (.spawned _) => (w.procs.shims[i]?).map Shim.taskId
  | _ => none

theorem step_launches (h : w.step svc e = some w') {taskId : TaskId}
    (hlaunches : w.launches e = some taskId) :
    ∃ shim ∈ w.procs.shims, shim.taskId = taskId ∧ shim.state.prepares = true ∧
      ∃ shim' ∈ w'.procs.shims, shim'.taskId = taskId ∧ shim'.workload.isSome = true := by
  unfold launches at hlaunches
  split at hlaunches
  · rename_i i pid haction
    obtain ⟨shim, hshim, rfl⟩ := Option.map_eq_some_iff.mp hlaunches
    obtain ⟨m, hm, _, hout⟩ := step_actor h
    rw [haction] at hm
    simp only [Procs.actorMove, hshim] at hm
    obtain ⟨_, ⟨⟩, hm⟩ := Option.bind_eq_some_iff.mp hm
    obtain ⟨m', hmove, hm⟩ := Option.bind_eq_some_iff.mp hm
    cases hm
    obtain ⟨task, plan, hstate, rfl⟩ := Shim.move_spawned hmove
    obtain ⟨shim', hout, hprocs⟩ := Move.outcome_map hout
    obtain ⟨_, _, rfl⟩ := Move.outcome_silent hout
    refine ⟨shim, List.mem_of_getElem? hshim, rfl, by rw [hstate]; rfl,
      shim.spawn task plan pid, ?_, rfl, rfl⟩
    rw [hprocs]
    exact List.mem_set (List.getElem?_eq_some_iff.mp hshim).1 _
  · cases hlaunches

/-- A workload of the task has been spawned. -/
def Launched (taskId : TaskId) (w : World) : Prop :=
  ∃ shim ∈ w.procs.shims, shim.taskId = taskId ∧ shim.workload.isSome = true

theorem step_launched (h : w.step svc e = some w') {taskId : TaskId}
    (hlaunched : w.Launched taskId) : w'.Launched taskId := by
  obtain ⟨shim, hmem, hid, hworkload⟩ := hlaunched
  obtain ⟨shim', hmem', rfl | ⟨choice, hmove⟩⟩ := exists_shim_of_step h hmem
  · exact ⟨shim', hmem', hid, hworkload⟩
  · exact ⟨shim', hmem', hmove.taskId.trans hid, hmove.workload hworkload⟩

/-- How often a run spawns the workload of a task. -/
def launchCount (trace : List (World × Event)) (taskId : TaskId) : ℕ :=
  trace.countP (fun x => decide (x.1.launches x.2 = some taskId))

/-- At most once: if the recovery pass frees only rows that no shim occupies, the
workload of a row is spawned at most once in a run, with any number of crashes,
restarts and further dispatch cycles. -/
theorem launched_at_most_once {db : Db} {trace : List (World × Event)} {last : World}
    (hrun : Run svc (serve db) trace last) (hgc : ∀ x ∈ trace, x.2.action.isGc = false)
    (horphans : ∀ x ∈ trace, x.1.FreesOrphans Shim.occupies svc x.2) (taskId : TaskId) :
    launchCount trace taskId ≤ 1 := by
  suffices hboth : launchCount trace taskId ≤ 1 ∧
      (launchCount trace taskId = 1 → last.Launched taskId) from hboth.1
  induction hrun with
  | nil => exact ⟨Nat.zero_le 1, fun hone => by cases hone⟩
  | @snoc trace w e w' hrun hstep ih =>
    have hgc' : ∀ x ∈ trace, x.2.action.isGc = false :=
      fun x hx => hgc x (List.mem_append_left _ hx)
    have horphans' : ∀ x ∈ trace, x.1.FreesOrphans Shim.occupies svc x.2 :=
      fun x hx => horphans x (List.mem_append_left _ hx)
    obtain ⟨hcount, hlaunched⟩ := ih hgc' horphans'
    have hexclusive : Exclusive Shim.occupies w :=
      exclusive_of_run Shim.selects_occupies hrun hgc' horphans'
    have hunlaunched : ∀ shim ∈ w.procs.shims, shim.Unlaunched :=
      unlaunched_of_run hrun
    have hsplit : launchCount (trace ++ [(w, e)]) taskId =
        launchCount trace taskId + if w.launches e = some taskId then 1 else 0 := by
      simp [launchCount, List.countP_append, List.countP_cons]
    rw [hsplit]
    by_cases hnow : w.launches e = some taskId
    · rw [if_pos hnow]
      obtain ⟨shim, hmem, hid, hprepares, hafter⟩ := step_launches hstep hnow
      -- A shim that has spawned before would be the one that spawns now.
      have hfirst : ¬ w.Launched taskId := by
        rintro ⟨t, ht, htid, hworkload⟩
        have heq : t = shim := hexclusive.distinct.eq_of_mem ht hmem
          (by rw [Shim.occupies, hworkload, Bool.or_true])
          (by rw [Shim.occupies, hprepares, Bool.true_or]) (htid.trans hid.symm)
        rw [heq, hunlaunched shim hmem hprepares] at hworkload
        cases hworkload
      have hzero : launchCount trace taskId = 0 := by
        rcases Nat.le_one_iff_eq_zero_or_eq_one.mp hcount with hzero | hone
        · exact hzero
        · exact absurd (hlaunched hone) hfirst
      rw [hzero]
      exact ⟨Nat.le_refl 1, fun _ => hafter⟩
    · rw [if_neg hnow, Nat.add_zero]
      exact ⟨hcount, fun hone => step_launched hstep (hlaunched hone)⟩

/-- A check that implies `FreesOrphans`. -/
def recoversAlone (w : World) (e : Event) : Bool :=
  match e.action with
  | .recover _ => w.procs.shims.isEmpty
  | _ => true

theorem freesOrphans_of_recoversAlone (h : w.step svc e = some w')
    (hcheck : w.recoversAlone e = true) (K : Shim → Bool) : w.FreesOrphans K svc e := by
  rintro taskId write row hcommitted _ hfrees ⟨shim, hmem, _⟩
  obtain ⟨pidTaken, haction⟩ := recovers_of_frees h hcommitted hfrees
  simp only [recoversAlone, haction, List.isEmpty_iff] at hcheck
  rw [hcheck] at hmem
  cases hmem

/-- The server crashes between the reservation and the spawn of the shim, and the
next life frees the row and runs the task. -/
theorem launched_at_most_once_of_crash :
    ∃ trace last, Run (smallService ⟨1, none, none⟩) init trace last ∧
      trace.map Prod.snd = events (submitActions 0 (commandRequest "a") ++
        List.replicate 3 (.dispatch (.spawned 10)) ++
        [.crash, .restart, .recover false, .recover false, .recover false] ++
        dispatchActions 10 ++ shimActions 0 11) ∧
      launchCount trace "a" ≤ 1 := by
  have hexec : (execute (smallService ⟨1, none, none⟩) recoversAlone
      (events (submitActions 0 (commandRequest "a") ++
        List.replicate 3 (.dispatch (.spawned 10)) ++
        [.crash, .restart, .recover false, .recover false, .recover false] ++
        dispatchActions 10 ++ shimActions 0 11))).any (fun _ => true) = true := by decide +kernel
  obtain ⟨trace, last, hrun, hlabels, hcheck, _⟩ := Runs.exists_run_of_exec hexec
  refine ⟨trace, last, hrun, hlabels, launched_at_most_once hrun ?_ ?_ "a"⟩
  · exact Runs.forall_of_labels (P := fun e => e.action.isGc = false) hlabels (by decide)
  · intro x hx
    obtain ⟨w', hstep⟩ := hrun.step_of_mem hx
    exact freesOrphans_of_recoversAlone hstep (hcheck x hx) Shim.occupies

def isLaunch (e : Event) : Bool :=
  match e.action with
  | .shim _ (.spawned _) => true
  | _ => false

/-- The steps that spawn a workload do so for the task. -/
def launchesOnly (taskId : TaskId) (w : World) (e : Event) : Bool :=
  !isLaunch e || decide (w.launches e = some taskId)

theorem launchCount_of_labels {trace : List (World × Event)} {labels : List Event} {taskId : TaskId}
    (hlabels : trace.map Prod.snd = labels)
    (honly : ∀ x ∈ trace, x.1.launchesOnly taskId x.2 = true) :
    labels.countP isLaunch ≤ launchCount trace taskId := by
  rw [← hlabels, List.countP_map]
  refine List.countP_mono_left ?_
  intro x hx hlaunch
  have hcheck := honly x hx
  rw [Function.comp_apply] at hlaunch
  simpa [launchesOnly, hlaunch] using hcheck

/-- The server crashes between the spawn of the shim and `mark_dispatched`. The
recovery pass frees the row under the shim, the dispatcher starts a second one,
and both spawn the workload. -/
theorem launched_twice_after_crash :
    ¬ ∀ svc trace last, Run svc init trace last → (∀ x ∈ trace, x.2.ofLives = true) →
      ∀ taskId, launchCount trace taskId ≤ 1 := by
  intro hclaim
  have hexec : (execute (smallService ⟨1, none, none⟩)
      (fun w e => e.ofLives && w.launchesOnly "a" e)
      (events (submitActions 0 (commandRequest "a") ++
        List.replicate 4 (.dispatch (.spawned 10)) ++
        [.crash, .restart, .recover false, .recover false, .recover false] ++
        List.replicate 4 (.dispatch (.spawned 12)) ++
        [.shim 0 .proceed, .shim 0 (.spawned 11), .shim 1 .proceed, .shim 1 (.spawned 13)]))).any
      (fun _ => true) = true := by decide +kernel
  obtain ⟨trace, last, hrun, hlabels, hcheck, _⟩ := Runs.exists_run_of_exec hexec
  have hboth : ∀ x ∈ trace, x.2.ofLives = true ∧ x.1.launchesOnly "a" x.2 = true :=
    fun x hx => Bool.and_eq_true_iff.mp (hcheck x hx)
  have htwice := launchCount_of_labels hlabels (fun x hx => (hboth x hx).2)
  have honce := hclaim _ trace last hrun (fun x hx => (hboth x hx).1) "a"
  exact absurd (htwice.trans honce) (by decide)

end World

end ExecgoRuntime
