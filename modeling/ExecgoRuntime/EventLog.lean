import ExecgoRuntime.SubmissionOrigins

/-!
The event log. Events are numbered by `AUTOINCREMENT`, so numbers only grow and
are not reused after a deletion. Between two states of a run the events of a
task are extended at their end, or replaced by events with greater numbers when
the task was deleted in between. A client that remembers the number of the last
event it has seen therefore finds exactly the events that were added since.
-/
namespace ExecgoRuntime

open KeyedTable

namespace Db

/-- The events are in the order of their numbers, which have all been handed out. -/
structure Numbered (db : Db) : Prop where
  increasing : (db.taskEvents.map EventRecord.seq).Pairwise (· < ·)
  below : ∀ event ∈ db.taskEvents, event.seq ≤ db.lastSeq

/-- Events that got their numbers between the two databases. -/
structure Fresh (db db' : Db) (new : List EventRecord) : Prop where
  increasing : (new.map EventRecord.seq).Pairwise (· < ·)
  above : ∀ event ∈ new, db.lastSeq < event.seq
  below : ∀ event ∈ new, event.seq ≤ db'.lastSeq

theorem fresh_nil (db db' : Db) : Fresh db db' [] := ⟨by simp, by simp, by simp⟩

theorem Fresh.append {db mid db' : Db} {new new' : List EventRecord} (h : Fresh db mid new)
    (h' : Fresh mid db' new') (hfirst : db.lastSeq ≤ mid.lastSeq)
    (hsecond : mid.lastSeq ≤ db'.lastSeq) : Fresh db db' (new ++ new') where
  increasing := by
    rw [List.map_append, List.pairwise_append]
    refine ⟨h.increasing, h'.increasing, ?_⟩
    intro a ha b hb
    obtain ⟨event, hevent, rfl⟩ := List.mem_map.mp ha
    obtain ⟨event', hevent', rfl⟩ := List.mem_map.mp hb
    exact Nat.lt_of_le_of_lt (h.below event hevent) (h'.above event' hevent')
  above event hevent := by
    rcases List.mem_append.mp hevent with hold | hnew
    · exact h.above event hold
    · exact Nat.lt_of_le_of_lt hfirst (h'.above event hnew)
  below event hevent := by
    rcases List.mem_append.mp hevent with hold | hnew
    · exact (h.below event hold).trans hsecond
    · exact h'.below event hnew

theorem Fresh.sublist {db db' : Db} {new new' : List EventRecord} (h : Fresh db db' new)
    (hsub : new'.Sublist new) : Fresh db db' new' where
  increasing := h.increasing.sublist (hsub.map _)
  above event hevent := h.above event (hsub.mem hevent)
  below event hevent := h.below event (hsub.mem hevent)

/-- The transaction only adds events, at the end and with new numbers. -/
structure Appends (db db' : Db) : Prop where
  lastSeq : db.lastSeq ≤ db'.lastSeq
  events : ∃ new, db'.taskEvents = db.taskEvents ++ new ∧ Fresh db db' new

theorem Appends.of_same {db db' : Db} (hevents : db'.taskEvents = db.taskEvents)
    (hseq : db'.lastSeq = db.lastSeq) : Appends db db' :=
  ⟨Nat.le_of_eq hseq.symm, [], by rw [hevents, List.append_nil], fresh_nil _ _⟩

theorem Appends.trans {db mid db' : Db} (h : Appends db mid) (h' : Appends mid db') :
    Appends db db' := by
  obtain ⟨new, hevents, hfresh⟩ := h.events
  obtain ⟨new', hevents', hfresh'⟩ := h'.events
  refine ⟨h.lastSeq.trans h'.lastSeq, new ++ new', ?_, hfresh.append hfresh' h.lastSeq h'.lastSeq⟩
  rw [hevents', hevents, List.append_assoc]

theorem Appends.updateTask (db : Db) (taskId : TaskId) (set : TaskRecord → TaskRecord)
    (hset : KeepsKey TaskRecord.taskId set) : Appends db (db.updateTask taskId set hset) :=
  .of_same rfl rfl

theorem Appends.insertEvent {db mid db' : Db} (h : Appends db mid) {now : Timestamp}
    {taskId : TaskId} {eventType : EventType} {message : Option String} {data : Option EventData}
    (hinsert : mid.insertEvent now taskId eventType message data = .ok db') : Appends db db' := by
  refine h.trans ?_
  unfold Db.insertEvent at hinsert
  split at hinsert
  · cases hinsert
    refine ⟨Nat.le_succ _, _, rfl, by simp, ?_, ?_⟩
    · intro event hevent
      rw [List.mem_singleton.mp hevent]
      exact Nat.lt_succ_self _
    · intro event hevent
      rw [List.mem_singleton.mp hevent]
  · cases hinsert

theorem Appends.release {db mid db' : Db} (h : Appends db mid) {now : Timestamp} {taskId : TaskId}
    {active : Option TaskResourceReservation}
    (hrelease : mid.insertReleaseEvent now taskId active = .ok db') : Appends db db' := by
  cases active with
  | none =>
    cases hrelease
    exact h
  | some reservation => exact h.insertEvent hrelease

/-- The transactions that release and then record an event. -/
theorem Appends.releaseAndRecord {db mid db' : Db} (h : Appends db mid) {now : Timestamp}
    {taskId : TaskId} {active : Option TaskResourceReservation} {eventType : EventType}
    {message : Option String} {data : Option EventData}
    (hrun : (mid.insertReleaseEvent now taskId active).bind
      (fun mid => mid.insertEvent now taskId eventType message data) = .ok db') :
    Appends db db' := by
  cases hrelease : mid.insertReleaseEvent now taskId active with
  | error e =>
    rw [hrelease] at hrun
    cases hrun
  | ok released =>
    rw [hrelease] at hrun
    exact (h.release hrelease).insertEvent hrun

theorem appends_write {w : TaskWrite} {now : Timestamp} {taskId : TaskId} {db db' : Db}
    (h : w.run now taskId db = .ok db') : Appends db db' := by
  cases w with
  | markDispatched _ =>
    cases h
    exact .updateTask ..
  | releaseResources _ =>
    simp only [TaskWrite.run, Db.releaseResources] at h
    split at h
    · exact (Appends.updateTask ..).insertEvent h
    · cases h
      exact .of_same rfl rfl
  | cancelAcceptedTask _ => exact (Appends.updateTask ..).releaseAndRecord h
  | completeTask _ =>
    simp only [TaskWrite.run, Db.completeTask] at h
    split at h
    · cases h
    · exact (Appends.updateTask ..).releaseAndRecord h
  | markStarted _ _ _ => exact (Appends.updateTask ..).insertEvent h
  | reserveResources _ _ => exact (Appends.updateTask ..).insertEvent h
  | setCancelRequested => exact (Appends.updateTask ..).insertEvent h
  | markTimeoutTriggered => exact (Appends.updateTask ..).insertEvent h
  | markRecovered => exact (Appends.updateTask ..).insertEvent h

theorem appends_insertTask {db db' : Db} {now : Timestamp} {new : NewTaskRecord}
    (h : db.insertTask now new = .ok db') : Appends db db' := by
  simp only [insertTask, bind, pure, Except.pure] at h
  split at h
  · cases h
  split at h
  · cases h
  simp only [Except.bind] at h
  split at h
  · rename_i hfree
    have hrow : Appends db (db.insertRow (new.toRow now) hfree) := .of_same rfl rfl
    split at h
    · cases h
    rename_i db₁ h₁
    split at h
    · cases h
    rename_i db₂ h₂
    split at h
    · cases h
    rename_i db₃ h₃
    have hthree := ((hrow.insertEvent h₁).insertEvent h₂).insertEvent h₃
    split at h
    · exact hthree.insertEvent h
    · cases h
      exact hthree
  · cases h

/-- Some of the old events are left, and new ones follow. -/
structure Grows (db db' : Db) : Prop where
  lastSeq : db.lastSeq ≤ db'.lastSeq
  events : ∃ kept new, kept.Sublist db.taskEvents ∧ db'.taskEvents = kept ++ new ∧ Fresh db db' new

theorem Grows.refl (db : Db) : Grows db db :=
  ⟨Nat.le_refl _, db.taskEvents, [], List.Sublist.refl _, by simp, fresh_nil _ _⟩

theorem Appends.grows {db db' : Db} (h : Appends db db') : Grows db db' := by
  obtain ⟨new, hevents, hfresh⟩ := h.events
  exact ⟨h.lastSeq, db.taskEvents, new, List.Sublist.refl _, hevents, hfresh⟩

theorem grows_deleteTask {db db' : Db} {other : TaskId} (h : db.deleteTask other = .ok db') :
    Grows db db' := by
  cases h
  exact ⟨Nat.le_refl _, _, [], List.filter_sublist, (List.append_nil _).symm, fresh_nil _ _⟩

theorem Grows.trans {db mid db' : Db} (h : Grows db mid) (h' : Grows mid db') : Grows db db' := by
  obtain ⟨kept, new, hkept, hmid, hfresh⟩ := h.events
  obtain ⟨kept', new', hkept', hevents', hfresh'⟩ := h'.events
  rw [hmid] at hkept'
  obtain ⟨old, recent, rfl, hold, hrecent⟩ := List.sublist_append_iff.mp hkept'
  refine ⟨h.lastSeq.trans h'.lastSeq, old, recent ++ new', hold.trans hkept, ?_, ?_⟩
  · rw [hevents', List.append_assoc]
  · exact (hfresh.sublist hrecent).append hfresh' h.lastSeq h'.lastSeq

theorem Numbered.grows {db db' : Db} (hinv : db.Numbered) (h : Grows db db') : db'.Numbered := by
  obtain ⟨kept, new, hkept, hevents, hfresh⟩ := h.events
  constructor
  · rw [hevents, List.map_append, List.pairwise_append]
    refine ⟨hinv.increasing.sublist (hkept.map _), hfresh.increasing, ?_⟩
    intro a ha b hb
    obtain ⟨event, hevent, rfl⟩ := List.mem_map.mp ha
    obtain ⟨event', hevent', rfl⟩ := List.mem_map.mp hb
    exact Nat.lt_of_le_of_lt (hinv.below event (hkept.mem hevent)) (hfresh.above event' hevent')
  · intro event hevent
    rw [hevents] at hevent
    rcases List.mem_append.mp hevent with hold | hnew
    · exact (hinv.below event (hkept.mem hold)).trans h.lastSeq
    · exact hfresh.below event hnew

theorem Numbered.listEvents {db : Db} (hinv : db.Numbered) (taskId : TaskId) :
    ((db.listEvents taskId).map EventRecord.seq).Pairwise (· < ·) :=
  hinv.increasing.sublist (List.filter_sublist.map _)

/-- A number stands for one event, also after events were deleted. -/
theorem Numbered.eq_of_seq {db db' : Db} (hinv : db.Numbered) (h : Grows db db')
    {event event' : EventRecord} (hevent : event ∈ db.taskEvents)
    (hevent' : event' ∈ db'.taskEvents) (hseq : event.seq = event'.seq) : event = event' := by
  obtain ⟨kept, new, hkept, hevents, hfresh⟩ := h.events
  rw [hevents] at hevent'
  rcases List.mem_append.mp hevent' with hold | hnew
  · have hnodup : (db.taskEvents.map EventRecord.seq).Nodup :=
      hinv.increasing.imp (fun hlt => Nat.ne_of_lt hlt)
    exact List.inj_on_of_nodup_map hnodup hevent (hkept.mem hold) hseq
  · have hbelow := hinv.below event hevent
    have habove := hfresh.above event' hnew
    omega

/-- How the events of a task continue: they are extended, or all are new. -/
structure Continues (taskId : TaskId) (db db' : Db) (deleted : Prop) (new : List EventRecord) :
    Prop where
  fresh : Fresh db db' new
  extended : ¬ deleted → db'.listEvents taskId = db.listEvents taskId ++ new
  replaced : deleted → db'.listEvents taskId = new

/-- A deletion takes all events of its task and no others. -/
theorem listEvents_deleteTask {db db' : Db} {other : TaskId} (h : db.deleteTask other = .ok db')
    (taskId : TaskId) :
    db'.listEvents taskId = if taskId = other then [] else db.listEvents taskId := by
  cases h
  simp only [listEvents, List.filter_filter]
  split
  · rename_i hsame
    subst hsame
    simp
  · rename_i hne
    refine List.filter_congr (fun event _ => ?_)
    by_cases htask : event.taskId = taskId <;> simp [htask, hne]

theorem Continues.refl (taskId : TaskId) (db : Db) : Continues taskId db db False [] :=
  ⟨fresh_nil _ _, fun _ => (List.append_nil _).symm, False.elim⟩

theorem Continues.trans {taskId : TaskId} {db mid db' : Db} {deleted deleted' : Prop}
    {new new' : List EventRecord} (h : Continues taskId db mid deleted new)
    (h' : Continues taskId mid db' deleted' new') (hfirst : db.lastSeq ≤ mid.lastSeq)
    (hsecond : mid.lastSeq ≤ db'.lastSeq) :
    ∃ all, Continues taskId db db' (deleted ∨ deleted') all := by
  by_cases hlater : deleted'
  · have hfresh : Fresh db db' new' := by
      have hall := (fresh_nil db mid).append h'.fresh hfirst hsecond
      rwa [List.nil_append] at hall
    exact ⟨new', hfresh, fun hkept => absurd (.inr hlater) hkept, fun _ => h'.replaced hlater⟩
  · refine ⟨new ++ new', h.fresh.append h'.fresh hfirst hsecond, fun hkept => ?_, fun hgone => ?_⟩
    · rw [h'.extended hlater, h.extended (fun hdeleted => hkept (.inl hdeleted)),
        List.append_assoc]
    · rw [h'.extended hlater, h.replaced (hgone.resolve_right hlater)]

theorem Appends.continues {db db' : Db} (h : Appends db db') (taskId : TaskId) :
    ∃ new, Continues taskId db db' False new := by
  obtain ⟨new, hevents, hfresh⟩ := h.events
  refine ⟨new.filter (fun event => decide (event.taskId = taskId)),
    hfresh.sublist List.filter_sublist, fun _ => ?_, False.elim⟩
  rw [listEvents, hevents, List.filter_append]
  rfl

end Db

/-- The number of the last of the events, which a client has seen. -/
def cursor (events : List EventRecord) : ℕ := (events.getLast?.map EventRecord.seq).getD 0

def eventsAfter (seen : ℕ) (events : List EventRecord) : List EventRecord :=
  events.filter (fun event => decide (seen < event.seq))

theorem cursor_le {events : List EventRecord} {bound : ℕ}
    (h : ∀ event ∈ events, event.seq ≤ bound) : cursor events ≤ bound := by
  unfold cursor
  cases hlast : events.getLast? with
  | none => exact Nat.zero_le _
  | some event => exact h event (List.mem_of_getLast? hlast)

theorem le_cursor {events : List EventRecord}
    (h : (events.map EventRecord.seq).Pairwise (· < ·)) :
    ∀ event ∈ events, event.seq ≤ cursor events := by
  intro event hevent
  induction events using List.reverseRecOn with
  | nil => cases hevent
  | append_singleton before last _ =>
    have hcursor : cursor (before ++ [last]) = last.seq := by simp [cursor]
    rw [List.map_append, List.pairwise_append] at h
    rw [hcursor]
    rcases List.mem_append.mp hevent with hold | hnew
    · exact Nat.le_of_lt (h.2.2 _ (List.mem_map_of_mem hold) _ (by simp))
    · rw [List.mem_singleton.mp hnew]

theorem eventsAfter_append {seen : ℕ} {old new : List EventRecord}
    (hold : ∀ event ∈ old, event.seq ≤ seen) (hnew : ∀ event ∈ new, seen < event.seq) :
    eventsAfter seen (old ++ new) = new := by
  rw [eventsAfter, List.filter_append, List.filter_eq_nil_iff.mpr, List.nil_append,
    List.filter_eq_self]
  · intro event hevent
    exact decide_eq_true (hnew event hevent)
  · intro event hevent
    have hle := hold event hevent
    simp only [decide_eq_true_eq]
    omega

namespace World

variable {svc : RuntimeService} {w w' : World} {e : Event}

/-- A step extends the events of a task, or it deletes them. -/
theorem step_numbers (h : w.step svc e = some w') :
    Db.Grows w.db w'.db ∧ ∀ taskId, ∃ new,
      Db.Continues taskId w.db w'.db (Deletes svc taskId (w, e)) new := by
  have happends : Db.Appends w.db w'.db → (∀ taskId, ¬ Deletes svc taskId (w, e)) →
      Db.Grows w.db w'.db ∧ ∀ taskId, ∃ new,
        Db.Continues taskId w.db w'.db (Deletes svc taskId (w, e)) new := by
    intro hwrites hkept
    refine ⟨hwrites.grows, fun taskId => ?_⟩
    obtain ⟨new, hnew⟩ := hwrites.continues taskId
    exact ⟨new, hnew.fresh, fun _ => hnew.extended id, fun hdelete => absurd hdelete (hkept taskId)⟩
  rcases step_db h with ⟨hnone, hdb⟩ | ⟨call, hcall, hexec⟩
  · exact happends (.of_same (by rw [hdb]) (by rw [hdb])) (by simp [Deletes, hnone])
  cases call with
  | read =>
    have hsame : w.db = w'.db := Except.ok.inj hexec
    exact happends (.of_same (by rw [hsame]) (by rw [hsame])) (by simp [Deletes, hcall])
  | insertTask new => exact happends (Db.appends_insertTask hexec) (by simp [Deletes, hcall])
  | write taskId write => exact happends (Db.appends_write hexec) (by simp [Deletes, hcall])
  | deleteTask other =>
    have hdelete : w.db.deleteTask other = .ok w'.db := hexec
    have hdeletes : ∀ taskId, Deletes svc taskId (w, e) ↔ taskId = other := by
      intro taskId
      rw [Deletes, hcall]
      simp [eq_comm]
    refine ⟨Db.grows_deleteTask hdelete, fun taskId => ?_⟩
    refine ⟨[], Db.fresh_nil _ _, fun hkept => ?_, fun hgone => ?_⟩
    · rw [hdeletes] at hkept
      rw [Db.listEvents_deleteTask hdelete, if_neg hkept, List.append_nil]
    · rw [hdeletes] at hgone
      rw [Db.listEvents_deleteTask hdelete, if_pos hgone]

section Runs

variable {start last : World} {trace : List (World × Event)}

theorem grows_of_run (hrun : Run svc start trace last) : Db.Grows start.db last.db := by
  induction hrun with
  | nil => exact .refl _
  | snoc _ hstep ih => exact ih.trans (step_numbers hstep).1

theorem continues_of_run (hrun : Run svc start trace last) (taskId : TaskId) :
    ∃ new, Db.Continues taskId start.db last.db (∃ x ∈ trace, Deletes svc taskId x) new := by
  induction hrun with
  | nil =>
    refine ⟨[], ?_⟩
    simpa using Db.Continues.refl taskId start.db
  | @snoc trace s e s' hbefore hstep ih =>
    obtain ⟨new, hnew⟩ := ih
    obtain ⟨hgrows, htask⟩ := step_numbers hstep
    obtain ⟨new', hnew'⟩ := htask taskId
    have hall := hnew.trans hnew' (grows_of_run hbefore).lastSeq hgrows.lastSeq
    simpa only [List.mem_append, List.mem_singleton, or_and_right, exists_or, exists_eq_left]
      using hall

theorem numbered_of_run (hrun : Run svc init trace last) : last.db.Numbered :=
  Db.Numbered.grows ⟨List.Pairwise.nil, by simp [init, serve, Db.empty]⟩ (grows_of_run hrun)

end Runs

/-- A client that has seen the events of a task and asks for those with greater
numbers gets what was added since; after a deletion it gets all events. The numbers
are in order and stand for one event each, whatever was deleted. -/
theorem event_log_cursor {before after : List (World × Event)} {w₁ w₂ : World}
    (hbefore : Run svc init before w₁) (hafter : Run svc w₁ after w₂) (taskId : TaskId) :
    ((w₂.db.listEvents taskId).map EventRecord.seq).Pairwise (· < ·) ∧
      ((∀ x ∈ after, ¬ Deletes svc taskId x) →
        w₂.db.listEvents taskId = w₁.db.listEvents taskId ++
          eventsAfter (cursor (w₁.db.listEvents taskId)) (w₂.db.listEvents taskId)) ∧
      ((∃ x ∈ after, Deletes svc taskId x) →
        eventsAfter (cursor (w₁.db.listEvents taskId)) (w₂.db.listEvents taskId) =
          w₂.db.listEvents taskId) ∧
      ∀ event ∈ w₁.db.taskEvents, ∀ event' ∈ w₂.db.taskEvents,
        event.seq = event'.seq → event = event' := by
  have hnumbered := numbered_of_run hbefore
  have hgrows := grows_of_run hafter
  obtain ⟨new, hnew⟩ := continues_of_run hafter taskId
  have hseen : cursor (w₁.db.listEvents taskId) ≤ w₁.db.lastSeq :=
    cursor_le (fun event hevent => hnumbered.below event (List.mem_of_mem_filter hevent))
  have hlater : ∀ event ∈ new, cursor (w₁.db.listEvents taskId) < event.seq :=
    fun event hevent => Nat.lt_of_le_of_lt hseen (hnew.fresh.above event hevent)
  refine ⟨(hnumbered.grows hgrows).listEvents taskId, fun hkept => ?_, fun hgone => ?_, ?_⟩
  · have hlist := hnew.extended (by simpa using hkept)
    rw [hlist, eventsAfter_append (le_cursor (hnumbered.listEvents taskId)) hlater]
  · rw [hnew.replaced hgone]
    exact eventsAfter_append (by simp : ∀ event ∈ ([] : List EventRecord), event.seq ≤ _) hlater
  · intro event hevent event' hevent' hseq
    exact hnumbered.eq_of_seq hgrows hevent hevent' hseq

private def oneTaskService : RuntimeService := smallService ⟨1, none, none⟩

/-- The task is cancelled and collected, and its id is submitted again. -/
theorem event_log_cursor_of_collected :
    ∃ before after w₁ w₂, Run oneTaskService init before w₁ ∧ Run oneTaskService w₁ after w₂ ∧
      (w₁.db.listEvents "a").map EventRecord.seq = [1, 2, 3, 4, 5] ∧
      (w₂.db.listEvents "a").map EventRecord.seq = [6, 7, 8] ∧
      ((w₂.db.listEvents "a").map EventRecord.seq).Pairwise (· < ·) ∧
      ((∀ x ∈ after, ¬ Deletes oneTaskService "a" x) →
        w₂.db.listEvents "a" = w₁.db.listEvents "a" ++
          eventsAfter (cursor (w₁.db.listEvents "a")) (w₂.db.listEvents "a")) ∧
      ((∃ x ∈ after, Deletes oneTaskService "a" x) →
        eventsAfter (cursor (w₁.db.listEvents "a")) (w₂.db.listEvents "a") =
          w₂.db.listEvents "a") ∧
      ∀ event ∈ w₁.db.taskEvents, ∀ event' ∈ w₂.db.taskEvents,
        event.seq = event'.seq → event = event' := by
  have hbefore : (execute oneTaskService (fun _ _ => true)
      (events (submitActions 0 (commandRequest "a") ++
        [.receiveKill "a" none, .kill 0 none, .kill 0 none, .kill 0 none, .kill 0 none,
          .kill 0 none]))).any
      (fun w => decide ((w.db.listEvents "a").map EventRecord.seq = [1, 2, 3, 4, 5])) = true := by
    decide +kernel
  have hall : (execute oneTaskService (fun _ _ => true)
      (events (submitActions 0 (commandRequest "a") ++
        [.receiveKill "a" none, .kill 0 none, .kill 0 none, .kill 0 none, .kill 0 none,
          .kill 0 none]) ++
        { action := .gc true, now := 3600000 } ::
          events (.gc true :: submitActions 1 (commandRequest "a")))).any
      (fun w => decide ((w.db.listEvents "a").map EventRecord.seq = [6, 7, 8])) = true := by
    decide +kernel
  obtain ⟨before, w₁, after, w₂, hrun, _, _, _, hseen, hnow⟩ := Runs.exists_run_through hbefore hall
  obtain ⟨w', hfirst, hstep, hlater⟩ := hrun.split
  have hsecond := (Runs.Run.nil.snoc hstep).append hlater
  exact ⟨before, _, w₁, w₂, hfirst, hsecond, of_decide_eq_true hseen, of_decide_eq_true hnow,
    event_log_cursor hfirst hsecond "a"⟩

end World

end ExecgoRuntime
