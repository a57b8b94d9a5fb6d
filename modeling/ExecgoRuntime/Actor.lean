import ExecgoRuntime.StoreCalls

/-!
Actors of the system. The dispatcher, a request handler, the recovery pass and
a shim are machines that issue at most one repository call per atomic step and
branch on its answer. `Move` is one such step and `Move.run` executes it on the
database. A call may fail without having happened; what a transaction rejects
fails in the same way. `Outcome` is the case analysis every proof about an
actor starts from.
-/
namespace ExecgoRuntime

structure Move (σ : Type) where
  call : Option StoreCall
  ok : Db → σ
  err : AppError → σ

namespace Move

variable {σ τ : Type}

/-- A step without a repository call; it cannot fail. -/
def silent (next : σ) : Move σ := ⟨none, fun _ => next, fun _ => next⟩

/-- A method that only reads. -/
def query {α : Type} (select : Db → AppResult α) (ok : α → σ) (err : AppError → σ) : Move σ where
  call := some .read
  ok db :=
    match select db with
    | .ok value => ok value
    | .error e => err e
  err := err

def write (taskId : TaskId) (w : TaskWrite) (ok : σ) (err : AppError → σ) : Move σ where
  call := some (.write taskId w)
  ok _ := ok
  err := err

def map (f : σ → τ) (m : Move σ) : Move τ := ⟨m.call, fun db => f (m.ok db), fun e => f (m.err e)⟩

/-- The database and the actor after the step; `failure` is the error of a call
that did not happen. -/
def run (m : Move σ) (now : Timestamp) (failure : Option AppError) (db : Db) : Db × σ :=
  match m.call, failure with
  | none, _ => (db, m.ok db)
  | some _, some e => (db, m.err e)
  | some call, none =>
    match call.exec now db with
    | .ok db' => (db', m.ok db')
    | .error e => (db, m.err e)

/-- The call that took effect. -/
def committed (m : Move σ) (now : Timestamp) (failure : Option AppError) (db : Db) :
    Option StoreCall :=
  match m.call, failure with
  | some call, none =>
    match call.exec now db with
    | .ok _ => some call
    | .error _ => none
  | _, _ => none

/-- The three ways a step can go: no call, a failed call, a call that took effect. -/
inductive Outcome (m : Move σ) (now : Timestamp) (failure : Option AppError) (db : Db) :
    Option StoreCall → Db → σ → Prop
  | silent : m.call = none → Outcome m now failure db none db (m.ok db)
  | failed {call : StoreCall} {e : AppError} :
      m.call = some call → failure = some e ∨ call.exec now db = .error e →
      Outcome m now failure db none db (m.err e)
  | done {call : StoreCall} {db' : Db} :
      m.call = some call → call.exec now db = .ok db' → failure = none →
      Outcome m now failure db (some call) db' (m.ok db')

theorem outcome_run (m : Move σ) (now : Timestamp) (failure : Option AppError) (db : Db) :
    Outcome m now failure db (m.committed now failure db) (m.run now failure db).1
      (m.run now failure db).2 := by
  unfold run committed
  cases hcall : m.call with
  | none => exact .silent hcall
  | some call =>
    cases failure with
    | some e => exact .failed hcall (.inl rfl)
    | none =>
      simp only
      cases hexec : call.exec now db with
      | ok db' => exact .done hcall hexec rfl
      | error e => exact .failed hcall (.inr hexec)

theorem run_map (f : σ → τ) (m : Move σ) (now : Timestamp) (failure : Option AppError) (db : Db) :
    (m.map f).run now failure db = ((m.run now failure db).1, f (m.run now failure db).2) := by
  unfold run map
  cases m.call with
  | none => rfl
  | some call =>
    cases failure with
    | some e => rfl
    | none =>
      dsimp only
      cases call.exec now db <;> rfl

section Outcomes

variable {now : Timestamp} {failure : Option AppError} {db db' : Db}
  {committed : Option StoreCall} {t : σ}

theorem call_of_committed {m : Move σ} (h : Outcome m now failure db committed db' t)
    {call : StoreCall} (hcall : committed = some call) : m.call = some call := by
  cases h with
  | silent _ => cases hcall
  | failed _ _ => cases hcall
  | done hmove _ => rw [hmove, ← hcall]

theorem outcome_map {f : σ → τ} {m : Move σ} {t : τ}
    (h : Outcome (m.map f) now failure db committed db' t) :
    ∃ s, Outcome m now failure db committed db' s ∧ t = f s := by
  cases h with
  | silent hcall => exact ⟨_, .silent hcall, rfl⟩
  | failed hcall hcause => exact ⟨_, .failed hcall hcause, rfl⟩
  | done hcall hexec hdone => exact ⟨_, .done hcall hexec hdone, rfl⟩

/-- The step committed nothing that could change the database. -/
def Quiet (committed : Option StoreCall) : Prop := committed = none ∨ committed = some .read

theorem Quiet.call_eq (h : Quiet committed) {call : StoreCall} (hcall : committed = some call) :
    call = .read := by
  rcases h with hnone | hread
  · rw [hnone] at hcall
    cases hcall
  · rw [hread] at hcall
    exact (Option.some.inj hcall).symm

theorem not_quiet_write {taskId : TaskId} {w : TaskWrite}
    (h : committed = some (.write taskId w)) : ¬ Quiet committed := by
  intro hquiet
  cases hquiet.call_eq h

theorem outcome_silent {next : σ} (h : Outcome (.silent next) now failure db committed db' t) :
    Quiet committed ∧ db' = db ∧ t = next := by
  cases h with
  | silent _ => exact ⟨.inl rfl, rfl, rfl⟩
  | failed hcall _ => cases hcall
  | done hcall _ _ => cases hcall

/-- A read leaves the database alone; its answer or an error decides. -/
theorem outcome_query {α : Type} {select : Db → AppResult α} {ok : α → σ} {err : AppError → σ}
    (h : Outcome (.query select ok err) now failure db committed db' t) :
    Quiet committed ∧ db' = db ∧
      ((∃ value, select db = .ok value ∧ t = ok value ∧ failure = none) ∨
        ∃ e, t = err e ∧ (failure = some e ∨ select db = .error e)) := by
  cases h with
  | silent hcall => cases hcall
  | failed hcall hcause =>
    cases hcall
    refine ⟨.inl rfl, rfl, .inr ⟨_, rfl, .inl ?_⟩⟩
    rcases hcause with hfailure | hexec
    · exact hfailure
    · cases hexec
  | done hcall hexec hdone =>
    cases hcall
    cases hexec
    refine ⟨.inr rfl, rfl, ?_⟩
    simp only [query]
    cases hselect : select db with
    | ok value => exact .inl ⟨value, rfl, rfl, hdone⟩
    | error e => exact .inr ⟨e, rfl, .inr rfl⟩

theorem outcome_write {taskId : TaskId} {w : TaskWrite} {ok : σ} {err : AppError → σ}
    (h : Outcome (.write taskId w ok err) now failure db committed db' t) :
    (Quiet committed ∧ db' = db ∧
        ∃ e, t = err e ∧ (failure = some e ∨ w.run now taskId db = .error e)) ∨
      (committed = some (.write taskId w) ∧ w.run now taskId db = .ok db' ∧ t = ok ∧
        failure = none) := by
  cases h with
  | silent hcall => cases hcall
  | failed hcall hcause =>
    cases hcall
    exact .inl ⟨.inl rfl, rfl, _, rfl, hcause⟩
  | done hcall hexec hdone =>
    cases hcall
    exact .inr ⟨rfl, hexec, rfl, hdone⟩

end Outcomes

end Move

end ExecgoRuntime
