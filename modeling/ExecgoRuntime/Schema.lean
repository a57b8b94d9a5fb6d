import ExecgoRuntime.Lib.Reaches
import ExecgoRuntime.Types
import Mathlib.Data.List.Nodup

/-!
The schema of the file (`init` and `ensure_task_column` of `repo.rs`). Each process
that opens the file creates what is missing and adds the columns that an older version
did not have, each of them after a look at the table. Many processes do so at once, a
statement at a time, and stop wherever they fail. The columns are added in one order
all the same, and no row loses a cell. A process that takes part in the migration can
lose the race for a column and fails then; the next one finds the column there. SQLite
compares the names of columns without regard to case, the look of a process does not:
the older table has to spell the added columns as the program does, and it needs the
columns that the indexes are on.
-/
namespace ExecgoRuntime

open Runs

variable {β : Type}

inductive SchemaIndex
  | tasksStatusCreated
  | tasksFinishedAt
  | taskEventsTaskIdSeq
  deriving DecidableEq, Repr

/-- What the batch of `init` creates. -/
inductive SchemaObject
  | tasks
  | taskEvents
  | index (index : SchemaIndex)
  deriving DecidableEq, Repr

/-- The statements of the batch, in order. -/
def schemaBatch : List SchemaObject :=
  [.tasks, .taskEvents, .index .tasksStatusCreated, .index .tasksFinishedAt,
    .index .taskEventsTaskIdSeq]

namespace SchemaIndex

/-- The table that the index is on. -/
def table : SchemaIndex → String
  | tasksStatusCreated | tasksFinishedAt => "tasks"
  | taskEventsTaskIdSeq => "task_events"

def columns : SchemaIndex → List String
  | tasksStatusCreated => ["status", "created_at_ms"]
  | tasksFinishedAt => ["finished_at_ms"]
  | taskEventsTaskIdSeq => ["task_id", "seq"]

end SchemaIndex

/-- The columns that `init` ensures, in order. -/
def ensuredColumns : List String :=
  ["execution_plan_json", "control_context_json", "reservation_json", "reserved_at_ms",
    "released_at_ms"]

/-- The columns of `CREATE TABLE tasks`. -/
def taskColumns : List String :=
  ["task_id", "handle_id", "status", "execution_json", "limits_json", "sandbox_json",
    "metadata_json", "created_at_ms", "updated_at_ms", "started_at_ms", "finished_at_ms",
    "duration_ms", "shim_pid", "pid", "pgid", "exit_code", "exit_signal", "error_code",
    "error_json", "usage_json", "task_dir", "workspace_dir", "request_path", "result_path",
    "stdout_path", "stderr_path", "script_path", "stdout_max_bytes", "stderr_max_bytes",
    "kill_requested", "kill_requested_at_ms", "timeout_triggered", "result_json"] ++
  ensuredColumns

/-- The columns of `CREATE TABLE task_events`. -/
def taskEventColumns : List String :=
  ["seq", "task_id", "event_type", "timestamp_ms", "message", "data_json"]

/-- How SQLite compares the names of columns. -/
def sameName (a b : String) : Bool := a.toList.map Char.toLower == b.toList.map Char.toLower

/-- The table `tasks` as a file holds it; `none` is NULL. -/
structure TasksTable (β : Type) where
  columns : List String
  rows : List (List (Option β))
  nodup : columns.Nodup
  aligned : ∀ row ∈ rows, row.length = columns.length

namespace TasksTable

/-- `CREATE TABLE tasks`. -/
def created : TasksTable β where
  columns := taskColumns
  rows := []
  nodup := by decide +kernel
  aligned := by simp

/-- `ALTER TABLE tasks ADD COLUMN`, which gives every row a NULL. -/
def addColumn (table : TasksTable β) (name : String) : AppResult (TasksTable β) :=
  if h : table.columns.any (sameName name) = true then
    .error (.sqlite ("duplicate column name: " ++ name))
  else .ok {
    columns := table.columns ++ [name]
    rows := table.rows.map (· ++ [none])
    nodup := List.nodup_append.mpr ⟨table.nodup, List.nodup_singleton name, by
      intro a ha b hb heq
      rw [List.mem_singleton.mp hb] at heq
      exact h (List.any_eq_true.mpr ⟨a, ha, by simp [heq, sameName]⟩)⟩
    aligned := by
      intro row hrow
      obtain ⟨old, hold, rfl⟩ := List.mem_map.mp hrow
      simp [table.aligned old hold] }

/-- The ensured columns that the table does not have. -/
def missing (table : TasksTable β) : List String :=
  ensuredColumns.filter (fun name => decide (name ∉ table.columns))

/-- The table with further columns, which are NULL in every row. -/
def Widened (table : TasksTable β) (added : List String) (table' : TasksTable β) : Prop :=
  table'.columns = table.columns ++ added ∧
    table'.rows = table.rows.map (· ++ List.replicate added.length none)

end TasksTable

/-- The file; of `task_events` only the columns matter here. -/
structure DbFile (β : Type) where
  table : Option (TasksTable β) := none
  taskEvents : Option (List String) := none
  indexes : List SchemaIndex := []

namespace DbFile

variable (file : DbFile β)

def has : SchemaObject → Bool
  | .tasks => file.table.isSome
  | .taskEvents => file.taskEvents.isSome
  | .index index => file.indexes.contains index

/-- The columns of the table that the index is on. -/
def indexedColumns : SchemaIndex → Option (List String)
  | .tasksStatusCreated | .tasksFinishedAt => file.table.map TasksTable.columns
  | .taskEventsTaskIdSeq => file.taskEvents

/-- `CREATE INDEX`. -/
def createIndex (index : SchemaIndex) : AppResult (DbFile β) :=
  match file.indexedColumns index with
  | none => .error (.sqlite ("no such table: main." ++ index.table))
  | some columns =>
    match index.columns.find? (fun name => !columns.any (sameName name)) with
    | some name => .error (.sqlite ("no such column: " ++ name))
    | none => .ok { file with indexes := index :: file.indexes }

/-- `CREATE .. IF NOT EXISTS`. -/
def createIfNotExists (object : SchemaObject) : AppResult (DbFile β) :=
  if file.has object then .ok file
  else
    match object with
    | .tasks => .ok { file with table := some .created }
    | .taskEvents => .ok { file with taskEvents := some taskEventColumns }
    | .index index => file.createIndex index

/-- `PRAGMA table_info(tasks)` names the column; there is no row for a missing table. -/
def hasColumn (name : String) : Bool := file.table.any (fun table => table.columns.contains name)

def addColumn (name : String) : AppResult (DbFile β) :=
  match file.table with
  | none => .error (.sqlite "no such table: tasks")
  | some table => (table.addColumn name).map (fun table => { file with table := some table })

end DbFile

/-- One `init`, between two of its statements. -/
inductive InitCall
  | creating (object : SchemaObject) (rest : List SchemaObject)
  | checking (name : String) (rest : List String)
  | adding (name : String) (rest : List String)
  | returned (result : AppResult Unit)

namespace InitCall

def ensureTaskColumns : List String → InitCall
  | [] => returned (.ok ())
  | name :: rest => checking name rest

def executeBatch : List SchemaObject → InitCall
  | [] => ensureTaskColumns ensuredColumns
  | object :: rest => creating object rest

def isReturned : InitCall → Bool
  | returned _ => true
  | _ => false

/-- The next statement, when it is not hindered. -/
def move (file : DbFile β) : InitCall → DbFile β × InitCall
  | creating object rest =>
    match file.createIfNotExists object with
    | .ok file => (file, executeBatch rest)
    | .error e => (file, returned (.error e))
  | checking name rest =>
    (file, if file.hasColumn name then ensureTaskColumns rest else adding name rest)
  | adding name rest =>
    match file.addColumn name with
    | .ok file => (file, ensureTaskColumns rest)
    | .error e => (file, returned (.error e))
  | returned result => (file, returned result)

end InitCall

/-- The file, and the processes that initialise it. -/
structure Initialising (β : Type) where
  file : DbFile β
  calls : List InitCall := []

/-- A process calls `init`, or one of them goes on; a statement can fail by itself. -/
inductive InitEvent
  | call
  | step (i : ℕ) (fault : Option AppError)

def InitEvent.fault : InitEvent → Option AppError
  | call => none
  | step _ fault => fault

namespace Initialising

def step (s : Initialising β) : InitEvent → Option (Initialising β)
  | .call => some { s with calls := s.calls ++ [InitCall.executeBatch schemaBatch] }
  | .step i fault =>
    match s.calls[i]? with
    | none => none
    | some call =>
      if call.isReturned then none
      else
        match fault with
        | some e => some { s with calls := s.calls.set i (.returned (.error e)) }
        | none =>
          some { file := (call.move s.file).1, calls := s.calls.set i (call.move s.file).2 }

end Initialising

namespace DbFile

structure Le (file file' : DbFile β) : Prop where
  has : ∀ object, file.has object = true → file'.has object = true
  hasColumn : ∀ name, file.hasColumn name = true → file'.hasColumn name = true

theorem Le.refl (file : DbFile β) : file.Le file := ⟨fun _ h => h, fun _ h => h⟩

theorem hasColumn_iff {file : DbFile β} {table : TasksTable β} (htable : file.table = some table)
    (name : String) : file.hasColumn name = true ↔ name ∈ table.columns := by
  simp [hasColumn, htable]

/-- What a `CREATE` leaves behind. -/
inductive Creates (file : DbFile β) : SchemaObject → DbFile β → Prop
  | there {object} : file.has object = true → Creates file object file
  | tasks : file.table = none → Creates file .tasks { file with table := some .created }
  | taskEvents : file.taskEvents = none →
      Creates file .taskEvents { file with taskEvents := some taskEventColumns }
  | index {index} : Creates file (.index index) { file with indexes := index :: file.indexes }

theorem creates_of_createIfNotExists {file file' : DbFile β} {object : SchemaObject}
    (h : file.createIfNotExists object = .ok file') : file.Creates object file' := by
  unfold createIfNotExists at h
  split at h
  · rename_i hthere
    cases h
    exact .there hthere
  rename_i habsent
  cases object with
  | tasks =>
    cases h
    exact .tasks (by simpa [has] using habsent)
  | taskEvents =>
    cases h
    exact .taskEvents (by simpa [has] using habsent)
  | index index =>
    simp only [createIndex] at h
    split at h
    · cases h
    split at h
    · cases h
    · cases h
      exact .index

theorem Creates.has {file file' : DbFile β} {object : SchemaObject}
    (h : file.Creates object file') : file'.has object = true := by
  cases h with
  | there hthere => exact hthere
  | tasks _ => rfl
  | taskEvents _ => rfl
  | index => simp [DbFile.has]

theorem Creates.le {file file' : DbFile β} {object : SchemaObject}
    (h : file.Creates object file') : file.Le file' := by
  cases h with
  | there _ => exact Le.refl file
  | tasks hnone =>
    refine ⟨fun other h => ?_, fun name h => ?_⟩
    · cases other with
      | tasks => rfl
      | _ => exact h
    · simp [hasColumn, hnone] at h
  | taskEvents _ =>
    refine ⟨fun other h => ?_, fun _ h => h⟩
    cases other with
    | taskEvents => rfl
    | _ => exact h
  | index =>
    refine ⟨fun other h => ?_, fun _ h => h⟩
    cases other with
    | index other =>
      simp only [DbFile.has, List.contains_cons, Bool.or_eq_true]
      exact .inr h
    | _ => exact h

theorem Creates.table {file file' : DbFile β} {object : SchemaObject}
    (h : file.Creates object file') :
    file'.table = file.table ∨ (file.table = none ∧ file'.table = some .created) := by
  cases h with
  | tasks hnone => exact .inr ⟨hnone, rfl⟩
  | _ => exact .inl rfl

/-- A file that the statements of `init` can work on: the tables that are there have the
columns of the indexes, and spell the added columns as the program does. -/
structure Usable (file : DbFile β) : Prop where
  indexed : ∀ index columns, file.indexedColumns index = some columns →
    ∀ name ∈ index.columns, columns.any (sameName name) = true
  spelled : ∀ table, file.table = some table → ∀ name ∈ ensuredColumns, ∀ c ∈ table.columns,
    sameName name c = true → c = name

theorem Creates.usable {file file' : DbFile β} {object : SchemaObject}
    (h : file.Creates object file') (husable : file.Usable) : file'.Usable := by
  cases h with
  | there _ => exact husable
  | tasks _ =>
    constructor
    · have hall : ∀ index ∈ [SchemaIndex.tasksStatusCreated, .tasksFinishedAt],
          ∀ name ∈ index.columns, taskColumns.any (sameName name) = true := by
        decide +kernel
      rintro (_ | _ | _) columns hcolumns
      · cases hcolumns
        exact hall _ (by simp)
      · cases hcolumns
        exact hall _ (by simp)
      · exact husable.indexed .taskEventsTaskIdSeq columns hcolumns
    · rintro _ ⟨⟩
      have hall : ∀ name ∈ ensuredColumns, ∀ c ∈ taskColumns,
          sameName name c = true → c = name := by
        decide +kernel
      exact hall
  | taskEvents _ =>
    refine ⟨?_, husable.spelled⟩
    rintro (_ | _ | _) columns hcolumns
    · exact husable.indexed .tasksStatusCreated columns hcolumns
    · exact husable.indexed .tasksFinishedAt columns hcolumns
    · cases hcolumns
      decide +kernel
  | index =>
    refine ⟨fun index columns hcolumns => ?_, husable.spelled⟩
    exact husable.indexed index columns (by cases index <;> exact hcolumns)

/-- On a usable file every `CREATE` goes through, an index after its table. -/
theorem exists_createIfNotExists {file : DbFile β} (husable : file.Usable) (object : SchemaObject)
    (htables : ∀ index, object = .index index →
      file.has .tasks = true ∧ file.has .taskEvents = true) :
    ∃ file', file.createIfNotExists object = .ok file' := by
  by_cases hthere : file.has object = true
  · exact ⟨file, if_pos hthere⟩
  · simp only [createIfNotExists, if_neg hthere]
    cases object with
    | tasks => exact ⟨_, rfl⟩
    | taskEvents => exact ⟨_, rfl⟩
    | index index =>
      obtain ⟨htasks, hevents⟩ := htables index rfl
      obtain ⟨table, htable⟩ := Option.isSome_iff_exists.mp htasks
      obtain ⟨eventColumns, hcolumns⟩ := Option.isSome_iff_exists.mp hevents
      have hindexed : ∃ columns, file.indexedColumns index = some columns := by
        cases index with
        | taskEventsTaskIdSeq => exact ⟨_, hcolumns⟩
        | _ => exact ⟨_, by rw [indexedColumns, htable]; rfl⟩
      obtain ⟨columns, hsome⟩ := hindexed
      have hfind : index.columns.find? (fun name => !columns.any (sameName name)) = none := by
        refine List.find?_eq_none.mpr fun name hname => ?_
        simp only [husable.indexed index columns hsome name hname, Bool.not_true,
          Bool.false_eq_true, not_false_eq_true]
      simp only [createIndex, hsome, hfind]
      exact ⟨_, rfl⟩

/-- A column that is added was not there, and the rows get a NULL. -/
theorem addColumn_ok {file file' : DbFile β} {name : String} (h : file.addColumn name = .ok file') :
    ∃ table table', file.table = some table ∧ name ∉ table.columns ∧
      file' = { file with table := some table' } ∧ table.Widened [name] table' := by
  unfold addColumn at h
  split at h
  · cases h
  rename_i table htable
  unfold TasksTable.addColumn at h
  split at h
  · cases h
  rename_i habsent
  cases h
  refine ⟨table, _, htable, fun hmem => habsent ?_, rfl, rfl, rfl⟩
  exact List.any_eq_true.mpr ⟨name, hmem, by simp [sameName]⟩

theorem addColumn_of_absent {file : DbFile β} (husable : file.Usable) {table : TasksTable β}
    {name : String} (htable : file.table = some table) (hname : name ∈ ensuredColumns)
    (habsent : name ∉ table.columns) : ∃ file', file.addColumn name = .ok file' := by
  have hnone : ¬ table.columns.any (sameName name) = true := by
    intro hany
    obtain ⟨c, hc, hsame⟩ := List.any_eq_true.mp hany
    exact habsent (husable.spelled table htable name hname c hc hsame ▸ hc)
  simp only [addColumn, htable, TasksTable.addColumn, dif_neg hnone]
  exact ⟨_, rfl⟩

theorem addColumn_error {file : DbFile β} (husable : file.Usable) {table : TasksTable β}
    {name : String} {e : AppError} (htable : file.table = some table)
    (hname : name ∈ ensuredColumns) (h : file.addColumn name = .error e) :
    name ∈ table.columns ∧ e = .sqlite ("duplicate column name: " ++ name) := by
  simp only [addColumn, htable, TasksTable.addColumn] at h
  split at h
  · rename_i hany
    cases h
    obtain ⟨c, hc, hsame⟩ := List.any_eq_true.mp hany
    exact ⟨husable.spelled table htable name hname c hc hsame ▸ hc, rfl⟩
  · cases h

theorem Usable.addColumn {file file' : DbFile β} (husable : file.Usable) {name : String}
    (hname : name ∈ ensuredColumns) (h : file.addColumn name = .ok file') : file'.Usable := by
  obtain ⟨table, table', htable, _, rfl, hcolumns, _⟩ := addColumn_ok h
  constructor
  · have hwider : ∀ index, file.indexedColumns index = some table.columns →
        ∀ c ∈ index.columns, table'.columns.any (sameName c) = true := by
      intro index hold c hc
      rw [hcolumns, List.any_append, husable.indexed index table.columns hold c hc, Bool.true_or]
    rintro (_ | _ | _) columns hsome
    · cases hsome
      exact hwider .tasksStatusCreated (by rw [indexedColumns, htable]; rfl)
    · cases hsome
      exact hwider .tasksFinishedAt (by rw [indexedColumns, htable]; rfl)
    · exact husable.indexed .taskEventsTaskIdSeq columns hsome
  · rintro _ ⟨⟩ other hother c hc hsame
    rw [hcolumns] at hc
    rcases List.mem_append.mp hc with hold | hnew
    · exact husable.spelled table htable other hother c hold hsame
    · have hall : ∀ a ∈ ensuredColumns, ∀ b ∈ ensuredColumns, sameName a b = true → b = a := by
        decide +kernel
      rw [List.mem_singleton.mp hnew] at hsame ⊢
      exact hall other hother name hname hsame

theorem le_addColumn {file file' : DbFile β} {name : String} (h : file.addColumn name = .ok file') :
    file.Le file' ∧ file'.hasColumn name = true := by
  obtain ⟨table, table', htable, _, rfl, hcolumns, _⟩ := addColumn_ok h
  refine ⟨⟨fun object hobject => ?_, fun other hother => ?_⟩, ?_⟩
  · cases object with
    | tasks => rfl
    | _ => exact hobject
  · rw [hasColumn_iff htable] at hother
    rw [hasColumn_iff rfl, hcolumns]
    exact List.mem_append_left _ hother
  · rw [hasColumn_iff rfl, hcolumns]
    exact List.mem_append_right _ (List.mem_singleton_self name)

end DbFile

/-- A part of a list without repetitions that has all of a first part and not what
comes next is that first part. -/
theorem eq_of_prefix_append {a b added : List String} (hnodup : (a ++ b).Nodup)
    (h : added <+: a ++ b) (hsub : a ⊆ added) (hnext : ∀ x ∈ b.head?, x ∉ added) : added = a := by
  rcases List.prefix_or_prefix_of_prefix h (List.prefix_append a b) with ⟨r, hr⟩ | ⟨r, hr⟩
  · cases r with
    | nil => rw [← hr, List.append_nil]
    | cons y r =>
      exfalso
      have hy : y ∈ added := hsub (hr ▸ List.mem_append_right _ List.mem_cons_self)
      have hdistinct := (List.nodup_append.mp hnodup).1
      rw [← hr] at hdistinct
      exact (List.nodup_append.mp hdistinct).2.2 y hy y List.mem_cons_self rfl
  · cases r with
    | nil => rw [← hr, List.append_nil]
    | cons y r =>
      exfalso
      rw [← hr, List.prefix_append_right_inj] at h
      obtain ⟨rest, hrest⟩ := h
      have hhead : y ∈ b.head? := by rw [← hrest]; rfl
      exact hnext y hhead (hr ▸ List.mem_append_right _ List.mem_cons_self)

namespace TasksTable

theorem nodup_missing (table : TasksTable β) : table.missing.Nodup :=
  List.Nodup.filter _ (by decide +kernel)

theorem Widened.refl (table : TasksTable β) : table.Widened [] table := by
  simp [Widened]

theorem Widened.trans {table table' table'' : TasksTable β} {added more : List String}
    (h : table.Widened added table') (h' : table'.Widened more table'') :
    table.Widened (added ++ more) table'' := by
  refine ⟨by rw [h'.1, h.1, List.append_assoc], ?_⟩
  rw [h'.2, h.2, List.map_map, List.length_append, List.replicate_add]
  simp [Function.comp_def]

/-- The next column of a process that has passed the columns before it is the next one
of the migration. -/
theorem Widened.next {table table' : TasksTable β} {added done rest : List String} {name : String}
    (h : table.Widened added table') (hinitial : added <+: table.missing)
    (hensured : ensuredColumns = done ++ name :: rest) (hdone : ∀ c ∈ done, c ∈ table'.columns)
    (habsent : name ∉ table'.columns) : added ++ [name] <+: table.missing := by
  have hname : name ∉ table.columns := fun hold =>
    habsent (h.1 ▸ List.mem_append_left _ hold)
  have hmissing : table.missing = done.filter (fun c => decide (c ∉ table.columns)) ++
      name :: rest.filter (fun c => decide (c ∉ table.columns)) := by
    rw [missing, hensured, List.filter_append, List.filter_cons, if_pos (by simpa using hname)]
  have hnodup := table.nodup_missing
  rw [hmissing] at hinitial hnodup ⊢
  have hadded : added = done.filter (fun c => decide (c ∉ table.columns)) := by
    refine eq_of_prefix_append hnodup hinitial (fun c hc => ?_) ?_
    · obtain ⟨hmem, hnew⟩ := List.mem_filter.mp hc
      have hthere := hdone c hmem
      rw [h.1] at hthere
      exact (List.mem_append.mp hthere).resolve_left (of_decide_eq_true hnew)
    · rintro _ ⟨⟩ hthere
      exact habsent (h.1 ▸ List.mem_append_right _ hthere)
  rw [hadded, List.prefix_append_right_inj]
  exact ⟨_, rfl⟩

/-- A table with all ensured columns has all that were missing. -/
theorem Widened.complete {table table' : TasksTable β} {added : List String}
    (h : table.Widened added table') (hinitial : added <+: table.missing)
    (hall : ∀ c ∈ ensuredColumns, c ∈ table'.columns) : added = table.missing := by
  refine eq_of_prefix_append (b := []) ?_ ?_ (fun c hc => ?_) (by simp)
  · rw [List.append_nil]
    exact table.nodup_missing
  · rwa [List.append_nil]
  · obtain ⟨hmem, hnew⟩ := List.mem_filter.mp hc
    have hthere := hall c hmem
    rw [h.1] at hthere
    exact (List.mem_append.mp hthere).resolve_left (of_decide_eq_true hnew)

end TasksTable

namespace DbFile

/-- What the migration makes of the file: of its table, or of a fresh one. -/
structure Migrated (old file : DbFile β) : Prop where
  le : old.Le file
  table : ∀ table ∈ file.table, ∃ added,
    added <+: (old.table.getD .created).missing ∧ (old.table.getD .created).Widened added table

/-- The migration is over. -/
structure Complete (old file : DbFile β) : Prop where
  objects : ∀ object ∈ schemaBatch, file.has object = true
  table : ∃ table, file.table = some table ∧
    (old.table.getD .created).Widened (old.table.getD .created).missing table

theorem Migrated.refl (old : DbFile β) : old.Migrated old where
  le := Le.refl old
  table table htable := by
    rw [Option.mem_def] at htable
    rw [htable]
    exact ⟨[], List.nil_prefix, TasksTable.Widened.refl table⟩

theorem Le.trans {file file' file'' : DbFile β} (h : file.Le file') (h' : file'.Le file'') :
    file.Le file'' :=
  ⟨fun object hobject => h'.has object (h.has object hobject),
    fun name hname => h'.hasColumn name (h.hasColumn name hname)⟩

theorem Migrated.creates {old file file' : DbFile β} (h : old.Migrated file)
    {object : SchemaObject} (hcreates : file.Creates object file') : old.Migrated file' where
  le := h.le.trans hcreates.le
  table table htable := by
    rcases hcreates.table with hsame | ⟨hnone, hcreated⟩
    · exact h.table table (hsame ▸ htable)
    · have hold : old.table = none := by
        cases hcase : old.table with
        | none => rfl
        | some first =>
          have hkept := h.le.has .tasks (by simp [has, hcase])
          simp [has, hnone] at hkept
      rw [hcreated] at htable
      cases htable
      rw [hold]
      exact ⟨[], List.nil_prefix, TasksTable.Widened.refl _⟩

end DbFile

namespace InitCall

/-- What a process knows at this point. -/
def Knows (old file : DbFile β) : InitCall → Prop
  | creating object rest => ∃ done, schemaBatch = done ++ object :: rest ∧
      ∀ o ∈ done, file.has o = true
  | checking name rest =>
    (∀ o ∈ schemaBatch, file.has o = true) ∧
      ∃ done, ensuredColumns = done ++ name :: rest ∧ ∀ c ∈ done, file.hasColumn c = true
  | adding name rest =>
    (∀ o ∈ schemaBatch, file.has o = true) ∧ name ∈ (old.table.getD .created).missing ∧
      ∃ done, ensuredColumns = done ++ name :: rest ∧ ∀ c ∈ done, file.hasColumn c = true
  | returned (.ok ()) =>
    (∀ o ∈ schemaBatch, file.has o = true) ∧ ∀ c ∈ ensuredColumns, file.hasColumn c = true
  | returned (.error _) => True

/-- A process fails because a statement did, or because another one was first to add a
column. -/
def FailsBy (old file : DbFile β) (faults : List AppError) (call : InitCall) : Prop :=
  ∀ e, call = returned (.error e) → e ∈ faults ∨
    ∃ c ∈ (old.table.getD .created).missing, file.hasColumn c = true ∧
      e = .sqlite ("duplicate column name: " ++ c)

theorem Knows.mono {old file file' : DbFile β} (hle : file.Le file') {call : InitCall}
    (h : call.Knows old file) : call.Knows old file' := by
  cases call with
  | creating object rest =>
    obtain ⟨done, hbatch, hdone⟩ := h
    exact ⟨done, hbatch, fun o ho => hle.has o (hdone o ho)⟩
  | checking name rest =>
    obtain ⟨hobjects, done, hensured, hdone⟩ := h
    exact ⟨fun o ho => hle.has o (hobjects o ho), done, hensured,
      fun c hc => hle.hasColumn c (hdone c hc)⟩
  | adding name rest =>
    obtain ⟨hobjects, hmissing, done, hensured, hdone⟩ := h
    exact ⟨fun o ho => hle.has o (hobjects o ho), hmissing, done, hensured,
      fun c hc => hle.hasColumn c (hdone c hc)⟩
  | returned result =>
    cases result with
    | ok _ => exact ⟨fun o ho => hle.has o (h.1 o ho), fun c hc => hle.hasColumn c (h.2 c hc)⟩
    | error e => trivial

theorem FailsBy.mono {old file file' : DbFile β} (hle : file.Le file') {faults : List AppError}
    {call : InitCall} (h : call.FailsBy old file faults) : call.FailsBy old file' faults := by
  intro e he
  rcases h e he with hfault | ⟨c, hc, hthere, rfl⟩
  · exact .inl hfault
  · exact .inr ⟨c, hc, hle.hasColumn c hthere, rfl⟩

theorem knows_ensureTaskColumns {old file : DbFile β}
    (hobjects : ∀ o ∈ schemaBatch, file.has o = true)
    {done rest : List String} (hensured : ensuredColumns = done ++ rest)
    (hdone : ∀ c ∈ done, file.hasColumn c = true) : (ensureTaskColumns rest).Knows old file := by
  cases rest with
  | nil =>
    rw [List.append_nil] at hensured
    exact ⟨hobjects, fun c hc => hdone c (hensured ▸ hc)⟩
  | cons name rest => exact ⟨hobjects, done, hensured, hdone⟩

theorem knows_executeBatch {old file : DbFile β} {done rest : List SchemaObject}
    (hbatch : schemaBatch = done ++ rest) (hdone : ∀ o ∈ done, file.has o = true) :
    (executeBatch rest).Knows old file := by
  cases rest with
  | nil =>
    rw [List.append_nil] at hbatch
    exact knows_ensureTaskColumns (fun o ho => hdone o (hbatch ▸ ho)) (List.nil_append _).symm
      (by simp)
  | cons object rest => exact ⟨done, hbatch, hdone⟩

theorem not_failed_ensureTaskColumns (rest : List String) (e : AppError) :
    ensureTaskColumns rest ≠ returned (.error e) := by
  cases rest <;> simp [ensureTaskColumns]

theorem not_failed_executeBatch (rest : List SchemaObject) (e : AppError) :
    executeBatch rest ≠ returned (.error e) := by
  cases rest with
  | nil => exact not_failed_ensureTaskColumns ensuredColumns e
  | cons object rest => simp [executeBatch]

/-- The batch creates an index after both tables. -/
theorem tables_before_index {done rest : List SchemaObject} {index : SchemaIndex}
    (h : schemaBatch = done ++ .index index :: rest) : .tasks ∈ done ∧ .taskEvents ∈ done := by
  rcases done with _ | ⟨a, _ | ⟨b, done⟩⟩
  · simp [schemaBatch] at h
  · simp [schemaBatch] at h
  · simp only [schemaBatch, List.cons_append, List.cons.injEq] at h
    simp [← h.1, ← h.2.1]

/-- A statement of a process keeps what is there, and the process knows what it did. -/
theorem move_spec {old file : DbFile β} (hmigrated : old.Migrated file) (husable : file.Usable)
    {call : InitCall} (h : call.Knows old file) (hopen : call.isReturned = false)
    (faults : List AppError) :
    file.Le (call.move file).1 ∧ (old.Migrated (call.move file).1 ∧ (call.move file).1.Usable) ∧
      (call.move file).2.Knows old (call.move file).1 ∧
      (call.move file).2.FailsBy old (call.move file).1 faults := by
  cases call with
  | creating object rest =>
    obtain ⟨done, hbatch, hdone⟩ := h
    obtain ⟨file', hcreate⟩ := DbFile.exists_createIfNotExists husable object (by
      rintro index rfl
      obtain ⟨htasks, hevents⟩ := tables_before_index hbatch
      exact ⟨hdone _ htasks, hdone _ hevents⟩)
    have hcreates := DbFile.creates_of_createIfNotExists hcreate
    simp only [move, hcreate]
    refine ⟨hcreates.le, ⟨hmigrated.creates hcreates, hcreates.usable husable⟩, ?_,
      fun e he => absurd he (not_failed_executeBatch rest e)⟩
    refine knows_executeBatch (hbatch.trans (List.append_cons done object rest)) ?_
    exact List.forall_mem_append.mpr
      ⟨fun o ho => hcreates.le.has o (hdone o ho), List.forall_mem_singleton.mpr hcreates.has⟩
  | checking name rest =>
    obtain ⟨hobjects, done, hensured, hdone⟩ := h
    refine ⟨DbFile.Le.refl file, ⟨hmigrated, husable⟩, ?_⟩
    by_cases hthere : file.hasColumn name = true
    · simp only [move, if_pos hthere]
      refine ⟨?_, fun e he => absurd he (not_failed_ensureTaskColumns rest e)⟩
      refine knows_ensureTaskColumns hobjects
        (hensured.trans (List.append_cons done name rest)) ?_
      exact List.forall_mem_append.mpr ⟨hdone, List.forall_mem_singleton.mpr hthere⟩
    · simp only [move, if_neg hthere]
      refine ⟨⟨hobjects, ?_, done, hensured, hdone⟩, fun e he => by cases he⟩
      obtain ⟨table, htable⟩ := Option.isSome_iff_exists.mp (hobjects .tasks (by decide))
      obtain ⟨added, _, hwidened⟩ := hmigrated.table table htable
      rw [DbFile.hasColumn_iff htable, hwidened.1] at hthere
      have hnew : name ∉ (old.table.getD .created).columns :=
        fun hold => hthere (List.mem_append_left _ hold)
      exact List.mem_filter.mpr ⟨by rw [hensured]; simp, decide_eq_true hnew⟩
  | adding name rest =>
    obtain ⟨hobjects, hmissing, done, hensured, hdone⟩ := h
    have hname : name ∈ ensuredColumns := by rw [hensured]; simp
    obtain ⟨table, htable⟩ := Option.isSome_iff_exists.mp (hobjects .tasks (by decide))
    cases hadd : file.addColumn name with
    | error e =>
      obtain ⟨hthere, rfl⟩ := DbFile.addColumn_error husable htable hname hadd
      simp only [move, hadd]
      refine ⟨DbFile.Le.refl file, ⟨hmigrated, husable⟩, trivial, ?_⟩
      rintro _ ⟨⟩
      exact .inr ⟨name, hmissing, (DbFile.hasColumn_iff htable name).mpr hthere, rfl⟩
    | ok file' =>
      obtain ⟨hle, hnow⟩ := DbFile.le_addColumn hadd
      simp only [move, hadd]
      refine ⟨hle, ⟨⟨hmigrated.le.trans hle, ?_⟩, husable.addColumn hname hadd⟩, ?_,
        fun e he => absurd he (not_failed_ensureTaskColumns rest e)⟩
      · obtain ⟨first, second, hfirst, habsent, rfl, hone⟩ := DbFile.addColumn_ok hadd
        rintro _ ⟨⟩
        obtain ⟨added, hinitial, hwidened⟩ := hmigrated.table first hfirst
        refine ⟨added ++ [name], hwidened.next hinitial hensured (fun c hc => ?_) habsent,
          hwidened.trans hone⟩
        exact (DbFile.hasColumn_iff hfirst c).mp (hdone c hc)
      · refine knows_ensureTaskColumns (fun o ho => hle.has o (hobjects o ho))
          (hensured.trans (List.append_cons done name rest)) ?_
        exact List.forall_mem_append.mpr
          ⟨fun c hc => hle.hasColumn c (hdone c hc), List.forall_mem_singleton.mpr hnow⟩
  | returned result => cases hopen

end InitCall

namespace Initialising

/-- The file is on its way, and every process knows what it has done. -/
structure Sound (old : DbFile β) (faults : List AppError) (s : Initialising β) : Prop where
  migrated : old.Migrated s.file
  usable : s.file.Usable
  knows : ∀ call ∈ s.calls, call.Knows old s.file
  failsBy : ∀ call ∈ s.calls, call.FailsBy old s.file faults

theorem Sound.step {old : DbFile β} {faults : List AppError} {s s' : Initialising β}
    {e : InitEvent} (hinv : s.Sound old faults) (hfault : ∀ fault ∈ e.fault, fault ∈ faults)
    (h : s.step e = some s') : s'.Sound old faults := by
  cases e with
  | call =>
    cases h
    refine ⟨hinv.migrated, hinv.usable, fun call hmem => ?_, fun call hmem => ?_⟩
    · rcases List.mem_append.mp hmem with hold | hnew
      · exact hinv.knows call hold
      · rw [List.mem_singleton.mp hnew]
        exact ⟨[], rfl, by simp⟩
    · rcases List.mem_append.mp hmem with hold | hnew
      · exact hinv.failsBy call hold
      · rw [List.mem_singleton.mp hnew]
        exact fun e he => by cases he
  | step i fault =>
    simp only [Initialising.step] at h
    split at h
    · cases h
    rename_i call hcall
    split at h
    · cases h
    rename_i hopen
    have hmem := List.mem_of_getElem? hcall
    split at h
    · rename_i e
      cases h
      refine ⟨hinv.migrated, hinv.usable, fun other hother => ?_, fun other hother => ?_⟩
      · rcases List.mem_or_eq_of_mem_set hother with hold | rfl
        · exact hinv.knows other hold
        · trivial
      · rcases List.mem_or_eq_of_mem_set hother with hold | rfl
        · exact hinv.failsBy other hold
        · rintro _ ⟨⟩
          exact .inl (hfault e rfl)
    · cases h
      obtain ⟨hle, ⟨hmigrated, husable⟩, hknows, hfails⟩ := InitCall.move_spec hinv.migrated
        hinv.usable (hinv.knows call hmem) (Bool.eq_false_iff.mpr hopen) faults
      refine ⟨hmigrated, husable, fun other hother => ?_, fun other hother => ?_⟩
      · rcases List.mem_or_eq_of_mem_set hother with hold | rfl
        · exact (hinv.knows other hold).mono hle
        · exact hknows
      · rcases List.mem_or_eq_of_mem_set hother with hold | rfl
        · exact (hinv.failsBy other hold).mono hle
        · exact hfails

theorem sound_of_run {old : DbFile β} (hold : old.Usable)
    {trace : List (Initialising β × InitEvent)} {last : Initialising β}
    (hrun : Run step { file := old } trace last) :
    last.Sound old (trace.filterMap fun x => x.2.fault) := by
  refine hrun.invariant (I := fun s => s.Sound old (trace.filterMap fun x => x.2.fault))
    (G := fun _ e => ∀ fault ∈ e.fault, fault ∈ trace.filterMap fun x => x.2.fault)
    ⟨DbFile.Migrated.refl old, hold, by simp, by simp⟩
    (fun s e s' hinv hfault hstep => hinv.step hfault hstep) ?_
  intro x hx fault hfault
  exact List.mem_filterMap.mpr ⟨x, hx, hfault⟩

theorem Sound.complete {old : DbFile β} {faults : List AppError} {s : Initialising β}
    (hinv : s.Sound old faults) (h : .returned (.ok ()) ∈ s.calls) : old.Complete s.file := by
  obtain ⟨hobjects, hcolumns⟩ := hinv.knows _ h
  obtain ⟨table, htable⟩ := Option.isSome_iff_exists.mp (hobjects .tasks (by decide))
  obtain ⟨added, hinitial, hwidened⟩ := hinv.migrated.table table htable
  have hall : ∀ c ∈ ensuredColumns, c ∈ table.columns :=
    fun c hc => (DbFile.hasColumn_iff htable c).mp (hcolumns c hc)
  exact ⟨hobjects, table, htable, hwidened.complete hinitial hall ▸ hwidened⟩

/-- From here the process can be brought to its end alone. -/
def Finishes (s : Initialising β) (i : ℕ) : Prop :=
  ∃ file, Reaches step s { file, calls := s.calls.set i (.returned (.ok ())) }

theorem finishes_of_move {s : Initialising β} {i : ℕ} {call : InitCall}
    (hcall : s.calls[i]? = some call) (hopen : call.isReturned = false)
    (h : Finishes { file := (call.move s.file).1, calls := s.calls.set i (call.move s.file).2 } i) :
    s.Finishes i := by
  obtain ⟨file, hreaches⟩ := h
  have hstep : s.step (.step i none) =
      some { file := (call.move s.file).1, calls := s.calls.set i (call.move s.file).2 } := by
    simp [Initialising.step, hcall, hopen]
  rw [List.set_set] at hreaches
  exact ⟨file, (Reaches.single hstep).trans hreaches⟩

theorem finishes_ensureTaskColumns {rest : List String} {s : Initialising β} {i : ℕ}
    (hcall : s.calls[i]? = some (.ensureTaskColumns rest)) (husable : s.file.Usable)
    (htable : s.file.table.isSome = true) (hrest : rest ⊆ ensuredColumns) : s.Finishes i := by
  induction rest generalizing s with
  | nil =>
    have hsame : s.calls.set i (.returned (.ok ())) = s.calls := by
      obtain ⟨hlt, hget⟩ := List.getElem?_eq_some_iff.mp hcall
      rw [show InitCall.returned (.ok ()) = s.calls[i] from hget.symm, List.set_getElem_self]
    exact ⟨s.file, hsame.symm ▸ Reaches.refl s⟩
  | cons name rest ih =>
    obtain ⟨hname, hrest⟩ := List.cons_subset.mp hrest
    have hlt : i < s.calls.length := (List.getElem?_eq_some_iff.mp hcall).1
    have hchecking : s.calls[i]? = some (.checking name rest) := hcall
    refine finishes_of_move hchecking rfl ?_
    by_cases hthere : s.file.hasColumn name = true
    · rw [InitCall.move, if_pos hthere]
      exact ih (by simp [hlt]) husable htable hrest
    · rw [InitCall.move, if_neg hthere]
      obtain ⟨table, hsome⟩ := Option.isSome_iff_exists.mp htable
      have habsent : name ∉ table.columns := fun hmem =>
        hthere ((DbFile.hasColumn_iff hsome name).mpr hmem)
      obtain ⟨file', hadd⟩ := DbFile.addColumn_of_absent husable hsome hname habsent
      have hadding : (s.calls.set i (.adding name rest))[i]? = some (.adding name rest) := by
        simp [hlt]
      refine finishes_of_move hadding rfl ?_
      simp only [InitCall.move, hadd]
      exact ih (by simp [hlt]) (husable.addColumn hname hadd)
        ((DbFile.le_addColumn hadd).1.has .tasks htable) hrest

theorem finishes_executeBatch {done rest : List SchemaObject} {s : Initialising β} {i : ℕ}
    (hcall : s.calls[i]? = some (.executeBatch rest)) (husable : s.file.Usable)
    (hbatch : schemaBatch = done ++ rest) (hdone : ∀ o ∈ done, s.file.has o = true) :
    s.Finishes i := by
  induction rest generalizing s done with
  | nil =>
    have hensuring : s.calls[i]? = some (.ensureTaskColumns ensuredColumns) := hcall
    rw [List.append_nil] at hbatch
    exact finishes_ensureTaskColumns hensuring husable
      (hdone .tasks (hbatch ▸ (by decide : SchemaObject.tasks ∈ schemaBatch)))
      (List.Subset.refl _)
  | cons object rest ih =>
    have hlt : i < s.calls.length := (List.getElem?_eq_some_iff.mp hcall).1
    have hcreating : s.calls[i]? = some (.creating object rest) := hcall
    obtain ⟨file', hcreate⟩ := DbFile.exists_createIfNotExists husable object (by
      rintro index rfl
      obtain ⟨htasks, hevents⟩ := InitCall.tables_before_index hbatch
      exact ⟨hdone _ htasks, hdone _ hevents⟩)
    have hcreates := DbFile.creates_of_createIfNotExists hcreate
    refine finishes_of_move hcreating rfl ?_
    simp only [InitCall.move, hcreate]
    refine ih (by simp [hlt]) (hcreates.usable husable)
      (hbatch.trans (List.append_cons done object rest)) ?_
    exact List.forall_mem_append.mpr
      ⟨fun o ho => hcreates.le.has o (hdone o ho), List.forall_mem_singleton.mpr hcreates.has⟩

theorem reaches_new_call {s : Initialising β} (husable : s.file.Usable) :
    ∃ file, Reaches step s { file, calls := s.calls ++ [.returned (.ok ())] } := by
  let called : Initialising β := { s with calls := s.calls ++ [.executeBatch schemaBatch] }
  have hstep : s.step .call = some called := rfl
  have hcall : called.calls[s.calls.length]? = some (.executeBatch schemaBatch) := by
    simp [called]
  obtain ⟨file, hreaches⟩ := finishes_executeBatch hcall husable (List.nil_append _).symm
    (by simp)
  have hset : called.calls.set s.calls.length (.returned (.ok ())) =
      s.calls ++ [.returned (.ok ())] := by
    simp [called]
  rw [hset] at hreaches
  exact ⟨file, (Reaches.single hstep).trans hreaches⟩

/-- Many processes initialise one file, each a statement at a time, and may fail at any. The
table has its old columns and some of the missing ones, in their one order, and every row its
old cells and a NULL for each of these. Once a process succeeds the file is complete and
stays so. A process fails only with a statement, or for a column that was missing and
that another process has added. And whatever has happened, one more process that is left
alone succeeds. -/
theorem schema_converges {old : DbFile β} (hold : old.Usable)
    {trace : List (Initialising β × InitEvent)} {last : Initialising β}
    (hrun : Run step { file := old } trace last) :
    old.Migrated last.file ∧
      (.returned (.ok ()) ∈ last.calls → old.Complete last.file) ∧
      (∀ e, .returned (.error e) ∈ last.calls → e ∈ trace.filterMap (fun x => x.2.fault) ∨
        ∃ c ∈ (old.table.getD .created).missing, last.file.hasColumn c = true ∧
          e = .sqlite ("duplicate column name: " ++ c)) ∧
      ∃ file, Reaches step last { file, calls := last.calls ++ [.returned (.ok ())] } ∧
        old.Complete file := by
  have hsound := sound_of_run hold hrun
  refine ⟨hsound.migrated, hsound.complete, fun e he => hsound.failsBy _ he e rfl, ?_⟩
  obtain ⟨file, later, hlater⟩ := reaches_new_call hsound.usable
  have hend := sound_of_run hold (hrun.append hlater)
  exact ⟨file, ⟨later, hlater⟩, hend.complete (by simp)⟩

/-- The file of a version that had none of the ensured columns, with one task. -/
private def olderFile : DbFile ℕ where
  table := some {
    columns := taskColumns.take 33
    rows := [(List.range 33).map some]
    nodup := by decide +kernel
    aligned := by simp [taskColumns, ensuredColumns] }

private theorem usable_olderFile : olderFile.Usable where
  indexed := by
    rintro (_ | _ | _) columns hcolumns
    · cases hcolumns
      decide +kernel
    · cases hcolumns
      decide +kernel
    · cases hcolumns
  spelled := by
    rintro _ ⟨⟩
    have hall : ∀ name ∈ ensuredColumns, ∀ c ∈ taskColumns.take 33,
        sameName name c = true → c = name := by
      decide +kernel
    exact hall

/-- Two processes look for the first column before either has added it. -/
private def raceForColumn : List InitEvent :=
  [.call, .call] ++ List.replicate 6 (.step 0 none) ++ List.replicate 6 (.step 1 none) ++
    [.step 0 none, .step 1 none] ++ List.replicate 8 (.step 0 none)

/-- The first process has succeeded and the second has lost the race. -/
private def isDecided (calls : List InitCall) : Bool :=
  match calls with
  | [.returned (.ok ()), .returned (.error (.sqlite message))] =>
    decide (message = "duplicate column name: execution_plan_json")
  | _ => false

theorem schema_converges_of_race :
    ∃ trace last, Run step { file := olderFile } trace last ∧
      .returned (.ok ()) ∈ last.calls ∧
      .returned (.error (.sqlite "duplicate column name: execution_plan_json")) ∈ last.calls ∧
      olderFile.Complete last.file := by
  have hexec : (exec (checked (fun _ _ => true) step) { file := olderFile } raceForColumn).any
      (fun s => isDecided s.calls) = true := by
    decide +kernel
  obtain ⟨trace, last, hrun, _, _, htest⟩ := Runs.exists_run_of_exec hexec
  unfold isDecided at htest
  split at htest
  · rename_i message hcalls
    have hmessage : message = "duplicate column name: execution_plan_json" :=
      of_decide_eq_true htest
    have hok : .returned (.ok ()) ∈ last.calls := by simp [hcalls]
    exact ⟨trace, last, hrun, hok, by simp [hcalls, hmessage],
      (schema_converges usable_olderFile hrun).2.1 hok⟩
  · cases htest

end Initialising

end ExecgoRuntime
