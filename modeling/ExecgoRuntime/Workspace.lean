import ExecgoRuntime.EffectiveSandbox
import ExecgoRuntime.TaskPaths

/-!
The workspace of a task. The subdirectory is any text; it is accepted when it is
relative and no part of it is `..`. A walk along such a path only stays or goes
down, so the workspace lies in the directory `workspace` of the task.
-/
namespace ExecgoRuntime

open LexicalPath

inductive PathComponent
  | rootDir
  | curDir
  | parentDir
  | normal (name : Name)
  deriving DecidableEq

/-- A part after the first one; an empty part and a dot are skipped. -/
def PathComponent.ofPart (part : List Char) : Option PathComponent :=
  if part = [] ∨ part = ['.'] then none
  else if part = ['.', '.'] then some .parentDir
  else some (.normal part)

/-- `Path::components`: a dot is kept at the front of a relative path only. -/
def stdComponents (path : List Char) : List PathComponent :=
  let parts := path.splitOn '/'
  let first := if isAbsolute path then some .rootDir
    else if parts.head? = some ['.'] then some .curDir
    else parts.head?.bind PathComponent.ofPart
  first.toList ++ parts.tail.filterMap PathComponent.ofPart

/-- `validate_relative_workspace_subdir`, with the two checks of the source. -/
def checkWorkspaceSubdir (subdir : String) : AppResult Unit := do
  if isAbsolutePath subdir then
    throw (.invalidInput "sandbox.workspace_subdir must be relative")
  if (stdComponents subdir.toList).any (fun c => c == .parentDir || c == .rootDir) then
    throw (.invalidInput "sandbox.workspace_subdir cannot contain parent traversal")

theorem PathComponent.ofPart_eq_parentDir_iff (part : List Char) :
    ofPart part = some .parentDir ↔ part = ['.', '.'] := by
  unfold ofPart
  split
  · rename_i hskipped
    rcases hskipped with rfl | rfl <;> simp
  · split
    · rename_i hparent
      simp [hparent]
    · rename_i hparent
      simp [hparent]

theorem PathComponent.ofPart_ne_rootDir (part : List Char) : ofPart part ≠ some .rootDir := by
  unfold ofPart
  split
  · simp
  · split <;> simp

/-- The component of the first part of a relative path. -/
private def firstComponent (first : List Char) : Option PathComponent :=
  if first = ['.'] then some .curDir else PathComponent.ofPart first

private theorem stdComponents_relative {path first : List Char} {rest : List (List Char)}
    (habsolute : isAbsolute path = false) (hparts : path.splitOn '/' = first :: rest) :
    stdComponents path =
      (firstComponent first).toList ++ rest.filterMap PathComponent.ofPart := by
  simp only [stdComponents, habsolute, hparts, Bool.false_eq_true, if_false, List.head?_cons,
    Option.some.injEq, Option.bind_some, List.tail_cons]
  rfl

theorem parentDir_mem_stdComponents {path : List Char} (habsolute : isAbsolute path = false) :
    .parentDir ∈ stdComponents path ↔ ['.', '.'] ∈ path.splitOn '/' := by
  obtain ⟨first, rest, hparts⟩ := List.exists_cons_of_ne_nil (List.splitOn_ne_nil '/' path)
  have hfirst : .parentDir ∈ (firstComponent first).toList ↔ ['.', '.'] = first := by
    rw [Option.mem_toList, firstComponent]
    split
    · rename_i hdot
      simp [hdot]
    · rw [PathComponent.ofPart_eq_parentDir_iff, eq_comm]
  have hrest : .parentDir ∈ rest.filterMap PathComponent.ofPart ↔ ['.', '.'] ∈ rest := by
    simp [PathComponent.ofPart_eq_parentDir_iff]
  rw [stdComponents_relative habsolute hparts, hparts, List.mem_append, List.mem_cons, hfirst,
    hrest]

theorem rootDir_not_mem_stdComponents {path : List Char} (habsolute : isAbsolute path = false) :
    .rootDir ∉ stdComponents path := by
  obtain ⟨first, rest, hparts⟩ := List.exists_cons_of_ne_nil (List.splitOn_ne_nil '/' path)
  rw [stdComponents_relative habsolute hparts, List.mem_append, Option.mem_toList]
  rintro (hfirst | hrest)
  · unfold firstComponent at hfirst
    split at hfirst
    · cases hfirst
    · exact PathComponent.ofPart_ne_rootDir first hfirst
  · obtain ⟨part, _, hpart⟩ := List.mem_filterMap.mp hrest
    exact PathComponent.ofPart_ne_rootDir part hpart

/-- The second check of the source finds a parent only: a relative path has no root. -/
theorem checkWorkspaceSubdir_eq (subdir : String) :
    checkWorkspaceSubdir subdir = validateRelativeWorkspaceSubdir subdir := by
  unfold checkWorkspaceSubdir validateRelativeWorkspaceSubdir
  cases habsolute : isAbsolutePath subdir with
  | true => rfl
  | false =>
    have hrelative : isAbsolute subdir.toList = false := habsolute
    have hsame : (stdComponents subdir.toList).any (fun c => c == .parentDir || c == .rootDir) =
        (pathComponents subdir).contains ['.', '.'] := by
      rw [Bool.eq_iff_iff, List.any_eq_true, List.contains_iff_mem, pathComponents,
        ← parentDir_mem_stdComponents hrelative]
      constructor
      · rintro ⟨c, hc, htest⟩
        simp only [Bool.or_eq_true, beq_iff_eq] at htest
        rcases htest with rfl | rfl
        · exact hc
        · exact absurd hc (rootDir_not_mem_stdComponents hrelative)
      · intro hparent
        exact ⟨_, hparent, rfl⟩
    rw [hsame]

/-- The path is relative, and nothing between its separators is `..`. -/
def StaysBelow (subdir : String) : Prop :=
  subdir.toList.head? ≠ some '/' ∧ ¬ Delimited.IsPart '/' ['.', '.'] subdir.toList

theorem validateRelativeWorkspaceSubdir_eq_ok_iff (subdir : String) :
    validateRelativeWorkspaceSubdir subdir = .ok () ↔ StaysBelow subdir := by
  have hsep : '/' ∉ ['.', '.'] := by decide
  have habsolute : isAbsolutePath subdir = true ↔ subdir.toList.head? = some '/' := beq_iff_eq
  have hparts : (pathComponents subdir).contains ['.', '.'] = true ↔
      Delimited.IsPart '/' ['.', '.'] subdir.toList := by
    rw [List.contains_iff_mem, ← Delimited.mem_splitOn_iff hsep]
    rfl
  unfold StaysBelow validateRelativeWorkspaceSubdir
  rw [← hparts, ne_eq, ← habsolute]
  cases isAbsolutePath subdir <;> cases (pathComponents subdir).contains ['.', '.'] <;>
    simp [throw, throwThe, MonadExceptOf.throw, bind, Except.bind, pure, Except.pure]

/-- A walk without a step up stays below its start. -/
theorem within_foldl_enter {walk : List LexicalPath.Component} (hdown : .parentDir ∉ walk)
    {loc base : Location} (hwithin : loc.Within base) :
    (walk.foldl Location.enter loc).Within base := by
  induction walk generalizing loc with
  | nil => exact hwithin
  | cons c walk ih =>
    rw [List.mem_cons, not_or] at hdown
    refine ih hdown.2 ?_
    cases c with
    | curDir => exact hwithin
    | parentDir => exact absurd rfl hdown.1
    | normal name =>
      obtain ⟨habsolute, hup, hnames⟩ := hwithin
      exact ⟨habsolute, hup, hnames.trans (List.prefix_append _ _)⟩

theorem parentDir_mem_components (path : List Char) :
    .parentDir ∈ components path ↔ ['.', '.'] ∈ path.splitOn '/' := by
  unfold components
  rw [List.mem_filterMap]
  constructor
  · rintro ⟨part, hpart, hparent⟩
    have hdots : part = ['.', '.'] := by
      by_contra hother
      unfold LexicalPath.Component.ofPart at hparent
      split_ifs at hparent <;> cases hparent
    rw [← hdots]
    exact hpart
  · intro hparent
    exact ⟨_, hparent, rfl⟩

theorem within_of_staysBelow {subdir : String} (h : StaysBelow subdir) (base : String) :
    (resolvePath (joinPath base subdir)).Within (resolvePath base) := by
  have hrelative : isAbsolutePath subdir = false := by
    simpa [isAbsolutePath] using h.1
  have hdown : .parentDir ∉ components subdir.toList := by
    rw [parentDir_mem_components, Delimited.mem_splitOn_iff (by decide)]
    exact h.2
  rw [resolvePath_join hrelative]
  exact within_foldl_enter hdown ⟨rfl, rfl, List.prefix_rfl⟩

theorem resolveWorkspaceDir_eq_ok_iff (taskDir subdir path : String) (sandbox : SandboxPolicy) :
    resolveWorkspaceDir taskDir { sandbox with workspaceSubdir := some subdir } = .ok path ↔
      StaysBelow subdir ∧ path = joinPath (joinPath taskDir "workspace") subdir := by
  rw [← validateRelativeWorkspaceSubdir_eq_ok_iff]
  simp only [resolveWorkspaceDir, bind, Except.bind]
  cases hcheck : validateRelativeWorkspaceSubdir subdir with
  | error e => simp
  | ok _ => simp [pure, Except.pure, eq_comm]

/-- A policy with a subdirectory is valid, and the subdirectory resolves, exactly
when the subdirectory is relative and has no part `..`; what it resolves to lies
in the workspace of the task. -/
theorem workspace_contained (sandbox : SandboxPolicy) (subdir : String) :
    (({ sandbox with workspaceSubdir := some subdir } : SandboxPolicy).validate = .ok () ↔
      ({ sandbox with workspaceSubdir := none } : SandboxPolicy).validate = .ok () ∧
        StaysBelow subdir) ∧
    ∀ taskDir : String,
      ((∃ path, resolveWorkspaceDir taskDir { sandbox with workspaceSubdir := some subdir } =
          .ok path) ↔ StaysBelow subdir) ∧
      ∀ path, resolveWorkspaceDir taskDir { sandbox with workspaceSubdir := some subdir } =
          .ok path →
        (resolvePath path).Within (resolvePath (joinPath taskDir "workspace")) := by
  refine ⟨?_, fun taskDir => ⟨?_, fun path hpath => ?_⟩⟩
  · rw [SandboxPolicy.validate_eq_ok_iff, SandboxPolicy.validate_eq_ok_iff,
      ← validateRelativeWorkspaceSubdir_eq_ok_iff]
    simp [and_comm]
  · simp only [resolveWorkspaceDir_eq_ok_iff]
    exact ⟨fun ⟨_, hbelow, _⟩ => hbelow, fun hbelow => ⟨_, hbelow, rfl⟩⟩
  · obtain ⟨hbelow, rfl⟩ := (resolveWorkspaceDir_eq_ok_iff taskDir subdir path sandbox).mp hpath
    exact within_of_staysBelow hbelow _

/-- Doubled and trailing slashes, a dot, and a name that begins with two dots. -/
theorem workspace_contained_of_dots :
    (resolvePath (joinPath (joinPath "/tasks/a" "workspace") "out//./..b/")).Within
      (resolvePath (joinPath "/tasks/a" "workspace")) := by
  have hcontained := (workspace_contained {} "out//./..b/").2 "/tasks/a"
  refine hcontained.2 _ ?_
  decide +kernel

end ExecgoRuntime
