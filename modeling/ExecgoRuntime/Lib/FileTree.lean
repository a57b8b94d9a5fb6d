import ExecgoRuntime.Lib.LexicalPath
import Mathlib.Data.List.Induction

/-!
A tree of directories and files, as a map from locations.
Every entry lies in a directory and the places where paths start are
directories; both are part of the tree, so no operation can lose them. The
operations are those of a standard library: create a directory with all its
parents, replace the content of a file, and make sure that a file exists. Each
comes with one lemma that gives every entry of the tree it leaves. There are no
symbolic links: an entry is where its path says.
-/
open LexicalPath

inductive FileNode (β : Type*)
  | dir
  | file (content : List β)

inductive FileError
  | notFound
  | alreadyExists
  | isADirectory
  | notADirectory
  deriving DecidableEq, Repr

def FileError.message : FileError → String
  | notFound => "No such file or directory"
  | alreadyExists => "File exists"
  | isADirectory => "Is a directory"
  | notADirectory => "Not a directory"

structure FileTree (β : Type*) where
  node : Location → Option (FileNode β)
  base : ∀ loc, loc.names = [] → node loc = some .dir
  closed : ∀ loc, loc.names ≠ [] → (node loc).isSome = true → node loc.parent = some .dir

namespace FileTree

variable {β : Type*}

/-- A tree without an entry below the places where paths start. -/
def empty : FileTree β where
  node loc := if loc.names = [] then some .dir else none
  base loc h := if_pos h
  closed loc hnames hsome := by
    rw [if_neg hnames] at hsome
    cases hsome

def isDir (t : FileTree β) (loc : Location) : Bool :=
  match t.node loc with
  | some .dir => true
  | _ => false

theorem isDir_iff (t : FileTree β) (loc : Location) :
    t.isDir loc = true ↔ t.node loc = some .dir := by
  unfold isDir
  split <;> simp_all

/-- Put an entry into an existing directory, where there is none or a file. -/
def put (t : FileTree β) (loc : Location) (entry : FileNode β) (hnames : loc.names ≠ [])
    (hparent : t.node loc.parent = some .dir) (hfree : t.node loc ≠ some .dir) : FileTree β where
  node other := if other = loc then some entry else t.node other
  base other hother := by
    have hne : other ≠ loc := fun heq => hnames (heq ▸ hother)
    rw [if_neg hne]
    exact t.base other hother
  closed other hother hsome := by
    have hdir : t.node other.parent = some .dir := by
      by_cases heq : other = loc
      · rw [heq]
        exact hparent
      · rw [if_neg heq] at hsome
        exact t.closed other hother hsome
    have hne : other.parent ≠ loc := by
      intro heq
      rw [heq] at hdir
      exact hfree hdir
    rw [if_neg hne]
    exact hdir

@[simp]
theorem put_node (t : FileTree β) (loc : Location) (entry : FileNode β) (hnames : loc.names ≠ [])
    (hparent : t.node loc.parent = some .dir) (hfree : t.node loc ≠ some .dir)
    (other : Location) :
    (t.put loc entry hnames hparent hfree).node other =
      if other = loc then some entry else t.node other := rfl

/-- Nothing that was there has changed. -/
def Grows (t t' : FileTree β) : Prop :=
  ∀ loc, (t.node loc).isSome = true → t'.node loc = t.node loc

theorem Grows.refl (t : FileTree β) : t.Grows t := fun _ _ => rfl

theorem Grows.trans {t t' t'' : FileTree β} (h : t.Grows t') (h' : t'.Grows t'') : t.Grows t'' := by
  intro loc hsome
  have hmid : t'.node loc = t.node loc := h loc hsome
  rw [h' loc (by rw [hmid]; exact hsome), hmid]

theorem Grows.isDir {t t' : FileTree β} (h : t.Grows t') {loc : Location}
    (hdir : t.node loc = some .dir) : t'.node loc = some .dir := by
  rw [h loc (by rw [hdir]; rfl), hdir]

/-- A new entry in a free place. -/
theorem put_grows (t : FileTree β) (loc : Location) (entry : FileNode β) (hnames : loc.names ≠ [])
    (hparent : t.node loc.parent = some .dir) (hfree : t.node loc ≠ some .dir)
    (hnone : t.node loc = none) : t.Grows (t.put loc entry hnames hparent hfree) := by
  intro other hsome
  rw [put_node, if_neg]
  rintro rfl
  rw [hnone] at hsome
  cases hsome

/-- Everything above a directory is a directory. -/
theorem dir_above (t : FileTree β) (loc : Location) (path : List Name)
    (h : t.node (loc.descend path) = some .dir) : t.node loc = some .dir := by
  induction path using List.reverseRecOn with
  | nil => simpa using h
  | append_singleton path name ih =>
    rw [Location.descend_concat] at h
    have hparent := t.closed _ (Location.child_names_ne_nil _ name) (by rw [h]; rfl)
    rw [Location.parent_child] at hparent
    exact ih hparent

/-- Create one directory; an existing one will do. -/
def mkdir (t : FileTree β) (loc : Location) : Except FileError (FileTree β) :=
  if hdir : t.isDir loc = true then .ok t
  else if (t.node loc).isSome then .error .alreadyExists
  else if hparent : t.isDir loc.parent = true then
    .ok (t.put loc .dir
      (fun hnames => hdir ((t.isDir_iff loc).mpr (t.base loc hnames)))
      ((t.isDir_iff loc.parent).mp hparent)
      (fun heq => hdir ((t.isDir_iff loc).mpr heq)))
  else .error .notFound

/-- Create the directories on the way down; an error keeps those created before. -/
def mkdirs (t : FileTree β) (loc : Location) : List Name → FileTree β × Except FileError Unit
  | [] => (t, .ok ())
  | name :: rest =>
    match t.mkdir (loc.child name) with
    | .ok t' => t'.mkdirs (loc.child name) rest
    | .error e => (t, .error e)

/-- `create_dir_all`. -/
def createDirAll (t : FileTree β) (loc : Location) : FileTree β × Except FileError Unit :=
  t.mkdirs { loc with names := [] } loc.names

theorem mkdir_spec {t t' : FileTree β} {loc : Location} (h : t.mkdir loc = .ok t') :
    t.Grows t' ∧ t'.node loc = some .dir := by
  unfold mkdir at h
  split at h
  · rename_i hdir
    cases h
    exact ⟨.refl t, (t.isDir_iff loc).mp hdir⟩
  split at h
  · cases h
  rename_i hnone
  split at h
  · cases h
    exact ⟨put_grows t loc _ _ _ _ (by simpa using hnone), by simp⟩
  · cases h

theorem mkdirs_spec {t t' : FileTree β} {loc : Location} {path : List Name}
    (h : t.mkdirs loc path = (t', .ok ())) (hdir : t.node loc = some .dir) :
    t.Grows t' ∧ t'.node (loc.descend path) = some .dir := by
  induction path generalizing t loc with
  | nil =>
    cases h
    exact ⟨.refl _, by simpa using hdir⟩
  | cons name rest ih =>
    simp only [mkdirs] at h
    split at h
    · rename_i mid hmid
      obtain ⟨hgrows, hmiddir⟩ := mkdir_spec hmid
      obtain ⟨hgrows', hlast⟩ := ih h hmiddir
      rw [Location.descend_cons]
      exact ⟨hgrows.trans hgrows', hlast⟩
    · cases h

theorem createDirAll_spec {t t' : FileTree β} {loc : Location}
    (h : t.createDirAll loc = (t', .ok ())) : t.Grows t' ∧ t'.node loc = some .dir := by
  obtain ⟨hgrows, hdir⟩ := mkdirs_spec h (t.base _ rfl)
  exact ⟨hgrows, by simpa [Location.descend] using hdir⟩

/-- Nothing happens to a directory that exists. -/
theorem mkdirs_of_dir (t : FileTree β) (loc : Location) (path : List Name)
    (h : t.node (loc.descend path) = some .dir) : t.mkdirs loc path = (t, .ok ()) := by
  induction path generalizing loc with
  | nil => rfl
  | cons name rest ih =>
    rw [Location.descend_cons] at h
    have hfirst : t.isDir (loc.child name) = true := (t.isDir_iff _).mpr (t.dir_above _ rest h)
    have hmkdir : t.mkdir (loc.child name) = .ok t := by rw [mkdir, dif_pos hfirst]
    simp only [mkdirs, hmkdir]
    exact ih _ h

theorem createDirAll_of_dir (t : FileTree β) (loc : Location) (h : t.node loc = some .dir) :
    t.createDirAll loc = (t, .ok ()) := by
  apply mkdirs_of_dir
  simpa [Location.descend] using h

theorem mkdirs_grows (t : FileTree β) (loc : Location) (path : List Name) :
    t.Grows (t.mkdirs loc path).1 := by
  induction path generalizing t loc with
  | nil => exact .refl t
  | cons name rest ih =>
    simp only [mkdirs]
    split
    · rename_i mid hmid
      exact (mkdir_spec hmid).1.trans (ih mid _)
    · exact .refl t

/-- Also when it fails on the way. -/
theorem createDirAll_grows (t : FileTree β) (loc : Location) : t.Grows (t.createDirAll loc).1 :=
  t.mkdirs_grows _ _

/-- Nothing that exists outside the directory is changed. -/
def SameOutside (dir : Location) (t t' : FileTree β) : Prop :=
  ∀ loc : Location, ¬ loc.Within dir → (t.node loc).isSome = true → t'.node loc = t.node loc

theorem SameOutside.refl (dir : Location) (t : FileTree β) : SameOutside dir t t := fun _ _ _ => rfl

theorem SameOutside.trans {dir : Location} {t t' t'' : FileTree β} (h : SameOutside dir t t')
    (h' : SameOutside dir t' t'') : SameOutside dir t t'' := by
  intro loc hout hsome
  have hfirst := h loc hout hsome
  rw [h' loc hout (by rw [hfirst]; exact hsome), hfirst]

theorem Grows.sameOutside {t t' : FileTree β} (h : t.Grows t') (dir : Location) :
    SameOutside dir t t' := fun loc _ hsome => h loc hsome

/-- `fs::write`: create the file or replace its content. -/
def writeFile (t : FileTree β) (loc : Location) (content : List β) :
    Except FileError (FileTree β) :=
  if hdir : t.isDir loc = true then .error .isADirectory
  else if hparent : t.isDir loc.parent = true then
    .ok (t.put loc (.file content)
      (fun hnames => hdir ((t.isDir_iff loc).mpr (t.base loc hnames)))
      ((t.isDir_iff loc.parent).mp hparent)
      (fun heq => hdir ((t.isDir_iff loc).mpr heq)))
  else .error .notFound

/-- Open a file for appending, which creates it if it is absent. -/
def touch (t : FileTree β) (loc : Location) : Except FileError (FileTree β) :=
  if t.isDir loc then .error .isADirectory
  else if (t.node loc).isSome then .ok t
  else t.writeFile loc []

theorem writeFile_spec {t t' : FileTree β} {loc : Location} {content : List β}
    (h : t.writeFile loc content = .ok t') :
    ∀ other, t'.node other = if other = loc then some (.file content) else t.node other := by
  unfold writeFile at h
  split at h
  · cases h
  split at h
  · cases h
    intro other
    rw [put_node]
  · cases h

theorem writeFile_sameOutside {dir loc : Location} (hloc : loc.Within dir) {t t' : FileTree β}
    {content : List β} (h : t.writeFile loc content = .ok t') : SameOutside dir t t' := by
  intro other hout _
  rw [writeFile_spec h, if_neg]
  rintro rfl
  exact hout hloc

theorem touch_spec {t t' : FileTree β} {loc : Location} (h : t.touch loc = .ok t') :
    t.Grows t' ∧ (t'.node loc).isSome = true ∧ ((t.node loc).isSome = true → t' = t) := by
  unfold touch at h
  split at h
  · cases h
  split at h
  · rename_i hsome
    cases h
    exact ⟨.refl t, hsome, fun _ => rfl⟩
  · rename_i hnone
    have hnode := writeFile_spec h
    refine ⟨?_, ?_, fun hsome => absurd hsome hnone⟩
    · intro other hother
      rw [hnode other, if_neg]
      rintro rfl
      exact hnone hother
    · rw [hnode loc, if_pos rfl]
      rfl

/-- The way to the location passes a file. -/
def belowFile (t : FileTree β) (loc : Location) : Bool :=
  loc.names.inits.any (fun front =>
    match t.node { loc with names := front } with
    | some (.file _) => true
    | _ => false)

/-- Open a file and read all of it. -/
def readFile (t : FileTree β) (loc : Location) : Except FileError (List β) :=
  match t.node loc with
  | some (.file content) => .ok content
  | some .dir => .error .isADirectory
  | none => .error (if t.belowFile loc then .notADirectory else .notFound)

end FileTree
