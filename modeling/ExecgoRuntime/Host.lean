import ExecgoRuntime.Lib.FileTree
import ExecgoRuntime.TaskPaths

/-!
The disk of the host next to the database, and the file helpers of the server
(`runtime.rs`): `create_dir_all`, `write_json_file` and `touch_file` on a path.
A helper that fails keeps what it did before, so each is a function to a tree
and a result. What a serialiser or a decoder makes of a value is a parameter of
those who use one.
-/
namespace ExecgoRuntime

open LexicalPath

/-- What the server works on. -/
structure Host (β : Type) where
  db : Db
  files : FileTree β

def AppError.isIo : AppError → Bool
  | .io _ => true
  | _ => false

/-- A piece of file work; it ends at the first error. -/
abbrev FileWork (β : Type) := FileTree β → FileTree β × AppResult Unit

namespace FileWork

variable {β : Type}

def andThen (a b : FileWork β) : FileWork β := fun files =>
  match a files with
  | (files', .ok ()) => b files'
  | (files', .error e) => (files', .error e)

def ofResult (files : FileTree β) : Except FileError (FileTree β) → FileTree β × AppResult Unit
  | .ok files' => (files', .ok ())
  | .error e => (files, .error (.io e.message))

def createDirAll (loc : Location) : FileWork β := fun files =>
  match files.createDirAll loc with
  | (files', .ok ()) => (files', .ok ())
  | (files', .error e) => (files', .error (.io e.message))

/-- `write_json_file` of a value that is serialised to `content`. -/
def writeJsonFile (path : String) (content : List β) : FileWork β :=
  (createDirAll (resolvePath path).parent).andThen
    (fun files => ofResult files (files.writeFile (resolvePath path) content))

def touchFile (path : String) : FileWork β :=
  (createDirAll (resolvePath path).parent).andThen
    (fun files => ofResult files (files.touch (resolvePath path)))

theorem andThen_ok {a b : FileWork β} {files files' : FileTree β}
    (h : a.andThen b files = (files', .ok ())) :
    ∃ mid, a files = (mid, .ok ()) ∧ b mid = (files', .ok ()) := by
  unfold andThen at h
  split at h
  · rename_i mid hmid
    exact ⟨mid, hmid, h⟩
  · cases h

theorem createDirAll_ok {loc : Location} {files files' : FileTree β}
    (h : createDirAll loc files = (files', .ok ())) :
    files.createDirAll loc = (files', .ok ()) := by
  unfold createDirAll at h
  split at h
  · rename_i hmid
    cases h
    exact hmid
  · cases h

theorem ofResult_ok {files files' : FileTree β} {result : Except FileError (FileTree β)}
    (h : ofResult files result = (files', .ok ())) : result = .ok files' := by
  cases result with
  | ok mid =>
    cases h
    rfl
  | error e => cases h

/-- A file that has been written, and everything else as it was. -/
theorem writeJsonFile_ok {path : String} {content : List β} {files files' : FileTree β}
    (h : writeJsonFile path content files = (files', .ok ())) :
    ∃ mid, files.Grows mid ∧ mid.node (resolvePath path) ≠ some .dir ∧
      (files.node (resolvePath path).parent = some .dir → mid = files) ∧
      ∀ loc, files'.node loc =
        if loc = resolvePath path then some (.file content) else mid.node loc := by
  obtain ⟨mid, hdir, hwrite⟩ := andThen_ok h
  have hdir' := createDirAll_ok hdir
  have hwrite' := ofResult_ok hwrite
  refine ⟨mid, (FileTree.createDirAll_spec hdir').1, ?_, ?_, FileTree.writeFile_spec hwrite'⟩
  · intro hisdir
    unfold FileTree.writeFile at hwrite'
    rw [dif_pos ((mid.isDir_iff _).mpr hisdir)] at hwrite'
    cases hwrite'
  · intro hparent
    rw [FileTree.createDirAll_of_dir files _ hparent] at hdir'
    exact (congrArg Prod.fst hdir').symm

theorem touchFile_ok {path : String} {files files' : FileTree β}
    (h : touchFile path files = (files', .ok ())) :
    files.Grows files' ∧ (files'.node (resolvePath path)).isSome = true ∧
      (files.node (resolvePath path).parent = some .dir →
        (files.node (resolvePath path)).isSome = true → files' = files) := by
  obtain ⟨mid, hdir, htouch⟩ := andThen_ok h
  have hdir' := createDirAll_ok hdir
  obtain ⟨hgrows, hsome, hsame⟩ := FileTree.touch_spec (ofResult_ok htouch)
  refine ⟨(FileTree.createDirAll_spec hdir').1.trans hgrows, hsome, ?_⟩
  intro hparent hold
  rw [FileTree.createDirAll_of_dir files _ hparent] at hdir'
  have hmid : files = mid := congrArg Prod.fst hdir'
  subst hmid
  exact hsame hold

def FailsWithIo (work : FileWork β) : Prop :=
  ∀ files files' e, work files = (files', .error e) → e.isIo = true

theorem FailsWithIo.andThen {a b : FileWork β} (ha : a.FailsWithIo) (hb : b.FailsWithIo) :
    (a.andThen b).FailsWithIo := by
  intro files files' e h
  unfold FileWork.andThen at h
  split at h
  · exact hb _ _ _ h
  · rename_i hfirst
    cases h
    exact ha _ _ _ hfirst

theorem createDirAll_failsWithIo (loc : Location) :
    (createDirAll loc : FileWork β).FailsWithIo := by
  intro files files' e h
  unfold createDirAll at h
  split at h
  · cases h
  · cases h
    rfl

theorem ofResult_failsWithIo {files files' : FileTree β} {result : Except FileError (FileTree β)}
    {e : AppError} (h : ofResult files result = (files', .error e)) : e.isIo = true := by
  cases result with
  | ok mid => cases h
  | error failed =>
    cases h
    rfl

theorem writeJsonFile_failsWithIo (path : String) (content : List β) :
    (writeJsonFile path content).FailsWithIo :=
  (createDirAll_failsWithIo _).andThen (fun _ _ _ h => ofResult_failsWithIo h)

theorem touchFile_failsWithIo (path : String) : (touchFile path : FileWork β).FailsWithIo :=
  (createDirAll_failsWithIo _).andThen (fun _ _ _ h => ofResult_failsWithIo h)

end FileWork

end ExecgoRuntime
