import ExecgoRuntime.Lib.LossyUtf8
import ExecgoRuntime.Results
import ExecgoRuntime.SubmissionOrigins

/-!
What a status shows of the output of a task. `read_output_preview` reads the head of
the file with a single `read` and makes a text of it. A client sees every character
whose bytes are within the limit of the request and within what one `read` returns,
one replacement character if the next one is cut, and the flag exactly if the file is
longer than the limit. Bytes that are not UTF-8 spoil no character that is behind
them.
-/
namespace ExecgoRuntime

open LexicalPath LossyUtf8

/-- `String::from_utf8_lossy` for the output, with any serialiser for the snapshots. -/
def utf8Codec (encodeStatus : TaskStatusResponse → List UInt8) : Codec UInt8 where
  decodeText bytes := String.ofList (lossy bytes)
  encodeStatus := encodeStatus

/-- The preview shows the longest part of a text that is within the window, behind what it
shows of the bytes before the text. -/
def ShowsText (window : ℕ) (content : List UInt8) (preview : String) : Prop :=
  ∀ before text, content = before ++ encode text → before.length ≤ window →
    ∃ shown rest, text = shown ++ rest ∧ before.length + (encode shown).length ≤ window ∧
      (∀ c rest', rest = c :: rest' → window < before.length + (encode (shown ++ [c])).length) ∧
      preview = String.ofList (lossy before ++ (shown ++
        if before.length + (encode shown).length < min window content.length then [replacement]
        else []))

/-- The flag tells a file that is longer than the limit. The text is shown up to the limit,
or up to what one `read` returns if that is less. -/
structure Shown (limit : ℕ) (content : List UInt8) (preview : String) (truncated : Bool) :
    Prop where
  truncated : truncated = true ↔ limit < content.length
  text : ShowsText (min limit maxReadBytes) content preview

theorem showsText_take (window : ℕ) (content : List UInt8) :
    ShowsText window content (String.ofList (lossy (content.take window))) := by
  intro before text hcontent hbefore
  have htake : content.take window = before ++ (encode text).take (window - before.length) := by
    rw [hcontent, List.take_append, List.take_of_length_le hbefore]
  have hfits := length_encode_fitting_le (window - before.length) text
  obtain ⟨rest, hrest⟩ := fitting_prefix (window - before.length) text
  refine ⟨fitting (window - before.length) text, rest, hrest.symm, by omega, ?_, ?_⟩
  · intro c rest' hnext
    have hroom := room_lt_of_fitting (hnext ▸ hrest.symm)
    omega
  · have hcut : cut (window - before.length) text = decide (before.length +
        (encode (fitting (window - before.length) text)).length <
          min window content.length) := by
      rw [cut, decide_eq_decide, hcontent, List.length_append]
      omega
    rw [htake, lossy_append_take, hcut]
    simp only [decide_eq_true_iff]

theorem shown_take (limit : ℕ) (content : List UInt8) :
    Shown limit content (String.ofList (lossy (content.take (min limit maxReadBytes))))
      (decide (limit < content.length)) where
  truncated := decide_eq_true_iff
  text := showsText_take _ content

/-- What is shown of the file at a path. -/
def ShowsFile (files : FileTree UInt8) (path : String) (limit : ℕ) (preview : String)
    (truncated : Bool) : Prop :=
  match files.readFile (resolvePath path) with
  | .ok content => Shown limit content preview truncated
  | .error .notFound => preview = "" ∧ truncated = false
  | .error _ => False

theorem shows_of_readOutputPreview {encodeStatus : TaskStatusResponse → List UInt8}
    {files : FileTree UInt8} {path : String} {limit : ℕ} {preview : String} {truncated : Bool}
    (h : (utf8Codec encodeStatus).readOutputPreview files path limit = .ok (preview, truncated)) :
    ShowsFile files path limit preview truncated := by
  unfold Codec.readOutputPreview at h
  unfold ShowsFile
  split at h
  · rename_i content hread
    rw [hread]
    cases h
    exact shown_take limit content
  · rename_i hread
    rw [hread]
    cases h
    exact ⟨rfl, rfl⟩
  · cases h

theorem shows_of_buildStatusResponse {encodeStatus : TaskStatusResponse → List UInt8}
    {now : Timestamp} {files : FileTree UInt8} {row : TaskRecord} {response : TaskStatusResponse}
    (h : (utf8Codec encodeStatus).buildStatusResponse now files row = .ok response) :
    ShowsFile files row.stdoutPath row.stdoutMaxBytes response.stdout response.stdoutTruncated ∧
      ShowsFile files row.stderrPath row.stderrMaxBytes response.stderr
        response.stderrTruncated := by
  simp only [Codec.buildStatusResponse, bind, Except.bind] at h
  split at h
  · cases h
  rename_i hout
  split at h
  · cases h
  rename_i herr
  cases h
  exact ⟨shows_of_readOutputPreview hout, shows_of_readOutputPreview herr⟩

/-- The columns of the limits repeat those of the request. -/
def TaskRecord.OutputLimits (row : TaskRecord) : Prop :=
  row.stdoutMaxBytes = row.limits.stdoutMaxBytes ∧ row.stderrMaxBytes = row.limits.stderrMaxBytes

namespace World

variable {svc : RuntimeService}

theorem outputLimits_of_run {trace : List (World × Event)} {last : World}
    (hrun : Run svc init trace last) {taskId : TaskId} {row : TaskRecord}
    (hrow : last.db.tasks.find taskId = some row) : row.OutputLimits := by
  have hall : last.db.EachTask (fun row _ => row.OutputLimits) := by
    refine hrun.invariant (I := fun w => w.db.EachTask (fun row _ => row.OutputLimits))
      (G := fun _ _ => True) (Db.eachTask_empty _) ?_ (fun _ _ => trivial)
    intro w e w' hinv _ hstep taskId row' hrow'
    cases step_origin hstep hrow' with
    | inserted new _ _ _ hnew _ =>
      rw [hnew]
      exact ⟨rfl, rfl⟩
    | kept hrow _ _ => exact hinv taskId row' hrow
    | written write row _ hrow heffect _ =>
      obtain ⟨hout, herr⟩ := hinv taskId row hrow
      have hsame := write.effect_sameSubmission e.now row
      rw [heffect]
      exact ⟨by rw [hsame.stdoutMaxBytes, hsame.limits, hout],
        by rw [hsame.stderrMaxBytes, hsame.limits, herr]⟩
  exact hall taskId row hrow

/-- In every state of a run a status that is built for a task shows its two output files
up to the limits of its request, as far as one `read` gets. -/
theorem status_shows_output {encodeStatus : TaskStatusResponse → List UInt8}
    {trace : List (World × Event)} {last : World} (hrun : Run svc init trace last)
    {taskId : TaskId} {row : TaskRecord} (hrow : last.db.tasks.find taskId = some row)
    {now : Timestamp} {files : FileTree UInt8} {response : TaskStatusResponse}
    (hbuild : (utf8Codec encodeStatus).buildStatusResponse now files row = .ok response) :
    ShowsFile files row.stdoutPath row.limits.stdoutMaxBytes response.stdout
        response.stdoutTruncated ∧
      ShowsFile files row.stderrPath row.limits.stderrMaxBytes response.stderr
        response.stderrTruncated := by
  obtain ⟨hout, herr⟩ := outputLimits_of_run hrun hrow
  rw [← hout, ← herr]
  exact shows_of_buildStatusResponse hbuild

private def fiveBytes : SubmitTaskRequest :=
  { commandRequest "a" with limits := { (commandRequest "a").limits with stdoutMaxBytes := 5 } }

/-- A byte that is not UTF-8, and a text of six bytes. -/
private def mixedOutput : FileTree UInt8 :=
  (FileWork.writeJsonFile "/data/tasks/a/stdout.log" (0xFF :: encode ['a', 'é', '日'])
    FileTree.empty).1

/-- The limit cuts the last character of the text. -/
theorem status_shows_output_of_cut :
    ∃ trace last row response, Run (smallService ⟨1, none, none⟩) init trace last ∧
      last.db.tasks.find "a" = some row ∧
      (utf8Codec fun _ => []).buildStatusResponse 0 mixedOutput row = .ok response ∧
      (response.stdout = "\uFFFDaé\uFFFD" ∧ response.stdoutTruncated = true) ∧
      ShowsFile mixedOutput row.stdoutPath row.limits.stdoutMaxBytes response.stdout
        response.stdoutTruncated ∧
      ShowsFile mixedOutput row.stderrPath row.limits.stderrMaxBytes response.stderr
        response.stderrTruncated := by
  have hexec : (execute (smallService ⟨1, none, none⟩) (fun _ _ => true)
      (events (submitActions 0 fiveBytes))).any (fun w => (w.db.tasks.find "a").any (fun row =>
        match (utf8Codec fun _ => []).buildStatusResponse 0 mixedOutput row with
        | .ok response =>
          decide (response.stdout = "\uFFFDaé\uFFFD" ∧ response.stdoutTruncated = true)
        | .error _ => false)) = true := by
    decide +kernel
  obtain ⟨trace, last, hrun, _, _, htest⟩ := Runs.exists_run_of_exec hexec
  obtain ⟨row, hrow, hshown⟩ := (Option.any_eq_true _ _).mp htest
  split at hshown
  · rename_i response hbuild
    exact ⟨trace, last, row, response, hrun, hrow, hbuild, of_decide_eq_true hshown,
      status_shows_output hrun hrow hbuild⟩
  · cases hshown

end World

end ExecgoRuntime
