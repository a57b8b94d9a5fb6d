import ExecgoRuntime.Lib.Decoding
import ExecgoRuntime.Removal
import ExecgoRuntime.RequestBody

/-!
A request on its way through the command line client. The client decodes what it is
given and sends what it decoded, so the server never sees the document itself. Both
use the decoder that serde derives, the client on a whole text, the extractor of the
server on the beginning of a body of limited size. Neither is bound to the form in
which requests are written. What they decode is a value of the type in any case, and
this is all that the way from one to the other needs.
-/
namespace ExecgoRuntime

open Serde

theorem exact_entries : (Slot.defaulted [] (.map .string : JsonCodec _)).Exact :=
  Slot.exact_defaulted Codec.exact_string.map (metadataCodec_valid List.nodup_nil)

theorem exact_words {default : ℕ} (h : default ≤ u64Max) :
    (Slot.defaulted default (.word : JsonCodec ℕ)).Exact := Slot.exact_defaulted Codec.exact_word h

theorem ExecutionSpec.exact_codec : ExecutionSpec.codec.Exact := by
  intro v spec h
  obtain ⟨_, _, h⟩ := Shape.of_decode_codec h
  obtain ⟨_, _, _, h, -, hread, henv⟩ := Shape.of_read_field h
  obtain ⟨_, _, _, h, -, -, hinterpreter⟩ := Shape.of_read_field h
  obtain ⟨_, _, _, h, -, -, hscript⟩ := Shape.of_read_field h
  obtain ⟨_, _, _, h, -, -, hargs⟩ := Shape.of_read_field h
  obtain ⟨_, _, _, h, -, -, hprogram⟩ := Shape.of_read_field h
  obtain ⟨_, _, _, h, -, -, hkind⟩ := Shape.of_read_field h
  cases h
  subst hkind hprogram hargs hscript hinterpreter henv
  exact valid_codec (exact_entries _ _ hread).1

theorem ResourceLimits.exact_codec : ResourceLimits.codec.Exact := by
  intro v limits h
  obtain ⟨_, _, h⟩ := Shape.of_decode_codec h
  obtain ⟨_, _, _, h, -, herr, hstderr⟩ := Shape.of_read_field h
  obtain ⟨_, _, _, h, -, hout, hstdout⟩ := Shape.of_read_field h
  obtain ⟨_, _, _, h, -, hpids, hpidsMax⟩ := Shape.of_read_field h
  obtain ⟨_, _, _, h, -, hbytes, hmemory⟩ := Shape.of_read_field h
  obtain ⟨_, _, _, h, -, hsecs, hcpu⟩ := Shape.of_read_field h
  obtain ⟨_, _, _, h, -, hms, hwall⟩ := Shape.of_read_field h
  cases h
  subst hwall hcpu hmemory hpidsMax hstdout hstderr
  have hoptional : (Slot.optional (.word : JsonCodec ℕ)).Exact :=
    Slot.exact_optional Codec.exact_word
  exact valid_codec ⟨exact_words (by decide) _ _ hms, hoptional _ _ hsecs, hoptional _ _ hbytes,
    hoptional _ _ hpids, exact_words (by decide) _ _ hout, exact_words (by decide) _ _ herr⟩

theorem ControlContext.exact_codec : ControlContext.codec.Exact := by
  intro v context h
  obtain ⟨_, _, h⟩ := Shape.of_decode_codec h
  obtain ⟨_, _, _, h, -, hread, hlabels⟩ := Shape.of_read_field h
  obtain ⟨_, _, _, h, -, -, hreservation⟩ := Shape.of_read_field h
  obtain ⟨_, _, _, h, -, -, hsandbox⟩ := Shape.of_read_field h
  obtain ⟨_, _, _, h, -, -, hprofile⟩ := Shape.of_read_field h
  obtain ⟨_, _, _, h, -, -, howner⟩ := Shape.of_read_field h
  obtain ⟨_, _, _, h, -, -, htenant⟩ := Shape.of_read_field h
  obtain ⟨_, _, _, h, -, -, hmode⟩ := Shape.of_read_field h
  cases h
  subst hmode htenant howner hprofile hsandbox hreservation hlabels
  have hexact := Slot.exact_omittedEmpty Codec.exact_string.map (metadataCodec_valid List.nodup_nil)
  exact valid_codec (hexact _ _ hread).1

theorem TaskPolicy.valid_codec (policy : TaskPolicy) : TaskPolicy.codec.Valid policy := by
  simp [TaskPolicy.codec, CapabilityMode.codec]

theorem SubmitTaskRequest.exact_codec : SubmitTaskRequest.codec.Exact := by
  intro v request h
  obtain ⟨_, _, h⟩ := Shape.of_decode_codec h
  obtain ⟨_, _, _, h, -, hentries, hmetadata⟩ := Shape.of_read_field h
  obtain ⟨_, _, _, h, -, hcontext, hcontrol⟩ := Shape.of_read_field h
  obtain ⟨_, _, _, h, -, -, hpolicy⟩ := Shape.of_read_field h
  obtain ⟨_, _, _, h, -, -, hsandbox⟩ := Shape.of_read_field h
  obtain ⟨_, _, _, h, -, hwords, hlimits⟩ := Shape.of_read_field h
  obtain ⟨_, _, _, h, -, hspec, hexecution⟩ := Shape.of_read_field h
  obtain ⟨_, _, _, h, -, -, hid⟩ := Shape.of_read_field h
  cases h
  subst hid hexecution hlimits hsandbox hpolicy hcontrol hmetadata
  have hwordsDefault : ResourceLimits.Words {} := by
    unfold ResourceLimits.Words
    decide
  have hexecution := Slot.exact_required ExecutionSpec.exact_codec _ _ hspec
  have hlimits := Slot.exact_defaulted ResourceLimits.exact_codec
    (ResourceLimits.valid_codec hwordsDefault) _ _ hwords
  have hcontext := Slot.exact_optional ControlContext.exact_codec _ _ hcontext
  have hmetadata := exact_entries _ _ hentries
  refine ⟨⟨⟨⟨⟨⟨⟨trivial, fun _ _ => trivial⟩, hexecution⟩, hlimits⟩, ?_⟩, ?_⟩, hcontext⟩,
    hmetadata⟩
  · exact SandboxPolicy.valid_codec _
  · exact fun policy _ => TaskPolicy.valid_codec policy

/-- `serde_json` as a reader of requests. It reads every request in the form of the
codec, and it may read other documents: records as arrays, or text with more text
behind it. -/
structure RequestReader (text : JsonText) where
  read : String → Option SubmitTaskRequest
  complaint : String → String
  reads : ∀ raw request, (text.ofText raw).bind SubmitTaskRequest.codec.decode = some request →
    read raw = some request
  valid : ∀ raw request, read raw = some request → SubmitTaskRequest.codec.Valid request

/-- Why the extractor of `create_task` rejects a body. -/
inductive BodyRejection
  | tooLarge
  | unreadable (complaint : String)
  deriving DecidableEq

/-- The default limit of the extractor, in bytes. -/
def bodyLimit : ℕ := 2 * 1024 * 1024

namespace RequestReader

variable {text : JsonText}

/-- The reader that reads nothing but the form of the codec. -/
def ofCodec (text : JsonText) (complaint : String → String) : RequestReader text where
  read raw := (text.ofText raw).bind SubmitTaskRequest.codec.decode
  complaint := complaint
  reads _ _ h := h
  valid _ request h := by
    obtain ⟨v, _, hdecode⟩ := Option.bind_eq_some_iff.mp h
    exact SubmitTaskRequest.exact_codec v request hdecode

/-- `Json`, the extractor of `create_task`. -/
def extract (server : RequestReader text) (body : String) :
    Except BodyRejection SubmitTaskRequest :=
  if bodyLimit < body.utf8ByteSize then .error .tooLarge
  else
    match server.read body with
    | some request => .ok request
    | none => .error (.unreadable (server.complaint body))

/-- A valid request is read again from its own text. -/
theorem read_toJson (server : RequestReader text) (htext : text.Lossless)
    {request : SubmitTaskRequest} (hvalid : SubmitTaskRequest.codec.Valid request) :
    server.read (text.toJson SubmitTaskRequest.codec request) = some request := by
  apply server.reads
  have hread := htext _ ((SubmitTaskRequest.codec.within request hvalid).mono (by decide))
  rw [JsonText.toJson, hread]
  exact SubmitTaskRequest.codec.decode_encode request hvalid

end RequestReader

/-- The arguments of `submit`, `wait` and `run` but for the address of the server and
the time between two polls. -/
structure RemoteTaskArgs where
  file : Option String := none
  json : Option String := none
  timeoutMs : Option ℕ := none

/-- An id that stands in an address as it is: nothing of it is white space, no part of
a path is meant by it, and a directory can have it as its name. -/
structure BareId (taskId : TaskId) : Prop where
  plain : PlainId taskId
  bare : trim taskId = taskId.toList
  short : taskId.utf8ByteSize ≤ 255

/-- What the client finds on its host: its files and its parser. A task is asked for
at an address that its id is a part of, and `routed` is the id that the server finds
there, if the address leads to a task at all. -/
structure ClientHost where
  text : JsonText
  reader : RequestReader text
  readToString : String → AppResult String
  routed : TaskId → Option TaskId
  routed_bare : ∀ taskId, BareId taskId → routed taskId = some taskId

namespace ClientHost

variable (host : ClientHost)

/-- What `load_request` reads, `--file` before `--json`. -/
def document (args : RemoteTaskArgs) : AppResult String :=
  (args.file.map host.readToString).getD (.ok (args.json.getD ""))

def loadRequest (args : RemoteTaskArgs) : AppResult SubmitTaskRequest := do
  let raw ← host.document args
  match host.reader.read raw with
  | some request => .ok request
  | none => .error (.json (host.reader.complaint raw))

/-- The body of the client's request. -/
def body (request : SubmitTaskRequest) : String := host.text.toJson SubmitTaskRequest.codec request

theorem of_loadRequest {host : ClientHost} {args : RemoteTaskArgs} {request : SubmitTaskRequest}
    (h : host.loadRequest args = .ok request) : ∃ raw, host.reader.read raw = some request := by
  simp only [loadRequest, bind, Except.bind] at h
  split at h
  · cases h
  · rename_i raw _
    split at h
    · rename_i found hfound
      cases h
      exact ⟨raw, hfound⟩
    · cases h

/-- The server reads what the client read, whatever document that was. -/
theorem extract_body {host : ClientHost} (server : RequestReader host.text)
    (htext : host.text.Lossless) {args : RemoteTaskArgs} {request : SubmitTaskRequest}
    (h : host.loadRequest args = .ok request) :
    server.extract (host.body request) =
      if bodyLimit < (host.body request).utf8ByteSize then .error .tooLarge else .ok request := by
  obtain ⟨raw, hraw⟩ := of_loadRequest h
  have hread := server.read_toJson htext (host.reader.valid raw request hraw)
  rw [RequestReader.extract, body, hread]

/-- The client makes no difference. Whatever request it decoded, the server decodes the
same one from the body that the client sends, unless this is too large; and from a
document in the form of the codec the client decodes what the server would have
decoded from the document. -/
theorem relay_transparent {host : ClientHost} (server : RequestReader host.text)
    (htext : host.text.Lossless) (args : RemoteTaskArgs) :
    (∀ request, host.loadRequest args = .ok request →
      server.extract (host.body request) =
        if bodyLimit < (host.body request).utf8ByteSize then .error .tooLarge
        else .ok request) ∧
    ∀ raw request, host.document args = .ok raw →
      (host.text.ofText raw).bind SubmitTaskRequest.codec.decode = some request →
      host.loadRequest args = .ok request ∧ server.read raw = some request := by
  refine ⟨fun request h => extract_body server htext h, fun raw request hraw hdecode => ?_⟩
  refine ⟨?_, server.reads raw request hdecode⟩
  rw [loadRequest, hraw]
  simp only [bind, Except.bind, host.reader.reads raw request hdecode]

/-- A client without files. Its addresses lose the white space around an id, and two
ids do not lead to a task. -/
def plain : ClientHost where
  text := .compact
  reader := .ofCodec .compact (fun raw => "invalid request: " ++ raw)
  readToString path := .error (.io ("not found: " ++ path))
  routed taskId :=
    if taskId = "." ∨ taskId = ".." then none else some (String.ofList (trim taskId))
  routed_bare taskId h := by
    rw [if_neg (not_or.mpr ⟨h.plain.not_dot, h.plain.not_dots⟩), h.bare, String.ofList_toList]

/-- A document with a member that no record has, and the defaults left out. -/
def sparseDocument : String :=
  "\x7b\"task_id\":\"a\",\"note\":[],\"execution\":" ++
    "\x7b\"kind\":\"command\",\"program\":\"true\"\x7d\x7d"

theorem loadRequest_sparseDocument :
    plain.loadRequest { json := some sparseDocument } = .ok (commandRequest "a") := rfl

/-- A server of the codec. -/
def plainServer : RequestReader plain.text := .ofCodec _ (fun _ => "422 Unprocessable Entity")

theorem relay_transparent_of_defaults :
    plain.text.Lossless ∧ plain.body (commandRequest "a") ≠ sparseDocument ∧
      plain.document { json := some sparseDocument } = .ok sparseDocument ∧
      plain.loadRequest { json := some sparseDocument } = .ok (commandRequest "a") ∧
      plainServer.extract (plain.body (commandRequest "a")) = .ok (commandRequest "a") ∧
      plainServer.read sparseDocument = some (commandRequest "a") := by
  obtain ⟨hextract, hread⟩ := relay_transparent plainServer JsonText.compact_lossless
    { json := some sparseDocument }
  have hbody := hextract _ loadRequest_sparseDocument
  rw [if_neg (by decide +kernel)] at hbody
  exact ⟨JsonText.compact_lossless, by decide +kernel, rfl, loadRequest_sparseDocument, hbody,
    (hread sparseDocument _ rfl rfl).2⟩

end ClientHost

end ExecgoRuntime
