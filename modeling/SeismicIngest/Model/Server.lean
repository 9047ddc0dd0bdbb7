import SeismicIngest.Model.Requests
import SeismicIngest.Model.Service
import SeismicIngest.Text.Json

/-! # The HTTP server

`app/main.py` and the bodies of `app/errors.py` and `app/schemas.py`: every route with
the checks in front of the service, the two exception handlers, and the responses.

A request arrives converted: its integers are integers, and one that the framework could
not convert is `malformed`.  `Framework` holds what the framework and the runtime
contribute to a response.  The bodies print integers of any size: those of a response are
stored ones, or came with the request, and the framework converts no integer of more than
4300 digits.
-/

namespace SeismicIngest

open Transaction Text

/-! ## Bodies -/

def ErrorCode.text : ErrorCode → String
  | .sessionNotFound => "session_not_found"
  | .wholeDigestMismatch => "whole_digest_mismatch"
  | .invalidOffset => "invalid_offset"
  | .invalidLength => "invalid_length"
  | .lengthMismatch => "length_mismatch"
  | .chunkDigestMismatch => "chunk_digest_mismatch"
  | .chunkBeyondTotal => "chunk_beyond_total"
  | .staleOffset => "stale_offset"
  | .sessionFailedTerminal => "session_failed_terminal"
  | .sealedContentConflict => "sealed_content_conflict"
  | .sessionSealed => "session_sealed"
  | .auditWriteFailed => "audit_write_failed"
  | .sealedIntegrityError => "sealed_integrity_error"
  | .invalidTargetChunkBytes => "invalid_target_chunk_bytes"
  | .compactionStateConflict => "compaction_state_conflict"
  | .compactionIntegrityError => "compaction_integrity_error"
  | .comparisonStateConflict => "comparison_state_conflict"
  | .comparisonIntegrityError => "comparison_integrity_error"
  | .comparisonNotFound => "comparison_not_found"
  | .invalidStatus => "invalid_status"
  | .notSealed => "not_sealed"
  | .invalidRange => "invalid_range"
  | .rangeNotSatisfiable => "range_not_satisfiable"
  | .invalidDigest => "invalid_digest"
  | .chunkTooLarge => "chunk_too_large"
  | .validationError => "validation_error"

def Conclusion.text : Conclusion → String
  | .identical => "identical"
  | .contentDiffers => "content_differs"
  | .lengthDiffers => "length_differs"

def AuditKind.text : AuditKind → String
  | .sealed => "sealed"
  | .compacted => "compacted"

def jsonText? : Option String → Json
  | some value => .string value
  | none => .null

def jsonInt? : Option Int → Json
  | some value => .int value
  | none => .null

def Detail.toJson : Detail → Json
  | .int value => .int value
  | .text value => .string value
  | .texts values => .array (values.map .string)
  | .null => .null

/-- `loc` in `UploadError.to_body`: what is `None` is left out. -/
def UploadError.location (error : UploadError) : List (String × Json) :=
  (error.offset.map fun value => ("offset", Json.int value)).toList ++
    (error.expectedOffset.map fun value => ("expected_offset", Json.int value)).toList ++
    (error.digest.map fun value => ("digest", Json.string value)).toList ++
    (error.expectedDigest.map fun value => ("expected_digest", Json.string value)).toList

/-- A field that an empty object leaves out. -/
def unlessEmpty (name : String) (fields : List (String × Json)) : List (String × Json) :=
  if fields.isEmpty then [] else [(name, .object fields)]

/-- `UploadError.to_body`. -/
def UploadError.toBody (error : UploadError) : Json :=
  .object [("error", .object
    ([("code", .string error.code.text), ("message", .string error.message)] ++
      unlessEmpty "location" error.location ++
      unlessEmpty "details" (error.details.map fun (name, detail) => (name, detail.toJson))))]

def SessionResponse.toJson (body : SessionResponse) : Json :=
  .object [("id", .string body.id), ("total_bytes", .int body.totalBytes),
    ("whole_sha256", .string body.wholeSha256), ("confirmed_offset", .int body.confirmedOffset),
    ("status", .string body.status.text), ("computed_sha256", jsonText? body.computedSha256),
    ("failure_reason", jsonText? body.failureReason)]

/-- `ChunkAck`. -/
def Ack.toJson (body : Ack) : Json :=
  .object [("id", .string body.id), ("status", .string body.status.text),
    ("start_offset", .int body.startOffset), ("length", .int body.length),
    ("chunk_sha256", .string body.chunkSha256), ("confirmed_offset", .int body.confirmedOffset),
    ("expected_offset", .int body.expectedOffset), ("total_bytes", .int body.totalBytes),
    ("idempotent_replay", .bool body.idempotentReplay)]

/-- `ChunkInfo`. -/
def LayoutRow.toJson (row : LayoutRow) : Json :=
  .object [("start_offset", .int row.startOffset), ("end_offset", .int row.endOffset),
    ("length", .int row.length), ("sha256", .string row.sha256)]

/-- `CompactResponse`. -/
def CompactResult.toJson (body : CompactResult) : Json :=
  .object [("id", .string body.id), ("status", .string body.status.text),
    ("target_chunk_bytes", .int body.targetChunkBytes), ("chunks_before", .int body.chunksBefore),
    ("chunks_after", .int body.chunksAfter), ("total_bytes_before", .int body.totalBytesBefore),
    ("total_bytes_after", .int body.totalBytesAfter), ("whole_sha256", .string body.wholeSha256),
    ("chunks", .array (body.chunks.map LayoutRow.toJson))]

def ChunkListing.toJson (body : ChunkListing) : Json :=
  .object [("id", .string body.id), ("status", .string body.status.text),
    ("confirmed_offset", .int body.confirmedOffset), ("total_bytes", .int body.totalBytes),
    ("chunks", .array (body.chunks.map LayoutRow.toJson))]

/-- `AuditEventResponse`. -/
def AuditEvent.toJson (isoformat : Nat → String) (event : AuditEvent) : Json :=
  .object [("sequence", .int event.sequence), ("event", .string event.event.text),
    ("occurred_at", .string (isoformat event.occurredAt)), ("total_bytes", .int event.totalBytes),
    ("whole_sha256", .string event.wholeSha256), ("target_chunk_bytes", jsonInt? event.targetChunkBytes),
    ("chunks_before", jsonInt? event.chunksBefore), ("chunks_after", jsonInt? event.chunksAfter)]

/-- `ComparisonResponse`. -/
def Comparison.toJson (isoformat : Nat → String) (record : Comparison) : Json :=
  .object [("id", .string record.id), ("baseline_session_id", .string record.baselineSessionId),
    ("candidate_session_id", .string record.candidateSessionId),
    ("baseline_total_bytes", .int record.baselineTotalBytes),
    ("baseline_whole_sha256", .string record.baselineWholeSha256),
    ("candidate_total_bytes", .int record.candidateTotalBytes),
    ("candidate_whole_sha256", .string record.candidateWholeSha256),
    ("common_prefix_bytes", .int record.commonPrefixBytes),
    ("first_difference_offset", jsonInt? record.firstDifferenceOffset),
    ("conclusion", .string record.conclusion.text),
    ("created_at", .string (isoformat record.createdAt))]

/-! ## Responses -/

inductive Body where
  | text (content : List Char)
  | bytes (content : Bytes)

/-- The headers that the framework adds to every response are left out. -/
structure Response where
  statusCode : Nat
  headers : List (String × String)
  body : Body

def jsonResponse (statusCode : Nat) (document : Json) : Response :=
  ⟨statusCode, [], .text document.write⟩

/-- `_upload_error_handler`. -/
def uploadErrorHandler (error : UploadError) : Response :=
  ⟨error.statusCode, error.headers, .text error.toBody.write⟩

/-- The body of `_validation_handler`: one entry for each named location, and the
    framework's own report. -/
def validationResponse (report : Json) (names : List String) : Response :=
  let locations := (names.filter fun name => name ≠ "").map fun name =>
    Json.object [("field", .string (reportedField name))]
  jsonResponse 422 (.object [("error", .object [("code", .string "validation_error"),
    ("message", .string "request parameters failed validation"),
    ("details", .object [("fields", .array locations), ("validation", report)])])])

/-- `_validation_handler`.  The report echoes the input, and the rendering of one that no
    JSON text expresses (`none`) raises. -/
def validationHandler (report : Option Json) (names : List String) : Except Raised Response :=
  match report with
  | some report => .ok (validationResponse report names)
  | none => .error .valueError

/-- What the framework answers to an exception that no handler takes. -/
def internalServerError : Response :=
  ⟨500, [], .text "Internal Server Error".toList⟩

/-- The response to a call that ended so. -/
def answered : Except Raised Response → Response
  | .ok response => response
  | .error (.upload error) => uploadErrorHandler error
  | .error _ => internalServerError

/-! ## Requests -/

inductive HttpRequest where
  /-- `POST /sessions` -/
  | createSession (totalBytes : Int) (wholeSha256 : String)
  /-- `GET /sessions` -/
  | listSessions (scan : ScanOrder) (status : Option String) (limit offset : Int)
  /-- `GET /sessions/{session_id}` -/
  | getSession (sessionId : String)
  /-- `GET /sessions/{session_id}/chunks` -/
  | listChunks (sessionId : String)
  /-- `GET /sessions/{session_id}/audit` -/
  | getAuditTrail (sessionId : String)
  /-- `PUT /sessions/{session_id}/chunks`, its body in the blocks that arrive -/
  | uploadChunk (sessionId : String) (start length : Int) (sha256 : String) (blocks : List Bytes)
  /-- `GET /sessions/{session_id}/content` -/
  | downloadContent (sessionId : String) (rangeValues : List String)
  /-- `POST /comparisons` -/
  | createComparison (baselineSessionId candidateSessionId : String)
  /-- `GET /comparisons/{comparison_id}` -/
  | getComparison (comparisonId : String)
  /-- `POST /sessions/{session_id}/compact` -/
  | compactSession (sessionId : String) (targetChunkBytes : Int)
  /-- A request to any route that fails the framework's validation: the parameters that
      fail, and the report on them, `none` when that echoes a NaN, an infinity or half a
      surrogate pair. -/
  | malformed (names : List String) (report : Option Json)

/-- What the framework and the runtime contribute. -/
structure Framework where
  maxChunkBytes : Int
  endsWord : EndsWord
  isoformat : Nat → String
  /-- The report on a request that arrives converted and fails a check of its schema. -/
  report : HttpRequest → Json

/-- PostgreSQL has no text with a NUL character, and the driver sends none. -/
def storable (text : String) : Bool :=
  !text.toList.contains (Char.ofNat 0)

/-- The text becomes a parameter of a query. -/
def Db.sendText (text : String) : Db Unit :=
  if storable text then pure () else .raise (.database .dataError)

/-! ## Routes -/

def bodyTooLarge (maxChunkBytes received : Int) : UploadError where
  statusCode := 413
  code := .chunkTooLarge
  message := s!"received body exceeds server chunk limit {maxChunkBytes}"
  details := [("received", .int received), ("limit", .int maxChunkBytes)]

/-- `_chunk_payload`: the loop over the blocks of the stream. -/
def chunkPayload (maxChunkBytes : Int) : List Bytes → Bytes → Except UploadError Bytes
  | [], payload => .ok payload
  | block :: blocks, payload =>
    let payload := payload ++ block
    if payload.length > maxChunkBytes then .error (bodyTooLarge maxChunkBytes payload.length)
    else chunkPayload maxChunkBytes blocks payload

/-- The fields of `ComparisonCreate` that are too short. -/
def emptyIds (baselineSessionId candidateSessionId : String) : List String :=
  (if baselineSessionId = "" then ["baseline_session_id"] else []) ++
    (if candidateSessionId = "" then ["candidate_session_id"] else [])

section

variable (H : Bytes → String) (framework : Framework) (env : Env)

namespace Routes

/-- `create_session`. -/
def createSession (totalBytes : Int) (wholeSha256 : String) : Db Response :=
  match SessionCreate.validate framework.endsWord totalBytes wholeSha256 with
  | .error names =>
    .lift (validationHandler (framework.report (.createSession totalBytes wholeSha256)) names)
  | .ok payload =>
    (fun session => jsonResponse 201 (sessionToResponse session).toJson) <$>
      SeismicIngest.createSession H env payload.totalBytes payload.wholeSha256.text

/-- `list_sessions`. -/
def listSessions (scan : ScanOrder) (status : Option String) (limit offset : Int) : Db Response :=
  (fun rows => jsonResponse 200 (.array (rows.map SessionResponse.toJson))) <$>
    SeismicIngest.listSessions scan status limit offset

/-- `get_session`. -/
def getSession (sessionId : String) : Db Response := do
  Db.sendText sessionId
  (fun body => jsonResponse 200 body.toJson) <$> SeismicIngest.getSession sessionId

/-- `list_chunks`. -/
def listChunks (sessionId : String) : Db Response := do
  Db.sendText sessionId
  (fun body => jsonResponse 200 body.toJson) <$> SeismicIngest.listChunks sessionId

/-- `get_audit_trail`. -/
def getAuditTrail (sessionId : String) : Db Response := do
  Db.sendText sessionId
  (fun events => jsonResponse 200 (.object [("id", .string sessionId),
      ("events", .array (events.map (AuditEvent.toJson framework.isoformat)))])) <$>
    SeismicIngest.getAuditTrail sessionId

/-- `upload_chunk`, behind `_chunk_payload`. -/
def uploadChunk (sessionId : String) (start length : Int) (sha256 : String) (blocks : List Bytes) :
    Db Response :=
  match chunkPayload framework.maxChunkBytes blocks [] with
  | .error error => Db.refuse error
  | .ok payload =>
    match uploadRefusal framework.maxChunkBytes start length sha256 with
    | some error => Db.refuse error
    | none => do
      Db.sendText sessionId
      (fun body => jsonResponse 200 body.toJson) <$>
        putChunk H env sessionId start length
          (String.ofList (lower framework.endsWord sha256.toList)) payload

/-- `download_content`. -/
def downloadContent (sessionId : String) (rangeValues : List String) : Db Response := do
  Db.sendText sessionId
  (fun download => ⟨download.statusCode, download.headers, .bytes download.body⟩) <$>
    SeismicIngest.downloadContent H sessionId rangeValues

/-- `create_comparison`: the second id is sent once the first is found. -/
def createComparison (baselineSessionId candidateSessionId : String) : Db Response :=
  if emptyIds baselineSessionId candidateSessionId ≠ [] then
    .lift (validationHandler
      (framework.report (.createComparison baselineSessionId candidateSessionId))
      (emptyIds baselineSessionId candidateSessionId))
  else do
    Db.sendText baselineSessionId
    if storable candidateSessionId then
      (fun record => jsonResponse 201 (record.toJson framework.isoformat)) <$>
        SeismicIngest.createComparison H env baselineSessionId candidateSessionId
    else do
      let _ ← getSessionRow baselineSessionId
      .raise (.database .dataError)

/-- `get_comparison`. -/
def getComparison (comparisonId : String) : Db Response := do
  Db.sendText comparisonId
  (fun record => jsonResponse 200 (record.toJson framework.isoformat)) <$>
    SeismicIngest.getComparison comparisonId

/-- `compact_session`. -/
def compactSession (sessionId : String) (targetChunkBytes : Int) : Db Response :=
  if targetChunkBytes ≤ 0 then
    .lift (validationHandler (framework.report (.compactSession sessionId targetChunkBytes))
      ["target_chunk_bytes"])
  else do
    Db.sendText sessionId
    (fun body => jsonResponse 200 body.toJson) <$> compactSealed H env sessionId targetChunkBytes

end Routes

def HttpRequest.program : HttpRequest → Db Response
  | .createSession totalBytes wholeSha256 =>
    Routes.createSession H framework env totalBytes wholeSha256
  | .listSessions scan status limit offset => Routes.listSessions scan status limit offset
  | .getSession sessionId => Routes.getSession sessionId
  | .listChunks sessionId => Routes.listChunks sessionId
  | .getAuditTrail sessionId => Routes.getAuditTrail framework sessionId
  | .uploadChunk sessionId start length sha256 blocks =>
    Routes.uploadChunk H framework env sessionId start length sha256 blocks
  | .downloadContent sessionId rangeValues => Routes.downloadContent H sessionId rangeValues
  | .createComparison baselineSessionId candidateSessionId =>
    Routes.createComparison H framework env baselineSessionId candidateSessionId
  | .getComparison comparisonId => Routes.getComparison framework comparisonId
  | .compactSession sessionId targetChunkBytes =>
    Routes.compactSession H framework env sessionId targetChunkBytes
  | .malformed names report => .lift (validationHandler report names)

/-- The response to one request, and the store it leaves. -/
def HttpRequest.serve (request : HttpRequest) (db : Store) : Response × Store :=
  let run := (request.program H framework env).run db
  (answered run.1, run.2)

end

end SeismicIngest
