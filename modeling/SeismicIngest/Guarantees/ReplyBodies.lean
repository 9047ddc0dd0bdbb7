import SeismicIngest.Guarantees.ErrorBodies

/-! # What a response tells of a result

A client that reads the response to its request gets back what the call of the request
returned, the rows of layouts, listings and trails included, whatever ids and digests they
hold; and only a call that returned reads so (`replies_read_back`).
-/

namespace SeismicIngest

open Text Transaction

/-! ## Reading -/

def Status.ofJson (document : Json) : Option Status :=
  document.string?.bind statusNamed

def AuditKind.ofJson (document : Json) : Option AuditKind :=
  document.string?.bind fun text => [AuditKind.sealed, .compacted].find? fun kind => kind.text = text

def Conclusion.ofJson (document : Json) : Option Conclusion :=
  document.string?.bind fun text =>
    [Conclusion.identical, .contentDiffers, .lengthDiffers].find? fun conclusion => conclusion.text = text

def SessionResponse.ofJson (document : Json) : Option SessionResponse := do
  return {
    id := ← document.get? "id" Json.string?
    totalBytes := ← document.get? "total_bytes" Json.int?
    wholeSha256 := ← document.get? "whole_sha256" Json.string?
    confirmedOffset := ← document.get? "confirmed_offset" Json.int?
    status := ← document.get? "status" Status.ofJson
    computedSha256 := ← document.get? "computed_sha256" (Json.nullable? Json.string?)
    failureReason := ← document.get? "failure_reason" (Json.nullable? Json.string?) }

def Ack.ofJson (document : Json) : Option Ack := do
  return {
    id := ← document.get? "id" Json.string?
    status := ← document.get? "status" Status.ofJson
    startOffset := ← document.get? "start_offset" Json.int?
    length := ← document.get? "length" Json.int?
    chunkSha256 := ← document.get? "chunk_sha256" Json.string?
    confirmedOffset := ← document.get? "confirmed_offset" Json.int?
    expectedOffset := ← document.get? "expected_offset" Json.int?
    totalBytes := ← document.get? "total_bytes" Json.int?
    idempotentReplay := ← document.get? "idempotent_replay" Json.bool? }

def LayoutRow.ofJson (document : Json) : Option LayoutRow := do
  return {
    startOffset := ← document.get? "start_offset" Json.int?
    endOffset := ← document.get? "end_offset" Json.int?
    length := ← document.get? "length" Json.int?
    sha256 := ← document.get? "sha256" Json.string? }

def CompactResult.ofJson (document : Json) : Option CompactResult := do
  return {
    id := ← document.get? "id" Json.string?
    status := ← document.get? "status" Status.ofJson
    targetChunkBytes := ← document.get? "target_chunk_bytes" Json.int?
    chunksBefore := ← document.get? "chunks_before" Json.int?
    chunksAfter := ← document.get? "chunks_after" Json.int?
    totalBytesBefore := ← document.get? "total_bytes_before" Json.int?
    totalBytesAfter := ← document.get? "total_bytes_after" Json.int?
    wholeSha256 := ← document.get? "whole_sha256" Json.string?
    chunks := ← document.get? "chunks" (Json.list? LayoutRow.ofJson) }

def ChunkListing.ofJson (document : Json) : Option ChunkListing := do
  return {
    id := ← document.get? "id" Json.string?
    status := ← document.get? "status" Status.ofJson
    confirmedOffset := ← document.get? "confirmed_offset" Json.int?
    totalBytes := ← document.get? "total_bytes" Json.int?
    chunks := ← document.get? "chunks" (Json.list? LayoutRow.ofJson) }

section

variable (fromisoformat : String → Option Nat)

def timeOf (document : Json) : Option Nat :=
  document.string?.bind fromisoformat

/-- An event of the trail of a session. -/
def AuditEvent.ofJson (sessionId : String) (document : Json) : Option AuditEvent := do
  return {
    sessionId := sessionId
    sequence := ← document.get? "sequence" Json.int?
    event := ← document.get? "event" AuditKind.ofJson
    occurredAt := ← document.get? "occurred_at" (timeOf fromisoformat)
    totalBytes := ← document.get? "total_bytes" Json.int?
    wholeSha256 := ← document.get? "whole_sha256" Json.string?
    targetChunkBytes := ← document.get? "target_chunk_bytes" (Json.nullable? Json.int?)
    chunksBefore := ← document.get? "chunks_before" (Json.nullable? Json.int?)
    chunksAfter := ← document.get? "chunks_after" (Json.nullable? Json.int?) }

def Comparison.ofJson (document : Json) : Option Comparison := do
  return {
    id := ← document.get? "id" Json.string?
    baselineSessionId := ← document.get? "baseline_session_id" Json.string?
    candidateSessionId := ← document.get? "candidate_session_id" Json.string?
    baselineTotalBytes := ← document.get? "baseline_total_bytes" Json.int?
    baselineWholeSha256 := ← document.get? "baseline_whole_sha256" Json.string?
    candidateTotalBytes := ← document.get? "candidate_total_bytes" Json.int?
    candidateWholeSha256 := ← document.get? "candidate_whole_sha256" Json.string?
    commonPrefixBytes := ← document.get? "common_prefix_bytes" Json.int?
    firstDifferenceOffset := ← document.get? "first_difference_offset" (Json.nullable? Json.int?)
    conclusion := ← document.get? "conclusion" Conclusion.ofJson
    createdAt := ← document.get? "created_at" (timeOf fromisoformat) }

/-- What the document of a successful response says to the client of the request. -/
def HttpRequest.readReply : HttpRequest → Json → Option Reply
  | .createSession _ _, document | .getSession _, document =>
    (SessionResponse.ofJson document).map .described
  | .listSessions _ _ _ _, document => (Json.list? SessionResponse.ofJson document).map .listed
  | .listChunks _, document => (ChunkListing.ofJson document).map .checkpoints
  | .getAuditTrail _, document => do
    let id ← document.get? "id" Json.string?
    let events ← document.get? "events" (Json.list? (AuditEvent.ofJson fromisoformat id))
    return .trail events
  | .uploadChunk _ _ _ _ _, document => (Ack.ofJson document).map .ack
  | .createComparison _ _, document | .getComparison _, document =>
    (Comparison.ofJson fromisoformat document).map .comparison
  | .compactSession _ _, document => (CompactResult.ofJson document).map .compacted
  | .downloadContent _ _, _ | .malformed _ _, _ => none

/-- The reply that a response tells. -/
def Response.reply? (request : HttpRequest) (response : Response) : Option Reply :=
  match response.body with
  | .bytes content => some (.content ⟨response.statusCode, response.headers, content⟩)
  | .text content => (Json.read content).bind (request.readReply fromisoformat)

end

/-! ## Each record -/

@[simp] theorem Status.ofJson_text (status : Status) :
    Status.ofJson (.string status.text) = some status := by
  cases status <;> rfl

@[simp] theorem AuditKind.ofJson_text (kind : AuditKind) :
    AuditKind.ofJson (.string kind.text) = some kind := by
  cases kind <;> rfl

@[simp] theorem Conclusion.ofJson_text (conclusion : Conclusion) :
    Conclusion.ofJson (.string conclusion.text) = some conclusion := by
  cases conclusion <;> rfl

@[simp] theorem nullable_text (value : Option String) :
    Json.nullable? Json.string? (jsonText? value) = some value := by
  cases value <;> rfl

@[simp] theorem nullable_int (value : Option Int) :
    Json.nullable? Json.int? (jsonInt? value) = some value := by
  cases value <;> rfl

theorem SessionResponse.ofJson_toJson (body : SessionResponse) :
    SessionResponse.ofJson body.toJson = some body := by
  simp [ofJson, toJson, Json.get?, Json.field?, List.lookup_cons, Json.string?, Json.int?]

theorem Ack.ofJson_toJson (body : Ack) : Ack.ofJson body.toJson = some body := by
  simp [ofJson, toJson, Json.get?, Json.field?, List.lookup_cons, Json.string?, Json.int?, Json.bool?]

theorem LayoutRow.ofJson_toJson (row : LayoutRow) : LayoutRow.ofJson row.toJson = some row := by
  simp [ofJson, toJson, Json.get?, Json.field?, List.lookup_cons, Json.string?, Json.int?]

@[simp] theorem layout_read (rows : List LayoutRow) :
    Json.list? LayoutRow.ofJson (.array (rows.map LayoutRow.toJson)) = some rows :=
  Json.mapM_back LayoutRow.ofJson_toJson rows

theorem CompactResult.ofJson_toJson (body : CompactResult) :
    CompactResult.ofJson body.toJson = some body := by
  simp [ofJson, toJson, Json.get?, Json.field?, List.lookup_cons, Json.string?, Json.int?]

theorem ChunkListing.ofJson_toJson (body : ChunkListing) :
    ChunkListing.ofJson body.toJson = some body := by
  simp [ofJson, toJson, Json.get?, Json.field?, List.lookup_cons, Json.string?, Json.int?]

section

variable {framework : Framework} {fromisoformat : String → Option Nat}
variable (dates : ∀ time, fromisoformat (framework.isoformat time) = some time)

include dates

theorem timeOf_isoformat (time : Nat) :
    timeOf fromisoformat (.string (framework.isoformat time)) = some time :=
  dates time

theorem AuditEvent.ofJson_toJson (event : AuditEvent) :
    AuditEvent.ofJson fromisoformat event.sessionId (event.toJson framework.isoformat) =
      some event := by
  simp [ofJson, toJson, Json.get?, Json.field?, List.lookup_cons, Json.string?, Json.int?,
    timeOf_isoformat dates]

theorem Comparison.ofJson_toJson (record : Comparison) :
    Comparison.ofJson fromisoformat (record.toJson framework.isoformat) = some record := by
  simp [ofJson, toJson, Json.get?, Json.field?, List.lookup_cons, Json.string?, Json.int?,
    timeOf_isoformat dates]

/-- The events of one session. -/
theorem trail_read {id : String} {events : List AuditEvent}
    (own : ∀ event ∈ events, event.sessionId = id) :
    Json.list? (AuditEvent.ofJson fromisoformat id)
      (.array (events.map (AuditEvent.toJson framework.isoformat))) = some events := by
  change (events.map (AuditEvent.toJson framework.isoformat)).mapM _ = some events
  induction events with
  | nil => rfl
  | cons event events inductionHypothesis =>
    obtain ⟨rfl, others⟩ := List.forall_mem_cons.mp own
    simp [List.mapM_cons, AuditEvent.ofJson_toJson dates, inductionHypothesis others]

end

/-! ## Which replies a request gets -/

/-- A reply as its response shows it. -/
def Reply.shown : Reply → Reply
  | .session row => .described (sessionToResponse row)
  | reply => reply

/-- The replies that the call of a request can return. -/
inductive HttpRequest.Gets : HttpRequest → Reply → Prop where
  | created {totalBytes : Int} {wholeSha256 : String} (row : UploadSession) :
    Gets (.createSession totalBytes wholeSha256) (.session row)
  | listed {scan : ScanOrder} {status : Option String} {limit offset : Int}
    (rows : List SessionResponse) : Gets (.listSessions scan status limit offset) (.listed rows)
  | described {id : String} (body : SessionResponse) : Gets (.getSession id) (.described body)
  | checkpoints {id : String} (body : ChunkListing) : Gets (.listChunks id) (.checkpoints body)
  | trail {id : String} {events : List AuditEvent} (own : ∀ event ∈ events, event.sessionId = id) :
    Gets (.getAuditTrail id) (.trail events)
  | acknowledged {id : String} {start length : Int} {sha256 : String} {blocks : List Bytes} (body : Ack) :
    Gets (.uploadChunk id start length sha256 blocks) (.ack body)
  | content {id : String} {rangeValues : List String} (download : Download) :
    Gets (.downloadContent id rangeValues) (.content download)
  | compared {baselineId candidateId : String} (record : Comparison) :
    Gets (.createComparison baselineId candidateId) (.comparison record)
  | comparison {id : String} (record : Comparison) : Gets (.getComparison id) (.comparison record)
  | compacted {id : String} {target : Int} (body : CompactResult) :
    Gets (.compactSession id target) (.compacted body)

section

variable {H : Bytes → String} {db : Store} {result : Reply}

theorem returned_map {α : Type} {call : Call} {program : Db α} (reply : α → Reply)
    (called : call.program H = reply <$> program) (returned : (call.serve H db).1 = .ok result) :
    ∃ value, (program.run db).1 = .ok value ∧ result = reply value := by
  rw [Call.serve, called, Program.run_map] at returned
  cases ran : (program.run db).1 with
  | ok value =>
    rw [ran] at returned
    exact ⟨value, rfl, (Except.ok.inj returned).symm⟩
  | error exception =>
    rw [ran] at returned
    cases returned

/-- A trail has the events of its session only. -/
theorem getAuditTrail_own {id : String} {events : List AuditEvent}
    (ran : ((getAuditTrail id).run db).1 = .ok events) : ∀ event ∈ events, event.sessionId = id := by
  have read : (Program.select fun db => db.session? id : Db (Option UploadSession)).settle (.opened db) =
    (.returned (db.session? id), .opened db) := rfl
  have run : (getAuditTrail id).run db = _ := Program.run_bind_of_returned read
  cases found : db.session? id with
  | none =>
    rw [run, found] at ran
    cases ran
  | some session =>
    rw [run, found] at ran
    obtain rfl : db.auditOf id = events := Except.ok.inj ran
    intro event member
    simpa using (List.mem_filter.mp ((List.mem_insertionSort _).mp member)).2

theorem Routed.gets {framework : Framework} {env : Env} {request : HttpRequest} {call : Request}
    (routed : Routed framework request call) (returned : ((Call.mk env call).serve H db).1 = .ok result) :
    request.Gets result := by
  cases routed with
  | createSession _ =>
    obtain ⟨row, -, rfl⟩ := returned_map .session rfl returned
    exact .created row
  | listSessions =>
    obtain ⟨rows, -, rfl⟩ := returned_map .listed rfl returned
    exact .listed rows
  | getSession _ =>
    obtain ⟨body, -, rfl⟩ := returned_map .described rfl returned
    exact .described body
  | listChunks _ =>
    obtain ⟨body, -, rfl⟩ := returned_map .checkpoints rfl returned
    exact .checkpoints body
  | getAuditTrail _ =>
    obtain ⟨events, ran, rfl⟩ := returned_map .trail rfl returned
    exact .trail (getAuditTrail_own ran)
  | uploadChunk _ _ _ =>
    obtain ⟨body, -, rfl⟩ := returned_map .ack rfl returned
    exact .acknowledged body
  | downloadContent _ =>
    obtain ⟨download, -, rfl⟩ := returned_map .content rfl returned
    exact .content download
  | createComparison _ _ _ =>
    obtain ⟨record, -, rfl⟩ := returned_map .comparison rfl returned
    exact .compared record
  | getComparison _ =>
    obtain ⟨record, -, rfl⟩ := returned_map .comparison rfl returned
    exact .comparison record
  | compactSession _ _ =>
    obtain ⟨body, -, rfl⟩ := returned_map .compacted rfl returned
    exact .compacted body

end

/-! ## The whole response -/

section

variable (H : Bytes → String) {framework : Framework} {fromisoformat : String → Option Nat}

theorem reply?_jsonResponse (request : HttpRequest) (statusCode : Nat) (document : Json) :
    (jsonResponse statusCode document).reply? fromisoformat request =
      request.readReply fromisoformat document := by
  simp [Response.reply?, jsonResponse, Json.read_write]

/-- The response to a reply is read back. -/
theorem reply?_respond (dates : ∀ time, fromisoformat (framework.isoformat time) = some time)
    {request : HttpRequest} {result : Reply} (gets : request.Gets result) :
    (result.respond framework request).reply? fromisoformat request = some result.shown := by
  cases gets with
  | content download => rfl
  | created row =>
    rw [Reply.respond, reply?_jsonResponse, HttpRequest.readReply, SessionResponse.ofJson_toJson]
    rfl
  | described body =>
    rw [Reply.respond, reply?_jsonResponse, HttpRequest.readReply, body.ofJson_toJson]
    rfl
  | listed rows =>
    have read : Json.list? SessionResponse.ofJson (.array (rows.map SessionResponse.toJson)) = some rows :=
      Json.mapM_back SessionResponse.ofJson_toJson rows
    rw [Reply.respond, reply?_jsonResponse, HttpRequest.readReply, read]
    rfl
  | checkpoints body =>
    rw [Reply.respond, reply?_jsonResponse, HttpRequest.readReply, body.ofJson_toJson]
    rfl
  | trail own =>
    rw [Reply.respond, reply?_jsonResponse, HttpRequest.readReply]
    simp [Json.get?, Json.field?, List.lookup_cons, Json.string?, trail_read dates own, Reply.shown]
  | acknowledged body =>
    rw [Reply.respond, reply?_jsonResponse, HttpRequest.readReply, body.ofJson_toJson]
    rfl
  | compared record =>
    rw [Reply.respond, reply?_jsonResponse, HttpRequest.readReply, record.ofJson_toJson dates]
    rfl
  | comparison record =>
    change (jsonResponse 200 (record.toJson framework.isoformat)).reply? _ _ = _
    rw [reply?_jsonResponse, HttpRequest.readReply, record.ofJson_toJson dates]
    rfl
  | compacted body =>
    rw [Reply.respond, reply?_jsonResponse, HttpRequest.readReply, body.ofJson_toJson]
    rfl

/-- No error passes for a reply. -/
theorem readReply_error (request : HttpRequest) (error : Json) :
    request.readReply fromisoformat (.object [("error", error)]) = none := by
  cases request <;> rfl

theorem reply?_internalServerError (request : HttpRequest) :
    internalServerError.reply? fromisoformat request = none := by
  have line : Json.read "Internal Server Error".toList = none := by decide
  rw [Response.reply?, internalServerError]
  simp only [line]
  rfl

theorem reply?_error (request : HttpRequest) (exception : Raised) :
    (answered (.error exception)).reply? fromisoformat request = none := by
  cases exception with
  | upload error =>
    have body : ∃ inner, error.toBody = .object [("error", inner)] := ⟨_, rfl⟩
    obtain ⟨inner, body⟩ := body
    simp [answered, uploadErrorHandler, Response.reply?, body, Json.read_write, readReply_error]
  | database | valueError | diverges => exact reply?_internalServerError request

theorem reply?_validationResponse (request : HttpRequest) (report : Json) (names : List String) :
    (validationResponse report names).reply? fromisoformat request = none := by
  rw [validationResponse, reply?_jsonResponse]
  exact readReply_error request _

variable (framework) (env : Env)

/-- On any store, the response to a request reads as a reply exactly when the call of the
    request returns that reply. -/
theorem replies_read_back (dates : ∀ time, fromisoformat (framework.isoformat time) = some time)
    (request : HttpRequest) (db : Store) (reply : Reply) :
    (request.serve H framework env db).1.reply? fromisoformat request = some reply ↔
      ∃ call result, request.call? framework = some call ∧
        ((Call.mk env call).serve H db).1 = .ok result ∧ result.shown = reply := by
  rw [HttpRequest.serve]
  cases called : request.call? framework with
  | some call =>
    have made := @request_let H framework env request call called db
    rw [made]
    cases ended : ((Call.mk env call).serve H db).1 with
    | ok result =>
      have read := reply?_respond dates ((routed called).gets ended)
      simp [Except.map, answered, read, ended]
    | error exception => simp [Except.map, reply?_error, ended]
  | none =>
    obtain ⟨answer, run, stops⟩ := @request_stopped H framework env request called db
    rw [run]
    cases stops with
    | invalid report names => simp [answered, reply?_validationResponse]
    | unrendered | refused | unsent => simp [reply?_error]

/-- A clock near its epoch, behind which it shows more digits than any other. -/
def epochText (time : Nat) : String :=
  String.ofList ("1970-01-01T00:00:00Z".toList ++ List.replicate time '0')

def epochOf (text : String) : Option Nat :=
  some (text.toList.length - 20)

theorem epochOf_epochText (time : Nat) : epochOf (epochText time) = some time := by
  have own : "1970-01-01T00:00:00Z".toList.length = 20 := by decide
  have behind : ("1970-01-01T00:00:00Z".toList ++ List.replicate time '0').length - 20 = time := by
    rw [List.length_append, own, List.length_replicate]
    omega
  exact congrArg some ((congrArg (fun text => text.length - 20) String.toList_ofList).trans behind)

/-- The trail of an empty package, sealed at the epoch. -/
theorem replies_read_back_trail :
    let framework : Framework := ⟨4, fun _ _ => false, epochText, fun _ => .null⟩
    let db := ((Call.mk ⟨"s", 0, true⟩ (.createSession 0 "d")).serve (fun _ => "d") Store.empty).2
    ((HttpRequest.getAuditTrail "s").serve (fun _ => "d") framework ⟨"", 0, true⟩ db).1.reply? epochOf
      (.getAuditTrail "s") = some (.trail [⟨"s", 1, .sealed, 0, 0, "d", none, none, none⟩]) := by
  intro framework db
  have returned : ((Call.mk ⟨"", 0, true⟩ (.getAuditTrail "s")).serve (fun _ => "d") db).1 =
      .ok (.trail [⟨"s", 1, .sealed, 0, 0, "d", none, none, none⟩]) := by rfl
  have called : (HttpRequest.getAuditTrail "s").call? framework = some (.getAuditTrail "s") := by
    rw [HttpRequest.call?, if_pos (by decide)]
  exact (replies_read_back (fun _ => "d") framework ⟨"", 0, true⟩ epochOf_epochText _ db _).mpr
    ⟨_, _, called, returned, rfl⟩

end

end SeismicIngest
