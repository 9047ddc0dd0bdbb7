import SeismicIngest.Model.Server
import SeismicIngest.Verified.Steps

/-! # What the server does with a request

A request that passes the checks of its route makes one call of the service, and its
response is the reply of that call, or the error (`request_let`).  Every other request
leaves the store alone (`request_stopped`).
-/

namespace SeismicIngest

open Transaction Text

section

variable {H : Bytes → String} {framework : Framework} {env : Env}

/-! ## Programs of routes -/

theorem run_sendText {α : Type} (text : String) (program : Db α) (db : Store) :
    (do Db.sendText text; program : Db α).run db =
      if storable text then program.run db else (.error (.database .dataError), db) := by
  rw [Db.sendText]
  by_cases sent : storable text
  · rw [if_pos sent, if_pos sent]
    rfl
  · rw [if_neg sent, if_neg sent]
    rfl

/-! ## Checks of the routes -/

/-- The bytes that a body adds up to. -/
theorem chunkPayload_flatten {maxChunkBytes : Int} {blocks : List Bytes} {payload whole : Bytes}
    (received : chunkPayload maxChunkBytes blocks payload = .ok whole) :
    whole = payload ++ blocks.flatten := by
  induction blocks generalizing payload with
  | nil =>
    cases received
    rw [List.flatten_nil, List.append_nil]
  | cons block blocks inductionHypothesis =>
    rw [chunkPayload] at received
    split at received
    · cases received
    · rw [inductionHypothesis received, List.flatten_cons, List.append_assoc]

theorem SessionCreate.validate_totalBytes {endsWord : EndsWord} {totalBytes : Int} {wholeSha256 : String}
    {payload : SessionCreate}
    (validated : SessionCreate.validate endsWord totalBytes wholeSha256 = .ok payload) :
    payload.totalBytes = totalBytes := by
  unfold SessionCreate.validate at validated
  split at validated
  · split at validated
    · cases validated
      rfl
    · cases validated
  · cases validated

/-! ## Calls -/

/-- The call that a request makes once it is let through. -/
def HttpRequest.call? (framework : Framework) : HttpRequest → Option Request
  | .createSession totalBytes wholeSha256 =>
    match SessionCreate.validate framework.endsWord totalBytes wholeSha256 with
    | .error _ => none
    | .ok payload => some (.createSession payload.totalBytes.toNat payload.wholeSha256.text)
  | .listSessions scan status limit offset => some (.listSessions scan status limit offset)
  | .getSession sessionId => if storable sessionId then some (.getSession sessionId) else none
  | .listChunks sessionId => if storable sessionId then some (.listChunks sessionId) else none
  | .getAuditTrail sessionId => if storable sessionId then some (.getAuditTrail sessionId) else none
  | .uploadChunk sessionId start length sha256 blocks =>
    match chunkPayload framework.maxChunkBytes blocks [] with
    | .error _ => none
    | .ok payload =>
      if uploadRefusal framework.maxChunkBytes start length sha256 = none ∧ storable sessionId then
        some (.putChunk sessionId start length
          (String.ofList (lower framework.endsWord sha256.toList)) payload)
      else none
  | .downloadContent sessionId rangeValues =>
    if storable sessionId then some (.downloadContent sessionId rangeValues) else none
  | .createComparison baselineSessionId candidateSessionId =>
    if emptyIds baselineSessionId candidateSessionId = [] ∧ storable baselineSessionId ∧
        storable candidateSessionId then
      some (.createComparison baselineSessionId candidateSessionId)
    else none
  | .getComparison comparisonId =>
    if storable comparisonId then some (.getComparison comparisonId) else none
  | .compactSession sessionId targetChunkBytes =>
    if 0 < targetChunkBytes ∧ storable sessionId then some (.compactSealed sessionId targetChunkBytes)
    else none
  | .malformed _ _ => none

/-- The response that a route makes of a reply. -/
def Reply.respond (framework : Framework) (request : HttpRequest) : Reply → Response
  | .session row => jsonResponse 201 (sessionToResponse row).toJson
  | .ack body => jsonResponse 200 body.toJson
  | .compacted body => jsonResponse 200 body.toJson
  | .comparison record =>
    jsonResponse (match request with | .createComparison _ _ => 201 | _ => 200)
      (record.toJson framework.isoformat)
  | .described body => jsonResponse 200 body.toJson
  | .listed rows => jsonResponse 200 (.array (rows.map SessionResponse.toJson))
  | .checkpoints body => jsonResponse 200 body.toJson
  | .trail events =>
    jsonResponse 200 (.object [("id", .string (match request with | .getAuditTrail id => id | _ => "")),
      ("events", .array (events.map (AuditEvent.toJson framework.isoformat)))])
  | .content download => ⟨download.statusCode, download.headers, .bytes download.body⟩

variable (H framework env) in
/-- The program of a request answers as the call does, and does to the store what it does. -/
def Makes (request : HttpRequest) (call : Request) (db : Store) : Prop :=
  let served := (Call.mk env call).serve H db
  (request.program H framework env).run db = (served.1.map (Reply.respond framework request), served.2)

/-! ## Requests that are let through -/

variable (framework) in
/-- The call of a request, and the checks that the request has passed. -/
inductive Routed : HttpRequest → Request → Prop where
  | createSession {totalBytes : Int} {wholeSha256 : String} {payload : SessionCreate}
    (validated : SessionCreate.validate framework.endsWord totalBytes wholeSha256 = .ok payload) :
    Routed (.createSession totalBytes wholeSha256)
      (.createSession payload.totalBytes.toNat payload.wholeSha256.text)
  | listSessions {scan : ScanOrder} {status : Option String} {limit offset : Int} :
    Routed (.listSessions scan status limit offset) (.listSessions scan status limit offset)
  | getSession {id : String} (sent : storable id = true) : Routed (.getSession id) (.getSession id)
  | listChunks {id : String} (sent : storable id = true) : Routed (.listChunks id) (.listChunks id)
  | getAuditTrail {id : String} (sent : storable id = true) :
    Routed (.getAuditTrail id) (.getAuditTrail id)
  | uploadChunk {id : String} {start length : Int} {sha256 : String} {blocks : List Bytes}
    {payload : Bytes} (received : chunkPayload framework.maxChunkBytes blocks [] = .ok payload)
    (admitted : uploadRefusal framework.maxChunkBytes start length sha256 = none)
    (sent : storable id = true) :
    Routed (.uploadChunk id start length sha256 blocks)
      (.putChunk id start length (String.ofList (lower framework.endsWord sha256.toList)) payload)
  | downloadContent {id : String} {rangeValues : List String} (sent : storable id = true) :
    Routed (.downloadContent id rangeValues) (.downloadContent id rangeValues)
  | createComparison {baselineId candidateId : String} (filled : emptyIds baselineId candidateId = [])
    (baselineSent : storable baselineId = true) (candidateSent : storable candidateId = true) :
    Routed (.createComparison baselineId candidateId) (.createComparison baselineId candidateId)
  | getComparison {id : String} (sent : storable id = true) :
    Routed (.getComparison id) (.getComparison id)
  | compactSession {id : String} {target : Int} (positive : 0 < target) (sent : storable id = true) :
    Routed (.compactSession id target) (.compactSealed id target)

theorem routed {request : HttpRequest} {call : Request} (letThrough : request.call? framework = some call) :
    Routed framework request call := by
  cases request with
  | createSession totalBytes wholeSha256 =>
    rw [HttpRequest.call?] at letThrough
    cases validated : SessionCreate.validate framework.endsWord totalBytes wholeSha256 with
    | error names =>
      rw [validated] at letThrough
      cases letThrough
    | ok payload =>
      rw [validated] at letThrough
      cases letThrough
      exact .createSession validated
  | listSessions scan status limit offset =>
    cases letThrough
    exact .listSessions
  | getSession id =>
    obtain ⟨sent, ⟨⟩⟩ := Option.ite_none_right_eq_some.mp letThrough
    exact .getSession sent
  | listChunks id =>
    obtain ⟨sent, ⟨⟩⟩ := Option.ite_none_right_eq_some.mp letThrough
    exact .listChunks sent
  | getAuditTrail id =>
    obtain ⟨sent, ⟨⟩⟩ := Option.ite_none_right_eq_some.mp letThrough
    exact .getAuditTrail sent
  | uploadChunk id start length sha256 blocks =>
    rw [HttpRequest.call?] at letThrough
    cases received : chunkPayload framework.maxChunkBytes blocks [] with
    | error error =>
      rw [received] at letThrough
      cases letThrough
    | ok payload =>
      rw [received] at letThrough
      obtain ⟨⟨admitted, sent⟩, ⟨⟩⟩ := Option.ite_none_right_eq_some.mp letThrough
      exact .uploadChunk received admitted sent
  | downloadContent id rangeValues =>
    obtain ⟨sent, ⟨⟩⟩ := Option.ite_none_right_eq_some.mp letThrough
    exact .downloadContent sent
  | createComparison baselineId candidateId =>
    obtain ⟨⟨filled, baselineSent, candidateSent⟩, ⟨⟩⟩ :=
      Option.ite_none_right_eq_some.mp letThrough
    exact .createComparison filled baselineSent candidateSent
  | getComparison id =>
    obtain ⟨sent, ⟨⟩⟩ := Option.ite_none_right_eq_some.mp letThrough
    exact .getComparison sent
  | compactSession id target =>
    obtain ⟨⟨positive, sent⟩, ⟨⟩⟩ := Option.ite_none_right_eq_some.mp letThrough
    exact .compactSession positive sent
  | malformed _ _ => cases letThrough

theorem sendText_sent {α : Type} {text : String} (sent : storable text = true) (program : Db α) :
    (do Db.sendText text; program : Db α) = program := by
  rw [Db.sendText, if_pos sent]
  rfl

variable (H framework env) in
/-- The program of a request is that of a call, up to the response. -/
def Runs (request : HttpRequest) (call : Request) : Prop :=
  request.program H framework env = Reply.respond framework request <$> (Call.mk env call).program H

/-- A route that renames the result of the program that its call runs. -/
theorem Runs.of_map {α : Type} {request : HttpRequest} {call : Request} {program : Db α}
    (reply : α → Reply) (called : (Call.mk env call).program H = reply <$> program)
    (route : request.program H framework env =
      (fun result => (reply result).respond framework request) <$> program) :
    Runs H framework env request call := by
  rw [Runs, called, Program.map_map, route]

/-- A route that sends an id and then makes its call. -/
theorem Runs.of_sent {α : Type} {request : HttpRequest} {call : Request} {program : Db α}
    (reply : α → Reply) (called : (Call.mk env call).program H = reply <$> program) {id : String}
    (sent : storable id = true) (route : request.program H framework env = (do
      Db.sendText id
      (fun result => (reply result).respond framework request) <$> program)) :
    Runs H framework env request call :=
  .of_map reply called (by rw [route, sendText_sent sent])

theorem Routed.runs {request : HttpRequest} {call : Request} (routed : Routed framework request call) :
    Runs H framework env request call := by
  cases routed with
  | @createSession totalBytes wholeSha256 payload validated =>
    refine .of_map .session rfl ?_
    have length : ((payload.totalBytes.toNat : Nat) : Int) = payload.totalBytes :=
      Int.toNat_of_nonneg payload.nonneg
    simp only [HttpRequest.program, Routes.createSession, validated, length]
    rfl
  | listSessions => exact .of_map .listed rfl rfl
  | getSession sent => exact .of_sent .described rfl sent rfl
  | listChunks sent => exact .of_sent .checkpoints rfl sent rfl
  | getAuditTrail sent => exact .of_sent .trail rfl sent rfl
  | uploadChunk received admitted sent =>
    refine .of_sent .ack rfl sent ?_
    simp only [HttpRequest.program, Routes.uploadChunk, received, admitted]
    rfl
  | downloadContent sent => exact .of_sent .content rfl sent rfl
  | createComparison filled baselineSent candidateSent =>
    refine .of_sent .comparison rfl baselineSent ?_
    simp only [HttpRequest.program, Routes.createComparison, filled, ne_eq, not_true_eq_false, if_false,
      candidateSent, if_true]
    rfl
  | getComparison sent => exact .of_sent .comparison rfl sent rfl
  | compactSession positive sent =>
    refine .of_sent .compacted rfl sent ?_
    simp only [HttpRequest.program, Routes.compactSession, Int.not_le.mpr positive, if_false]
    rfl

theorem request_let {request : HttpRequest} {call : Request} (letThrough : request.call? framework = some call)
    (db : Store) : Makes H framework env request call db := by
  have runs : Runs H framework env request call := (routed letThrough).runs
  rw [Makes, runs, Program.run_map]
  rfl

/-! ## Requests that are stopped -/

/-- The checks of an upload in front of its call. -/
def uploadPasses (framework : Framework) (start length : Int) (sha256 : String) (blocks : List Bytes) :
    Prop :=
  (∃ payload, chunkPayload framework.maxChunkBytes blocks [] = .ok payload) ∧
    uploadRefusal framework.maxChunkBytes start length sha256 = none

/-- A request that passes the checks of its route, and then hands the driver a text that it
    does not send. -/
def HttpRequest.Unsent (framework : Framework) (db : Store) : HttpRequest → Prop
  | .getSession id | .listChunks id | .getAuditTrail id | .downloadContent id _ | .getComparison id =>
    storable id = false
  | .uploadChunk id start length sha256 blocks =>
    uploadPasses framework start length sha256 blocks ∧ storable id = false
  | .createComparison baselineId candidateId =>
    emptyIds baselineId candidateId = [] ∧
      (storable baselineId = false ∨ storable candidateId = false ∧ (db.session? baselineId).isSome)
  | .compactSession id target => 0 < target ∧ storable id = false
  | .createSession _ _ | .listSessions _ _ _ _ | .malformed _ _ => False

/-- The framework refuses the request, and its report on it does not render. -/
def HttpRequest.Unrendered : HttpRequest → Prop
  | .malformed _ report => report = none
  | _ => False

/-- How a request that makes no call ends: its route refuses it, or the driver does. -/
inductive Stops (framework : Framework) (request : HttpRequest) (db : Store) :
    Except Raised Response → Prop
  | invalid (report : Json) (names : List String) (sent : ¬ request.Unsent framework db)
    (rendered : ¬ request.Unrendered) : Stops framework request db (.ok (validationResponse report names))
  | unrendered (unrendered : request.Unrendered) : Stops framework request db (.error .valueError)
  | refused {error : UploadError} (status : error.statusCode ∈ [404, 413, 422])
    (sent : ¬ request.Unsent framework db) (rendered : ¬ request.Unrendered) :
    Stops framework request db (.error (.upload error))
  | unsent (unsent : request.Unsent framework db) :
    Stops framework request db (.error (.database .dataError))

theorem uploadRefusal_status {maxChunkBytes start length : Int} {sha256 : String} {error : UploadError}
    (refused : uploadRefusal maxChunkBytes start length sha256 = some error) :
    error.statusCode ∈ [413, 422] := by
  rw [uploadRefusal] at refused
  split_ifs at refused <;> cases refused <;>
    simp [invalidDigest, invalidOffset, invalidQueryLength, chunkTooLarge]

theorem chunkPayload_status {maxChunkBytes : Int} {blocks : List Bytes} {payload : Bytes}
    {error : UploadError} (refused : chunkPayload maxChunkBytes blocks payload = .error error) :
    error.statusCode = 413 := by
  induction blocks generalizing payload with
  | nil => cases refused
  | cons block blocks inductionHypothesis =>
    rw [chunkPayload] at refused
    split at refused
    · cases refused
      rfl
    · exact inductionHypothesis refused

theorem sendText_unsent {α : Type} {text : String} (unsent : storable text = false) (program : Db α) :
    (do Db.sendText text; program : Db α) = .raise (.database .dataError) := by
  rw [Db.sendText, unsent]
  rfl

/-- The program of a request that makes no call. -/
inductive Stopped (framework : Framework) (request : HttpRequest) : Db Response → Prop
  | invalid (report : Json) (names : List String) (sent : ∀ db, ¬ request.Unsent framework db)
    (rendered : ¬ request.Unrendered) : Stopped framework request (.pure (validationResponse report names))
  | unrendered (unrendered : request.Unrendered) : Stopped framework request (.raise .valueError)
  | refused {error : UploadError} (status : error.statusCode ∈ [413, 422])
    (sent : ∀ db, ¬ request.Unsent framework db) (rendered : ¬ request.Unrendered) :
    Stopped framework request (.raise (.upload error))
  | unsent (unsent : ∀ db, request.Unsent framework db) :
    Stopped framework request (.raise (.database .dataError))
  /-- The first id is looked up before the second is sent. -/
  | candidate {baselineId : String}
    (unsent : ∀ db, request.Unsent framework db ↔ (db.session? baselineId).isSome)
    (rendered : ¬ request.Unrendered) :
    Stopped framework request (do
      let _ ← getSessionRow baselineId
      .raise (.database .dataError))

/-- A route that only sends an id is stopped by the driver. -/
theorem Stopped.of_unsent {request : HttpRequest} {id : String} {program : Db Response}
    (sent : storable id = false) (unsent : ∀ db, request.Unsent framework db) :
    Stopped framework request (do Db.sendText id; program) := by
  rw [sendText_unsent sent]
  exact .unsent unsent

theorem stopped_program {request : HttpRequest} (stopped : request.call? framework = none) :
    Stopped framework request (request.program H framework env) := by
  cases request with
  | createSession totalBytes wholeSha256 =>
    rw [HttpRequest.call?] at stopped
    cases validated : SessionCreate.validate framework.endsWord totalBytes wholeSha256 with
    | ok payload =>
      rw [validated] at stopped
      cases stopped
    | error names =>
      simp only [HttpRequest.program, Routes.createSession, validated]
      exact .invalid _ names (fun _ => not_false) not_false
  | listSessions scan status limit offset => cases stopped
  | getSession id =>
    have sent : storable id = false := by simpa [HttpRequest.call?] using stopped
    exact .of_unsent sent fun _ => sent
  | listChunks id =>
    have sent : storable id = false := by simpa [HttpRequest.call?] using stopped
    exact .of_unsent sent fun _ => sent
  | getAuditTrail id =>
    have sent : storable id = false := by simpa [HttpRequest.call?] using stopped
    exact .of_unsent sent fun _ => sent
  | uploadChunk id start length sha256 blocks =>
    rw [HttpRequest.call?] at stopped
    cases received : chunkPayload framework.maxChunkBytes blocks [] with
    | error error =>
      simp only [HttpRequest.program, Routes.uploadChunk, received]
      refine .refused (by simp [chunkPayload_status received]) (fun _ => ?_) not_false
      rintro ⟨⟨⟨payload, passed⟩, -⟩, -⟩
      rw [received] at passed
      cases passed
    | ok payload =>
      rw [received] at stopped
      cases checked : uploadRefusal framework.maxChunkBytes start length sha256 with
      | some error =>
        simp only [HttpRequest.program, Routes.uploadChunk, received, checked]
        refine .refused (uploadRefusal_status checked) (fun _ => ?_) not_false
        rintro ⟨⟨-, admitted⟩, -⟩
        rw [checked] at admitted
        cases admitted
      | none =>
        have sent : storable id = false := by simpa [checked] using stopped
        simp only [HttpRequest.program, Routes.uploadChunk, received, checked]
        exact .of_unsent sent fun _ => ⟨⟨⟨payload, received⟩, checked⟩, sent⟩
  | downloadContent id rangeValues =>
    have sent : storable id = false := by simpa [HttpRequest.call?] using stopped
    exact .of_unsent sent fun _ => sent
  | createComparison baselineId candidateId =>
    by_cases filled : emptyIds baselineId candidateId = []
    · simp only [HttpRequest.program, Routes.createComparison, filled, ne_eq, not_true_eq_false, if_false]
      cases baselineSent : storable baselineId with
      | false => exact .of_unsent baselineSent fun _ => ⟨filled, .inl baselineSent⟩
      | true =>
        have candidateSent : storable candidateId = false := by
          simpa [HttpRequest.call?, filled, baselineSent] using stopped
        rw [sendText_sent baselineSent, if_neg (by simp [candidateSent])]
        refine .candidate (fun db => ?_) not_false
        simp [HttpRequest.Unsent, filled, baselineSent, candidateSent]
    · simp only [HttpRequest.program, Routes.createComparison, filled, ne_eq, not_false_eq_true, if_true]
      exact .invalid _ _ (fun _ unsent => filled unsent.1) not_false
  | getComparison id =>
    have sent : storable id = false := by simpa [HttpRequest.call?] using stopped
    exact .of_unsent sent fun _ => sent
  | compactSession id target =>
    by_cases positive : 0 < target
    · have sent : storable id = false := by simpa [HttpRequest.call?, positive] using stopped
      simp only [HttpRequest.program, Routes.compactSession, Int.not_le.mpr positive, if_false]
      exact .of_unsent sent fun _ => ⟨positive, sent⟩
    · simp only [HttpRequest.program, Routes.compactSession, Int.not_lt.mp positive, if_true]
      exact .invalid _ _ (fun _ unsent => positive unsent.1) not_false
  | malformed names report =>
    cases report with
    | some report => exact .invalid report names (fun _ => not_false) (Option.some_ne_none report)
    | none => exact .unrendered rfl

theorem request_stopped {request : HttpRequest} (stopped : request.call? framework = none) (db : Store) :
    ∃ answer, (request.program H framework env).run db = (answer, db) ∧
      Stops framework request db answer := by
  have stops : Stopped framework request (request.program H framework env) := stopped_program stopped
  generalize request.program H framework env = program at stops
  cases stops with
  | invalid report names sent rendered => exact ⟨_, rfl, .invalid report names (sent db) rendered⟩
  | unrendered unrendered => exact ⟨_, rfl, .unrendered unrendered⟩
  | refused status sent rendered =>
    exact ⟨_, rfl, .refused (List.mem_cons_of_mem _ status) (sent db) rendered⟩
  | unsent unsent => exact ⟨_, rfl, .unsent (unsent db)⟩
  | @candidate baselineId unsent rendered =>
    cases found : db.session? baselineId with
    | none =>
      refine ⟨_, Program.run_bind_of_raised (settle_getSessionRow_missing found),
        .refused ?_ ?_ rendered⟩
      · simp [sessionNotFound]
      · rw [unsent, found]
        simp
    | some session =>
      refine ⟨_, Program.run_bind_of_returned (settle_getSessionRow found), .unsent ?_⟩
      rw [unsent, found]
      rfl

/-- A request makes its call, or leaves the store alone. -/
theorem request_store (request : HttpRequest) (db : Store) :
    (request.serve H framework env db).2 = db ∨
      ∃ call, request.call? framework = some call ∧
        (request.serve H framework env db).2 = ((Call.mk env call).serve H db).2 := by
  cases called : request.call? framework with
  | none =>
    obtain ⟨answer, run, -⟩ := @request_stopped H framework env request called db
    exact .inl (congrArg Prod.snd run)
  | some call => exact .inr ⟨call, rfl, congrArg Prod.snd (request_let called db)⟩

end

end SeismicIngest
