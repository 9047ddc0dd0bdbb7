import SeismicIngest.Guarantees.Delivery
import SeismicIngest.Guarantees.DigestGates
import SeismicIngest.Guarantees.ErrorBodies

/-! # Resuming an upload

The client that `README.md` describes sends a package from the last offset it was told,
piece by piece, over a link that may lose a request or a response, and takes the next
offset from what it is told: the confirmed one of an acknowledgement or of the session, or
the expected one of a refusal.  Whatever else is sent in between, as long as no piece of
another content goes to its session, every answer that the client gets to a piece either
follows progress of the package or makes some (`Uploading.answered_send`), so the client
is done after as many answers as bytes are missing, and one more
(`resumed_upload_completes`).  An answer counts when the audit row of its piece is accepted.
-/

namespace SeismicIngest

open Transaction Spans Text

/-! ## The client -/

structure Upload where
  sessionId : String
  package : Bytes
  size : Nat
  positive : 0 < size

/-- The offset that a response tells to go on from. -/
def Response.resumeAt? (response : Response) : Option Int :=
  if response.statusCode = 200 then
    match response.body with
    | .bytes _ => none
    | .text content =>
      (Json.read content).bind fun document =>
        (document.field? "confirmed_offset").bind Json.int?
  else
    response.error?.bind fun error =>
      if error.code = .staleOffset then error.expectedOffset else none

/-- How a body is cut into the blocks that arrive. -/
structure Cutting where
  cut : Bytes → List Bytes
  complete : ∀ body, (cut body).flatten = body

inductive Fate where
  | requestLost
  | responseLost
  | answered
deriving DecidableEq

inductive LinkEvent where
  /-- The server answers somebody else. -/
  | other (env : Env) (request : HttpRequest)
  /-- The client asks for the session. -/
  | ask (env : Env) (fate : Fate)
  /-- The client sends the next piece. -/
  | send (env : Env) (cutting : Cutting) (fate : Fate)

section

variable (H : Bytes → String) (framework : Framework) (upload : Upload)

namespace Upload

def piece (offset : Int) : Bytes :=
  slice upload.package offset (min (offset + upload.size) upload.package.length)

def request (offset : Int) (cutting : Cutting) : HttpRequest :=
  .uploadChunk upload.sessionId offset (upload.piece offset).length (H (upload.piece offset))
    (cutting.cut (upload.piece offset))

/-- The client's offset and the store after an exchange. -/
def exchange (env : Env) (request : HttpRequest) (fate : Fate) (state : Int × Store) : Int × Store :=
  let served := request.serve H framework env state.2
  match fate with
  | .requestLost => state
  | .responseLost => (state.1, served.2)
  | .answered => (served.1.resumeAt?.getD state.1, served.2)

def step (state : Int × Store) : LinkEvent → Int × Store
  | .other env request => (state.1, (request.serve H framework env state.2).2)
  | .ask env fate => exchange H framework env (.getSession upload.sessionId) fate state
  | .send env cutting fate =>
    -- a client that has sent everything is done
    if state.1 = upload.package.length then state
    else exchange H framework env (upload.request H state.1 cutting) fate state

def run (events : List LinkEvent) (state : Int × Store) : Int × Store :=
  events.foldl (upload.step H framework) state

end Upload

/-- What is sent by others keeps to the package. -/
def LinkEvent.Faithful : LinkEvent → Prop
  | .other env request =>
    ∀ call, request.call? framework = some call →
      SeismicIngest.Faithful H upload.package upload.sessionId ⟨env, call⟩
  | .ask _ _ | .send _ _ _ => True

/-- The client gets an answer to a piece, and the database has taken audit rows. -/
def LinkEvent.counts : LinkEvent → Bool
  | .send env _ .answered => env.auditAccepted
  | _ => false

variable {H framework upload}

/-! ## One piece -/

section Piece

variable {db : Store} {session : UploadSession} {offset : Int} {env : Env} {piece : Bytes}

/-- The response to an upload that ended so. -/
def ackResponse (answer : Except Raised Ack) : Response :=
  answered (answer.map fun body => jsonResponse 200 body.toJson)

theorem resumeAt_ack (body : Ack) :
    (ackResponse (.ok body)).resumeAt? = some body.confirmedOffset := by
  have ok : (ackResponse (.ok body)).statusCode = 200 := rfl
  rw [Response.resumeAt?, if_pos ok]
  change (Json.read body.toJson.write).bind _ = _
  rw [Json.read_write]
  rfl

theorem resumeAt_stale (session : UploadSession) (start : Int) :
    (ackResponse (.error (.upload (staleOffsetError session start)))).resumeAt? =
      some session.confirmedOffset := by
  change (uploadErrorHandler (staleOffsetError session start)).resumeAt? = _
  rw [Response.resumeAt?, if_neg (by simp [uploadErrorHandler, staleOffsetError]),
    error?_uploadErrorHandler]
  rfl

theorem resumeAt_aborted : (ackResponse (.error (.upload auditWriteFailed))).resumeAt? = none := by
  change (uploadErrorHandler auditWriteFailed).resumeAt? = _
  rw [Response.resumeAt?, if_neg (by simp [uploadErrorHandler, auditWriteFailed]),
    error?_uploadErrorHandler]
  rfl

/-- A put that passes its own checks runs its plan. -/
theorem admitted_run (sound : Sound H db) (found : db.session? session.id = some session) (env : Env)
    (lower : 0 ≤ offset) (within : offset + piece.length ≤ session.totalBytes) :
    let plan := admittedPlan H env session offset piece.length (H piece) piece
      (contentOf (db.rowsOf session.id).chunks)
    (putChunk H env session.id offset piece.length (H piece) piece).run db =
      (plan.answer offset piece.length (H piece), Write.applyAll plan.writes db) := by
  intro plan
  have admitted : putRefusal H session offset piece.length (H piece) piece = none :=
    putRefusal_none.mpr ⟨lower, by omega, rfl, rfl, within⟩
  have run := run_putChunk env offset piece.length (H piece) piece (sound.rows session.id)
  rw [putPlan_admitted found admitted] at run
  exact run

/-- A piece of the package at an offset that is confirmed tells where to go on, and makes
    progress at the frontier; only a sealing without its audit row tells nothing. -/
theorem put_tells (sound : Sound H db) (carries : Carries H upload.package (db.rowsOf session.id))
    (found : db.session? session.id = some session) (lower : 0 ≤ offset)
    (told : offset ≤ session.confirmedOffset) (nonempty : piece ≠ [])
    (within : offset + piece.length ≤ upload.package.length)
    (carried : piece = slice upload.package offset (offset + piece.length)) :
    let run := (putChunk H env session.id offset piece.length (H piece) piece).run db
    (∃ ended, run.2.session? session.id = some ended ∧
        (ackResponse run.1).resumeAt? = some ended.confirmedOffset ∧
        (offset = session.confirmedOffset → session.confirmedOffset < ended.confirmedOffset)) ∨
      (env.auditAccepted = false ∧ (ackResponse run.1).resumeAt? = none ∧ run.2 = db) := by
  intro run
  have consistent := sound.consistent found
  obtain ⟨stored, storedFound, total, whole, alive, archived⟩ := id carries
  obtain rfl : stored = session := Option.some.inj (storedFound.symm.trans found)
  have filled := List.length_pos_iff.mpr nonempty
  have length := consistent.length
  by_cases active : stored.status = .active
  · by_cases frontier : offset = stored.confirmedOffset
    · -- the next bytes of the package
      have forward : Forward H db stored offset piece.length (H piece) piece :=
        ⟨found, consistent, active, frontier, by omega, rfl, rfl, by omega⟩
      have faithful : Faithful H upload.package stored.id
          ⟨env, .putChunk stored.id offset piece.length (H piece) piece⟩ := by
        rintro start declaredLength chunkDigest payload request - - - -
        cases request
        exact carried
      have kept := (serve_rows sound _ stored.id).carries faithful carries
      rw [serve_putChunk] at kept
      obtain ⟨ended, finalized, writes, audits, outcome, answered, left⟩ | ⟨-, -, refused, aborted⟩ :=
        forward.served env offset piece.length (H piece) piece
      · have endedFound : run.2.session? stored.id = some ended := congrArg SessionRows.row left
        have notFailed : ended.status ≠ .failed := by
          obtain ⟨other, otherFound, -, -, otherAlive, -⟩ := kept
          rwa [Option.some.inj (otherFound.symm.trans endedFound)] at otherAlive
        obtain ⟨-, -, -, confirmed⟩ := outcome.ended
        refine .inl ⟨ended, endedFound, ?_, fun _ => by omega⟩
        have answer : run.1 = _ := answered
        rw [answer, if_neg notFailed, resumeAt_ack]
        rfl
      · refine .inr ⟨refused, ?_, congrArg Prod.snd aborted⟩
        have answer : run.1 = _ := congrArg Prod.fst aborted
        rw [answer, resumeAt_aborted]
    · -- bytes that are confirmed are acknowledged again, and others are stale
      have decided : run = _ := admitted_run sound found env lower (by omega)
      rw [admittedPlan, if_pos active, if_neg fun both => frontier both.1] at decided
      refine .inl ⟨stored, ?_, ?_, fun same => absurd same frontier⟩
      · rw [decided]
        split <;> exact found
      · rw [decided]
        split
        · exact resumeAt_ack _
        · exact resumeAt_stale _ _
  · -- a sealed package holds every piece
    have complete := consistent.complete active
    have decided : run = _ := admitted_run sound found env lower (by omega)
    have echoes : Echoes stored offset piece.length piece (contentOf (db.rowsOf stored.id).chunks) := by
      have whole : contentOf (db.rowsOf stored.id).chunks = upload.package :=
        archived.eq_of_length (by omega)
      rw [Echoes, whole]
      exact ⟨by omega, carried.symm⟩
    rw [admittedPlan, if_neg active, if_pos ⟨by omega, echoes⟩] at decided
    refine .inl ⟨stored, ?_, ?_, fun same => by omega⟩
    · rw [decided]
      exact found
    · rw [decided]
      exact resumeAt_ack _

end Piece

/-! ## One exchange -/

section Exchange

theorem chunkPayload_complete {maxChunkBytes : Int} {blocks : List Bytes} {payload : Bytes}
    (fits : ((payload ++ blocks.flatten).length : Int) ≤ maxChunkBytes) :
    chunkPayload maxChunkBytes blocks payload = .ok (payload ++ blocks.flatten) := by
  induction blocks generalizing payload with
  | nil => rw [chunkPayload, List.flatten_nil, List.append_nil]
  | cons block blocks inductionHypothesis =>
    rw [List.flatten_cons, ← List.append_assoc] at fits ⊢
    have front : ¬ ((payload ++ block).length : Int) > maxChunkBytes := by
      rw [List.length_append] at fits
      omega
    rw [chunkPayload, if_neg front]
    exact inductionHypothesis fits

/-- The lower case of what is in lower case. -/
theorem IsHexdigest.lower_eq {endsWord : EndsWord} {text : List Char} (hex : IsHexdigest text) :
    lower endsWord text = text := by
  obtain ⟨length, digits⟩ := isHexdigest_iff.mp hex
  have unchanged : ∀ c ∈ text, c.toLower = c := by
    intro c member
    have code := isLowerHex_codes.mp (digits c member)
    refine Char.toNat_inj.mp ?_
    rw [toNat_toLower, if_neg (by omega)]
  have same : text.map Char.toLower = text :=
    (List.map_congr_left unchanged).trans (List.map_id' text)
  rw [lower_digest fun c member => by rw [unchanged c member]; exact digits c member, same]

variable (hex : ∀ data, IsHexdigest (H data).toList)
  (limit : (upload.size : Int) ≤ framework.maxChunkBytes) (sent : storable upload.sessionId = true)

include hex limit sent

/-- The piece reaches the service as it was sent, however it is cut. -/
theorem Upload.request_call {offset : Int} (lower' : 0 ≤ offset) (within : offset ≤ upload.package.length)
    (cutting : Cutting) :
    (upload.request H offset cutting).call? framework =
      some (.putChunk upload.sessionId offset (upload.piece offset).length (H (upload.piece offset))
        (upload.piece offset)) := by
  have length : ((upload.piece offset).length : Int) =
      min (offset + upload.size) upload.package.length - offset :=
    slice_length _ lower' (by omega) (by omega)
  have received : chunkPayload framework.maxChunkBytes (cutting.cut (upload.piece offset)) [] =
      .ok (upload.piece offset) := by
    have complete := cutting.complete (upload.piece offset)
    rw [chunkPayload_complete (by rw [List.nil_append, complete]; omega), List.nil_append, complete]
  have digest := hex (upload.piece offset)
  have digits : IsDigest (H (upload.piece offset)).toList := by
    rw [← @isHexdigest_lower framework.endsWord, digest.lower_eq]
    exact digest
  have admitted : uploadRefusal framework.maxChunkBytes offset (upload.piece offset).length
      (H (upload.piece offset)) = none :=
    uploadRefusal_admitted (sha256QueryRe_matches.mpr (.inl digits)) lower' (by omega) (by omega)
  rw [Upload.request, HttpRequest.call?]
  simp only [received]
  rw [if_pos ⟨admitted, sent⟩, digest.lower_eq, String.ofList_toList]

/-- A piece that is answered, or whose answer is lost. -/
theorem Upload.request_served {db : Store} {session : UploadSession} {offset : Int} (sound : Sound H db)
    (carries : Carries H upload.package (db.rowsOf upload.sessionId))
    (found : db.session? upload.sessionId = some session) (lower : 0 ≤ offset)
    (told : offset ≤ session.confirmedOffset) (more : offset ≠ upload.package.length) (env : Env)
    (cutting : Cutting) :
    let served := (upload.request H offset cutting).serve H framework env db
    (∃ ended, served.2.session? upload.sessionId = some ended ∧
        served.1.resumeAt? = some ended.confirmedOffset ∧
        (offset = session.confirmedOffset → session.confirmedOffset < ended.confirmedOffset)) ∨
      (env.auditAccepted = false ∧ served.1.resumeAt? = none ∧ served.2 = db) := by
  intro served
  have consistent := sound.consistent found
  have bounded := consistent.bounded
  obtain ⟨stored, storedFound, total, -⟩ := id carries
  obtain rfl : stored = session := Option.some.inj (storedFound.symm.trans found)
  have own : stored.id = upload.sessionId := session?_id found
  have before : offset < upload.package.length := by omega
  have positive := upload.positive
  have length : ((upload.piece offset).length : Int) =
      min (offset + upload.size) upload.package.length - offset :=
    slice_length _ lower (by omega) (by omega)
  have filled : upload.piece offset ≠ [] := by
    rw [← List.length_pos_iff]
    omega
  have carried : upload.piece offset =
      slice upload.package offset (offset + (upload.piece offset).length) := by
    rw [length, show offset + (min (offset + upload.size) upload.package.length - offset) =
      min (offset + upload.size) upload.package.length by omega]
    rfl
  have made := @request_let H framework env _ _
    (upload.request_call hex limit sent lower (by omega) cutting) db
  let run := (putChunk H env upload.sessionId offset (upload.piece offset).length
    (H (upload.piece offset)) (upload.piece offset)).run db
  have response : served = (ackResponse run.1, run.2) := by
    rw [Makes, serve_putChunk] at made
    change (answered _, _) = _
    rw [made]
    change (answered ((run.1.map Reply.ack).map _), run.2) = _
    cases run.1 <;> rfl
  have tells := @put_tells H upload db stored offset env _ sound (by rw [own]; exact carries)
    (by rw [own]; exact found) lower told filled (by omega) carried
  rw [own] at tells
  rw [response]
  exact tells

omit hex limit in
/-- The answer to a question for the session. -/
theorem Upload.ask_served {db : Store} {session : UploadSession}
    (found : db.session? upload.sessionId = some session) (env : Env) :
    let served := (HttpRequest.getSession upload.sessionId).serve H framework env db
    served.2 = db ∧ served.1.resumeAt? = some session.confirmedOffset := by
  intro served
  have run : (getSession upload.sessionId).run db = (.ok (sessionToResponse session), db) :=
    Program.run_bind_of_returned (settle_getSessionRow found)
  have response : served = (jsonResponse 200 (sessionToResponse session).toJson, db) := by
    change (answered _, _) = _
    rw [HttpRequest.program, Routes.getSession, run_sendText, if_pos sent, Program.run_map, run]
    rfl
  have ok : (jsonResponse 200 (sessionToResponse session).toJson).statusCode = 200 := rfl
  rw [response]
  refine ⟨rfl, ?_⟩
  change (jsonResponse 200 (sessionToResponse session).toJson).resumeAt? = _
  rw [Response.resumeAt?, if_pos ok]
  change (Json.read (sessionToResponse session).toJson.write).bind _ = _
  rw [Json.read_write]
  rfl

end Exchange

/-! ## One event -/

variable (H upload) in
/-- The session carries the package, and the client knows an offset that is confirmed. -/
structure Uploading (state : Int × Store) (session : UploadSession) : Prop where
  sound : Sound H state.2
  carries : Carries H upload.package (state.2.rowsOf upload.sessionId)
  found : state.2.session? upload.sessionId = some session
  lower : 0 ≤ state.1
  told : state.1 ≤ session.confirmedOffset

variable (upload) in
/-- The bytes that are missing, and one more while the client does not know how many. -/
def missing (offset : Int) (session : UploadSession) : Int :=
  upload.package.length - session.confirmedOffset + if offset = session.confirmedOffset then 0 else 1

namespace Uploading

variable {offset : Int} {db after : Store} {session : UploadSession}

theorem within (uploading : Uploading H upload (offset, db) session) :
    session.confirmedOffset ≤ upload.package.length := by
  obtain ⟨stored, storedFound, total, -⟩ := uploading.carries
  obtain rfl : stored = session := Option.some.inj (storedFound.symm.trans uploading.found)
  have bounded := (uploading.sound.consistent uploading.found).bounded
  omega

theorem missing_nonneg (uploading : Uploading H upload (offset, db) session) :
    0 ≤ missing upload offset session := by
  have within := uploading.within
  rw [missing]
  split <;> omega

/-- Calls that keep to the package only confirm more of it. -/
theorem moved (uploading : Uploading H upload (offset, db) session)
    (kept : after = db ∨
      ∃ call, Faithful H upload.package upload.sessionId call ∧ after = (call.serve H db).2) :
    ∃ ended, Uploading H upload (offset, after) ended ∧
      session.confirmedOffset ≤ ended.confirmedOffset := by
  obtain rfl | ⟨call, faithful, rfl⟩ := kept
  · exact ⟨session, uploading, Int.le_refl _⟩
  · obtain ⟨ended, endedFound, evolves⟩ :=
      evolves_of_later uploading.sound (.single ⟨call, rfl⟩) uploading.found
    exact ⟨ended, ⟨uploading.sound.serve call,
      (serve_rows uploading.sound call _).carries faithful uploading.carries, endedFound, uploading.lower,
      Int.le_trans uploading.told evolves.confirmed⟩, evolves.confirmed⟩

theorem missing_moved (uploading : Uploading H upload (offset, db) session) {ended : UploadSession}
    (confirmed : session.confirmedOffset ≤ ended.confirmedOffset) :
    missing upload offset ended ≤ missing upload offset session := by
  have told : offset ≤ session.confirmedOffset := uploading.told
  rw [missing, missing]
  split_ifs <;> omega

/-- The client goes on from the offset that is confirmed. -/
theorem resumed (uploading : Uploading H upload (offset, db) session) :
    Uploading H upload (session.confirmedOffset, db) session :=
  { uploading with
    lower := Int.le_trans uploading.lower uploading.told
    told := Int.le_refl _ }

theorem missing_resumed (offset : Int) (session : UploadSession) :
    missing upload session.confirmedOffset session ≤ missing upload offset session := by
  rw [missing, missing, if_pos rfl]
  split_ifs <;> omega

/-- An exchange tells the offset that is confirmed, or nothing. -/
theorem exchanged (uploading : Uploading H upload (offset, db) session) {env : Env}
    {request : HttpRequest} {ended : UploadSession}
    (moved : Uploading H upload (offset, (request.serve H framework env db).2) ended)
    (tells : (request.serve H framework env db).1.resumeAt? = some ended.confirmedOffset ∨
      (request.serve H framework env db).1.resumeAt? = none)
    (confirmed : session.confirmedOffset ≤ ended.confirmedOffset) (fate : Fate) :
    ∃ left, let state := Upload.exchange H framework env request fate (offset, db)
      Uploading H upload state left ∧ missing upload state.1 left ≤ missing upload offset session := by
  have fewer := uploading.missing_moved confirmed
  cases fate with
  | requestLost => exact ⟨session, uploading, Int.le_refl _⟩
  | responseLost => exact ⟨ended, moved, fewer⟩
  | answered =>
    obtain told | nothing := tells
    · refine ⟨ended, ?_⟩
      simp only [Upload.exchange, told, Option.getD_some]
      exact ⟨moved.resumed, Int.le_trans (missing_resumed offset ended) fewer⟩
    · refine ⟨ended, ?_⟩
      simp only [Upload.exchange, nothing, Option.getD_none]
      exact ⟨moved, fewer⟩

section Sends

variable (hex : ∀ data, IsHexdigest (H data).toList)
  (limit : (upload.size : Int) ≤ framework.maxChunkBytes) (sent : storable upload.sessionId = true)
  (uploading : Uploading H upload (offset, db) session) {env : Env} {cutting : Cutting}

include hex limit sent uploading

/-- A piece that is sent only confirms more of the package, and tells where to go on. -/
theorem sending (more : offset ≠ upload.package.length) :
    let served := (upload.request H offset cutting).serve H framework env db
    ∃ ended, Uploading H upload (offset, served.2) ended ∧
      session.confirmedOffset ≤ ended.confirmedOffset ∧
      (served.1.resumeAt? = some ended.confirmedOffset ∧
          (offset = session.confirmedOffset → session.confirmedOffset < ended.confirmedOffset) ∨
        env.auditAccepted = false ∧ served.1.resumeAt? = none) := by
  intro served
  obtain ⟨ended, endedFound, tells, progress⟩ | ⟨refused, nothing, unchanged⟩ :=
    Upload.request_served hex limit sent uploading.sound uploading.carries uploading.found
      uploading.lower uploading.told more env cutting
  · have called := upload.request_call hex limit sent uploading.lower
      (Int.le_trans uploading.told uploading.within) cutting
    have after := congrArg Prod.snd (@request_let H framework env _ _ called db)
    -- the piece is the package's at its span
    have faithful : Faithful H upload.package upload.sessionId ⟨env, .putChunk upload.sessionId offset
        (upload.piece offset).length (H (upload.piece offset)) (upload.piece offset)⟩ := by
      rintro start declaredLength chunkDigest payload request lower - - within
      cases request
      have length : ((upload.piece offset).length : Int) =
          min (offset + upload.size) upload.package.length - offset := by
        have told : offset ≤ session.confirmedOffset := uploading.told
        have within := uploading.within
        exact slice_length _ lower (by omega) (by omega)
      rw [length, show offset + (min (offset + upload.size) upload.package.length - offset) =
        min (offset + upload.size) upload.package.length by omega]
      rfl
    obtain ⟨other, moved, confirmed⟩ := uploading.moved (.inr ⟨_, faithful, after⟩)
    obtain rfl : other = ended := Option.some.inj (moved.found.symm.trans endedFound)
    exact ⟨other, moved, confirmed, .inl ⟨tells, progress⟩⟩
  · obtain ⟨other, moved, confirmed⟩ := uploading.moved (.inl unchanged)
    exact ⟨other, moved, confirmed, .inr ⟨refused, nothing⟩⟩

/-- An answer to a piece brings the client closer: at the frontier the piece is confirmed,
    and elsewhere the client learns the frontier. -/
theorem answered_send (more : offset ≠ upload.package.length) (accepted : env.auditAccepted = true) :
    let state := Upload.exchange H framework env (upload.request H offset cutting) .answered (offset, db)
    ∃ ended, Uploading H upload state ended ∧
      missing upload state.1 ended < missing upload offset session := by
  intro state
  obtain ⟨ended, moved, confirmed, ⟨tells, progress⟩ | ⟨refused, -⟩⟩ :=
    @sending H framework upload offset db session hex limit sent uploading env cutting more
  · have told : state.1 = ended.confirmedOffset := by
      simp only [state, Upload.exchange, tells, Option.getD_some]
    have left : state = (ended.confirmedOffset, state.2) := Prod.ext told rfl
    rw [left]
    refine ⟨ended, moved.resumed, ?_⟩
    rw [missing, missing, if_pos rfl]
    by_cases frontier : offset = session.confirmedOffset
    · have further := progress frontier
      rw [if_pos frontier]
      omega
    · rw [if_neg frontier]
      omega
  · rw [accepted] at refused
    cases refused

end Sends

/-- Nothing is missing once the client has sent everything. -/
theorem missing_done (uploading : Uploading H upload (offset, db) session)
    (done : offset = upload.package.length) : missing upload offset session = 0 := by
  have within := uploading.within
  have told : offset ≤ session.confirmedOffset := uploading.told
  rw [missing, if_pos (by omega)]
  omega

theorem done_of_missing (uploading : Uploading H upload (offset, db) session)
    (nothing : missing upload offset session = 0) :
    offset = upload.package.length ∧ session.confirmedOffset = upload.package.length := by
  have within := uploading.within
  rw [missing] at nothing
  split at nothing <;> omega

section Runs

variable (hex : ∀ data, IsHexdigest (H data).toList)
  (limit : (upload.size : Int) ≤ framework.maxChunkBytes) (sent : storable upload.sessionId = true)

include hex limit sent

/-- No event takes the client back, and an answer to a piece brings it closer. -/
theorem stepped {state : Int × Store} (uploading : Uploading H upload state session) {event : LinkEvent}
    (faithful : event.Faithful H framework upload) :
    let after := upload.step H framework state event
    ∃ ended, Uploading H upload after ended ∧
      missing upload after.1 ended ≤ missing upload state.1 session ∧
      (event.counts = true → missing upload after.1 ended < missing upload state.1 session ∨
        missing upload after.1 ended = 0) := by
  intro after
  obtain ⟨offset, db⟩ := state
  cases event with
  | other env request =>
    have kept : (request.serve H framework env db).2 = db ∨ ∃ call,
        SeismicIngest.Faithful H upload.package upload.sessionId call ∧
          (request.serve H framework env db).2 = (call.serve H db).2 := by
      obtain unchanged | ⟨call, called, served⟩ := @request_store H framework env request db
      · exact .inl unchanged
      · exact .inr ⟨⟨env, call⟩, faithful call called, served⟩
    obtain ⟨ended, moved, confirmed⟩ := uploading.moved kept
    exact ⟨ended, moved, uploading.missing_moved confirmed, fun counts => by cases counts⟩
  | ask env fate =>
    obtain ⟨unchanged, tells⟩ := @Upload.ask_served H framework upload sent db session uploading.found env
    obtain ⟨left, uploadingLeft, fewer⟩ := @exchanged H framework upload offset db session uploading env
      (.getSession upload.sessionId) session (by rw [unchanged]; exact uploading) (.inl tells)
      (Int.le_refl _) fate
    exact ⟨left, uploadingLeft, fewer, fun counts => by cases counts⟩
  | send env cutting fate =>
    by_cases done : offset = upload.package.length
    · -- the client is done
      have same : after = (offset, db) := if_pos done
      rw [same]
      exact ⟨session, uploading, Int.le_refl _, fun _ => .inr (uploading.missing_done done)⟩
    · have exchange : after =
          Upload.exchange H framework env (upload.request H offset cutting) fate (offset, db) := if_neg done
      rw [exchange]
      obtain ⟨ended, moved, confirmed, tells⟩ :=
        @sending H framework upload offset db session hex limit sent uploading env cutting done
      by_cases counted : (LinkEvent.send env cutting fate).counts = true
      · -- the answer arrives
        cases fate with
        | requestLost => cases counted
        | responseLost => cases counted
        | answered =>
          obtain ⟨left, uploadingLeft, fewer⟩ := @answered_send H framework upload offset db session hex
            limit sent uploading env cutting done counted
          exact ⟨left, uploadingLeft, Int.le_of_lt fewer, fun _ => .inl fewer⟩
      · obtain ⟨left, uploadingLeft, fewer⟩ := uploading.exchanged moved (tells.imp And.left And.right)
          confirmed fate
        exact ⟨left, uploadingLeft, fewer, fun counts => absurd counts counted⟩

/-- A run brings the client closer by as many bytes as it gets answers, until it is done. -/
theorem ran {events : List LinkEvent} (faithful : ∀ event ∈ events, event.Faithful H framework upload)
    {state : Int × Store} (uploading : Uploading H upload state session) :
    let after := upload.run H framework events state
    ∃ ended, Uploading H upload after ended ∧
      (missing upload after.1 ended = 0 ∨
        missing upload after.1 ended + events.countP LinkEvent.counts ≤ missing upload state.1 session) := by
  induction events generalizing state session with
  | nil => exact ⟨session, uploading, .inr (by simp [Upload.run])⟩
  | cons event events inductionHypothesis =>
    obtain ⟨middle, moved, fewer, strictly⟩ := @stepped H framework upload session hex limit sent state
      uploading event (faithful event List.mem_cons_self)
    obtain ⟨ended, left, done⟩ := inductionHypothesis
      (fun other member => faithful other (List.mem_cons_of_mem _ member)) moved
    refine ⟨ended, left, ?_⟩
    change missing upload (upload.run H framework events _).1 ended = 0 ∨
      missing upload (upload.run H framework events _).1 ended + _ ≤ _
    have nonneg : 0 ≤ missing upload (upload.run H framework events (upload.step H framework state event)).1
      ended := missing_nonneg left
    obtain done | closer := done
    · exact .inl done
    · cases counts : event.counts with
      | false =>
        rw [List.countP_cons_of_neg (by simp [counts])]
        exact .inr (by omega)
      | true =>
        rw [List.countP_cons_of_pos counts]
        obtain less | nothing := strictly counts
        · exact .inr (by omega)
        · exact .inl (by omega)

end Runs

end Uploading

/-! ## The upload -/

/-- However the link behaves and whatever else is sent, other contents for its session
    excepted, a client that resumes from what it is told has its package sealed after as
    many answers as bytes are missing and one more, and the content that is then downloaded
    is the package. -/
theorem resumed_upload_completes {db : Store} (reachable : Reachable H db)
    (carries : Carries H upload.package (db.rowsOf upload.sessionId)) {session : UploadSession}
    (found : db.session? upload.sessionId = some session) {offset : Int} (lower : 0 ≤ offset)
    (told : offset ≤ session.confirmedOffset) (hex : ∀ data, IsHexdigest (H data).toList)
    (limit : (upload.size : Int) ≤ framework.maxChunkBytes) (sent : storable upload.sessionId = true)
    {events : List LinkEvent} (faithful : ∀ event ∈ events, event.Faithful H framework upload)
    (enough : upload.package.length - session.confirmedOffset + 1 ≤
      (events.countP LinkEvent.counts : Int)) :
    let state := upload.run H framework events (offset, db)
    state.1 = upload.package.length ∧
      (∃ ended, state.2.session? upload.sessionId = some ended ∧ ended.status = .sealed) ∧
      ∀ env, let downloaded := (HttpRequest.downloadContent upload.sessionId []).serve H framework env state.2
        downloaded.1.statusCode = 200 ∧ downloaded.1.body = .bytes upload.package := by
  intro state
  have uploading : Uploading H upload (offset, db) session :=
    ⟨reachable.sound, carries, found, lower, told⟩
  obtain ⟨ended, left, closer⟩ :=
    @Uploading.ran H framework upload session hex limit sent events faithful (offset, db) uploading
  have nonneg : 0 ≤ missing upload state.1 ended := Uploading.missing_nonneg left
  have atMost : missing upload offset session ≤ upload.package.length - session.confirmedOffset + 1 := by
    rw [missing]
    split <;> omega
  have nothing : missing upload state.1 ended = 0 := by
    obtain done | closer := closer
    · exact done
    · change missing upload state.1 ended + _ ≤ missing upload offset session at closer
      omega
  obtain ⟨done, complete⟩ := Uploading.done_of_missing left nothing
  have isSealed : ended.status = .sealed := by
    obtain ⟨stored, storedFound, total, -, alive, -⟩ := left.carries
    obtain rfl : stored = ended := Option.some.inj (storedFound.symm.trans left.found)
    exact (sealed_iff_complete (left.sound.consistent left.found) alive).mpr (complete.trans total.symm)
  refine ⟨done, ⟨ended, left.found, isSealed⟩, fun env => ?_⟩
  have downloaded : (HttpRequest.downloadContent upload.sessionId []).serve H framework env state.2 =
      (answered (.ok ⟨200, (wholeDownload ended upload.package).headers, .bytes upload.package⟩), state.2) := by
    change (answered _, _) = _
    rw [HttpRequest.program, Routes.downloadContent, run_sendText, if_pos sent, Program.run_map,
      download_package left.sound left.carries left.found isSealed]
    rfl
  intro served
  rw [show served = _ from downloaded]
  exact ⟨rfl, rfl⟩

/-- A lost request, a lost response, a piece that somebody else has sent, and answers. -/
theorem resumed_upload_completes_lossy :
    let H : Bytes → String := fun _ => "ba7816bf8f01cfea414140de5dae2223b00361a396177a9cb410ff61f20015ad"
    let framework : Framework := ⟨4, fun _ _ => false, fun _ => "", fun _ => .null⟩
    let upload : Upload := ⟨"s", [1, 2, 3], 2, by decide⟩
    let env : Env := ⟨"", 0, true⟩
    let cutting : Cutting := ⟨fun body => [body], fun body => List.append_nil body⟩
    let db := serveAll H [⟨⟨"s", 0, true⟩, .createSession 3 (H [])⟩] Store.empty
    let send := LinkEvent.send env cutting
    let sibling : Upload := ⟨"s", [1, 2, 3], 1, by decide⟩
    let events := [send .requestLost, send .responseLost, .ask env .requestLost,
      .other env (sibling.request H 2 cutting), send .answered, send .answered, send .answered, send .answered]
    let state := upload.run H framework events (0, db)
    state.1 = 3 ∧ (∃ ended, state.2.session? "s" = some ended ∧ ended.status = .sealed) ∧
      ∀ env, let downloaded := (HttpRequest.downloadContent "s" []).serve H framework env state.2
        downloaded.1.statusCode = 200 ∧ downloaded.1.body = .bytes [1, 2, 3] := by
  intro H framework upload env cutting db send sibling events
  have hex : ∀ data, IsHexdigest (H data).toList := fun _ =>
    isHexdigest_iff.mpr ⟨by decide, List.all_eq_true.mp (by decide)⟩
  have faithful : ∀ event ∈ events, event.Faithful H framework upload := by
    intro event member
    simp only [events, send, List.mem_cons, List.not_mem_nil, or_false] at member
    rcases member with rfl | rfl | rfl | rfl | rfl | rfl | rfl | rfl
    case inr.inr.inr.inl =>
      rintro call called start declaredLength chunkDigest payload request lower - - -
      have sent := @Upload.request_call H framework sibling hex (by decide) (by decide) 2 (by decide)
        (by decide) cutting
      obtain rfl : _ = call := Option.some.inj (sent.symm.trans called)
      cases request
      decide
    all_goals exact trivial
  exact @resumed_upload_completes H framework upload db (.single ⟨_, rfl⟩)
    ⟨⟨"s", 3, H [], 0, .active, none, none, 0⟩, by decide, rfl, rfl, by decide, List.nil_prefix⟩
    ⟨"s", 3, H [], 0, .active, none, none, 0⟩ (by decide) 0 (by decide) (by decide) hex (by decide)
    (by decide) events faithful (by decide)

end

end SeismicIngest
