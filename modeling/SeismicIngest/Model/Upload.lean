import SeismicIngest.Model.Database
import SeismicIngest.Spans.Window

/-! # Sessions and chunks

`create_session`, `put_chunk` and their helpers from `app/service.py`.  `H` is
`hashlib.sha256(…).hexdigest()`; a hasher that is fed block by block is the list
of bytes it was fed.

SQLAlchemy keeps the changes of a mapped object until the next flush.  The model
hands them along as the list of pending writes that the next flush or commit
sends.
-/

namespace SeismicIngest

open Transaction Spans

section

variable (H : Bytes → String)

/-- `EMPTY_SHA256`. -/
def emptySha256 : String := H []

/-! ## Lookup -/

def sessionNotFound (sessionId : String) : UploadError where
  statusCode := 404
  code := .sessionNotFound
  message := s!"unknown session id: {sessionId}"

/-- `_get_locked_session`: fetch a session with a row lock. -/
def getLockedSession (sessionId : String) : Db UploadSession := do
  match ← Program.selectForUpdate sessionId fun db => db.session? sessionId with
  | some session => pure session
  | none => Db.refuse (sessionNotFound sessionId)

/-! ## Audit trail -/

/-- `_next_audit_sequence`. -/
def nextAuditSequence (sessionId : String) : Db Int := do
  let current ← Program.select fun db => db.maxSequence sessionId
  pure (current + 1)

def auditWriteFailed : UploadError where
  statusCode := 500
  code := .auditWriteFailed
  message := "failed to persist the archive audit record; transaction rolled back"

/-- The flush of an audit row together with the changes pending on its session. -/
def auditBatch (env : Env) (writes : List Write) : Batch Store DbError where
  rejects db := if env.auditAccepted then Write.rejectsAll writes db else some .operationalError
  apply := Write.applyAll writes

/-- `_add_audit`: append an audit snapshot inside the open transaction. -/
def addAudit (env : Env) (changes : List Write) (session : UploadSession) (event : AuditKind)
    (totalBytes : Int) (wholeSha256 : String) (targetChunkBytes chunksBefore chunksAfter : Option Int) :
    Db Unit := do
  let sequence ← nextAuditSequence session.id
  let row : AuditEvent :=
    { sessionId := session.id, sequence, event, occurredAt := env.now, totalBytes, wholeSha256,
      targetChunkBytes, chunksBefore, chunksAfter }
  match ← Program.send (auditBatch env (changes ++ [.insertAudit row])) with
  | none => pure ()
  | some _ => do
    Db.rollback
    Db.refuse auditWriteFailed

/-! ## Session creation -/

def wholeDigestMismatchAtCreation (wholeSha256 : String) : UploadError where
  statusCode := 422
  code := .wholeDigestMismatch
  message := "session failed terminally: declared whole_sha256 does not match " ++
    "the only possible digest of a 0-byte package; create a new session"
  digest := some wholeSha256
  expectedDigest := some (emptySha256 H)

/-- `create_session`. -/
def createSession (env : Env) (totalBytes : Int) (wholeSha256 : String) : Db UploadSession := do
  let session : UploadSession :=
    { id := env.uuid, totalBytes, wholeSha256, confirmedOffset := 0, status := .active,
      computedSha256 := none, failureReason := none, createdAt := env.now }
  if totalBytes = 0 then
    -- A zero-length package is complete the moment it is registered.
    if wholeSha256 = emptySha256 H then
      let session := { session with
        status := .sealed, confirmedOffset := 0, computedSha256 := some (emptySha256 H) }
      addAudit env [.insertSession session] session .sealed 0 (emptySha256 H) none none none
      Db.commit []
      Db.refresh session
    else
      let session := { session with
        status := .failed
        computedSha256 := some (emptySha256 H)
        failureReason := some ("zero-length package metadata inconsistent: " ++
          "whole_sha256 does not match SHA-256 of empty payload") }
      Db.commit [.insertSession session]
      Db.refuse (wholeDigestMismatchAtCreation H wholeSha256)
  else
    Db.commit [.insertSession session]
    Db.refresh session

/-! ## Reading archived bytes -/

/-- `_chunks_in_range`. -/
def chunksInRange (sessionId : String) (begin stop : Int) : Db (List Chunk) :=
  Program.select fun db => db.chunksOverlapping sessionId begin stop

/-- The loop of `_archived_bytes`: the cursor and the bytes collected when it ends,
    or `none` at a gap. -/
def archivedLoop (stop : Int) : List Chunk → Int → Bytes → Option (Int × Bytes)
  | [], cursor, out => some (cursor, out)
  | chunk :: chunks, cursor, out =>
    if chunk.startOffset > cursor then none
    else
      let overlapEnd := min chunk.endOffset stop
      let relStart := cursor - chunk.startOffset
      let out := out ++ slice chunk.data relStart (overlapEnd - chunk.startOffset)
      if overlapEnd ≥ stop then some (overlapEnd, out)
      else archivedLoop stop chunks overlapEnd out

/-- `_archived_bytes`: concatenate archived chunk bytes for `[begin, stop)`. -/
def archivedBytes (sessionId : String) (begin stop : Int) : Db (Option Bytes) := do
  if begin = stop then pure (some [])
  else
    let chunks ← chunksInRange sessionId begin stop
    match archivedLoop stop chunks begin [] with
    | some (cursor, out) => pure (if cursor = stop then some out else none)
    | none => pure none

/-! ## Acknowledgements -/

/-- The body of an accepted chunk. -/
structure Ack where
  id : String
  status : Status
  startOffset : Int
  length : Int
  chunkSha256 : String
  confirmedOffset : Int
  expectedOffset : Int
  totalBytes : Int
  idempotentReplay : Bool
deriving DecidableEq, Repr

/-- `_ack`. -/
def ack (session : UploadSession) (start length : Int) (chunkDigest : String)
    (idempotentReplay : Bool) : Ack where
  id := session.id
  status := session.status
  startOffset := start
  length := length
  chunkSha256 := chunkDigest
  confirmedOffset := session.confirmedOffset
  expectedOffset := if session.status = .active then session.confirmedOffset else session.totalBytes
  totalBytes := session.totalBytes
  idempotentReplay := idempotentReplay

/-- `_stale_offset_error`. -/
def staleOffsetError (session : UploadSession) (start : Int) : UploadError where
  statusCode := 409
  code := .staleOffset
  message := s!"stale or non-contiguous chunk at offset {start}: the next chunk " ++
    s!"must start at confirmed_offset {session.confirmedOffset}"
  offset := some start
  expectedOffset := some session.confirmedOffset

def sessionFailedTerminal (session : UploadSession) : UploadError where
  statusCode := 409
  code := .sessionFailedTerminal
  message := "session is in the terminal 'failed' state because the whole " ++
    "package digest did not match; it cannot be resumed — create a " ++
    "new session with correct total_bytes/whole_sha256 metadata"
  expectedOffset := some session.confirmedOffset
  expectedDigest := some session.wholeSha256
  details := [("computed_sha256", .ofText session.computedSha256)]

def sealedContentConflict (session : UploadSession) (start : Int) : UploadError where
  statusCode := 409
  code := .sealedContentConflict
  message := s!"sealed archive is immutable: bytes retransmitted at offset " ++
    s!"{start} differ from the sealed content"
  offset := some start
  expectedOffset := some session.totalBytes

def sessionSealed (session : UploadSession) (start : Int) : UploadError where
  statusCode := 409
  code := .sessionSealed
  message := s!"session is already sealed at offset {session.totalBytes}"
  offset := some start
  expectedOffset := some session.totalBytes

/-! ## Replays on a terminal session -/

/-- The refusal of `_terminal_replay` when the range is not echoed. -/
def terminalRefusal (session : UploadSession) (start length : Int) : UploadError :=
  if session.status = .failed then sessionFailedTerminal session
  else if start + length ≤ session.confirmedOffset then sealedContentConflict session start
  else sessionSealed session start

/-- `_terminal_replay`: the idempotency rules that still apply once a session is
    sealed or failed. -/
def terminalReplay (session : UploadSession) (start length : Int) (chunkDigest : String)
    (payload : Bytes) : Db Ack := do
  let stop := start + length
  if (0 ≤ start ∧ start < stop ∧ stop ≤ session.confirmedOffset) ∧
      session.confirmedOffset = session.totalBytes then
    let archived ← archivedBytes session.id start stop
    if archived = some payload then pure (ack session start length chunkDigest true)
    else Db.refuse (terminalRefusal session start length)
  else Db.refuse (terminalRefusal session start length)

/-! ## Finalization -/

/-- The loop of `_verify_and_finalize`: the bytes hashed and the last end, or
    `none` when the stored bytes are discontinuous. -/
def finalizeLoop : List Chunk → Int → Bytes → Option (Int × Bytes)
  | [], cursor, hasher => some (cursor, hasher)
  | chunk :: chunks, cursor, hasher =>
    if chunk.startOffset ≠ cursor then none
    else finalizeLoop chunks chunk.endOffset (hasher ++ chunk.data)

/-- The digest `_verify_and_finalize` computes over the stored chunks. -/
def finalDigest (chunks : List Chunk) (total : Int) : Option String :=
  match finalizeLoop chunks 0 [] with
  | some (cursor, hasher) => if cursor = total then some (H hasher) else none
  | none => none

def sealedSession (session : UploadSession) (computed : String) : UploadSession :=
  { session with
    status := .sealed
    confirmedOffset := session.totalBytes
    computedSha256 := some computed
    failureReason := none }

def failedSession (session : UploadSession) (computed : Option String) : UploadSession :=
  { session with
    status := .failed
    computedSha256 := computed
    failureReason := some (if computed.isSome then
        "whole package SHA-256 mismatch after all bytes were received"
      else "stored chunks are discontinuous or incomplete at finalization") }

/-- `_verify_and_finalize`: the session as it is afterwards, and its changes that
    are still pending. -/
def verifyAndFinalize (env : Env) (session : UploadSession) : Db (UploadSession × List Write) := do
  let total := session.totalBytes
  let chunks ← Program.select fun db => db.chunksOf session.id
  match finalDigest H chunks total with
  | some computed =>
    if computed = session.wholeSha256 then
      let verified := sealedSession session computed
      addAudit env [.updateSession verified] verified .sealed total computed none none none
      pure (verified, [])
    else pure (failedSession session (some computed), [.updateSession (failedSession session (some computed))])
  | none => pure (failedSession session none, [.updateSession (failedSession session none)])

/-! ## Upload of one chunk -/

def invalidOffset (start : Int) : UploadError where
  statusCode := 422
  code := .invalidOffset
  message := "start offset must be >= 0"
  offset := some start

def invalidLength (start declaredLength : Int) : UploadError where
  statusCode := 422
  code := .invalidLength
  message := "declared length must be >= 0"
  offset := some start
  details := [("length", .int declaredLength)]

def lengthMismatch (start declaredLength : Int) (payload : Bytes) : UploadError where
  statusCode := 422
  code := .lengthMismatch
  message := s!"declared length {declaredLength} does not match the " ++
    s!"{payload.length} received body bytes"
  offset := some start
  details := [("declared_length", .int declaredLength), ("actual_length", .int payload.length)]

def chunkDigestMismatch (start : Int) (chunkDigest actualDigest : String) : UploadError where
  statusCode := 400
  code := .chunkDigestMismatch
  message := s!"chunk at offset {start} fails its own SHA-256 check: " ++
    s!"declared {chunkDigest}, recomputed {actualDigest}"
  offset := some start
  digest := some chunkDigest
  expectedDigest := some actualDigest

def chunkBeyondTotal (session : UploadSession) (start stop : Int) : UploadError where
  statusCode := 416
  code := .chunkBeyondTotal
  message := s!"chunk [{start}, {stop}) crosses total_bytes {session.totalBytes}"
  offset := some start
  expectedOffset := some session.confirmedOffset
  details := [("end", .int stop), ("total_bytes", .int session.totalBytes)]

/-- `None` in a formatted string. -/
def noneText : Option String → String
  | some value => value
  | none => "None"

def wholeDigestMismatch (session : UploadSession) : UploadError where
  statusCode := 422
  code := .wholeDigestMismatch
  message := "all bytes received but recomputed whole package SHA-256 " ++
    s!"{noneText session.computedSha256} does not match declared " ++
    s!"{session.wholeSha256}; session is terminally failed, " ++
    "create a new session with correct metadata"
  offset := some session.totalBytes
  digest := some session.wholeSha256
  expectedDigest := session.computedSha256

/-- The structural validation at the head of `put_chunk`, in its order.  Only here does
    a message print integers of the request that no stored row bounds. -/
def putRefusal (session : UploadSession) (start declaredLength : Int) (chunkDigest : String)
    (payload : Bytes) : Option Raised :=
  if start < 0 then some (.upload (invalidOffset start))
  else if declaredLength < 0 then some (.upload (invalidLength start declaredLength))
  else if (payload.length : Int) ≠ declaredLength then
    some ((lengthMismatch start declaredLength payload).printing [declaredLength, payload.length])
  else if H payload ≠ chunkDigest then
    some ((chunkDigestMismatch start chunkDigest (H payload)).printing [start])
  else if start + declaredLength > session.totalBytes then
    some ((chunkBeyondTotal session start (start + declaredLength)).printing
      [start, start + declaredLength, session.totalBytes])
  else none

/-- The row of the expected forward chunk. -/
def forwardChunk (session : UploadSession) (start declaredLength : Int) (chunkDigest : String)
    (payload : Bytes) : Chunk where
  sessionId := session.id
  startOffset := start
  endOffset := start + declaredLength
  length := declaredLength
  sha256 := chunkDigest
  data := payload

/-- The session once its forward chunk is flushed. -/
def advancedSession (session : UploadSession) (start declaredLength : Int) : UploadSession :=
  { session with confirmedOffset := start + declaredLength }

/-- The end of the frontier branch, after its commit: the session is read again, and
    the terminal failure surfaces at the upload that caused it. -/
def acknowledge (session : UploadSession) (finalized : Bool) (start declaredLength : Int)
    (chunkDigest : String) : Db Ack := do
  let session ← Db.refresh session
  if finalized ∧ session.status = .failed then Db.refuse (wholeDigestMismatch session)
  else pure (ack session start declaredLength chunkDigest false)

/-- The frontier branch of `put_chunk`: the expected forward chunk. -/
def putForward (env : Env) (sessionId : String) (session : UploadSession) (start declaredLength : Int)
    (chunkDigest : String) (payload : Bytes) : Db Ack := do
  let stop := start + declaredLength
  match ← Db.flush [.insertChunk (forwardChunk session start declaredLength chunkDigest payload)] with
  | some .integrityError =>
    -- Concurrent duplicate insert: fall back to idempotent semantics.
    Db.rollback
    let session ← getLockedSession sessionId
    let archived ← archivedBytes sessionId start stop
    if archived = some payload then pure (ack session start declaredLength chunkDigest true)
    else Db.refuse (staleOffsetError session start)
  | some error => .raise (.database error)
  | none =>
    let advanced := advancedSession session start declaredLength
    if stop = session.totalBytes then
      let (finalized, changes) ← verifyAndFinalize H env advanced
      Db.commit changes
      acknowledge finalized true start declaredLength chunkDigest
    else
      Db.commit [.updateSession advanced]
      acknowledge advanced false start declaredLength chunkDigest

/-- `put_chunk` on an active session, after its validation. -/
def putActive (env : Env) (sessionId : String) (session : UploadSession) (start declaredLength : Int)
    (chunkDigest : String) (payload : Bytes) : Db Ack := do
  let stop := start + declaredLength
  let confirmed := session.confirmedOffset
  if start = confirmed ∧ stop > confirmed then
    putForward H env sessionId session start declaredLength chunkDigest payload
  else if start = confirmed ∧ stop = confirmed then
    -- Zero-length chunk at the frontier: a harmless idempotent no-op.
    Db.commit []
    pure (ack session start 0 chunkDigest true)
  else if stop ≤ confirmed then
    let archived ← archivedBytes session.id start stop
    if archived = some payload then
      Db.commit []
      pure (ack session start declaredLength chunkDigest true)
    else Db.refuse (staleOffsetError session start)
  else Db.refuse (staleOffsetError session start)

/-- `put_chunk`. -/
def putChunk (env : Env) (sessionId : String) (start declaredLength : Int) (chunkDigest : String)
    (payload : Bytes) : Db Ack := do
  let session ← getLockedSession sessionId
  match putRefusal H session start declaredLength chunkDigest payload with
  | some exception => .raise exception
  | none =>
    if session.status = .sealed ∨ session.status = .failed then
      let echoed ← terminalReplay session start declaredLength chunkDigest payload
      Db.commit []
      pure echoed
    else putActive H env sessionId session start declaredLength chunkDigest payload

end

end SeismicIngest
