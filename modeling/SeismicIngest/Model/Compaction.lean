import SeismicIngest.Model.Upload

/-! # Sealed archive compaction

`_planned_spans`, `compact_sealed` and `_compact_result` from `app/service.py`.
The loops over the old and the new rows are separate definitions, and so are the
two ways a successful compaction ends: the no-op, when the stored layout already
is the planned one, and the rewrite.

The parameter `target_chunk_bytes` is an `Int` here, which leaves out the
`isinstance` test at the head of `compact_sealed`.
-/

namespace SeismicIngest

open Transaction Spans

section

variable (H : Bytes → String)

/-! ## The planned layout -/

/-- `range(start, stop, step)` with a positive step. -/
def pyRange (start stop step : Int) : List Int :=
  (List.range ((stop - start + step - 1) / step).toNat).map fun k : Nat => start + k * step

/-- `_planned_spans`: contiguous spans of at most the target size. -/
def plannedSpans (total targetChunkBytes : Int) : List (Int × Int) :=
  (pyRange 0 total targetChunkBytes).map fun off => (off, min (off + targetChunkBytes) total)

/-- `(start_offset, end_offset, length, sha256)` of one row. -/
structure LayoutRow where
  startOffset : Int
  endOffset : Int
  length : Int
  sha256 : String
deriving DecidableEq, Repr

def Chunk.layoutRow (chunk : Chunk) : LayoutRow :=
  ⟨chunk.startOffset, chunk.endOffset, chunk.length, chunk.sha256⟩

/-- `new_layout`. -/
def newLayout (buffer : Bytes) (plan : List (Int × Int)) : List LayoutRow :=
  plan.map fun (off, stop) => ⟨off, stop, stop - off, H (slice buffer off stop)⟩

/-! ## Errors -/

def invalidTarget (targetChunkBytes : Int) : UploadError where
  statusCode := 422
  code := .invalidTargetChunkBytes
  message := "target_chunk_bytes must be a positive integer"
  details := [("target_chunk_bytes", .int targetChunkBytes)]

def compactionStateConflict (session : UploadSession) : UploadError where
  statusCode := 409
  code := .compactionStateConflict
  message := s!"only sealed sessions can be compacted (state={session.status.text})"
  expectedOffset := some session.confirmedOffset
  details := [("status", .text session.status.text)]

def compactionDiscontinuous (cursor : Int) : UploadError where
  statusCode := 500
  code := .compactionIntegrityError
  message := s!"stored chunks are discontinuous at offset {cursor}; refusing to compact"
  expectedOffset := some cursor

def compactionTotalLength (total cursor : Int) : UploadError where
  statusCode := 500
  code := .compactionIntegrityError
  message := s!"archived length {cursor} does not match registered " ++
    s!"total_bytes {total}; refusing to compact"
  offset := some cursor
  expectedOffset := some total

def compactionWholeDigest (session : UploadSession) (wholeDigest : String) : UploadError where
  statusCode := 500
  code := .compactionIntegrityError
  message := "archived bytes recompute to a different whole digest; refusing to compact"
  digest := some session.wholeSha256
  expectedDigest := some wholeDigest

def newLayoutDiscontinuous (cursor : Int) : UploadError where
  statusCode := 500
  code := .compactionIntegrityError
  message := "new layout is discontinuous; rolling back"
  expectedOffset := some cursor

def newChunkTooLong (targetChunkBytes : Int) (chunk : Chunk) : UploadError where
  statusCode := 500
  code := .compactionIntegrityError
  message := s!"new chunk at offset {chunk.startOffset} exceeds target size {targetChunkBytes}"
  offset := some chunk.startOffset
  details := [("length", .int chunk.length)]

def newChunkDigest (chunk : Chunk) : UploadError where
  statusCode := 500
  code := .compactionIntegrityError
  message := s!"new chunk at offset {chunk.startOffset} fails its digest"
  offset := some chunk.startOffset
  expectedDigest := some chunk.sha256

def newLayoutLength (total cursor : Int) : UploadError where
  statusCode := 500
  code := .compactionIntegrityError
  message := s!"new layout length {cursor} does not match total_bytes {total}"
  offset := some cursor
  expectedOffset := some total

def newLayoutWholeDigest (session : UploadSession) (recomputed : String) : UploadError where
  statusCode := 500
  code := .compactionIntegrityError
  message := "new layout fails whole-digest verification; rolling back"
  digest := some session.wholeSha256
  expectedDigest := some recomputed

/-! ## Reading the old rows -/

/-- The loop over `old_chunks`: the cursor and the buffer.  The hasher is fed the
    same bytes as the buffer. -/
def oldLoop : List Chunk → Int → Bytes → Except UploadError (Int × Bytes)
  | [], cursor, buffer => .ok (cursor, buffer)
  | chunk :: chunks, cursor, buffer =>
    if chunk.startOffset ≠ cursor then .error (compactionDiscontinuous cursor)
    else oldLoop chunks chunk.endOffset (buffer ++ chunk.data)

/-- The bytes of the old rows, once their checks have passed. -/
def oldBuffer (session : UploadSession) (oldChunks : List Chunk) : Except UploadError Bytes :=
  match oldLoop oldChunks 0 [] with
  | .error error => .error error
  | .ok (cursor, buffer) =>
    if cursor ≠ session.totalBytes ∨ (buffer.length : Int) ≠ session.totalBytes then
      .error (compactionTotalLength session.totalBytes cursor)
    else if H buffer ≠ session.wholeSha256 then
      .error (compactionWholeDigest session (H buffer))
    else .ok buffer

/-! ## Re-verifying the new rows -/

/-- The loop over `verify_chunks`: the cursor, the bytes hashed and the sum of the
    lengths. -/
def verifyLoop (targetChunkBytes : Int) :
    List Chunk → Int → Bytes → Int → Except UploadError (Int × Bytes × Int)
  | [], cursor, verifier, totalBytesAfter => .ok (cursor, verifier, totalBytesAfter)
  | chunk :: chunks, cursor, verifier, totalBytesAfter =>
    if chunk.startOffset ≠ cursor then .error (newLayoutDiscontinuous cursor)
    else if chunk.length > targetChunkBytes then .error (newChunkTooLong targetChunkBytes chunk)
    else if H chunk.data ≠ chunk.sha256 then .error (newChunkDigest chunk)
    else verifyLoop targetChunkBytes chunks chunk.endOffset (verifier ++ chunk.data)
      (totalBytesAfter + chunk.length)

/-- `total_bytes_after` and `recomputed_whole` of the freshly stored rows. -/
def verifyNewRows (session : UploadSession) (targetChunkBytes : Int) (verifyChunks : List Chunk) :
    Except UploadError (Int × String) :=
  match verifyLoop H targetChunkBytes verifyChunks 0 [] 0 with
  | .error error => .error error
  | .ok (cursor, verifier, totalBytesAfter) =>
    if cursor ≠ session.totalBytes then .error (newLayoutLength session.totalBytes cursor)
    else if H verifier ≠ session.wholeSha256 then
      .error (newLayoutWholeDigest session (H verifier))
    else .ok (totalBytesAfter, H verifier)

/-! ## Compaction -/

/-- The body of a successful compaction. -/
structure CompactResult where
  id : String
  status : Status
  targetChunkBytes : Int
  chunksBefore : Int
  chunksAfter : Int
  totalBytesBefore : Int
  totalBytesAfter : Int
  wholeSha256 : String
  chunks : List LayoutRow
deriving DecidableEq, Repr

/-- `_compact_result`. -/
def compactResult (session : UploadSession) (targetChunkBytes chunksBefore chunksAfter
    totalBytesBefore totalBytesAfter : Int) (wholeSha256 : String) (layout : List LayoutRow) :
    CompactResult where
  id := session.id
  status := .sealed
  targetChunkBytes := targetChunkBytes
  chunksBefore := chunksBefore
  chunksAfter := chunksAfter
  totalBytesBefore := totalBytesBefore
  totalBytesAfter := totalBytesAfter
  wholeSha256 := wholeSha256
  chunks := layout

/-- `sum(c.length for c in old_chunks)`. -/
def totalLength (chunks : List Chunk) : Int :=
  (chunks.map Chunk.length).sum

/-- A flush whose refusal leaves the call as an exception of the driver. -/
def Db.flushOrRaise (writes : List Write) : Db Unit := do
  match ← Db.flush writes with
  | none => pure ()
  | some error => .raise (.database error)

/-- The row stored for one entry of the new layout. -/
def newRow (sessionId : String) (buffer : Bytes) (row : LayoutRow) : Chunk where
  sessionId := sessionId
  startOffset := row.startOffset
  endOffset := row.endOffset
  length := row.length
  sha256 := row.sha256
  data := slice buffer row.startOffset row.endOffset

/-- The idempotent no-op: only the audit snapshot is written. -/
def compactNoop (env : Env) (session : UploadSession) (targetChunkBytes : Int)
    (oldChunks : List Chunk) (buffer : Bytes) (layout : List LayoutRow) : Db CompactResult := do
  let total := session.totalBytes
  addAudit env [] session .compacted total (H buffer) (some targetChunkBytes)
    (some oldChunks.length) (some layout.length)
  Db.commit []
  pure (compactResult session targetChunkBytes oldChunks.length layout.length
    (totalLength oldChunks) total (H buffer) layout)

/-- The rewrite: delete the old rows, insert the new spans, re-verify them. -/
def compactRewrite (env : Env) (sessionId : String) (session : UploadSession) (targetChunkBytes : Int)
    (oldChunks : List Chunk) (buffer : Bytes) (layout : List LayoutRow) : Db CompactResult := do
  let total := session.totalBytes
  Db.flushOrRaise (oldChunks.map .deleteChunk)
  Db.flushOrRaise (layout.map fun row => .insertChunk (newRow sessionId buffer row))
  let verifyChunks ← Program.select fun db => db.chunksOf sessionId
  let (totalBytesAfter, recomputedWhole) ←
    Program.lift ((verifyNewRows H session targetChunkBytes verifyChunks).mapError .upload)
  addAudit env [] session .compacted total recomputedWhole (some targetChunkBytes)
    (some oldChunks.length) (some verifyChunks.length)
  Db.commit []
  pure (compactResult session targetChunkBytes oldChunks.length verifyChunks.length
    (totalLength oldChunks) totalBytesAfter recomputedWhole (verifyChunks.map Chunk.layoutRow))

/-- The `try` block of `compact_sealed`. -/
def compactBody (env : Env) (sessionId : String) (session : UploadSession) (targetChunkBytes : Int) :
    Db CompactResult := do
  let oldChunks ← Program.select fun db => db.chunksOf sessionId
  let buffer ← Program.lift ((oldBuffer H session oldChunks).mapError .upload)
  let layout := newLayout H buffer (plannedSpans session.totalBytes targetChunkBytes)
  if oldChunks.map Chunk.layoutRow = layout then
    compactNoop H env session targetChunkBytes oldChunks buffer layout
  else compactRewrite H env sessionId session targetChunkBytes oldChunks buffer layout

/-- `compact_sealed`: rewrite a sealed package's chunks into spans of at most
    `target_chunk_bytes`. -/
def compactSealed (env : Env) (sessionId : String) (targetChunkBytes : Int) : Db CompactResult := do
  if targetChunkBytes ≤ 0 then Db.refuse (invalidTarget targetChunkBytes)
  else
    let session ← getLockedSession sessionId
    if session.status ≠ .sealed then Db.refuse (compactionStateConflict session)
    else
      (compactBody H env sessionId session targetChunkBytes).catching fun exception => do
        Db.rollback
        .raise exception

end

end SeismicIngest
