import SeismicIngest.Model.Upload

/-! # Reading the sealed archive

`verified_sealed_bytes` and `get_audit_trail` from `app/service.py`.
-/

namespace SeismicIngest

open Transaction Spans

section

variable (H : Bytes → String)

/-! ## Verified reads -/

def sealedDiscontinuous (cursor : Int) : UploadError where
  statusCode := 500
  code := .sealedIntegrityError
  message := s!"stored chunks are discontinuous at offset {cursor}"
  expectedOffset := some cursor

def sealedLengthInconsistent (chunk : Chunk) : UploadError where
  statusCode := 500
  code := .sealedIntegrityError
  message := s!"chunk at offset {chunk.startOffset} has inconsistent " ++ "length metadata"
  offset := some chunk.startOffset

def sealedChunkDigest (chunk : Chunk) : UploadError where
  statusCode := 500
  code := .sealedIntegrityError
  message := s!"chunk at offset {chunk.startOffset} fails its own " ++ "SHA-256 check"
  offset := some chunk.startOffset
  expectedDigest := some chunk.sha256

def sealedTotalLength (session : UploadSession) (cursor : Int) : UploadError where
  statusCode := 500
  code := .sealedIntegrityError
  message := s!"archived length {cursor} does not match registered " ++
    s!"total_bytes {session.totalBytes}"
  offset := some cursor
  expectedOffset := some session.totalBytes

def sealedWholeDigest (session : UploadSession) : UploadError where
  statusCode := 500
  code := .sealedIntegrityError
  message := "stored sealed content fails whole digest verification"
  expectedDigest := some session.wholeSha256

/-- The loop of `verified_sealed_bytes`: the cursor, the bytes hashed and the bytes
    of `[begin, stop)` collected so far. -/
def sealedLoop (begin stop : Int) :
    List Chunk → Int → Bytes → Bytes → Except UploadError (Int × Bytes × Bytes)
  | [], cursor, hasher, out => .ok (cursor, hasher, out)
  | chunk :: chunks, cursor, hasher, out =>
    if chunk.startOffset ≠ cursor then .error (sealedDiscontinuous cursor)
    else if chunk.length ≠ chunk.endOffset - chunk.startOffset ∨
        (chunk.data.length : Int) ≠ chunk.length then
      .error (sealedLengthInconsistent chunk)
    else if H chunk.data ≠ chunk.sha256 then .error (sealedChunkDigest chunk)
    else
      let out :=
        if chunk.startOffset < stop ∧ chunk.endOffset > begin then
          out ++ slice chunk.data (max begin chunk.startOffset - chunk.startOffset)
            (min stop chunk.endOffset - chunk.startOffset)
        else out
      sealedLoop begin stop chunks chunk.endOffset (hasher ++ chunk.data) out

/-- `verified_sealed_bytes` on the chunk rows it fetched. -/
def sealedBytesOf (session : UploadSession) (chunks : List Chunk) (begin stop : Int) :
    Except UploadError Bytes :=
  match sealedLoop H begin stop chunks 0 [] [] with
  | .error error => .error error
  | .ok (cursor, hasher, out) =>
    if cursor ≠ session.totalBytes then .error (sealedTotalLength session cursor)
    else if H hasher ≠ session.wholeSha256 then .error (sealedWholeDigest session)
    else .ok out

/-- `verified_sealed_bytes`: archived bytes for the half-open span `[begin, stop)`. -/
def verifiedSealedBytes (session : UploadSession) (begin stop : Int) : Db Bytes := do
  let chunks ← Program.select fun db => db.chunksOf session.id
  Program.lift ((sealedBytesOf H session chunks begin stop).mapError .upload)

end

/-! ## Audit trail -/

/-- `get_audit_trail`. -/
def getAuditTrail (sessionId : String) : Db (List AuditEvent) := do
  match ← Program.select fun db => db.session? sessionId with
  | none => Db.refuse (sessionNotFound sessionId)
  | some _ => Program.select fun db => db.auditOf sessionId

end SeismicIngest
