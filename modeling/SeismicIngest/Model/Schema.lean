/-! # Rows and errors

The persistent rows of `app/models.py` and the domain error of `app/errors.py`.
Integer columns are `Int`, so that a row altered out of band (a negative length,
an end before its start) is a value of the model too; the range of a `BIGINT`
column is checked where rows are written (`Model.Database`).

Left out, because nothing in the service reads them: the surrogate keys of chunks
and audit events, the creation time of a chunk and the update time of a session.
-/

namespace SeismicIngest

/-- Payload bytes. -/
abbrev Bytes := List UInt8

/-! ## Rows -/

/-- Session lifecycle states. -/
inductive Status where
  | active
  | sealed
  | failed
deriving DecidableEq, Repr

def Status.text : Status → String
  | .active => "active"
  | .sealed => "sealed"
  | .failed => "failed"

structure UploadSession where
  id : String
  totalBytes : Int
  wholeSha256 : String
  confirmedOffset : Int
  status : Status
  computedSha256 : Option String
  failureReason : Option String
  createdAt : Nat
deriving DecidableEq, Repr

structure Chunk where
  sessionId : String
  startOffset : Int
  endOffset : Int
  length : Int
  sha256 : String
  data : Bytes
deriving DecidableEq, Repr

/-- Audit trail events. -/
inductive AuditKind where
  | sealed
  | compacted
deriving DecidableEq, Repr

structure AuditEvent where
  sessionId : String
  sequence : Int
  event : AuditKind
  occurredAt : Nat
  totalBytes : Int
  wholeSha256 : String
  targetChunkBytes : Option Int
  chunksBefore : Option Int
  chunksAfter : Option Int
deriving DecidableEq, Repr

/-- Comparison conclusions. -/
inductive Conclusion where
  | identical
  | contentDiffers
  | lengthDiffers
deriving DecidableEq, Repr

structure Comparison where
  id : String
  baselineSessionId : String
  candidateSessionId : String
  baselineTotalBytes : Int
  baselineWholeSha256 : String
  candidateTotalBytes : Int
  candidateWholeSha256 : String
  commonPrefixBytes : Int
  firstDifferenceOffset : Option Int
  conclusion : Conclusion
  createdAt : Nat
deriving DecidableEq, Repr

/-! ## Errors -/

/-- The `error.code` of a refused request. -/
inductive ErrorCode where
  | sessionNotFound
  | wholeDigestMismatch
  | invalidOffset
  | invalidLength
  | lengthMismatch
  | chunkDigestMismatch
  | chunkBeyondTotal
  | staleOffset
  | sessionFailedTerminal
  | sealedContentConflict
  | sessionSealed
  | auditWriteFailed
  | sealedIntegrityError
  | invalidTargetChunkBytes
  | compactionStateConflict
  | compactionIntegrityError
  | comparisonStateConflict
  | comparisonIntegrityError
  | comparisonNotFound
  | invalidStatus
  | notSealed
  | invalidRange
  | rangeNotSatisfiable
  | invalidDigest
  | chunkTooLarge
  | validationError
deriving DecidableEq, Repr

/-- A value under `error.details`. -/
inductive Detail where
  | int (value : Int)
  | text (value : String)
  | texts (values : List String)
  | null
deriving DecidableEq, Repr

/-- `None` or a string. -/
def Detail.ofText : Option String → Detail
  | some value => .text value
  | none => .null

structure UploadError where
  statusCode : Nat
  code : ErrorCode
  message : String
  offset : Option Int := none
  expectedOffset : Option Int := none
  digest : Option String := none
  expectedDigest : Option String := none
  details : List (String × Detail) := []
  headers : List (String × String) := []
deriving DecidableEq, Repr

end SeismicIngest
