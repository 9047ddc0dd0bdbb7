import SeismicIngest.Model.Schema
import SeismicIngest.Transaction.Program
import Mathlib.Algebra.Group.Nat.Defs
import Mathlib.Algebra.Ring.Int.Defs
import Mathlib.Data.List.Sort

/-! # The database behind the service

The four tables, the row-level writes with the constraints PostgreSQL checks on
them, and the statements the service sends.  Each table is flat: the rows of all
sessions stand in it, and a query selects by `session_id`.

A flush is refused with `IntegrityError` when it breaks a primary key, a unique
constraint or a foreign key, and with `DataError` when an integer leaves the
range of its `BIGINT` column.
-/

namespace SeismicIngest

open Transaction

structure Store where
  uploadSessions : List UploadSession
  chunks : List Chunk
  auditEvents : List AuditEvent
  comparisons : List Comparison
deriving DecidableEq

def Store.empty : Store := ⟨[], [], [], []⟩

namespace Store

/-- `SELECT … FROM upload_sessions WHERE id = :id`. -/
def session? (db : Store) (id : String) : Option UploadSession :=
  db.uploadSessions.find? fun row => row.id = id

/-- `ORDER BY start_offset`. -/
def byStartOffset (rows : List Chunk) : List Chunk :=
  rows.insertionSort fun left right => left.startOffset ≤ right.startOffset

/-- `SELECT … FROM chunks WHERE session_id = :id ORDER BY start_offset`. -/
def chunksOf (db : Store) (id : String) : List Chunk :=
  byStartOffset (db.chunks.filter fun row => row.sessionId = id)

/-- The same query restricted to rows that overlap `[begin, stop)`. -/
def chunksOverlapping (db : Store) (id : String) (begin stop : Int) : List Chunk :=
  byStartOffset (db.chunks.filter fun row =>
    row.sessionId = id ∧ row.startOffset < stop ∧ row.endOffset > begin)

/-- `SELECT coalesce(max(sequence), 0) FROM audit_events WHERE session_id = :id`. -/
def maxSequence (db : Store) (id : String) : Int :=
  (((db.auditEvents.filter fun row => row.sessionId = id).map AuditEvent.sequence).max?).getD 0

/-- `SELECT … FROM audit_events WHERE session_id = :id ORDER BY sequence`. -/
def auditOf (db : Store) (id : String) : List AuditEvent :=
  (db.auditEvents.filter fun row => row.sessionId = id).insertionSort
    fun left right => left.sequence ≤ right.sequence

/-- `SELECT … FROM comparisons WHERE id = :id`. -/
def comparison? (db : Store) (id : String) : Option Comparison :=
  db.comparisons.find? fun row => row.id = id

end Store

/-! ## Writes and their constraints -/

/-- How the database refuses a statement. -/
inductive DbError where
  | integrityError
  | dataError
  | operationalError
  | invalidRequest
deriving DecidableEq, Repr

/-- The range of a `BIGINT` column. -/
def fitsBigint (value : Int) : Bool :=
  -2 ^ 63 ≤ value ∧ value < 2 ^ 63

theorem fitsBigint_of_nonneg {value : Int} (lower : 0 ≤ value) (upper : value < 2 ^ 63) :
    fitsBigint value = true := by
  simp only [fitsBigint, decide_eq_true_eq]
  omega

def fitsBigint? : Option Int → Bool
  | some value => fitsBigint value
  | none => true

/-- One row-level write of a flush. -/
inductive Write where
  | insertSession (row : UploadSession)
  | updateSession (row : UploadSession)
  | insertChunk (row : Chunk)
  | deleteChunk (row : Chunk)
  | insertAudit (row : AuditEvent)
  | insertComparison (row : Comparison)

namespace Write

/-- `chunk` is the row stored under the unique key of `row`. -/
def sameChunk (row chunk : Chunk) : Bool :=
  chunk.sessionId = row.sessionId ∧ chunk.startOffset = row.startOffset

def apply : Write → Store → Store
  | .insertSession row, db => { db with uploadSessions := db.uploadSessions ++ [row] }
  | .updateSession row, db =>
    { db with uploadSessions :=
        db.uploadSessions.map fun stored => if stored.id = row.id then row else stored }
  | .insertChunk row, db => { db with chunks := db.chunks ++ [row] }
  | .deleteChunk row, db => { db with chunks := db.chunks.filter fun stored => !sameChunk row stored }
  | .insertAudit row, db => { db with auditEvents := db.auditEvents ++ [row] }
  | .insertComparison row, db => { db with comparisons := db.comparisons ++ [row] }

/-- Integers outside the range of their column. -/
def outOfRange : Write → Bool
  | .insertSession row | .updateSession row =>
    !(fitsBigint row.totalBytes && fitsBigint row.confirmedOffset)
  | .insertChunk row =>
    !(fitsBigint row.startOffset && fitsBigint row.endOffset && fitsBigint row.length)
  | .deleteChunk _ => false
  | .insertAudit row =>
    !(fitsBigint row.sequence && fitsBigint row.totalBytes && fitsBigint? row.targetChunkBytes &&
      fitsBigint? row.chunksBefore && fitsBigint? row.chunksAfter)
  | .insertComparison row =>
    !(fitsBigint row.baselineTotalBytes && fitsBigint row.candidateTotalBytes &&
      fitsBigint row.commonPrefixBytes && fitsBigint? row.firstDifferenceOffset)

/-- Primary keys, `uq_chunk_session_offset`, `uq_audit_session_sequence` and the
    foreign keys to `upload_sessions`. -/
def violates : Write → Store → Bool
  | .insertSession row, db => (db.session? row.id).isSome
  | .updateSession _, _ | .deleteChunk _, _ => false
  | .insertChunk row, db =>
    (db.session? row.sessionId).isNone || db.chunks.any (sameChunk row)
  | .insertAudit row, db =>
    (db.session? row.sessionId).isNone ||
      db.auditEvents.any fun stored => stored.sessionId = row.sessionId ∧ stored.sequence = row.sequence
  | .insertComparison row, db =>
    (db.comparison? row.id).isSome || (db.session? row.baselineSessionId).isNone ||
      (db.session? row.candidateSessionId).isNone

def rejects (write : Write) (db : Store) : Option DbError :=
  if write.outOfRange then some .dataError
  else if write.violates db then some .integrityError
  else none

/-- The rows of a list of writes, in order. -/
def applyAll (writes : List Write) (db : Store) : Store :=
  writes.foldl (fun data write => write.apply data) db

/-- The first refusal of a list of writes. -/
def rejectsAll : List Write → Store → Option DbError
  | [], _ => none
  | write :: writes, db =>
    match write.rejects db with
    | some error => some error
    | none => rejectsAll writes (write.apply db)

end Write

/-- The batch of a flush of these pending writes. -/
def pending (writes : List Write) : Batch Store DbError :=
  ⟨Write.rejectsAll writes, Write.applyAll writes⟩

/-! ## Statements -/

/-- What one call draws from outside the program: a fresh `uuid4`, the clock, and
    whether the database takes the flush of an audit row (it may refuse one for
    reasons the model does not show, such as a full disk). -/
structure Env where
  uuid : String
  now : Nat
  auditAccepted : Bool := true

/-- What a call can end in instead of a result: a domain error, an exception of
    the database driver, or Python's `ValueError`.  `diverges` marks a loop cut
    short by the fuel of its model. -/
inductive Raised where
  | upload (error : UploadError)
  | database (error : DbError)
  | valueError
  | diverges
deriving DecidableEq, Repr

/-- The digits of the longest integer that the interpreter prints. -/
def maxStrDigits : Nat := 4300

/-- `str(value)` of the integer does not raise. -/
def printable (value : Int) : Bool := value.natAbs < 10 ^ maxStrDigits

/-- An error whose message prints these integers: the f-string itself raises when one
    of them is too long. -/
def UploadError.printing (error : UploadError) (integers : List Int) : Raised :=
  if integers.all printable then .upload error else .valueError

/-- A function of the service over an open database session. -/
abbrev Db (α : Type) := Program Store String DbError Raised α

namespace Db

/-- `raise UploadError(…)`. -/
def refuse {α : Type} (error : UploadError) : Db α := .raise (.upload error)

/-- `db.flush()`. -/
def flush (writes : List Write) : Db (Option DbError) := .send (pending writes)

/-- `db.rollback()`. -/
def rollback : Db Unit := Program.rollback (.pure ())

/-- `db.commit()`: the pending writes are flushed first, and a refusal leaves the
    call as an exception of the driver. -/
def commit (writes : List Write) : Db Unit := do
  match ← flush writes with
  | none => Program.commit (.pure ())
  | some error => .raise (.database error)

/-- `db.refresh(session)`. -/
def refresh (session : UploadSession) : Db UploadSession := do
  match ← Program.select fun db => db.session? session.id with
  | some row => pure row
  | none => .raise (.database .invalidRequest)

end Db

end SeismicIngest
