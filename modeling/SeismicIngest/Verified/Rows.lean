import SeismicIngest.Model.Service

/-! # The rows of one session

Every statement that a session-level operation sends speaks about one session: it
reads the session row, its chunk rows and its audit rows out of the flat tables,
and its writes touch no row of another session.  `Store.rowsOf` is that view, and
`Write.onRows` is the effect of a write on it; the frame lemmas below say that the
two commute and that every other session keeps its rows.
-/

namespace SeismicIngest

open Transaction

/-- What the tables hold for one session id, in table order. -/
structure SessionRows where
  row : Option UploadSession
  chunks : List Chunk
  audits : List AuditEvent
deriving DecidableEq

def Store.rowsOf (db : Store) (id : String) : SessionRows where
  row := db.session? id
  chunks := db.chunks.filter fun row => row.sessionId = id
  audits := db.auditEvents.filter fun row => row.sessionId = id

/-- The session rows with an id, of which a sound store has one at most. -/
def Store.registered (db : Store) (id : String) : List UploadSession :=
  db.uploadSessions.filter fun row => row.id = id

namespace SessionRows

def maxSequence (rows : SessionRows) : Int :=
  ((rows.audits.map AuditEvent.sequence).max?).getD 0

end SessionRows

/-! ## Queries -/

section Queries

variable (db : Store) (id : String)

theorem rowsOf_row : (db.rowsOf id).row = db.session? id := rfl

theorem chunksOf_eq : db.chunksOf id = Store.byStartOffset (db.rowsOf id).chunks := rfl

theorem maxSequence_eq : db.maxSequence id = (db.rowsOf id).maxSequence := rfl

theorem chunksOverlapping_eq (begin stop : Int) :
    db.chunksOverlapping id begin stop =
      Store.byStartOffset ((db.rowsOf id).chunks.filter fun row =>
        row.startOffset < stop ∧ row.endOffset > begin) := by
  simp only [Store.chunksOverlapping, Store.rowsOf, List.filter_filter]
  congr 1
  apply List.filter_congr
  intro row _
  simp only [Bool.decide_and, Bool.and_comm]

theorem session?_id {db : Store} {id : String} {session : UploadSession}
    (found : db.session? id = some session) : session.id = id := by
  simpa using List.find?_some found

theorem session?_mem {db : Store} {id : String} {session : UploadSession}
    (found : db.session? id = some session) : session ∈ db.uploadSessions :=
  List.mem_of_find?_eq_some found

end Queries

/-! ## Writes -/

namespace Write

/-- The effect of a write on the rows of session `id`. -/
def onRows (id : String) : Write → SessionRows → SessionRows
  | .insertSession row, rows =>
    if row.id = id then { rows with row := rows.row.or (some row) } else rows
  | .updateSession row, rows =>
    if row.id = id then { rows with row := rows.row.map fun _ => row } else rows
  | .insertChunk row, rows =>
    if row.sessionId = id then { rows with chunks := rows.chunks ++ [row] } else rows
  | .deleteChunk row, rows =>
    if row.sessionId = id then
      { rows with chunks := rows.chunks.filter fun stored => !sameChunk row stored }
    else rows
  | .insertAudit row, rows =>
    if row.sessionId = id then { rows with audits := rows.audits ++ [row] } else rows
  | .insertComparison _, rows => rows

theorem rowsOf_insertSession (row : UploadSession) (db : Store) (id : String) :
    ((Write.insertSession row).apply db).rowsOf id = (Write.insertSession row).onRows id (db.rowsOf id) := by
  by_cases own : row.id = id
  · simp [apply, onRows, Store.rowsOf, Store.session?, List.find?_append, own]
  · simp [apply, onRows, Store.rowsOf, Store.session?, List.find?_append, own]

theorem rowsOf_updateSession (row : UploadSession) (db : Store) (id : String) :
    ((Write.updateSession row).apply db).rowsOf id = (Write.updateSession row).onRows id (db.rowsOf id) := by
  have found : (((Write.updateSession row).apply db).session? id) =
      if row.id = id then (db.session? id).map fun _ => row else db.session? id := by
    simp only [Store.session?, apply]
    induction db.uploadSessions with
    | nil => simp
    | cons head tail inductionHypothesis =>
      rw [List.map_cons, List.find?_cons, List.find?_cons]
      by_cases replaced : head.id = row.id
      · by_cases own : row.id = id
        · simp [replaced, own]
        · simpa [replaced, own] using inductionHypothesis
      · by_cases matching : head.id = id
        · have other : row.id ≠ id := fun own => replaced (matching.trans own.symm)
          rw [if_neg replaced, matching]
          simp [other]
        · simpa [replaced, matching] using inductionHypothesis
  simp only [Store.rowsOf, onRows, found]
  split <;> rfl

theorem rowsOf_deleteChunk (row : Chunk) (db : Store) (id : String) :
    ((Write.deleteChunk row).apply db).rowsOf id = (Write.deleteChunk row).onRows id (db.rowsOf id) := by
  simp only [apply, onRows, Store.rowsOf, Store.session?, List.filter_filter]
  split
  · simp only [Bool.and_comm]
  · rename_i other
    congr 1
    apply List.filter_congr
    intro stored _
    by_cases own : stored.sessionId = id
    · simp [sameChunk, own, Ne.symm other]
    · simp [own]

/-- The view of a session commutes with every write. -/
theorem rowsOf_apply (write : Write) (db : Store) (id : String) :
    (write.apply db).rowsOf id = write.onRows id (db.rowsOf id) := by
  cases write with
  | insertSession row => exact rowsOf_insertSession row db id
  | updateSession row => exact rowsOf_updateSession row db id
  | deleteChunk row => exact rowsOf_deleteChunk row db id
  | insertChunk row =>
    simp only [apply, onRows, Store.rowsOf, List.filter_append]
    split <;> simp_all [Store.session?]
  | insertAudit row =>
    simp only [apply, onRows, Store.rowsOf, List.filter_append]
    split <;> simp_all [Store.session?]
  | insertComparison row => rfl

theorem rowsOf_applyAll (writes : List Write) (db : Store) (id : String) :
    (applyAll writes db).rowsOf id =
      writes.foldl (fun rows write => write.onRows id rows) (db.rowsOf id) := by
  induction writes generalizing db with
  | nil => rfl
  | cons write writes inductionHypothesis =>
    rw [applyAll, List.foldl_cons]
    exact (inductionHypothesis (write.apply db)).trans (by rw [rowsOf_apply, List.foldl_cons])

/-- The session a write belongs to. -/
def sessionId : Write → Option String
  | .insertSession row | .updateSession row => some row.id
  | .insertChunk row | .deleteChunk row => some row.sessionId
  | .insertAudit row => some row.sessionId
  | .insertComparison _ => none

/-- Every write of the list belongs to session `id`. -/
def AllOf (id : String) (writes : List Write) : Prop :=
  ∀ write ∈ writes, write.sessionId = some id

theorem allOf_nil {id : String} : AllOf id [] := fun _ member => by cases member

theorem allOf_singleton {id : String} {write : Write} (own : write.sessionId = some id) :
    AllOf id [write] := by
  intro other member
  rw [List.mem_singleton.mp member]
  exact own

theorem AllOf.append {id : String} {first second : List Write} (firstOwn : AllOf id first)
    (secondOwn : AllOf id second) : AllOf id (first ++ second) := by
  intro write member
  obtain earlier | later := List.mem_append.mp member
  · exact firstOwn write earlier
  · exact secondOwn write later

theorem AllOf.other {id other : String} {writes : List Write} (own : AllOf id writes)
    (different : other ≠ id) : ∀ write ∈ writes, write.sessionId ≠ some other := by
  intro write member
  rw [own write member]
  simpa using Ne.symm different

/-- What every write of a list keeps, the whole list keeps. -/
theorem applyAll_keeps {α : Type} (part : Store → α) {writes : List Write}
    (keeps : ∀ write ∈ writes, ∀ db : Store, part (write.apply db) = part db) (db : Store) :
    part (applyAll writes db) = part db := by
  induction writes generalizing db with
  | nil => rfl
  | cons write writes inductionHypothesis =>
    have tail := inductionHypothesis (fun next member => keeps next (List.mem_cons_of_mem _ member))
      (write.apply db)
    exact tail.trans (keeps write List.mem_cons_self db)

theorem onRows_other {write : Write} {id : String} (other : write.sessionId ≠ some id)
    (rows : SessionRows) : write.onRows id rows = rows := by
  cases write <;> simp_all [sessionId, onRows]

/-- A write leaves the rows of every other session alone. -/
theorem rowsOf_apply_other {write : Write} {id : String} (other : write.sessionId ≠ some id)
    (db : Store) : (write.apply db).rowsOf id = db.rowsOf id := by
  rw [rowsOf_apply, onRows_other other]

theorem rowsOf_applyAll_other {writes : List Write} {id other : String} (own : AllOf id writes)
    (different : other ≠ id) (db : Store) : (applyAll writes db).rowsOf other = db.rowsOf other :=
  applyAll_keeps (fun db => db.rowsOf other)
    (fun write member => rowsOf_apply_other (own.other different write member)) db

theorem violates_insertChunk (row : Chunk) (db : Store) :
    (Write.insertChunk row).violates db =
      ((db.rowsOf row.sessionId).row.isNone || (db.rowsOf row.sessionId).chunks.any (sameChunk row)) := by
  simp only [violates, Store.rowsOf, List.any_filter]
  congr 2
  funext stored
  by_cases own : stored.sessionId = row.sessionId <;> simp [sameChunk, own]

theorem violates_insertAudit (row : AuditEvent) (db : Store) :
    (Write.insertAudit row).violates db =
      ((db.rowsOf row.sessionId).row.isNone ||
        (db.rowsOf row.sessionId).audits.any fun stored => stored.sequence = row.sequence) := by
  simp only [violates, Store.rowsOf, List.any_filter, Bool.decide_and]

/-- Whether a write is refused depends on the rows of its own session. -/
theorem rejects_congr {write : Write} {id : String} (own : write.sessionId = some id) {db other : Store}
    (same : db.rowsOf id = other.rowsOf id) : write.rejects db = write.rejects other := by
  have row : db.session? id = other.session? id := congrArg SessionRows.row same
  have violates : write.violates db = write.violates other := by
    cases write with
    | insertSession stored | updateSession stored | deleteChunk stored =>
      simp_all [sessionId, Write.violates]
    | insertChunk stored =>
      simp only [sessionId, Option.some.injEq] at own
      rw [violates_insertChunk, violates_insertChunk, own, same]
    | insertAudit stored =>
      simp only [sessionId, Option.some.injEq] at own
      rw [violates_insertAudit, violates_insertAudit, own, same]
    | insertComparison _ => cases own
  rw [rejects, rejects, violates]

theorem rejectsAll_congr {writes : List Write} {id : String} (own : AllOf id writes) {db other : Store}
    (same : db.rowsOf id = other.rowsOf id) : rejectsAll writes db = rejectsAll writes other := by
  induction writes generalizing db other with
  | nil => rfl
  | cons write writes inductionHypothesis =>
    have applied : (write.apply db).rowsOf id = (write.apply other).rowsOf id := by
      rw [rowsOf_apply, rowsOf_apply, same]
    have tail := inductionHypothesis (fun next member => own next (List.mem_cons_of_mem _ member))
      applied
    simp only [rejectsAll, rejects_congr (own write List.mem_cons_self) same, tail]

/-- The rows registered under an id after a write: those before decide them. -/
theorem registered_apply (write : Write) (id : String) {db other : Store}
    (same : db.registered id = other.registered id) :
    (write.apply db).registered id = (write.apply other).registered id := by
  cases write with
  | insertSession row =>
    simp only [apply, Store.registered, List.filter_append] at same ⊢
    rw [same]
  | updateSession row =>
    have kept : ((fun stored : UploadSession => decide (stored.id = id)) ∘
        fun stored => if stored.id = row.id then row else stored) =
          fun stored => decide (stored.id = id) := by
      funext stored
      by_cases replaced : stored.id = row.id <;> simp [replaced]
    simp only [apply, Store.registered, List.filter_map, kept] at same ⊢
    rw [same]
  | insertChunk _ | deleteChunk _ | insertAudit _ | insertComparison _ => exact same

theorem registered_apply_other {write : Write} {id : String} (other : write.sessionId ≠ some id)
    (db : Store) : (write.apply db).registered id = db.registered id := by
  cases write with
  | insertSession row =>
    have different : row.id ≠ id := by simpa [sessionId] using other
    simp [apply, Store.registered, List.filter_append, different]
  | updateSession row =>
    have different : row.id ≠ id := by simpa [sessionId] using other
    simp only [apply, Store.registered]
    induction db.uploadSessions with
    | nil => rfl
    | cons head tail inductionHypothesis =>
      rw [List.map_cons, List.filter_cons, List.filter_cons, inductionHypothesis]
      by_cases replaced : head.id = row.id
      · simp [replaced, different]
      · simp [replaced]
  | insertChunk _ | deleteChunk _ | insertAudit _ | insertComparison _ => rfl

theorem registered_applyAll (writes : List Write) (id : String) {db other : Store}
    (same : db.registered id = other.registered id) :
    (applyAll writes db).registered id = (applyAll writes other).registered id := by
  induction writes generalizing db other with
  | nil => exact same
  | cons write writes inductionHypothesis =>
    exact inductionHypothesis (registered_apply write id same)

theorem registered_applyAll_other {writes : List Write} {id other : String} (own : AllOf id writes)
    (different : other ≠ id) (db : Store) :
    (applyAll writes db).registered other = db.registered other :=
  applyAll_keeps (fun db => db.registered other)
    (fun write member => registered_apply_other (own.other different write member)) db

/-- Writes of one session never touch the comparison records. -/
theorem comparisons_applyAll {writes : List Write} {id : String} (own : AllOf id writes) (db : Store) :
    (applyAll writes db).comparisons = db.comparisons := by
  refine applyAll_keeps Store.comparisons ?_ db
  intro write member db
  have owned := own write member
  cases write with
  | insertSession _ | updateSession _ | insertChunk _ | deleteChunk _ | insertAudit _ => rfl
  | insertComparison _ => cases owned

end Write

/-! ## The rows after one write -/

theorem rowsOf_insertChunk (row : Chunk) (db : Store) :
    ((Write.insertChunk row).apply db).rowsOf row.sessionId =
      { db.rowsOf row.sessionId with chunks := (db.rowsOf row.sessionId).chunks ++ [row] } := by
  rw [Write.rowsOf_apply, Write.onRows, if_pos rfl]

theorem rowsOf_updateSession {row stored : UploadSession} {db : Store}
    (found : db.session? row.id = some stored) :
    ((Write.updateSession row).apply db).rowsOf row.id =
      { db.rowsOf row.id with row := some row } := by
  rw [Write.rowsOf_apply, Write.onRows, if_pos rfl, rowsOf_row, found]
  rfl

theorem rowsOf_insertAudit (row : AuditEvent) (db : Store) :
    ((Write.insertAudit row).apply db).rowsOf row.sessionId =
      { db.rowsOf row.sessionId with audits := (db.rowsOf row.sessionId).audits ++ [row] } := by
  rw [Write.rowsOf_apply, Write.onRows, if_pos rfl]

end SeismicIngest
