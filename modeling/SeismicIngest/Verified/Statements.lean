import SeismicIngest.Verified.Walks
import SeismicIngest.Transaction.Local

/-! # What each statement does

One rule for each statement the service sends: where the transaction stands after
it (`settle_…`), that it stays on the rows of one session (`…_local`), and which
writes the database accepts (`accepts_…`).  The proofs about whole operations
chain these rules and never open a statement again.
-/

namespace SeismicIngest

open Transaction Spans

/-! ## Accepted writes -/

namespace Write

/-- The database takes all the writes. -/
def Accepted (writes : List Write) (db : Store) : Prop :=
  rejectsAll writes db = none

@[simp] theorem accepted_nil (db : Store) : Accepted [] db := rfl

theorem accepted_cons {write : Write} {writes : List Write} {db : Store}
    (head : write.rejects db = none) (tail : Accepted writes (write.apply db)) :
    Accepted (write :: writes) db := by
  rw [Accepted, rejectsAll, head]
  exact tail

@[simp] theorem applyAll_nil (db : Store) : applyAll [] db = db := rfl

theorem applyAll_cons (write : Write) (writes : List Write) (db : Store) :
    applyAll (write :: writes) db = applyAll writes (write.apply db) := rfl

theorem applyAll_append (first second : List Write) (db : Store) :
    applyAll (first ++ second) db = applyAll second (applyAll first db) :=
  List.foldl_append

theorem rejectsAll_append {first : List Write} {db : Store} (accepted : Accepted first db)
    (second : List Write) :
    rejectsAll (first ++ second) db = rejectsAll second (applyAll first db) := by
  induction first generalizing db with
  | nil => rfl
  | cons write writes inductionHypothesis =>
    simp only [Accepted, rejectsAll, List.cons_append] at accepted ⊢
    cases refused : write.rejects db with
    | some error => simp [refused] at accepted
    | none =>
      simp only [refused] at accepted ⊢
      exact inductionHypothesis accepted

theorem accepted_append {first second : List Write} {db : Store}
    (accepted : Accepted (first ++ second) db) : Accepted second (applyAll first db) := by
  induction first generalizing db with
  | nil => exact accepted
  | cons write writes inductionHypothesis =>
    rw [Accepted, List.cons_append, rejectsAll] at accepted
    cases refused : write.rejects db with
    | some error => simp [refused] at accepted
    | none =>
      rw [refused] at accepted
      exact inductionHypothesis accepted

theorem accepts_updateSession {row : UploadSession} (db : Store)
    (total : fitsBigint row.totalBytes) (confirmed : fitsBigint row.confirmedOffset) :
    (Write.updateSession row).rejects db = none := by
  simp [rejects, outOfRange, violates, total, confirmed]

theorem accepts_deleteChunk (row : Chunk) (db : Store) :
    (Write.deleteChunk row).rejects db = none := by
  simp [rejects, outOfRange, violates]

theorem accepts_insertChunk {row : Chunk} {db : Store} {session : UploadSession}
    (starts : fitsBigint row.startOffset) (ends : fitsBigint row.endOffset)
    (length : fitsBigint row.length) (found : db.session? row.sessionId = some session)
    (fresh : ∀ chunk ∈ (db.rowsOf row.sessionId).chunks, chunk.startOffset ≠ row.startOffset) :
    (Write.insertChunk row).rejects db = none := by
  have distinct : (db.rowsOf row.sessionId).chunks.any (sameChunk row) = false := by
    rw [List.any_eq_false]
    intro chunk member
    simp [sameChunk, fresh chunk member]
  rw [rejects, violates_insertChunk, distinct, rowsOf_row, found]
  simp [outOfRange, starts, ends, length]

end Write

/-! ## Audit numbers -/

theorem SessionRows.le_maxSequence {rows : SessionRows} {event : AuditEvent}
    (member : event ∈ rows.audits) : event.sequence ≤ rows.maxSequence := by
  have listed : event.sequence ∈ rows.audits.map AuditEvent.sequence := List.mem_map_of_mem member
  rw [SessionRows.maxSequence]
  cases found : (rows.audits.map AuditEvent.sequence).max? with
  | none => rw [List.max?_eq_none_iff.mp found] at listed; cases listed
  | some largest => exact (List.max?_eq_some_iff.mp found).2 _ listed

theorem SessionRows.maxSequence_empty {rows : SessionRows} (empty : rows.audits = []) :
    rows.maxSequence = 0 := by
  simp [SessionRows.maxSequence, empty]

/-- The next audit number is free, so an audit row is refused only for its range. -/
theorem Write.accepts_insertAudit {row : AuditEvent} {db : Store} {session : UploadSession}
    (inRange : (Write.insertAudit row).outOfRange = false)
    (found : db.session? row.sessionId = some session)
    (next : row.sequence = (db.rowsOf row.sessionId).maxSequence + 1) :
    (Write.insertAudit row).rejects db = none := by
  have fresh : ((db.rowsOf row.sessionId).audits.any
      fun stored => stored.sequence = row.sequence) = false := by
    rw [List.any_eq_false]
    -- every number in use is below the next one
    intro event member
    have below := SessionRows.le_maxSequence member
    simp only [decide_eq_true_eq]
    omega
  rw [Write.rejects, Write.violates_insertAudit, fresh, rowsOf_row, found, inRange]
  rfl

/-- A batch of writes is never refused with `IntegrityError` by its audit row. -/
theorem Write.insertAudit_not_integrityError {row : AuditEvent} {db : Store}
    {session : UploadSession} (found : db.session? row.sessionId = some session)
    (next : row.sequence = (db.rowsOf row.sessionId).maxSequence + 1) :
    (Write.insertAudit row).rejects db ≠ some .integrityError := by
  cases range : (Write.insertAudit row).outOfRange with
  | true => simp [Write.rejects, range]
  | false => simp [Write.accepts_insertAudit range found next]

/-! ## Where a transaction stands -/

section Settle

variable {conn : Connection Store}

theorem settle_getLockedSession {id : String} {session : UploadSession}
    (found : conn.working.session? id = some session) :
    (getLockedSession id).settle conn = (.returned session, conn) := by
  rw [getLockedSession, Program.settle_bind, Program.settle_selectForUpdate]
  simp only [found]
  rfl

theorem settle_getLockedSession_missing {id : String} (missing : conn.working.session? id = none) :
    (getLockedSession id).settle conn = (.raised (.upload (sessionNotFound id)), conn) := by
  rw [getLockedSession, Program.settle_bind, Program.settle_selectForUpdate]
  simp only [missing]
  rfl

theorem settle_flush (writes : List Write) :
    (Db.flush writes).settle conn =
      (.returned (Write.rejectsAll writes conn.working),
        conn.staged ((pending writes).outcome conn.working)) := rfl

theorem settle_flush_accepted {writes : List Write} (accepted : Write.Accepted writes conn.working) :
    (Db.flush writes).settle conn =
      (.returned none, conn.staged (Write.applyAll writes conn.working)) := by
  have outcome : (pending writes).outcome conn.working = Write.applyAll writes conn.working :=
    Batch.outcome_accepted accepted
  rw [settle_flush, accepted, outcome]

theorem settle_flushOrRaise {writes : List Write} (accepted : Write.Accepted writes conn.working) :
    (Db.flushOrRaise writes).settle conn =
      (.returned (), conn.staged (Write.applyAll writes conn.working)) := by
  rw [Db.flushOrRaise, Program.settle_bind, settle_flush_accepted accepted]
  rfl

theorem settle_commit {writes : List Write} (accepted : Write.Accepted writes conn.working) :
    (Db.commit writes).settle conn =
      (.committed (.pure ()), conn.staged (Write.applyAll writes conn.working)) := by
  rw [Db.commit, Program.settle_bind, settle_flush_accepted accepted]
  rfl

theorem settle_commit_refused {writes : List Write} {error : DbError}
    (refused : Write.rejectsAll writes conn.working = some error) :
    (Db.commit writes).settle conn = (.raised (.database error), conn) := by
  have outcome : (pending writes).outcome conn.working = conn.working :=
    Batch.outcome_refused refused
  rw [Db.commit, Program.settle_bind, settle_flush, refused, outcome]
  rfl

/-- The run of a transaction that only commits. -/
theorem run_commit {α : Type} (writes : List Write) (next : Unit → Db α) (db : Store) :
    (Db.commit writes >>= next).run db =
      match Write.rejectsAll writes db with
      | none => (next ()).run (Write.applyAll writes db)
      | some error => (.error (.database error), db) := by
  cases answer : Write.rejectsAll writes db with
  | none =>
    have settled := @settle_commit (.opened db) writes answer
    exact Program.run_bind_of_committed settled
  | some error => exact Program.run_bind_of_raised (@settle_commit_refused (.opened db) _ _ answer)

theorem settle_refresh {session stored : UploadSession}
    (found : conn.working.session? session.id = some stored) :
    (Db.refresh session).settle conn = (.returned stored, conn) := by
  rw [Db.refresh, Program.settle_bind, Program.settle_select]
  simp only [found]
  rfl

/-- The audit row `_add_audit` writes. -/
def auditRow (env : Env) (sequence : Int) (session : UploadSession) (event : AuditKind)
    (totalBytes : Int) (wholeSha256 : String)
    (targetChunkBytes chunksBefore chunksAfter : Option Int) : AuditEvent :=
  { sessionId := session.id, sequence, event, occurredAt := env.now, totalBytes, wholeSha256,
    targetChunkBytes, chunksBefore, chunksAfter }

section AddAudit

variable {env : Env} {changes : List Write} {session : UploadSession} {event : AuditKind}
  {totalBytes : Int} {wholeSha256 : String} {targetChunkBytes chunksBefore chunksAfter : Option Int}

theorem settle_addAudit (taken : env.auditAccepted = true)
    (accepted : Write.Accepted (changes ++ [.insertAudit (auditRow env
      (conn.working.maxSequence session.id + 1) session event totalBytes wholeSha256
      targetChunkBytes chunksBefore chunksAfter)]) conn.working) :
    (addAudit env changes session event totalBytes wholeSha256 targetChunkBytes chunksBefore
        chunksAfter).settle conn =
      (.returned (), conn.staged (Write.applyAll (changes ++ [.insertAudit (auditRow env
        (conn.working.maxSequence session.id + 1) session event totalBytes wholeSha256
        targetChunkBytes chunksBefore chunksAfter)]) conn.working)) := by
  rw [Write.Accepted] at accepted
  rw [addAudit, Program.settle_bind, nextAuditSequence, Program.settle_bind,
    Program.settle_select]
  simp only [Program.settle_pure, Program.settle_bind, Program.settle_send, auditBatch, taken,
    if_true, auditRow, Batch.outcome] at accepted ⊢
  rw [accepted]
  rfl

theorem settle_addAudit_refused
    (refused : env.auditAccepted = false ∨ Write.rejectsAll (changes ++ [.insertAudit (auditRow env
      (conn.working.maxSequence session.id + 1) session event totalBytes wholeSha256
      targetChunkBytes chunksBefore chunksAfter)]) conn.working ≠ none) :
    (addAudit env changes session event totalBytes wholeSha256 targetChunkBytes chunksBefore
        chunksAfter).settle conn =
      (.rolledBack (.raise (.upload auditWriteFailed)), conn) := by
  -- a fault of the database and a row it refuses look the same to the caller
  obtain ⟨error, answer⟩ : ∃ error, (auditBatch env (changes ++ [.insertAudit (auditRow env
      (conn.working.maxSequence session.id + 1) session event totalBytes wholeSha256
      targetChunkBytes chunksBefore chunksAfter)])).rejects conn.working = some error := by
    obtain fault | rejected := refused
    · exact ⟨.operationalError, by simp [auditBatch, fault]⟩
    · by_cases taken : env.auditAccepted = true
      · obtain ⟨error, found⟩ := Option.ne_none_iff_exists'.mp rejected
        exact ⟨error, by simp only [auditBatch, taken, if_true, found]⟩
      · exact ⟨.operationalError, by simp [auditBatch, taken]⟩
  have unchanged := Batch.outcome_refused answer
  rw [addAudit, Program.settle_bind, nextAuditSequence, Program.settle_bind,
    Program.settle_select]
  simp only [Program.settle_pure, Program.settle_bind, Program.settle_send]
  simp only [auditRow] at answer unchanged
  rw [answer, unchanged]
  rfl

end AddAudit

end Settle

/-! ## Replay reads -/

/-- Over a tiling the order of the query is the order of the rows. -/
theorem byStartOffset_tiles {lo hi : Int} {chunks : List Chunk} (tiles : Tiles lo chunks hi)
    (fits : ∀ chunk ∈ chunks, chunkLayout.Fits chunk) (nonempty : ∀ chunk ∈ chunks, chunk.data ≠ []) :
    Store.byStartOffset chunks = chunks :=
  byStartOffset_sorted (Layout.Tiles.pairwise_start tiles fits nonempty)

/-- Rows that tile `[0, stop)`, each with data, as long as its span. -/
structure Contiguous (chunks : List Chunk) (stop : Int) : Prop where
  tiles : Tiles 0 chunks stop
  fits : ∀ chunk ∈ chunks, chunkLayout.Fits chunk
  nonempty : ∀ chunk ∈ chunks, chunk.data ≠ []

section Contiguous

variable {db : Store} {id : String} {covered begin stop : Int}

theorem chunksOverlapping_contiguous (rows : Contiguous (db.chunksOf id) covered) (begin stop : Int) :
    db.chunksOverlapping id begin stop =
      (db.chunksOf id).filter fun row => row.startOffset < stop ∧ row.endOffset > begin := by
  have ordered := Layout.Tiles.pairwise_start rows.tiles rows.fits rows.nonempty
  rw [chunksOverlapping_eq]
  refine byStartOffset_perm ?_ (ordered.sublist List.filter_sublist)
  exact (List.perm_insertionSort _ (db.rowsOf id).chunks).symm.filter _

/-- What the replay read answers over the rows of a tiling. -/
theorem settle_archivedBytes {conn : Connection Store}
    (rows : Contiguous (conn.working.chunksOf id) covered) (lower : 0 ≤ begin)
    (ordered : begin ≤ stop) :
    (archivedBytes id begin stop).settle conn =
      (.returned (if begin = stop ∨ stop ≤ covered then
        some (slice (contentOf (conn.working.chunksOf id)) begin stop) else none), conn) := by
  rw [archivedBytes]
  by_cases nothing : begin = stop
  · -- an empty range is not looked up
    rw [if_pos nothing, if_pos (.inl nothing), nothing, slice_empty]
    rfl
  · have start := rows.tiles.le rows.fits
    rw [if_neg nothing, Program.settle_bind, chunksInRange, Program.settle_select]
    simp only [chunksOverlapping_contiguous rows]
    rw [archivedLoop_window rows.tiles rows.fits (by omega) (by omega),
      slice_eq_window _ lower (by omega)]
    by_cases reached : stop ≤ covered
    · rw [if_pos (.inr reached), show max begin (min stop covered) = stop by omega]
      simp
    · simp [reached, nothing, show max begin (min stop covered) ≠ stop by omega]

end Contiguous

/-! ## Statements of one session -/

/-- The part of the tables that a call on one session may see or change. -/
structure SessionView where
  rows : SessionRows
  registered : List UploadSession
  comparisons : List Comparison

def sessionView (id : String) (db : Store) : SessionView :=
  ⟨db.rowsOf id, db.registered id, db.comparisons⟩

section SessionView

variable {id : String} {left right : Store}

theorem sessionView_rows (same : sessionView id left = sessionView id right) :
    left.rowsOf id = right.rowsOf id := congrArg SessionView.rows same

theorem sessionView_session (same : sessionView id left = sessionView id right) :
    left.session? id = right.session? id := congrArg SessionRows.row (sessionView_rows same)

end SessionView

/-- A view shows the rows of a session, and only the writes of that session change it. -/
structure RowView {ν : Type} (view : String → Store → ν) where
  rows : ν → SessionRows
  shows : ∀ id db, rows (view id db) = db.rowsOf id
  apply_congr : ∀ {id writes left right}, Write.AllOf id writes → view id left = view id right →
    view id (Write.applyAll writes left) = view id (Write.applyAll writes right)
  apply_frame : ∀ {id other writes}, Write.AllOf id writes → other ≠ id → ∀ db,
    view other (Write.applyAll writes db) = view other db

def sessionRowView : RowView sessionView where
  rows := SessionView.rows
  shows _ _ := rfl
  apply_congr := by
    intro id writes left right own same
    have comparisons : left.comparisons = right.comparisons := congrArg SessionView.comparisons same
    have registered := Write.registered_applyAll writes id (congrArg SessionView.registered same)
    simp only [sessionView, Write.rowsOf_applyAll, Write.comparisons_applyAll own,
      sessionView_rows same, comparisons, registered]
  apply_frame := by
    intro id other writes own different db
    simp only [sessionView, Write.rowsOf_applyAll_other own different,
      Write.registered_applyAll_other own different, Write.comparisons_applyAll own]

/-- The rows alone. -/
def rowsView (id : String) (db : Store) : SessionRows :=
  db.rowsOf id

def rowsRowView : RowView rowsView where
  rows := id
  shows _ _ := rfl
  apply_congr := by
    intro id writes left right own same
    change left.rowsOf id = right.rowsOf id at same
    simp only [rowsView, Write.rowsOf_applyAll, same]
  apply_frame own different db := @Write.rowsOf_applyAll_other _ _ _ own different db

section Local

variable {ν : Type} {view : String → Store → ν} (isView : RowView view) {id : String}

include isView

theorem RowView.rows_congr {left right : Store} (same : view id left = view id right) :
    left.rowsOf id = right.rowsOf id := by
  rw [← isView.shows, ← isView.shows, same]

theorem RowView.session_congr {left right : Store} (same : view id left = view id right) :
    left.session? id = right.session? id := congrArg SessionRows.row (isView.rows_congr same)

theorem pending_local {writes : List Write} (own : Write.AllOf id writes) :
    (pending writes).LocalTo view id where
  rejects_congr same := Write.rejectsAll_congr own (isView.rows_congr same)
  apply_congr := isView.apply_congr own
  frame := isView.apply_frame own

theorem auditBatch_local {writes : List Write} (env : Env) (own : Write.AllOf id writes) :
    (auditBatch env writes).LocalTo view id where
  rejects_congr same := by
    simp only [auditBatch, Write.rejectsAll_congr own (isView.rows_congr same)]
  apply_congr := (pending_local isView own).apply_congr
  frame := (pending_local isView own).frame

theorem getLockedSession_local : (getLockedSession id).LocalTo view id := by
  refine (Program.LocalTo.selectForUpdate fun _ _ same => isView.session_congr same).bind ?_
  intro found
  cases found <;> exact trivial

omit isView in
theorem getLockedSession_returns :
    (getLockedSession id).Returns fun session => session.id = id := by
  refine (Program.Returns.selectForUpdate id fun db : Store => db.session? id).bind ?_
  rintro answer ⟨db, read⟩
  cases answer with
  | none => trivial
  | some session => exact session?_id read

theorem flush_local {writes : List Write} (own : Write.AllOf id writes) :
    (Db.flush writes).LocalTo view id :=
  Program.LocalTo.send (pending_local isView own)

theorem flushOrRaise_local {writes : List Write} (own : Write.AllOf id writes) :
    (Db.flushOrRaise writes).LocalTo view id := by
  refine (flush_local isView own).bind ?_
  intro answer
  cases answer <;> exact trivial

theorem commit_local {writes : List Write} (own : Write.AllOf id writes) :
    (Db.commit writes).LocalTo view id := by
  refine (flush_local isView own).bind ?_
  intro answer
  cases answer <;> exact trivial

theorem refresh_local {session : UploadSession} (own : session.id = id) :
    (Db.refresh session).LocalTo view id := by
  subst own
  refine (Program.LocalTo.select fun _ _ same => isView.session_congr same).bind ?_
  intro found
  cases found <;> exact trivial

theorem chunksOf_local :
    (Program.select fun db : Store => db.chunksOf id : Db _).LocalTo view id :=
  .select fun _ _ same => by rw [chunksOf_eq, chunksOf_eq, isView.rows_congr same]

theorem addAudit_local {env : Env} {changes : List Write} {session : UploadSession}
    (own : session.id = id) (changesOwn : Write.AllOf id changes) (event : AuditKind)
    (totalBytes : Int) (wholeSha256 : String)
    (targetChunkBytes chunksBefore chunksAfter : Option Int) :
    (addAudit env changes session event totalBytes wholeSha256 targetChunkBytes chunksBefore
      chunksAfter).LocalTo view id := by
  subst own
  have sequence : (nextAuditSequence session.id).LocalTo view session.id := by
    refine (Program.LocalTo.select fun _ _ same => ?_).bind fun _ => trivial
    rw [maxSequence_eq, maxSequence_eq, isView.rows_congr same]
  refine sequence.bind fun number => (Program.LocalTo.send (auditBatch_local isView env
    (changesOwn.append (Write.allOf_singleton rfl)))).bind fun answer => ?_
  cases answer <;> exact trivial

theorem archivedBytes_local (begin stop : Int) :
    (archivedBytes id begin stop).LocalTo view id := by
  rw [archivedBytes]
  split
  · trivial
  · refine (Program.LocalTo.select fun _ _ same => ?_).bind fun chunks => ?_
    · rw [chunksOverlapping_eq, chunksOverlapping_eq, isView.rows_congr same]
    · cases archivedLoop stop chunks begin [] <;> exact trivial

end Local

end SeismicIngest
