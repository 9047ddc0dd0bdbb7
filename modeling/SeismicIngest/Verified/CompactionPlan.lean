import SeismicIngest.Verified.PlannedRows

/-! # What a compaction does

Once `compact_sealed` has accepted the old rows, nothing but the audit row can
stop it: the deletions leave no row, the insertions meet no stored row, and the
re-verification reads back the planned rows (`settle_compactRewrite`).  The no-op
and the rewrite then answer alike and leave the same rows, which `compactPlan`
states once for both (`settle_compactSealed`).

The old rows may be any rows here, as long as the checks of `compact_sealed`
accept them; the registered length only has to fit its column.
-/

namespace SeismicIngest

open Transaction Spans

section

variable {H : Bytes → String}

/-! ## The checks of the old rows -/

theorem oldBuffer_ok_iff {session : UploadSession} {old : List Chunk} {buffer : Bytes} :
    oldBuffer H session old = .ok buffer ↔
      Tiles 0 old session.totalBytes ∧ buffer = contentOf old ∧
        (buffer.length : Int) = session.totalBytes ∧ H buffer = session.wholeSha256 := by
  rw [oldBuffer]
  cases walked : oldLoop old 0 [] with
  | error error =>
    simp only [reduceCtorEq, false_iff]
    rintro ⟨tiles, -⟩
    have accepted : oldLoop old 0 [] = .ok (session.totalBytes, contentOf old) :=
      oldLoop_ok_iff.mpr ⟨tiles, rfl⟩
    rw [accepted] at walked
    cases walked
  | ok result =>
    obtain ⟨cursor, filled⟩ := result
    obtain ⟨tiles, content⟩ := oldLoop_ok_iff.mp walked
    rw [List.nil_append] at content
    subst content
    by_cases size : cursor ≠ session.totalBytes ∨
        ((contentOf old).length : Int) ≠ session.totalBytes
    · -- the rows tile one interval only, and hold one number of bytes
      simp only [size, if_true, reduceCtorEq, false_iff]
      rintro ⟨others, rfl, length, -⟩
      obtain shorter | longer := size
      · exact shorter (tiles.unique others)
      · exact longer length
    · obtain ⟨rfl, length⟩ : cursor = session.totalBytes ∧
          ((contentOf old).length : Int) = session.totalBytes := by
        simpa only [not_or, Decidable.not_not] using size
      simp only [size, if_false]
      by_cases digest : H (contentOf old) = session.wholeSha256
      · simp only [digest, not_true_eq_false, if_false, Except.ok.injEq, ne_eq]
        constructor
        · rintro rfl
          exact ⟨tiles, rfl, length, digest⟩
        · exact fun accepted => accepted.2.1.symm
      · simp only [digest, not_false_eq_true, if_true, ne_eq, reduceCtorEq, false_iff]
        rintro ⟨-, rfl, -, same⟩
        exact digest same

/-! ## Deleting the old rows -/

theorem accepted_deletes (old : List Chunk) (db : Store) :
    Write.Accepted (old.map .deleteChunk) db := by
  induction old generalizing db with
  | nil => rfl
  | cons chunk chunks inductionHypothesis =>
    exact Write.accepted_cons (Write.accepts_deleteChunk chunk db) (inductionHypothesis _)

theorem rowsOf_deletes {id : String} {old : List Chunk} (owned : ∀ chunk ∈ old, chunk.sessionId = id)
    (db : Store) :
    (Write.applyAll (old.map .deleteChunk) db).rowsOf id =
      { db.rowsOf id with
        chunks := (db.rowsOf id).chunks.filter
          (fun stored => old.all fun chunk => !Write.sameChunk chunk stored) } := by
  induction old generalizing db with
  | nil => simp
  | cons chunk chunks inductionHypothesis =>
    have own := owned chunk List.mem_cons_self
    rw [List.map_cons, Write.applyAll_cons,
      inductionHypothesis fun other member => owned other (List.mem_cons_of_mem _ member),
      Write.rowsOf_apply, Write.onRows, if_pos own]
    simp only [List.filter_filter, List.all_cons, Bool.and_comm]

/-- Deleting every row of a session leaves none. -/
theorem rowsOf_deleteAll {id : String} {old : List Chunk} {db : Store}
    (owned : ∀ chunk ∈ old, chunk.sessionId = id) (all : ∀ chunk ∈ (db.rowsOf id).chunks, chunk ∈ old) :
    (Write.applyAll (old.map .deleteChunk) db).rowsOf id = { db.rowsOf id with chunks := [] } := by
  have none' : ((db.rowsOf id).chunks.filter
      fun stored => old.all fun chunk => !Write.sameChunk chunk stored) = [] := by
    -- a row that is listed matches itself
    rw [List.filter_eq_nil_iff]
    intro chunk member kept
    have own := List.all_eq_true.mp kept chunk (all chunk member)
    simp [Write.sameChunk] at own
  rw [rowsOf_deletes owned, none']

/-! ## Inserting the new rows -/

theorem rowsOf_inserts {id : String} {rows : List Chunk} (owned : ∀ chunk ∈ rows, chunk.sessionId = id)
    (db : Store) :
    (Write.applyAll (rows.map .insertChunk) db).rowsOf id =
      { db.rowsOf id with chunks := (db.rowsOf id).chunks ++ rows } := by
  induction rows generalizing db with
  | nil => simp
  | cons chunk rows inductionHypothesis =>
    obtain rfl := owned chunk List.mem_cons_self
    rw [List.map_cons, Write.applyAll_cons,
      inductionHypothesis fun other member => owned other (List.mem_cons_of_mem _ member),
      rowsOf_insertChunk]
    simp

theorem accepts_inserts {id : String} {session : UploadSession} {rows : List Chunk} {db : Store}
    (found : db.session? id = some session) (owned : ∀ chunk ∈ rows, chunk.sessionId = id)
    (inRange : ∀ chunk ∈ rows, fitsBigint chunk.startOffset ∧ fitsBigint chunk.endOffset ∧
      fitsBigint chunk.length)
    (ordered : rows.Pairwise fun earlier later => earlier.startOffset < later.startOffset)
    (apart : ∀ stored ∈ (db.rowsOf id).chunks, ∀ chunk ∈ rows, stored.startOffset ≠ chunk.startOffset) :
    Write.Accepted (rows.map .insertChunk) db := by
  induction rows generalizing db with
  | nil => exact Write.accepted_nil db
  | cons chunk rows inductionHypothesis =>
    obtain rfl := owned chunk List.mem_cons_self
    obtain ⟨starts, ends, length⟩ := inRange chunk List.mem_cons_self
    obtain ⟨before, ordered⟩ := List.pairwise_cons.mp ordered
    have inserted := rowsOf_insertChunk chunk db
    have accepted := Write.accepts_insertChunk starts ends length found
      fun stored member => apart stored member chunk List.mem_cons_self
    have stillFound : ((Write.insertChunk chunk).apply db).session? chunk.sessionId =
        some session := found
    -- the next rows start behind the stored rows and behind this one
    refine Write.accepted_cons accepted (inductionHypothesis stillFound
      (fun other member => owned other (List.mem_cons_of_mem _ member))
      (fun other member => inRange other (List.mem_cons_of_mem _ member)) ordered ?_)
    intro stored member other later
    rw [inserted] at member
    obtain earlier | last := List.mem_append.mp member
    · exact apart stored earlier other (List.mem_cons_of_mem _ later)
    · rw [List.mem_singleton.mp last]
      exact Int.ne_of_lt (before other later)

/-! ## The two ways to succeed -/

section Success

variable {db : Store} {session : UploadSession} {env : Env} {target : Int}

/-- The audit row of a compaction. -/
def compactionRow (env : Env) (sequence : Int) (session : UploadSession) (wholeSha256 : String)
    (target : Int) (chunksBefore chunksAfter : Nat) : AuditEvent :=
  auditRow env sequence session .compacted session.totalBytes wholeSha256 (some target)
    (some chunksBefore) (some chunksAfter)

/-- The database takes the audit row: it has no fault, and the integers fit. -/
def auditTaken (env : Env) (row : AuditEvent) : Bool :=
  env.auditAccepted && !(Write.insertAudit row).outOfRange

/-- The body of a successful compaction. -/
def compacted (H : Bytes → String) (session : UploadSession) (target : Int) (old : List Chunk)
    (buffer : Bytes) : CompactResult :=
  compactResult session target old.length (plannedRows H session.id buffer target).length
    (totalLength old) session.totalBytes (H buffer)
    (newLayout H buffer (plannedSpans session.totalBytes target))

/-- `_add_audit` of a compaction, in a transaction that may have rewritten chunks. -/
theorem settle_compactionAudit (conn : Connection Store) (env : Env) (sequence : Int)
    (wholeSha256 : String) (target : Int) (before after : Nat)
    (found : conn.working.session? session.id = some session)
    (next : conn.working.maxSequence session.id + 1 = sequence) :
    (addAudit env [] session .compacted session.totalBytes wholeSha256 (some target)
        (some before) (some after)).settle conn =
      if auditTaken env (compactionRow env sequence session wholeSha256 target before after) then
        (.returned (), conn.staged (Write.applyAll [.insertAudit
          (compactionRow env sequence session wholeSha256 target before after)] conn.working))
      else (.rolledBack (.raise (.upload auditWriteFailed)), conn) := by
  subst next
  by_cases taken : auditTaken env (compactionRow env (conn.working.maxSequence session.id + 1)
      session wholeSha256 target before after)
  · rw [if_pos taken]
    simp only [auditTaken, Bool.and_eq_true, Bool.not_eq_true'] at taken
    exact settle_addAudit taken.1 (Write.accepted_cons
      (Write.accepts_insertAudit taken.2 found (by rw [← maxSequence_eq]; rfl)) (Write.accepted_nil _))
  · -- a fault of the database, or a number that does not fit
    rw [if_neg taken]
    apply settle_addAudit_refused
    simp only [auditTaken, Bool.and_eq_true, Bool.not_eq_true', not_and, Bool.not_eq_false] at taken
    by_cases accepted : env.auditAccepted = true
    · right
      have range := taken accepted
      simp only [compactionRow] at range
      simp only [List.nil_append, Write.rejectsAll, Write.rejects, range, if_true]
      exact Option.some_ne_none _
    · exact .inl (by simpa using accepted)

theorem settle_compactNoop {old : List Chunk} {buffer : Bytes} {layout : List LayoutRow}
    (found : db.session? session.id = some session)
    (size : (buffer.length : Int) = session.totalBytes)
    (planned : layout = newLayout H buffer (plannedSpans session.totalBytes target)) :
    let row := compactionRow env (db.maxSequence session.id + 1) session (H buffer) target old.length
      (plannedRows H session.id buffer target).length
    (compactNoop H env session target old buffer layout).settle (.opened db) =
      if auditTaken env row then
        (.committed (.pure (compacted H session target old buffer)),
          (Connection.opened db).staged (Write.applyAll [.insertAudit row] db))
      else (.rolledBack (.raise (.upload auditWriteFailed)), .opened db) := by
  intro row
  have count : layout.length = (plannedRows H session.id buffer target).length := by
    rw [planned, ← size, ← plannedRows_layout H session.id, List.length_map]
  have audit := settle_compactionAudit (.opened db) env (db.maxSequence session.id + 1) (H buffer)
    target old.length (plannedRows H session.id buffer target).length found rfl
  rw [compactNoop, Program.settle_bind, count, audit]
  by_cases taken : auditTaken env row
  · simp only [Connection.opened_working, row, if_pos taken]
    rw [Program.settle_bind, settle_commit (Write.accepted_nil _), planned]
    rfl
  · simp only [Connection.opened_working, row, if_neg taken]
    rfl

/-- Where the rewrite stands when it has flushed the new rows. -/
def rewriteWrites (H : Bytes → String) (session : UploadSession) (target : Int) (old : List Chunk)
    (buffer : Bytes) : List Write :=
  old.map .deleteChunk ++ (plannedRows H session.id buffer target).map .insertChunk

/-- A rewrite touches chunk rows alone. -/
theorem rewriteWrites_chunks {H : Bytes → String} {session : UploadSession} {target : Int}
    {old : List Chunk} {buffer : Bytes} {write : Write}
    (member : write ∈ rewriteWrites H session target old buffer) :
    ∃ chunk, write = .deleteChunk chunk ∨ write = .insertChunk chunk := by
  obtain deletion | insertion := List.mem_append.mp member
  · obtain ⟨chunk, -, rfl⟩ := List.mem_map.mp deletion
    exact ⟨chunk, .inl rfl⟩
  · obtain ⟨chunk, -, rfl⟩ := List.mem_map.mp insertion
    exact ⟨chunk, .inr rfl⟩

theorem rowsOf_owned {db : Store} {id : String} :
    ∀ chunk ∈ (db.rowsOf id).chunks, chunk.sessionId = id := by
  intro chunk member
  simpa [Store.rowsOf] using (List.mem_filter.mp member).2

/-- The insertions of a rewrite are those of the planned rows. -/
theorem insert_newRows (target : Int) {buffer : Bytes} (size : (buffer.length : Int) = session.totalBytes) :
    (newLayout H buffer (plannedSpans session.totalBytes target)).map
        (fun row => Write.insertChunk (newRow session.id buffer row)) =
      (plannedRows H session.id buffer target).map .insertChunk := by
  rw [← newRows_eq_plannedRows, List.map_map, size]
  rfl

section Rewrite

theorem plannedRows_owned {id : String} {buffer : Bytes} {target : Int} :
    ∀ chunk ∈ plannedRows H id buffer target, chunk.sessionId = id := by
  intro chunk member
  obtain ⟨k, -, rfl⟩ := List.mem_map.mp member
  rfl

variable {old : List Chunk} {buffer : Bytes} (found : db.session? session.id = some session)
  (inRange : session.totalBytes < 2 ^ 63) (positive : 0 < target)
  (owned : ∀ chunk ∈ old, chunk.sessionId = session.id)
  (all : ∀ chunk ∈ (db.rowsOf session.id).chunks, chunk ∈ old)
  (size : (buffer.length : Int) = session.totalBytes)

include owned all in
variable (target buffer) in
/-- The new rows are all the rows there are. -/
theorem rewrite_rows :
    (Write.applyAll (rewriteWrites H session target old buffer) db).rowsOf session.id =
      { db.rowsOf session.id with chunks := plannedRows H session.id buffer target } := by
  rw [rewriteWrites, Write.applyAll_append, rowsOf_inserts plannedRows_owned,
    rowsOf_deleteAll owned all]
  rfl

include found inRange positive owned all size

/-- The new rows are accepted. -/
theorem rewrite_accepted :
    Write.Accepted ((plannedRows H session.id buffer target).map .insertChunk)
      (Write.applyAll (old.map .deleteChunk) db) := by
  have deleted := rowsOf_deleteAll owned all
  have tiles := plannedRows_tiles H session.id buffer positive
  have intact := plannedRows_intact H session.id buffer positive
  have stillFound : (Write.applyAll (old.map .deleteChunk) db).session? session.id = some session := by
    rw [← rowsOf_row, deleted]
    exact found
  refine accepts_inserts stillFound plannedRows_owned ?_
    (Layout.Tiles.pairwise_start tiles (fits_of_intact intact)
      (plannedRows_nonempty H session.id buffer positive))
    (by rw [deleted]; intro stored member; cases member)
  -- a planned row lies inside the package, whose length fits
  intro chunk member
  have inside := Layout.Tiles.within tiles (fits_of_intact intact) member
  have row := intact chunk member
  have spans := row.span
  have counted := row.size
  simp only [chunkLayout_start, chunkLayout_stop] at inside
  exact ⟨fitsBigint_of_nonneg inside.1 (by omega), fitsBigint_of_nonneg (by omega) (by omega),
    fitsBigint_of_nonneg (by omega) (by omega)⟩

omit found inRange owned all in
/-- The re-verification of the new rows cannot fail. -/
theorem verifyNewRows_planned (whole : H buffer = session.wholeSha256) :
    verifyNewRows H session target (plannedRows H session.id buffer target) =
      .ok (session.totalBytes, H buffer) := by
  have tiles := plannedRows_tiles H session.id buffer positive
  have intact := plannedRows_intact H session.id buffer positive
  rw [verifyNewRows, verifyLoop_tiles tiles (plannedRows_short H session.id buffer positive)
    (fun chunk member => (intact chunk member).digest) [] 0,
    totalLength_intact tiles fun chunk member => (intact chunk member).span]
  simp [plannedRows_content H session.id buffer positive, size, whole]

theorem settle_compactRewrite (env : Env) (whole : H buffer = session.wholeSha256) :
    let row := compactionRow env (db.maxSequence session.id + 1) session (H buffer) target old.length
      (plannedRows H session.id buffer target).length
    let rewritten := (Connection.opened db).staged
      (Write.applyAll (rewriteWrites H session target old buffer) db)
    (compactRewrite H env session.id session target old buffer
        (newLayout H buffer (plannedSpans session.totalBytes target))).settle (.opened db) =
      if auditTaken env row then
        (.committed (.pure (compacted H session target old buffer)),
          rewritten.staged (Write.applyAll [.insertAudit row] rewritten.working))
      else (.rolledBack (.raise (.upload auditWriteFailed)), rewritten) := by
  intro row rewritten
  have accepted := @rewrite_accepted H db session target old buffer found inRange positive owned all size
  have rows : rewritten.working.rowsOf session.id = _ := rewrite_rows target buffer owned all
  have inserts := insert_newRows (H := H) target size
  -- what the re-verification and the audit read inside the transaction
  have stored : rewritten.working.chunksOf session.id = plannedRows H session.id buffer target := by
    rw [chunksOf_eq, rows]
    exact plannedRows_ordered H session.id buffer positive
  have layout : (plannedRows H session.id buffer target).map Chunk.layoutRow =
      newLayout H buffer (plannedSpans session.totalBytes target) := by
    rw [plannedRows_layout, size]
  have stillFound : rewritten.working.session? session.id = some session := by
    rw [← rowsOf_row, rows]
    exact found
  have sequence : rewritten.working.maxSequence session.id + 1 = db.maxSequence session.id + 1 := by
    rw [maxSequence_eq, maxSequence_eq, rows]
    rfl
  have audit := settle_compactionAudit rewritten env (db.maxSequence session.id + 1) (H buffer)
    target old.length (plannedRows H session.id buffer target).length stillFound sequence
  have flushed : (Connection.staged ((Connection.opened db).staged (Write.applyAll
      (old.map .deleteChunk) db)) (Write.applyAll ((plannedRows H session.id buffer target).map
        .insertChunk) (Write.applyAll (old.map .deleteChunk) db))) = rewritten := by
    rw [← Write.applyAll_append, Connection.staged_staged]
    rfl
  -- the statements in turn: deletes, inserts, re-verification, audit, commit
  rw [compactRewrite, Program.settle_bind, settle_flushOrRaise (accepted_deletes old db), inserts]
  simp only [Program.settle_bind, Connection.opened_working]
  rw [settle_flushOrRaise accepted]
  simp only [Connection.staged_working, flushed, Program.settle_select, stored,
    verifyNewRows_planned positive size whole]
  simp only [Except.mapError, Program.settle_lift_ok, audit, layout]
  by_cases taken : auditTaken env row
  · simp only [row, if_pos taken]
    rw [settle_commit (Write.accepted_nil _)]
    rfl
  · simp only [row, if_neg taken]
    rfl

end Rewrite

end Success

/-! ## The whole call -/

/-- What a compaction decides. -/
inductive CompactPlan where
  | refuse (error : UploadError)
  /-- The old rows fail their checks, and the transaction is rolled back. -/
  | abort (error : UploadError)
  | done (result : CompactResult) (writes : List Write)
  /-- The audit row is refused, and the rewrite with it. -/
  | auditFailed (discarded : List Write)

namespace CompactPlan

/-- How the transaction ends. -/
def ending : CompactPlan → Ending Store String DbError Raised CompactResult
  | .refuse error => .raised (.upload error)
  | .abort error => .rolledBack (.raise (.upload error))
  | .done result _ => .committed (.pure result)
  | .auditFailed _ => .rolledBack (.rollback (.raise (.upload auditWriteFailed)))

/-- The writes sent before the transaction ends. -/
def sent : CompactPlan → List Write
  | .refuse _ | .abort _ => []
  | .done _ writes => writes
  | .auditFailed discarded => discarded

/-- The writes that are committed. -/
def writes : CompactPlan → List Write
  | .done _ writes => writes
  | _ => []

def answer : CompactPlan → Except Raised CompactResult
  | .refuse error | .abort error => .error (.upload error)
  | .done result _ => .ok result
  | .auditFailed _ => .error (.upload auditWriteFailed)

end CompactPlan

variable (H) in
/-- The plan once the old rows have passed their checks: the no-op and the rewrite
    differ in the rows they touch, and in nothing else. -/
def acceptedPlan (env : Env) (session : UploadSession) (target : Int) (old : List Chunk)
    (sequence : Int) (buffer : Bytes) : CompactPlan :=
  let row := compactionRow env sequence session (H buffer) target old.length
    (plannedRows H session.id buffer target).length
  let changes :=
    if old.map Chunk.layoutRow = newLayout H buffer (plannedSpans session.totalBytes target) then []
    else rewriteWrites H session target old buffer
  if auditTaken env row then
    .done (compacted H session target old buffer) (changes ++ [.insertAudit row])
  else .auditFailed changes

variable (H) in
def compactPlan (env : Env) (sessionId : String) (target : Int) (rows : SessionRows) : CompactPlan :=
  if target ≤ 0 then .refuse (invalidTarget target)
  else
    match rows.row with
    | none => .refuse (sessionNotFound sessionId)
    | some session =>
      if session.status ≠ .sealed then .refuse (compactionStateConflict session)
      else
        match oldBuffer H session (Store.byStartOffset rows.chunks) with
        | .error error => .abort error
        | .ok buffer =>
          acceptedPlan H env session target (Store.byStartOffset rows.chunks) (rows.maxSequence + 1)
            buffer

section Equations

variable {env : Env} {target : Int} {db : Store} {id : String} {session : UploadSession}

theorem compactPlan_invalid (invalid : target ≤ 0) (rows : SessionRows) :
    compactPlan H env id target rows = .refuse (invalidTarget target) :=
  if_pos invalid

variable (positive : 0 < target)

include positive

theorem compactPlan_missing (missing : db.session? id = none) :
    compactPlan H env id target (db.rowsOf id) = .refuse (sessionNotFound id) := by
  simp only [compactPlan, if_neg (Int.not_le.mpr positive), rowsOf_row, missing]

variable (found : db.session? id = some session)

include found

theorem compactPlan_conflict (notSealed : session.status ≠ .sealed) :
    compactPlan H env id target (db.rowsOf id) = .refuse (compactionStateConflict session) := by
  simp only [compactPlan, if_neg (Int.not_le.mpr positive), rowsOf_row, found, if_pos notSealed]

variable (isSealed : session.status = .sealed)

include isSealed

theorem compactPlan_of_error {error : UploadError}
    (checked : oldBuffer H session (db.chunksOf id) = .error error) :
    compactPlan H env id target (db.rowsOf id) = .abort error := by
  rw [chunksOf_eq] at checked
  simp only [compactPlan, if_neg (Int.not_le.mpr positive), rowsOf_row, found,
    if_neg (not_not_intro isSealed), checked]

theorem compactPlan_of_ok {buffer : Bytes}
    (checked : oldBuffer H session (db.chunksOf id) = .ok buffer) :
    compactPlan H env id target (db.rowsOf id) =
      acceptedPlan H env session target (db.chunksOf id) (db.maxSequence id + 1) buffer := by
  rw [chunksOf_eq] at checked ⊢
  rw [maxSequence_eq]
  simp only [compactPlan, if_neg (Int.not_le.mpr positive), rowsOf_row, found,
    if_neg (not_not_intro isSealed), checked]

end Equations

/-! ## What an accepted plan leaves -/

theorem rowsOf_compactionAudit (env : Env) (sequence : Int) (session : UploadSession)
    (digest : String) (target : Int) (before after : Nat) (db : Store) :
    (Write.applyAll [.insertAudit (compactionRow env sequence session digest target before after)]
        db).rowsOf session.id =
      { db.rowsOf session.id with
        audits := (db.rowsOf session.id).audits ++
          [compactionRow env sequence session digest target before after] } :=
  rowsOf_insertAudit (compactionRow env sequence session digest target before after) db

/-- The stored rows stay where they already record the planned layout, and are the
    planned rows otherwise; the audit row is the last one. -/
theorem rowsOf_acceptedPlan {env : Env} {session : UploadSession} {target : Int} {db : Store}
    {old : List Chunk} (found : db.session? session.id = some session)
    (owned : ∀ chunk ∈ old, chunk.sessionId = session.id)
    (all : ∀ chunk ∈ (db.rowsOf session.id).chunks, chunk ∈ old)
    (taken : auditTaken env (compactionRow env (db.maxSequence session.id + 1) session
      (H (contentOf old)) target old.length (plannedRows H session.id (contentOf old) target).length)) :
    let plan := acceptedPlan H env session target old (db.maxSequence session.id + 1) (contentOf old)
    plan.answer = .ok (compacted H session target old (contentOf old)) ∧
      (Write.applyAll plan.writes db).rowsOf session.id =
        ⟨some session,
          if old.map Chunk.layoutRow =
              newLayout H (contentOf old) (plannedSpans session.totalBytes target)
            then (db.rowsOf session.id).chunks
            else plannedRows H session.id (contentOf old) target,
          (db.rowsOf session.id).audits ++ [compactionRow env (db.maxSequence session.id + 1) session
            (H (contentOf old)) target old.length
            (plannedRows H session.id (contentOf old) target).length]⟩ := by
  intro plan
  simp only [plan, acceptedPlan, if_pos taken]
  refine ⟨rfl, ?_⟩
  rw [CompactPlan.writes, Write.applyAll_append, rowsOf_compactionAudit]
  by_cases planned : old.map Chunk.layoutRow =
      newLayout H (contentOf old) (plannedSpans session.totalBytes target)
  · rw [if_pos planned, if_pos planned, Write.applyAll_nil, ← found, ← rowsOf_row]
  · have rewritten := @rewrite_rows H db session target old (contentOf old) owned all
    rw [if_neg planned, if_neg planned, rewritten, ← found, ← rowsOf_row]

theorem acceptedPlan_refused {env : Env} {session : UploadSession} (target : Int) (old : List Chunk)
    {sequence : Int} {buffer : Bytes}
    (refused : ¬ auditTaken env (compactionRow env sequence session (H buffer) target old.length
      (plannedRows H session.id buffer target).length)) :
    (acceptedPlan H env session target old sequence buffer).answer =
      .error (.upload auditWriteFailed) := by
  rw [acceptedPlan]
  exact congrArg CompactPlan.answer (if_neg refused)

/-! ## The program follows the plan -/

theorem settle_compactBody {env : Env} {session : UploadSession} {target : Int} {db : Store}
    (found : db.session? session.id = some session) (inRange : session.totalBytes < 2 ^ 63)
    (positive : 0 < target) {buffer : Bytes}
    (accepted : oldBuffer H session (db.chunksOf session.id) = .ok buffer) :
    let plan := acceptedPlan H env session target (db.chunksOf session.id)
      (db.maxSequence session.id + 1) buffer
    ((compactBody H env session.id session target).catching fun exception => do
        Db.rollback
        .raise exception).settle (.opened db) =
      (plan.ending, (Connection.opened db).staged (Write.applyAll plan.sent db)) := by
  intro plan
  obtain ⟨-, rfl, size, whole⟩ := oldBuffer_ok_iff.mp accepted
  have member : ∀ chunk, chunk ∈ db.chunksOf session.id ↔ chunk ∈ (db.rowsOf session.id).chunks := by
    intro chunk
    rw [chunksOf_eq, byStartOffset_mem]
  have owned : ∀ chunk ∈ db.chunksOf session.id, chunk.sessionId = session.id :=
    fun chunk listed => rowsOf_owned chunk ((member chunk).mp listed)
  let buffer := contentOf (db.chunksOf session.id)
  let layout := newLayout H buffer (plannedSpans session.totalBytes target)
  have body : (compactBody H env session.id session target).settle (.opened db) =
      (if (db.chunksOf session.id).map Chunk.layoutRow = layout then
          compactNoop H env session target (db.chunksOf session.id) buffer layout
        else compactRewrite H env session.id session target (db.chunksOf session.id) buffer
          layout).settle (.opened db) := by
    rw [compactBody, Program.settle_bind, Program.settle_select]
    change Program.settle (_ >>= _) _ = _
    rw [Program.settle_bind, Connection.opened_working, accepted]
    rfl
  rw [Program.settle_catching, body]
  simp only [plan, acceptedPlan]
  by_cases planned : (db.chunksOf session.id).map Chunk.layoutRow = layout
  · rw [if_pos planned, if_pos planned, settle_compactNoop found size rfl]
    by_cases taken : auditTaken env (compactionRow env (db.maxSequence session.id + 1) session
        (H buffer) target (db.chunksOf session.id).length
        (plannedRows H session.id buffer target).length)
    · rw [if_pos taken, if_pos taken]
      rfl
    · rw [if_neg taken, if_neg taken]
      rfl
  · rw [if_neg planned, if_neg planned, settle_compactRewrite found inRange positive owned
      (fun chunk stored => (member chunk).mpr stored) size env whole]
    by_cases taken : auditTaken env (compactionRow env (db.maxSequence session.id + 1) session
        (H buffer) target (db.chunksOf session.id).length
        (plannedRows H session.id buffer target).length)
    · rw [if_pos taken, if_pos taken, CompactPlan.sent, Write.applyAll_append]
      rfl
    · rw [if_neg taken, if_neg taken]
      rfl

/-- The transaction of a compaction ends as its plan says. -/
theorem settle_compactSealed {env : Env} {sessionId : String} {target : Int} {db : Store}
    (inRange : ∀ session, db.session? sessionId = some session → session.totalBytes < 2 ^ 63) :
    let plan := compactPlan H env sessionId target (db.rowsOf sessionId)
    (compactSealed H env sessionId target).settle (.opened db) =
      (plan.ending, (Connection.opened db).staged (Write.applyAll plan.sent db)) := by
  intro plan
  by_cases invalid : target ≤ 0
  · rw [compactSealed, if_pos invalid, show plan = _ from compactPlan_invalid invalid _]
    rfl
  · have positive : 0 < target := Int.not_le.mp invalid
    rw [compactSealed, if_neg invalid]
    cases found : db.session? sessionId with
    | none =>
      rw [Program.settle_bind, settle_getLockedSession_missing found,
        show plan = _ from compactPlan_missing positive found]
      rfl
    | some session =>
      obtain rfl := session?_id found
      rw [Program.settle_bind, settle_getLockedSession found]
      by_cases isSealed : session.status = .sealed
      · simp only [ne_eq, isSealed, not_true_eq_false, if_false]
        cases checked : oldBuffer H session (db.chunksOf session.id) with
        | error error =>
          -- the checks of the old rows raise, and the handler rolls back
          rw [show plan = _ from compactPlan_of_error positive found isSealed checked,
            Program.settle_catching, compactBody, Program.settle_bind, Program.settle_select]
          simp only [Connection.opened_working, Program.settle_bind, checked, Except.mapError,
            Program.settle_lift_error]
          rfl
        | ok buffer =>
          rw [show plan = _ from compactPlan_of_ok positive found isSealed checked]
          exact settle_compactBody found (inRange session found) positive checked
      · rw [show plan = _ from compactPlan_conflict positive found isSealed]
        simp only [ne_eq, isSealed, not_false_eq_true, if_true]
        rfl

/-- A compaction run alone answers as its plan says, and commits the writes of the
    plan. -/
theorem run_compactSealed (env : Env) (target : Int) {sessionId : String} {db : Store}
    (inRange : ∀ session, db.session? sessionId = some session → session.totalBytes < 2 ^ 63) :
    let plan := compactPlan H env sessionId target (db.rowsOf sessionId)
    (compactSealed H env sessionId target).run db =
      (plan.answer, Write.applyAll plan.writes db) := by
  intro plan
  have settled : (compactSealed H env sessionId target).settle (.opened db) =
      (plan.ending, (Connection.opened db).staged (Write.applyAll plan.sent db)) :=
    settle_compactSealed inRange
  have ending := congrArg Prod.fst settled
  have left := congrArg (fun pair => pair.2.working) settled
  cases decided : plan with
  | refuse error =>
    rw [decided] at ending
    exact Program.run_of_raised ending
  | abort error =>
    rw [decided] at ending
    rw [Program.run_of_rolledBack ending]
    rfl
  | done result writes =>
    rw [decided] at ending left
    rw [Program.run_of_committed ending, left]
    rfl
  | auditFailed discarded =>
    rw [decided] at ending
    rw [Program.run_of_rolledBack ending]
    rfl

end

end SeismicIngest
