import SeismicIngest.Verified.Puts
import SeismicIngest.Verified.Compactions
import SeismicIngest.Transaction.Serializability

/-! # Puts and compactions are writers

Both calls stay on the rows of one session, lock its row before they read
anything, only read once their transaction has ended, and on sound rows never meet
an `IntegrityError`.  That is what the theory of interleaved transactions asks of
a `Writer`.
-/

namespace SeismicIngest

open Transaction

section

variable {H : Bytes → String} {sessionId : String}

/-! ## Locality -/

section Local

variable {ν : Type} {view : String → Store → ν} (isView : RowView view)

include isView

section Session

variable {session : UploadSession} (own : session.id = sessionId)

include own

theorem terminalReplay_local (start declaredLength : Int) (chunkDigest : String) (payload : Bytes) :
    (terminalReplay session start declaredLength chunkDigest payload).LocalTo view sessionId := by
  subst own
  rw [terminalReplay]
  split
  · refine (archivedBytes_local isView _ _).bind fun archived => ?_
    split <;> exact trivial
  · trivial

theorem verifyAndFinalize_local (env : Env) :
    (verifyAndFinalize H env session).LocalTo view sessionId := by
  subst own
  refine (chunksOf_local isView).bind fun chunks => ?_
  split
  · split
    · exact (addAudit_local isView rfl (Write.allOf_singleton rfl) _ _ _ _ _ _).bind fun _ => trivial
    · trivial
  · trivial

omit isView in
/-- Finalization keeps the identity of its session, and what it leaves pending is a
    change of that session. -/
theorem verifyAndFinalize_returns (env : Env) :
    (verifyAndFinalize H env session).Returns fun finalized =>
      finalized.1.id = sessionId ∧ Write.AllOf sessionId finalized.2 := by
  subst own
  refine (Program.Returns.of_all (fun _ => True.intro) _).bind fun chunks _ => ?_
  split
  · split
    · exact (Program.Returns.of_all (fun _ => True.intro) _).bind fun _ _ => ⟨rfl, Write.allOf_nil⟩
    · exact ⟨rfl, Write.allOf_singleton rfl⟩
  · exact ⟨rfl, Write.allOf_singleton rfl⟩

theorem acknowledge_local (finalized : Bool) (start declaredLength : Int) (chunkDigest : String) :
    (acknowledge session finalized start declaredLength chunkDigest).LocalTo view sessionId := by
  refine (refresh_local isView own).bind fun stored => ?_
  split <;> exact trivial

theorem putForward_local (env : Env) (start declaredLength : Int) (chunkDigest : String)
    (payload : Bytes) :
    (putForward H env sessionId session start declaredLength chunkDigest payload).LocalTo
      view sessionId := by
  have inserts : Write.AllOf sessionId
      [.insertChunk (forwardChunk session start declaredLength chunkDigest payload)] :=
    Write.allOf_singleton (congrArg some own)
  have updates : Write.AllOf sessionId
      [.updateSession (advancedSession session start declaredLength)] :=
    Write.allOf_singleton (congrArg some own)
  refine (flush_local isView inserts).bind fun answer => ?_
  split
  · -- the fallback starts over on the same row
    refine Program.LocalTo.bind trivial fun _ => (getLockedSession_local isView).bind fun _ => ?_
    refine (archivedBytes_local isView _ _).bind fun archived => ?_
    split <;> exact trivial
  · trivial
  · split
    · have advanced : (advancedSession session start declaredLength).id = sessionId := own
      refine (verifyAndFinalize_local isView advanced env).bind_returns
        (verifyAndFinalize_returns advanced env) fun finalized owned => ?_
      exact (commit_local isView owned.2).bind fun _ => acknowledge_local isView owned.1 _ _ _ _
    · exact (commit_local isView updates).bind fun _ => acknowledge_local isView own _ _ _ _

theorem putActive_local (env : Env) (start declaredLength : Int) (chunkDigest : String)
    (payload : Bytes) :
    (putActive H env sessionId session start declaredLength chunkDigest payload).LocalTo
      view sessionId := by
  rw [putActive]
  split
  · exact putForward_local isView own env start declaredLength chunkDigest payload
  · split
    · exact (commit_local isView Write.allOf_nil).bind fun _ => trivial
    · split
      · subst own
        refine (archivedBytes_local isView _ _).bind fun archived => ?_
        split
        · exact (commit_local isView Write.allOf_nil).bind fun _ => trivial
        · trivial
      · trivial

theorem compactNoop_local (env : Env) (target : Int) (old : List Chunk) (buffer : Bytes)
    (layout : List LayoutRow) :
    (compactNoop H env session target old buffer layout).LocalTo view sessionId := by
  refine (addAudit_local isView own Write.allOf_nil _ _ _ _ _ _).bind fun _ => ?_
  exact (commit_local isView Write.allOf_nil).bind fun _ => trivial

theorem compactRewrite_local (env : Env) (target : Int) {old : List Chunk}
    (owned : ∀ chunk ∈ old, chunk.sessionId = sessionId) (buffer : Bytes) (layout : List LayoutRow) :
    (compactRewrite H env sessionId session target old buffer layout).LocalTo
      view sessionId := by
  have deletes : Write.AllOf sessionId (old.map .deleteChunk) := by
    intro write member
    obtain ⟨chunk, stored, rfl⟩ := List.mem_map.mp member
    exact congrArg some (owned chunk stored)
  have inserts : Write.AllOf sessionId
      (layout.map fun row => .insertChunk (newRow sessionId buffer row)) := by
    intro write member
    obtain ⟨row, -, rfl⟩ := List.mem_map.mp member
    rfl
  refine (flushOrRaise_local isView deletes).bind fun _ => (flushOrRaise_local isView inserts).bind fun _ => ?_
  refine (chunksOf_local isView).bind fun verifyChunks => (Program.LocalTo.lift _).bind fun verified => ?_
  refine (addAudit_local isView own Write.allOf_nil _ _ _ _ _ _).bind fun _ => ?_
  exact (commit_local isView Write.allOf_nil).bind fun _ => trivial

theorem compactBody_local (env : Env) (target : Int) :
    (compactBody H env sessionId session target).LocalTo view sessionId := by
  have owned : (Program.select fun db : Store => db.chunksOf sessionId : Db _).Returns
      fun chunks => ∀ chunk ∈ chunks, chunk.sessionId = sessionId := by
    intro db chunk member
    exact rowsOf_owned chunk (byStartOffset_mem.mp member)
  refine (chunksOf_local isView).bind_returns owned fun old oldOwned => ?_
  refine (Program.LocalTo.lift _).bind fun buffer => ?_
  dsimp only
  split
  · exact compactNoop_local isView own _ _ _ _ _
  · exact compactRewrite_local isView own _ _ oldOwned _ _

end Session

theorem putChunk_local (env : Env) (start declaredLength : Int) (chunkDigest : String)
    (payload : Bytes) :
    (putChunk H env sessionId start declaredLength chunkDigest payload).LocalTo
      view sessionId := by
  refine (getLockedSession_local isView).bind_returns getLockedSession_returns fun session own => ?_
  split
  · trivial
  · split
    · refine (terminalReplay_local isView own _ _ _ _).bind fun echoed => ?_
      exact (commit_local isView Write.allOf_nil).bind fun _ => trivial
    · exact putActive_local isView own env start declaredLength chunkDigest payload

theorem compactSealed_local (env : Env) (target : Int) :
    (compactSealed H env sessionId target).LocalTo view sessionId := by
  rw [compactSealed]
  split
  · trivial
  · refine (getLockedSession_local isView).bind_returns getLockedSession_returns fun session own => ?_
    split
    · trivial
    · exact (compactBody_local isView own env target).catching fun _ => trivial

end Local

/-! ## No unique constraint is met -/

section Avoids

variable {conn : Connection Store}

theorem getLockedSession_avoids : (getLockedSession sessionId).Avoids DbError.integrityError conn := by
  refine Program.Avoids.bind trivial fun answer _ => ?_
  cases answer <;> exact trivial

theorem flush_avoids {writes : List Write} (accepted : Write.Accepted writes conn.working) :
    (Db.flush writes).Avoids DbError.integrityError conn := by
  refine ⟨?_, trivial⟩
  change Write.rejectsAll writes conn.working ≠ _
  rw [accepted]
  exact Option.some_ne_none _ |>.symm

theorem commit_avoids {writes : List Write} (accepted : Write.Accepted writes conn.working) :
    (Db.commit writes).Avoids DbError.integrityError conn := by
  refine (flush_avoids accepted).bind fun answer _ => ?_
  cases answer <;> exact trivial

/-- The end of a call that has nothing pending. -/
theorem commit_nothing_avoids {α : Type} (body : α) :
    (do Db.commit []; pure body : Db α).Avoids DbError.integrityError conn :=
  (commit_avoids (Write.accepted_nil _)).bind fun _ _ => trivial

theorem flushOrRaise_avoids {writes : List Write} (accepted : Write.Accepted writes conn.working) :
    (Db.flushOrRaise writes).Avoids DbError.integrityError conn := by
  refine (flush_avoids accepted).bind fun answer _ => ?_
  cases answer <;> exact trivial

/-- An audit row never meets a stored one: its number is the next free number. -/
theorem addAudit_avoids {env : Env} {changes : List Write} {session stored : UploadSession}
    {event : AuditKind} {totalBytes : Int} {wholeSha256 : String}
    {targetChunkBytes chunksBefore chunksAfter : Option Int}
    (accepted : Write.Accepted changes conn.working)
    (found : (Write.applyAll changes conn.working).session? session.id = some stored)
    (audits : ((Write.applyAll changes conn.working).rowsOf session.id).audits =
      (conn.working.rowsOf session.id).audits) :
    (addAudit env changes session event totalBytes wholeSha256 targetChunkBytes chunksBefore
      chunksAfter).Avoids DbError.integrityError conn := by
  have number : (nextAuditSequence session.id).settle conn =
      (.returned (conn.working.maxSequence session.id + 1), conn) := by
    rw [nextAuditSequence, Program.settle_bind, Program.settle_select]
    rfl
  have quiet : (nextAuditSequence session.id).Avoids DbError.integrityError conn := trivial
  refine quiet.bind fun sequence returned => ?_
  rw [number] at returned ⊢
  simp only [Ending.returned.injEq] at returned
  subst returned
  have refusal : ∀ row : AuditEvent, row.sessionId = session.id →
      row.sequence = conn.working.maxSequence session.id + 1 →
        (auditBatch env (changes ++ [.insertAudit row])).rejects conn.working ≠
          some .integrityError := by
    intro row own next
    cases taken : env.auditAccepted with
    | false => simp [auditBatch, taken]
    | true =>
      have alone := Write.insertAudit_not_integrityError (own ▸ found) (by
        rw [next, maxSequence_eq, own, SessionRows.maxSequence, SessionRows.maxSequence, audits])
      simp only [auditBatch, taken, if_true, Write.rejectsAll_append accepted]
      rw [Write.rejectsAll]
      split
      · rename_i refused
        exact refused ▸ alone
      · simp [Write.rejectsAll]
  refine Program.Avoids.bind ⟨refusal _ rfl rfl, trivial⟩ fun answer _ => ?_
  cases answer <;> exact trivial

end Avoids

/-! ## Quiet programs -/

theorem archivedBytes_quiet (begin stop : Int) : (archivedBytes sessionId begin stop).Quiet := by
  rw [archivedBytes]
  split
  · trivial
  · refine (Program.Quiet.select _).bind fun chunks => ?_
    split <;> exact trivial

theorem refresh_quiet (session : UploadSession) : (Db.refresh session).Quiet := by
  refine (Program.Quiet.select _).bind fun found => ?_
  split <;> exact trivial

theorem acknowledge_quiet (session : UploadSession) (finalized : Bool) (start declaredLength : Int)
    (chunkDigest : String) :
    (acknowledge session finalized start declaredLength chunkDigest).Quiet := by
  refine (refresh_quiet session).bind fun stored => ?_
  split <;> exact trivial

theorem terminalReplay_quiet (session : UploadSession) (start declaredLength : Int)
    (chunkDigest : String) (payload : Bytes) :
    (terminalReplay session start declaredLength chunkDigest payload).Quiet := by
  rw [terminalReplay]
  split
  · refine (archivedBytes_quiet _ _).bind fun archived => ?_
    split <;> exact trivial
  · trivial

/-! ## Puts -/

section Puts

variable {db : Store} {session : UploadSession} (env : Env) {start declaredLength : Int}
  {chunkDigest : String} {payload : Bytes}

/-- Finalization sends no row that meets a stored one: the sealing row is the first
    audit row of its session. -/
theorem verifyAndFinalize_avoids
    (forward : Forward H db session start declaredLength chunkDigest payload)
    (last : start + declaredLength = session.totalBytes) :
    (verifyAndFinalize H env (advancedSession session start declaredLength)).Avoids
      DbError.integrityError ((Connection.opened db).staged (Write.applyAll
        [.insertChunk (forwardChunk session start declaredLength chunkDigest payload)] db)) := by
  refine Program.Avoids.bind trivial fun chunks _ => ?_
  split
  · split
    · rename_i computed _ _
      let verified := sealedSession (advancedSession session start declaredLength) computed
      have accepted := forward.updateSession_accepted verified rfl last.symm
      have rows := rowsOf_forward verified
        (forwardChunk session start declaredLength chunkDigest payload) forward.found rfl rfl
      refine Program.Avoids.bind (addAudit_avoids (Write.accepted_cons (accepted _)
        (Write.accepted_nil _)) (congrArg SessionRows.row rows) ?_) fun _ _ => trivial
      exact (congrArg SessionRows.audits rows).trans (congrArg SessionRows.audits Forward.rows).symm
    · trivial
  · trivial

/-- What finalization leaves pending is accepted. -/
theorem verifyAndFinalize_accepted
    (forward : Forward H db session start declaredLength chunkDigest payload)
    (last : start + declaredLength = session.totalBytes) {finalized : UploadSession × List Write}
    (returned : ((verifyAndFinalize H env (advancedSession session start declaredLength)).settle
      ((Connection.opened db).staged (Write.applyAll
        [.insertChunk (forwardChunk session start declaredLength chunkDigest payload)] db))).1 =
          .returned finalized) (data : Store) : Write.Accepted finalized.2 data := by
  rw [settle_verifyAndFinalize env forward last] at returned
  split at returned
  · split at returned
    · simp only [Ending.returned.injEq] at returned
      rw [← returned]
      exact Write.accepted_nil _
    · cases returned
  · simp only [Ending.returned.injEq] at returned
    rw [← returned]
    exact Write.accepted_cons (forward.updateSession_accepted
      (failedSession (advancedSession session start declaredLength) _) rfl rfl _)
      (Write.accepted_nil _)

theorem putForward_avoids
    (forward : Forward H db session start declaredLength chunkDigest payload) :
    (putForward H env session.id session start declaredLength chunkDigest payload).Avoids
      DbError.integrityError (.opened db) := by
  refine (flush_avoids forward.accepted).bind fun answer returned => ?_
  rw [settle_flush_accepted forward.accepted] at returned ⊢
  simp only [Ending.returned.injEq] at returned
  subst returned
  dsimp only
  split
  · rename_i last
    refine (verifyAndFinalize_avoids env forward last).bind fun finalized returned => ?_
    exact (commit_avoids (verifyAndFinalize_accepted env forward last returned _)).bind
      fun _ _ => (acknowledge_quiet _ _ _ _ _).avoids _ _
  · have accepted := forward.updateSession_accepted (advancedSession session start declaredLength)
      rfl rfl
    exact (commit_avoids (Write.accepted_cons (accepted _) (Write.accepted_nil _))).bind
      fun _ _ => (acknowledge_quiet _ _ _ _ _).avoids _ _

theorem putActive_avoids (found : db.session? session.id = some session)
    (consistent : Consistent H session (db.rowsOf session.id).chunks (db.rowsOf session.id).audits)
    (active : session.status = .active)
    (admitted : putRefusal H session start declaredLength chunkDigest payload = none) :
    (putActive H env session.id session start declaredLength chunkDigest payload).Avoids
      DbError.integrityError (.opened db) := by
  obtain ⟨-, -, size, digest, within⟩ := putRefusal_none.mp admitted
  rw [putActive]
  split
  · rename_i frontier
    exact putForward_avoids env
      ⟨found, consistent, active, frontier.1, by omega, size, digest, within⟩
  · split
    · exact commit_nothing_avoids _
    · split
      · refine ((archivedBytes_quiet _ _).avoids _ _).bind fun archived _ => ?_
        split
        · exact commit_nothing_avoids _
        · trivial
      · trivial

theorem putChunk_avoids (sound : RowsSound H (db.rowsOf sessionId)) (start declaredLength : Int)
    (chunkDigest : String) (payload : Bytes) :
    (putChunk H env sessionId start declaredLength chunkDigest payload).Avoids
      DbError.integrityError (.opened db) := by
  refine getLockedSession_avoids.bind fun session returned => ?_
  cases found : db.session? sessionId with
  | none =>
    rw [settle_getLockedSession_missing found] at returned
    cases returned
  | some stored =>
    have consistent := sound.consistent found
    rw [settle_getLockedSession found] at returned ⊢
    cases returned
    obtain rfl := session?_id found
    cases admitted : putRefusal H session start declaredLength chunkDigest payload with
    | some error => trivial
    | none =>
      dsimp only
      by_cases active : session.status = .active
      · rw [if_neg (by simp [active])]
        exact putActive_avoids env found consistent active admitted
      · rw [if_pos (by cases status : session.status <;> simp_all)]
        exact ((terminalReplay_quiet _ _ _ _ _).avoids _ _).bind fun echoed _ =>
          commit_nothing_avoids echoed

end Puts

/-! ## Compactions -/

section Compactions

variable {db : Store} {session : UploadSession} (env : Env) {target : Int}

theorem compactBody_avoids (found : db.session? session.id = some session)
    (consistent : Consistent H session (db.rowsOf session.id).chunks (db.rowsOf session.id).audits)
    (isSealed : session.status = .sealed) (positive : 0 < target) :
    (compactBody H env session.id session target).Avoids DbError.integrityError (.opened db) := by
  have old : db.chunksOf session.id = (db.rowsOf session.id).chunks := consistent.ordered
  have accepted := oldBuffer_consistent consistent isSealed
  rw [← chunksOf_eq, old] at accepted
  have size := sealed_length consistent isSealed
  refine Program.Avoids.bind trivial fun chunks returned => ?_
  obtain rfl : (db.rowsOf session.id).chunks = chunks := by
    rw [← old]
    simpa using returned
  refine Program.Avoids.lift_bind fun buffer checked => ?_
  obtain rfl : contentOf (db.rowsOf session.id).chunks = buffer := by
    rw [accepted] at checked
    cases checked
    rfl
  dsimp only
  split
  · exact Program.Avoids.bind (addAudit_avoids (Write.accepted_nil _) found rfl) fun _ _ =>
      commit_nothing_avoids _
  · -- the deletes make room for the planned rows, which start at different offsets
    have inserted := @rewrite_accepted H db session target _ _ found consistent.inRange positive
      rowsOf_owned (fun _ member => member) size
    have rows := @rewrite_rows H db session target _ (contentOf (db.rowsOf session.id).chunks)
      rowsOf_owned (fun _ member => member)
    have stillFound : (Write.applyAll (rewriteWrites H session target (db.rowsOf session.id).chunks
        (contentOf (db.rowsOf session.id).chunks)) db).session? session.id = some session := by
      rw [← rowsOf_row, rows]
      exact found
    rw [rewriteWrites, Write.applyAll_append] at stillFound
    rw [compactRewrite, insert_newRows target size]
    refine (flushOrRaise_avoids (accepted_deletes _ _)).bind fun _ _ => ?_
    rw [settle_flushOrRaise (accepted_deletes _ _)]
    refine (flushOrRaise_avoids inserted).bind fun _ _ => ?_
    rw [settle_flushOrRaise inserted]
    refine Program.Avoids.bind trivial fun verifyChunks _ => ?_
    refine Program.Avoids.lift_bind fun verified _ => ?_
    exact Program.Avoids.bind (addAudit_avoids (Write.accepted_nil _) stillFound rfl) fun _ _ =>
      commit_nothing_avoids _

theorem compactSealed_avoids (sound : RowsSound H (db.rowsOf sessionId)) (target : Int) :
    (compactSealed H env sessionId target).Avoids DbError.integrityError (.opened db) := by
  rw [compactSealed]
  split
  · trivial
  · refine getLockedSession_avoids.bind fun session returned => ?_
    cases found : db.session? sessionId with
    | none =>
      rw [settle_getLockedSession_missing found] at returned
      cases returned
    | some stored =>
      have consistent := sound.consistent found
      rw [settle_getLockedSession found] at returned ⊢
      cases returned
      obtain rfl := session?_id found
      split
      · trivial
      · rename_i isSealed
        exact (compactBody_avoids env found consistent (Decidable.not_not.mp isSealed)
          (by omega)).catching fun _ _ => trivial

end Compactions

/-! ## After the end of a transaction -/

theorem putChunk_quietAfter {db : Store} (sound : RowsSound H (db.rowsOf sessionId)) (env : Env)
    (start declaredLength : Int) (chunkDigest : String) (payload : Bytes) (rest : Db Ack)
    (ending : ((putChunk H env sessionId start declaredLength chunkDigest payload).settle
        (.opened db)).1 = .committed rest ∨
      ((putChunk H env sessionId start declaredLength chunkDigest payload).settle
        (.opened db)).1 = .rolledBack rest) : rest.Quiet := by
  rw [settle_putChunk sound] at ending
  cases decided : putPlan H env sessionId start declaredLength chunkDigest payload
      (db.rowsOf sessionId) with
  | refuse error => simp [decided, PutPlan.ending] at ending
  | replay body =>
    simp only [decided, PutPlan.ending, Ending.committed.injEq, reduceCtorEq, or_false] at ending
    exact ending ▸ trivial
  | append ended finalized writes =>
    simp only [decided, PutPlan.ending, Ending.committed.injEq, reduceCtorEq, or_false] at ending
    exact ending ▸ acknowledge_quiet ended finalized start declaredLength chunkDigest
  | auditFailed discarded =>
    simp only [decided, PutPlan.ending, Ending.rolledBack.injEq, reduceCtorEq, false_or] at ending
    exact ending ▸ trivial

theorem compactSealed_quietAfter {db : Store} (sound : RowsSound H (db.rowsOf sessionId)) (env : Env)
    (target : Int) (rest : Db CompactResult)
    (ending : ((compactSealed H env sessionId target).settle (.opened db)).1 = .committed rest ∨
      ((compactSealed H env sessionId target).settle (.opened db)).1 = .rolledBack rest) :
    rest.Quiet := by
  rw [settle_compactSealed sound.inRange] at ending
  cases decided : compactPlan H env sessionId target (db.rowsOf sessionId) with
  | refuse error => simp [decided, CompactPlan.ending] at ending
  | abort error | auditFailed discarded =>
    simp only [decided, CompactPlan.ending, Ending.rolledBack.injEq, reduceCtorEq, false_or] at ending
    exact ending ▸ trivial
  | done result writes =>
    simp only [decided, CompactPlan.ending, Ending.committed.injEq, reduceCtorEq, or_false] at ending
    exact ending ▸ trivial

/-! ## The two calls as writers -/

/-- `SELECT … FOR UPDATE` finds a row to lock. -/
def sessionPresent (id : String) (db : Store) : Bool :=
  (db.session? id).isSome

/-- A program that starts with `_get_locked_session`. -/
theorem getLockedSession_locksFirst {α : Type} (next : UploadSession → Db α) :
    ∃ rest, (getLockedSession sessionId >>= next) = .lock sessionId rest ∧
      ∀ db, sessionPresent sessionId db = false → ∃ exception, rest db = .raise exception := by
  refine ⟨_, rfl, ?_⟩
  intro db missing
  have absent : db.session? sessionId = none := by simpa [sessionPresent] using missing
  refine ⟨.upload (sessionNotFound sessionId), ?_⟩
  simp only [absent]
  rfl

section Writers

variable {ν : Type} {view : String → Store → ν} (isView : RowView view)

include isView

theorem present_congr {left right : Store} (same : view sessionId left = view sessionId right) :
    sessionPresent sessionId left = sessionPresent sessionId right := by
  rw [sessionPresent, sessionPresent, isView.session_congr same]

theorem putChunk_writer (env : Env) (start declaredLength : Int) (chunkDigest : String)
    (payload : Bytes) :
    Writer view sessionPresent (fun seen => RowsSound H (isView.rows seen)) DbError.integrityError
      sessionId (putChunk H env sessionId start declaredLength chunkDigest payload) where
  isLocal := putChunk_local isView env start declaredLength chunkDigest payload
  locksFirst := getLockedSession_locksFirst _
  quietAfter db sound :=
    putChunk_quietAfter (isView.shows sessionId db ▸ sound) env start declaredLength chunkDigest
      payload
  avoids db sound :=
    putChunk_avoids env (isView.shows sessionId db ▸ sound) start declaredLength chunkDigest payload
  preserves db sound := by
    rw [isView.shows] at sound ⊢
    exact rowsSound_putChunk env start declaredLength chunkDigest payload sound

theorem compactSealed_writer (env : Env) {target : Int} (positive : 0 < target) :
    Writer view sessionPresent (fun seen => RowsSound H (isView.rows seen)) DbError.integrityError
      sessionId (compactSealed H env sessionId target) where
  isLocal := compactSealed_local isView env target
  locksFirst := by
    rw [compactSealed, if_neg (by omega)]
    exact getLockedSession_locksFirst _
  quietAfter db sound := compactSealed_quietAfter (isView.shows sessionId db ▸ sound) env target
  avoids db sound := compactSealed_avoids env (isView.shows sessionId db ▸ sound) target
  preserves db sound := by
    rw [isView.shows] at sound ⊢
    exact (rows_compactSealed env target sound).1

end Writers

/-- A target that is not positive is refused without a statement. -/
theorem compactSealed_invalid (env : Env) {target : Int} (invalid : target ≤ 0) :
    compactSealed H env sessionId target = Db.refuse (invalidTarget target) :=
  if_pos invalid

end

end SeismicIngest
