import SeismicIngest.Verified.Steps

/-! # No false integrity alarms

On a reachable store no check of an archive ever fails: the invariant implies each of
them.  And over any rows whatever, once the checks of the old rows have passed, a
rewrite cannot fail its own re-verification (`verifyNewRows_rewritten`).
-/

namespace SeismicIngest

open Transaction Spans

section

variable {H : Bytes → String}

/-! ## The re-verification of a rewrite -/

section Rewrite

variable {db : Store} {session : UploadSession} {target : Int} {buffer : Bytes}
  (positive : 0 < target) (accepted : oldBuffer H session (db.chunksOf session.id) = .ok buffer)

/-- The writes of a rewrite: the old rows go, and the new layout comes. -/
def rewriteSteps (H : Bytes → String) (session : UploadSession) (target : Int) (old : List Chunk)
    (buffer : Bytes) : List Write :=
  old.map .deleteChunk ++ (newLayout H buffer (plannedSpans session.totalBytes target)).map
    fun row => .insertChunk (newRow session.id buffer row)

include positive accepted

/-- Whatever the old rows were, the new ones pass. -/
theorem verifyNewRows_rewritten :
    verifyNewRows H session target ((Write.applyAll
        (rewriteSteps H session target (db.chunksOf session.id) buffer) db).chunksOf session.id) =
      .ok (session.totalBytes, session.wholeSha256) := by
  obtain ⟨-, -, size, whole⟩ := oldBuffer_ok_iff.mp accepted
  have rows := @rewrite_rows H db session target (db.chunksOf session.id) buffer
    (fun chunk member => rowsOf_owned chunk (byStartOffset_mem.mp member))
    (fun chunk member => byStartOffset_mem.mpr member)
  rw [rewriteWrites, ← insert_newRows target size] at rows
  rw [chunksOf_eq, rewriteSteps, rows, plannedRows_ordered H session.id buffer positive,
    verifyNewRows_planned positive size whole, whole]

end Rewrite

/-! ## What a compaction raises after its first checks -/

/-- An exception that no check of an archive raises. -/
inductive NoAlarm : Raised → Prop where
  | audit : NoAlarm (.upload auditWriteFailed)
  | database (error : DbError) : NoAlarm (.database error)

section Raised

variable {conn : Connection Store} {exception : Raised}

theorem addAudit_raised {env : Env} {changes : List Write} {session : UploadSession}
    {event : AuditKind} {totalBytes : Int} {wholeSha256 : String}
    {targetChunkBytes chunksBefore chunksAfter : Option Int}
    (raised : ((addAudit env changes session event totalBytes wholeSha256 targetChunkBytes
      chunksBefore chunksAfter).exec conn).1 = .error exception) : NoAlarm exception := by
  obtain early | ⟨sequence, -, raised⟩ := Program.exec_bind_error raised
  · cases early
  · obtain early | ⟨answer, -, raised⟩ := Program.exec_bind_error raised
    · cases early
    · cases answer with
      | none => cases raised
      | some _ =>
        cases raised
        exact .audit

theorem commit_raised {writes : List Write}
    (raised : ((Db.commit writes).exec conn).1 = .error exception) : NoAlarm exception := by
  obtain early | ⟨answer, -, raised⟩ := Program.exec_bind_error raised
  · cases early
  · cases answer with
    | none => cases raised
    | some error =>
      cases raised
      exact .database error

theorem exec_flushOrRaise (writes : List Write) :
    (Db.flushOrRaise writes).exec conn =
      match Write.rejectsAll writes conn.working with
      | none => (.ok (), conn.staged (Write.applyAll writes conn.working))
      | some error => (.error (.database error), conn) := by
  have flushed : (Db.flush writes).exec conn = (.ok (Write.rejectsAll writes conn.working),
      conn.staged ((pending writes).outcome conn.working)) := rfl
  rw [Db.flushOrRaise, Program.exec_bind, flushed, Batch.outcome]
  simp only [pending]
  cases Write.rejectsAll writes conn.working <;> rfl

variable {db : Store} {session : UploadSession} {env : Env} {target : Int} {buffer : Bytes}
  (positive : 0 < target) (accepted : oldBuffer H session (db.chunksOf session.id) = .ok buffer)

include positive accepted

/-- A rewrite raises when the database refuses a write, and never for its own rows. -/
theorem compactRewrite_raised
    (raised : ((compactRewrite H env session.id session target (db.chunksOf session.id) buffer
      (newLayout H buffer (plannedSpans session.totalBytes target))).exec (.opened db)).1 =
        .error exception) : NoAlarm exception := by
  have verified := verifyNewRows_rewritten positive accepted
  have deleted : (Db.flushOrRaise ((db.chunksOf session.id).map .deleteChunk)).exec (.opened db) =
      (.ok (), (Connection.opened db).staged
        (Write.applyAll ((db.chunksOf session.id).map .deleteChunk) db)) := by
    rw [exec_flushOrRaise, Connection.opened_working, accepted_deletes]
  rw [compactRewrite, Program.exec_bind_of_ok deleted] at raised
  rw [Program.exec_bind, exec_flushOrRaise] at raised
  -- the database takes the new rows, or refuses one of them
  split at raised
  · rename_i flushed
    split at flushed
    · cases flushed
      obtain early | ⟨rows, read, raised⟩ := Program.exec_bind_error raised
      · cases early
      · have stored : ((Write.applyAll (rewriteSteps H session target (db.chunksOf session.id) buffer)
            db).chunksOf session.id) = rows := by
          rw [rewriteSteps, Write.applyAll_append]
          exact Except.ok.inj read
        -- what is read back passes
        obtain early | ⟨_, -, raised⟩ := Program.exec_bind_error raised
        · rw [Program.exec_lift, ← stored, verified] at early
          cases early
        · obtain early | ⟨_, -, raised⟩ := Program.exec_bind_error raised
          · exact addAudit_raised early
          · obtain early | ⟨_, -, raised⟩ := Program.exec_bind_error raised
            · exact commit_raised early
            · cases raised
    · cases flushed
  · rename_i flushed
    split at flushed
    · cases flushed
    · cases flushed
      cases raised
      exact .database _

theorem compactBody_raised
    (raised : ((compactBody H env session.id session target).exec (.opened db)).1 =
      .error exception) : NoAlarm exception := by
  obtain early | ⟨rows, read, raised⟩ := Program.exec_bind_error raised
  · cases early
  · obtain rfl : db.chunksOf session.id = rows := Except.ok.inj read
    obtain early | ⟨_, checked, raised⟩ := Program.exec_bind_error raised
    · rw [Program.exec_lift, accepted] at early
      cases early
    · rw [Program.exec_lift, accepted] at checked raised
      obtain rfl := Except.ok.inj checked
      dsimp only at raised
      split at raised
      · obtain early | ⟨_, -, raised⟩ := Program.exec_bind_error raised
        · exact addAudit_raised early
        · obtain early | ⟨_, -, raised⟩ := Program.exec_bind_error raised
          · exact commit_raised early
          · cases raised
      · exact compactRewrite_raised positive accepted raised

/-- Once the checks of the old rows have passed, a compaction raises no alarm, whatever
    the rows are. -/
theorem compactSealed_raised (found : db.session? session.id = some session)
    (isSealed : session.status = .sealed)
    (raised : ((compactSealed H env session.id target).run db).1 = .error exception) :
    NoAlarm exception := by
  have locked : (getLockedSession session.id : Db UploadSession).exec (.opened db) =
      (.ok session, .opened db) := by
    rw [Program.exec_eq_settle, settle_getLockedSession found]
  rw [Program.run, compactSealed, if_neg (Int.not_le.mpr positive),
    Program.exec_bind_of_ok locked] at raised
  simp only [isSealed, ne_eq, not_true_eq_false, if_false] at raised
  exact compactBody_raised positive accepted
    (Program.exec_catching_error (fun _ _ => rfl) raised)

end Raised

/-! ## Reachable stores -/

variable (H) in
/-- No check of a sealed archive fails. -/
structure NoFalseAlarms (db : Store) : Prop where
  reads : ∀ {id session}, db.session? id = some session → session.status = .sealed →
    ∀ {begin stop : Int}, 0 ≤ begin → begin ≤ stop → stop ≤ session.totalBytes →
      ∃ data, ((verifiedSealedBytes H session begin stop).run db).1 = .ok data
  compactions : ∀ {id session}, db.session? id = some session → session.status = .sealed →
    ∀ {target : Int}, 0 < target → ∀ {env exception},
      ((compactSealed H env id target).run db).1 = .error exception → NoAlarm exception
  comparisons : ∀ {baselineId candidateId baseline candidate},
    db.session? baselineId = some baseline → db.session? candidateId = some candidate →
      baseline.status = .sealed → candidate.status = .sealed → ∀ {env exception},
        ((createComparison H env baselineId candidateId).run db).1 = .error exception →
          NoAlarm exception

variable (H) in
/-- A rewrite whose first checks have passed passes its own. -/
structure RewriteVerified (db : Store) : Prop where
  newRows : ∀ {session target buffer}, 0 < target →
    oldBuffer H session (db.chunksOf session.id) = .ok buffer →
      verifyNewRows H session target ((Write.applyAll
          (rewriteSteps H session target (db.chunksOf session.id) buffer) db).chunksOf session.id) =
        .ok (session.totalBytes, session.wholeSha256)
  call : ∀ {session target buffer}, 0 < target →
    oldBuffer H session (db.chunksOf session.id) = .ok buffer →
      db.session? session.id = some session → session.status = .sealed → ∀ {env exception},
        ((compactSealed H env session.id target).run db).1 = .error exception → NoAlarm exception

theorem rewriteVerified (db : Store) : RewriteVerified H db where
  newRows := verifyNewRows_rewritten
  call positive accepted found isSealed _ _ raised :=
    compactSealed_raised positive accepted found isSealed raised

/-- Of a store that the service alone has written no check fails; of any store, no check
    of a rewrite fails after those of the old rows have passed. -/
theorem no_false_alarms {db : Store} (reachable : Reachable H db) (stored : Store) :
    NoFalseAlarms H db ∧ RewriteVerified H stored := by
  have sound := reachable.sound
  refine ⟨{ reads := ?_, compactions := ?_, comparisons := ?_ }, rewriteVerified stored⟩
  · intro id session found isSealed begin stop lower ordered upper
    obtain rfl := session?_id found
    rw [run_verifiedSealedBytes,
      sealedBytesOf_certified (sound.certified found isSealed) lower ordered]
    exact ⟨_, rfl⟩
  · intro id session found isSealed target positive env exception raised
    obtain rfl := session?_id found
    exact (rewriteVerified db).call positive
      (oldBuffer_consistent (sound.consistent found) isSealed) found isSealed raised
  · intro baselineId candidateId baseline candidate baselineFound candidateFound baselineSealed
      candidateSealed env exception raised
    have left := sound.consistent baselineFound
    have right := sound.consistent candidateFound
    obtain rfl := session?_id baselineFound
    obtain rfl := session?_id candidateFound
    -- both sides pass, and the walk of the two streams ends in a record
    rw [run_createComparison, comparisonPlan] at raised
    simp only [baselineFound, candidateFound, chunksOf_eq, left.ordered, right.ordered,
      pairPlan_sealed left right baselineSealed candidateSealed] at raised
    split at raised
    · cases raised
    · cases raised
      exact .database _

/-- A window of a sealed package, and a rewrite of rows whose lengths and digests are
    wrong in store. -/
theorem no_false_alarms_damaged :
    let db := serveAll (fun _ => "d")
      [⟨⟨"s", 0, true⟩, .createSession 3 "d"⟩, ⟨⟨"", 0, true⟩, .putChunk "s" 0 3 "d" [1, 2, 3]⟩]
      Store.empty
    let session : UploadSession := ⟨"s", 3, "d", 3, .sealed, some "d", none, 0⟩
    let damaged : Store := ⟨[session], [⟨"s", 0, 1, 7, "x", [1]⟩, ⟨"s", 1, 3, 0, "y", [2, 3]⟩], [], []⟩
    (∃ data, ((verifiedSealedBytes (fun _ => "d") session 1 3).run db).1 = .ok data) ∧
      verifyNewRows (fun _ => "d") session 2 ((Write.applyAll (rewriteSteps (fun _ => "d") session 2
        (damaged.chunksOf session.id) [1, 2, 3]) damaged).chunksOf session.id) = .ok (3, "d") := by
  intro db session damaged
  obtain ⟨alarms, verified⟩ := no_false_alarms (reachable_serveAll (fun _ => "d")
    [⟨⟨"s", 0, true⟩, .createSession 3 "d"⟩, ⟨⟨"", 0, true⟩, .putChunk "s" 0 3 "d" [1, 2, 3]⟩]) damaged
  exact ⟨alarms.reads (show db.session? "s" = some session by decide) rfl (by decide) (by decide)
    (by decide), verified.newRows (by decide) (by decide)⟩

end

end SeismicIngest
