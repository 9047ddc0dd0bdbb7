import SeismicIngest.Verified.PutPlan

/-! # Puts and the invariant

A put that stores its chunk appends one row, and leaves its session active,
sealed or failed according to the bytes stored so far (`ForwardOutcome`, one case
for each).  From this follow the answer and the store of a put run alone
(`run_putChunk`) and the invariant (`rowsSound_putChunk`).
-/

namespace SeismicIngest

open Transaction Spans

section

variable {H : Bytes → String}

/-! ## The rows after a forward chunk -/

section Forward

variable {db : Store} {session : UploadSession} {env : Env} {start declaredLength : Int}
  {chunkDigest : String} {payload : Bytes}

/-- What becomes of the session of a stored chunk. -/
inductive ForwardOutcome (H : Bytes → String) (env : Env) (session : UploadSession)
    (start declaredLength : Int) (archived : Bytes) (chunk : Chunk) : PutPlan → Prop where
  | advanced (open' : start + declaredLength < session.totalBytes) :
    ForwardOutcome H env session start declaredLength archived chunk
      (.append (advancedSession session start declaredLength) false
        [.insertChunk chunk, .updateSession (advancedSession session start declaredLength)])
  | sealed (last : start + declaredLength = session.totalBytes)
    (same : H archived = session.wholeSha256) (taken : env.auditAccepted = true) :
    ForwardOutcome H env session start declaredLength archived chunk
      (.append (sealedSession (advancedSession session start declaredLength) (H archived)) true
        [.insertChunk chunk,
          .updateSession (sealedSession (advancedSession session start declaredLength) (H archived)),
          .insertAudit (sealingRow env
            (sealedSession (advancedSession session start declaredLength) (H archived)) (H archived))])
  | auditFailed (last : start + declaredLength = session.totalBytes)
    (same : H archived = session.wholeSha256) (refused : env.auditAccepted = false) :
    ForwardOutcome H env session start declaredLength archived chunk
      (.auditFailed [.insertChunk chunk])
  | failed (last : start + declaredLength = session.totalBytes)
    (differs : H archived ≠ session.wholeSha256) :
    ForwardOutcome H env session start declaredLength archived chunk
      (.append (failedSession (advancedSession session start declaredLength) (some (H archived))) true
        [.insertChunk chunk, .updateSession
          (failedSession (advancedSession session start declaredLength) (some (H archived)))])

theorem Forward.outcome (forward : Forward H db session start declaredLength chunkDigest payload)
    (env : Env) :
    ForwardOutcome H env session start declaredLength
      (contentOf (db.rowsOf session.id).chunks ++ payload)
      (forwardChunk session start declaredLength chunkDigest payload)
      (forwardPlan H env session start declaredLength chunkDigest payload
        (contentOf (db.rowsOf session.id).chunks)) := by
  have within := forward.within
  rw [forwardPlan]
  by_cases last : start + declaredLength = session.totalBytes
  · by_cases same : H (contentOf (db.rowsOf session.id).chunks ++ payload) = session.wholeSha256
    · cases taken : env.auditAccepted with
      | true => simpa [last, same, taken] using ForwardOutcome.sealed last same taken
      | false => simpa [last, same, taken] using ForwardOutcome.auditFailed last same taken
    · simpa [last, same] using ForwardOutcome.failed last same
  · simpa [last] using ForwardOutcome.advanced (by omega)

section Rows

variable (ended : UploadSession) (chunk : Chunk) (found : db.session? session.id = some session)
  (own : ended.id = session.id) (ownChunk : chunk.sessionId = session.id)

include found own ownChunk

theorem rowsOf_forward :
    (Write.applyAll [.insertChunk chunk, .updateSession ended] db).rowsOf session.id =
      ⟨some ended, (db.rowsOf session.id).chunks ++ [chunk], (db.rowsOf session.id).audits⟩ := by
  have inserted := rowsOf_insertChunk chunk db
  rw [ownChunk] at inserted
  have stored : ((Write.insertChunk chunk).apply db).session? ended.id = some session := by
    rw [own]
    exact found
  have updated := rowsOf_updateSession stored
  rw [own] at updated
  rw [Write.applyAll_cons, Write.applyAll_cons, Write.applyAll_nil, updated, inserted]

theorem rowsOf_sealing (env : Env) (computed : String) :
    (Write.applyAll [.insertChunk chunk, .updateSession ended,
        .insertAudit (sealingRow env ended computed)] db).rowsOf session.id =
      ⟨some ended, (db.rowsOf session.id).chunks ++ [chunk],
        (db.rowsOf session.id).audits ++ [sealingRow env ended computed]⟩ := by
  have forward := rowsOf_forward ended chunk found own ownChunk
  have audited := rowsOf_insertAudit (sealingRow env ended computed)
    (Write.applyAll [.insertChunk chunk, .updateSession ended] db)
  rw [show (sealingRow env ended computed).sessionId = session.id from own, forward] at audited
  exact audited

end Rows

/-- What the session row and the rows under it become when a chunk is stored. -/
theorem ForwardOutcome.rows {plan : PutPlan} {archived : Bytes} {chunk : Chunk}
    (outcome : ForwardOutcome H env session start declaredLength archived chunk plan)
    (found : db.session? session.id = some session) (ownChunk : chunk.sessionId = session.id) :
    (∃ ended finalized writes, plan = .append ended finalized writes ∧ ended.id = session.id ∧
      (Write.applyAll writes db).rowsOf session.id =
        ⟨some ended, (db.rowsOf session.id).chunks ++ [chunk],
          (db.rowsOf session.id).audits ++
            if ended.status = .sealed ∧ finalized then [sealingRow env ended (H archived)] else []⟩) ∨
      plan = .auditFailed [.insertChunk chunk] := by
  cases outcome with
  | advanced _ =>
    refine .inl ⟨_, _, _, rfl, rfl, ?_⟩
    rw [rowsOf_forward (advancedSession session start declaredLength) chunk found rfl ownChunk]
    simp
  | sealed _ _ _ =>
    refine .inl ⟨_, _, _, rfl, rfl, ?_⟩
    rw [rowsOf_sealing (sealedSession (advancedSession session start declaredLength) (H archived))
      chunk found rfl ownChunk env (H archived)]
    simp [sealedSession]
  | auditFailed _ _ _ => exact .inr rfl
  | failed _ _ =>
    refine .inl ⟨_, _, _, rfl, rfl, ?_⟩
    rw [rowsOf_forward (failedSession (advancedSession session start declaredLength)
      (some (H archived))) chunk found rfl ownChunk]
    simp [failedSession]

/-- A stored chunk leaves its session consistent. -/
theorem ForwardOutcome.sound {plan : PutPlan}
    (outcome : ForwardOutcome H env session start declaredLength
      (contentOf (db.rowsOf session.id).chunks ++ payload)
      (forwardChunk session start declaredLength chunkDigest payload) plan)
    (forward : Forward H db session start declaredLength chunkDigest payload) :
    RowsSound H ((Write.applyAll plan.writes db).rowsOf session.id) := by
  have content : contentOf (db.rowsOf session.id).chunks ++ payload = contentOf
      ((db.rowsOf session.id).chunks ++ [forwardChunk session start declaredLength chunkDigest payload]) :=
    Forward.content.symm
  have inRange := forward.consistent.inRange
  have active := forward.active
  -- digests are taken of what the rows hold now
  rw [content] at outcome
  cases outcome with
  | advanced open' =>
    rw [PutPlan.writes, rowsOf_forward (advancedSession session start declaredLength) _
      forward.found rfl rfl]
    exact {
      tiles := forward.tiles
      intact := forward.allIntact
      nonempty := forward.allNonempty
      bounded := Int.le_of_lt open'
      inRange := inRange
      whenActive := fun _ =>
        ⟨open', (forward.consistent.whenActive active).2.1, forward.noAudits⟩
      whenSealed := fun status => by rw [advancedSession] at status; simp [active] at status
      whenFailed := fun status => by rw [advancedSession] at status; simp [active] at status }
  | sealed last same _ =>
    -- the confirmed offset of a sealed session is its total
    have tiles := forward.tiles
    rw [last] at tiles
    rw [PutPlan.writes, rowsOf_sealing (sealedSession (advancedSession session start declaredLength) _)
      _ forward.found rfl rfl env]
    exact {
      tiles := tiles
      intact := forward.allIntact
      nonempty := forward.allNonempty
      bounded := Int.le_refl _
      inRange := inRange
      whenActive := fun status => by cases status
      whenSealed := fun _ => ⟨rfl, congrArg some same, same.symm⟩
      whenFailed := fun status => by cases status }
  | auditFailed _ _ _ =>
    -- nothing is committed
    exact RowsSound.of_consistent forward.found forward.consistent
  | failed last differs =>
    rw [PutPlan.writes, rowsOf_forward (failedSession (advancedSession session start declaredLength) _)
      _ forward.found rfl rfl]
    exact {
      tiles := forward.tiles
      intact := forward.allIntact
      nonempty := forward.allNonempty
      bounded := Int.le_of_eq last
      inRange := inRange
      whenActive := fun status => by cases status
      whenSealed := fun status => by cases status
      whenFailed := fun _ => ⟨last, rfl, Ne.symm differs, forward.noAudits⟩ }

end Forward

/-! ## The whole call -/

section Call

variable {sessionId : String} {db : Store} (env : Env) (start declaredLength : Int)
  (chunkDigest : String) (payload : Bytes)

/-- A put is refused, echoes archived bytes, or stores a forward chunk. -/
theorem putPlan_cases (sound : RowsSound H (db.rowsOf sessionId)) :
    let plan := putPlan H env sessionId start declaredLength chunkDigest payload (db.rowsOf sessionId)
    (∃ error, plan = .refuse error) ∨
      (∃ session, db.session? sessionId = some session ∧
        putRefusal H session start declaredLength chunkDigest payload = none ∧
        (0 < declaredLength ∨ session.status = .active) ∧
        Echoes session start declaredLength payload (contentOf (db.rowsOf sessionId).chunks) ∧
        plan = .replay (ack session start declaredLength chunkDigest true)) ∨
      ∃ session, db.session? sessionId = some session ∧
        Forward H db session start declaredLength chunkDigest payload ∧
        plan = forwardPlan H env session start declaredLength chunkDigest payload
          (contentOf (db.rowsOf sessionId).chunks) := by
  intro plan
  cases found : db.session? sessionId with
  | none => exact .inl ⟨_, putPlan_missing found⟩
  | some session =>
    have consistent := sound.consistent found
    obtain rfl := session?_id found
    cases refused : putRefusal H session start declaredLength chunkDigest payload with
    | some error => exact .inl ⟨error, putPlan_refused found refused⟩
    | none =>
      obtain ⟨-, -, size, digest, within⟩ := putRefusal_none.mp refused
      rw [show plan = _ from putPlan_admitted found refused, admittedPlan]
      by_cases active : session.status = .active
      · rw [if_pos active]
        by_cases frontier : start = session.confirmedOffset ∧ 0 < declaredLength
        · rw [if_pos frontier]
          exact .inr (.inr ⟨session, rfl,
            ⟨found, consistent, active, frontier.1, frontier.2, size, digest, within⟩, rfl⟩)
        · -- an empty chunk at the frontier echoes, and nothing beyond it does
          rw [if_neg frontier]
          by_cases echoes : Echoes session start declaredLength payload
              (contentOf (db.rowsOf session.id).chunks)
          · rw [if_pos echoes]
            exact .inr (.inl ⟨session, rfl, refused, .inr active, echoes, rfl⟩)
          · rw [if_neg echoes]
            exact .inl ⟨_, rfl⟩
      · rw [if_neg active]
        by_cases echoes : 0 < declaredLength ∧ Echoes session start declaredLength payload
            (contentOf (db.rowsOf session.id).chunks)
        · rw [if_pos echoes]
          exact .inr (.inl ⟨session, rfl, refused, .inl echoes.1, echoes.2, rfl⟩)
        · rw [if_neg echoes]
          exact .inl ⟨_, rfl⟩

/-- The plan of a chunk that may be stored at the frontier. -/
theorem putPlan_forward {session : UploadSession}
    (forward : Forward H db session start declaredLength chunkDigest payload) :
    putPlan H env session.id start declaredLength chunkDigest payload (db.rowsOf session.id) =
      forwardPlan H env session start declaredLength chunkDigest payload
        (contentOf (db.rowsOf session.id).chunks) := by
  rw [putPlan_admitted forward.found forward.admitted, admittedPlan, if_pos forward.active,
    if_pos ⟨forward.frontier, forward.positive⟩]

/-- The acknowledgement reports the session row it finds. -/
theorem run_acknowledge {session stored : UploadSession} {finalized : Bool}
    (found : db.session? session.id = some stored) :
    (acknowledge session finalized start declaredLength chunkDigest).run db =
      (if finalized ∧ stored.status = .failed then
          .error (.upload (wholeDigestMismatch stored))
        else .ok (ack stored start declaredLength chunkDigest false), db) := by
  have settled : (acknowledge session finalized start declaredLength chunkDigest).settle (.opened db) =
      ((if finalized ∧ stored.status = .failed then
          Db.refuse (wholeDigestMismatch stored)
        else pure (ack stored start declaredLength chunkDigest false) : Db Ack)).settle
          (.opened db) := by
    rw [acknowledge, Program.settle_bind, settle_refresh found]
  by_cases fails : finalized ∧ stored.status = .failed
  · rw [if_pos fails] at settled ⊢
    exact Program.run_of_raised (congrArg Prod.fst settled)
  · rw [if_neg fails] at settled ⊢
    exact Program.run_of_returned (congrArg Prod.fst settled)

/-- A put run alone answers as its plan says, and commits the writes of the plan. -/
theorem run_putChunk (sound : RowsSound H (db.rowsOf sessionId)) :
    let plan := putPlan H env sessionId start declaredLength chunkDigest payload (db.rowsOf sessionId)
    (putChunk H env sessionId start declaredLength chunkDigest payload).run db =
      (plan.answer start declaredLength chunkDigest, Write.applyAll plan.writes db) := by
  intro plan
  have settled : (putChunk H env sessionId start declaredLength chunkDigest payload).settle
      (.opened db) = (plan.ending start declaredLength chunkDigest,
        (Connection.opened db).staged (Write.applyAll plan.sent db)) := settle_putChunk sound
  have ending := congrArg Prod.fst settled
  have left := congrArg (fun pair => pair.2.working) settled
  obtain ⟨error, decided⟩ | ⟨session, -, -, -, -, decided⟩ | ⟨session, found, forward, decided⟩ :=
    putPlan_cases env start declaredLength chunkDigest payload sound
  · change plan = _ at decided
    rw [decided] at ending ⊢
    exact Program.run_of_raised ending
  · change plan = _ at decided
    rw [decided] at ending left ⊢
    rw [Program.run_of_committed ending, left]
    rfl
  · change plan = _ at decided
    obtain rfl := session?_id found
    obtain ⟨ended, finalized, writes, appended, own, rows⟩ | failed :=
      (forward.outcome env).rows found rfl
    · -- the acknowledgement comes from the row that was just committed
      rw [decided, appended] at ending left ⊢
      have stored : (Write.applyAll writes db).session? ended.id = some ended := by
        rw [own, ← rowsOf_row, rows]
      rw [Program.run_of_committed ending, left]
      exact run_acknowledge start declaredLength chunkDigest stored
    · rw [decided, failed] at ending ⊢
      rw [Program.run_of_rolledBack ending]
      rfl

/-- A chunk at the frontier is stored and acknowledged, unless it fails the package or
    the audit row of the sealing is refused. -/
theorem Forward.served {session : UploadSession}
    (forward : Forward H db session start declaredLength chunkDigest payload) :
    let run := (putChunk H env session.id start declaredLength chunkDigest payload).run db
    let archived := contentOf (db.rowsOf session.id).chunks ++ payload
    let chunk := forwardChunk session start declaredLength chunkDigest payload
    (∃ ended finalized writes audits,
        ForwardOutcome H env session start declaredLength archived chunk
          (.append ended finalized writes) ∧
        run.1 = (if ended.status = .failed then .error (.upload (wholeDigestMismatch ended))
          else .ok (ack ended start declaredLength chunkDigest false)) ∧
        run.2.rowsOf session.id = ⟨some ended, (db.rowsOf session.id).chunks ++ [chunk], audits⟩) ∨
      (start + declaredLength = session.totalBytes ∧ H archived = session.wholeSha256 ∧
        env.auditAccepted = false ∧ run = (.error (.upload auditWriteFailed), db)) := by
  intro run archived chunk
  have served : run = _ := run_putChunk env start declaredLength chunkDigest payload
    (.of_consistent forward.found forward.consistent)
  rw [putPlan_forward env start declaredLength chunkDigest payload forward] at served
  have outcome := forward.outcome env
  obtain ⟨ended, finalized, writes, appended, own, rows⟩ | failed := outcome.rows forward.found rfl
  · rw [appended] at served outcome
    -- a failed session is always a finalized one
    have fails : (finalized = true ∧ ended.status = .failed) ↔ ended.status = .failed := by
      refine ⟨fun both => both.2, fun status => ⟨?_, status⟩⟩
      cases outcome with
      | advanced _ => exact absurd status (by simp [advancedSession, forward.active])
      | sealed _ _ _ | failed _ _ => rfl
    have answered : run.1 = (if ended.status = .failed then .error (.upload (wholeDigestMismatch ended))
        else .ok (ack ended start declaredLength chunkDigest false)) := by
      rw [served, PutPlan.answer]
      simp only [fails]
    have left : run.2.rowsOf session.id = _ :=
      (congrArg (fun pair => pair.2.rowsOf session.id) served).trans rows
    exact .inl ⟨ended, finalized, writes, _, outcome, answered, left⟩
  · rw [failed] at served outcome
    cases outcome with
    | auditFailed last same refused => exact .inr ⟨last, same, refused, served⟩

/-- A put keeps the invariant of its session. -/
theorem rowsSound_putChunk (sound : RowsSound H (db.rowsOf sessionId)) :
    RowsSound H (((putChunk H env sessionId start declaredLength chunkDigest payload).run db).2.rowsOf
      sessionId) := by
  rw [run_putChunk env start declaredLength chunkDigest payload sound]
  obtain ⟨error, decided⟩ | ⟨session, -, -, -, -, decided⟩ | ⟨session, found, forward, decided⟩ :=
    putPlan_cases env start declaredLength chunkDigest payload sound
  · rw [decided]
    exact sound
  · rw [decided]
    exact sound
  · obtain rfl := session?_id found
    rw [decided]
    exact (forward.outcome env).sound forward

end Call

end

end SeismicIngest
