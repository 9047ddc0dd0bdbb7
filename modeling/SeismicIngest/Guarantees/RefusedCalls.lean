import SeismicIngest.Verified.Evolution

/-! # Refused calls leave the store alone

A call that ends in an exception commits nothing, whichever statement refused it.
The one exception is the mismatch of the whole digest, which a creation and a put
record on purpose (`MismatchCommitted`).
-/

namespace SeismicIngest

open Transaction Spans

section

variable (H : Bytes → String)

/-! ## What a mismatch commits -/

/-- The exception is `whole_digest_mismatch`. -/
def Raised.isMismatch : Raised → Bool
  | .upload error => error.code = .wholeDigestMismatch
  | _ => false

/-- The requests that record a mismatch of the whole digest. -/
def Request.recordsMismatch : Request → Bool
  | .createSession _ _ | .putChunk _ _ _ _ _ => true
  | _ => false

/-- The store a call leaves that ends in `whole_digest_mismatch`. -/
inductive MismatchCommitted (call : Call) (db : Store) : Store → Prop where
  /-- One failed session of no bytes. -/
  | created {wholeSha256 : String} (request : call.request = .createSession 0 wholeSha256)
    (fresh : db.session? call.env.uuid = none) (differs : wholeSha256 ≠ H []) :
    MismatchCommitted call db
      { db with uploadSessions := db.uploadSessions ++ [{
          id := call.env.uuid
          totalBytes := 0
          wholeSha256 := wholeSha256
          confirmedOffset := 0
          status := .failed
          computedSha256 := some (H [])
          failureReason := some ("zero-length package metadata inconsistent: " ++
            "whole_sha256 does not match SHA-256 of empty payload")
          createdAt := call.env.now }] }
  /-- The last chunk, and its session complete and failed. -/
  | stored {session : UploadSession} {id : String} {start declaredLength : Int}
    {chunkDigest : String} {payload : Bytes}
    (request : call.request = .putChunk id start declaredLength chunkDigest payload)
    (found : db.session? id = some session) (active : session.status = .active)
    (frontier : start = session.confirmedOffset)
    (last : start + declaredLength = session.totalBytes)
    (differs : H (contentOf (db.chunksOf id) ++ payload) ≠ session.wholeSha256) :
    MismatchCommitted call db
      { db with
        uploadSessions := db.uploadSessions.map fun row =>
          if row.id = id then
            failedSession { session with confirmedOffset := session.totalBytes }
              (some (H (contentOf (db.chunksOf id) ++ payload)))
          else row
        chunks := db.chunks ++ [forwardChunk session start declaredLength chunkDigest payload] }

/-! ## Creations -/

variable {H}

section Creation

variable {db : Store} (sound : Sound H db) {env : Env} {totalBytes : Nat} {wholeSha256 : String}
  {exception : Raised}
  (refused : ((Call.mk env (.createSession totalBytes wholeSha256)).serve H db).1 =
    .error exception)

include sound refused

/-- A creation that raises has registered a failed session, or nothing. -/
theorem createSession_refused :
    (exception.isMismatch = true ∧
        MismatchCommitted H ⟨env, .createSession totalBytes wholeSha256⟩ db
          ((Call.mk env (.createSession totalBytes wholeSha256)).serve H db).2) ∨
      (exception.isMismatch = false ∧
        ((Call.mk env (.createSession totalBytes wholeSha256)).serve H db).2 = db) := by
  rw [serve_createSession] at refused ⊢
  obtain ⟨taken, run⟩ | ⟨-, error, refusal, run⟩ :=
    run_createSession (H := H) env wholeSha256 (sound.rows env.uuid) (Int.natCast_nonneg totalBytes)
  · rw [run] at refused ⊢
    by_cases empty : totalBytes = 0
    · subst empty
      by_cases same : wholeSha256 = emptySha256 H
      · -- an empty package with the right digest is sealed
        have shape := createdSession_sealed (H := H) env wholeSha256 same
        rw [show ((0 : Nat) : Int) = 0 from rfl, shape, creationAnswer, if_neg (by simp)] at refused
        cases refused
      · have isFailed := createdSession_failed (H := H) env wholeSha256 same
        rw [show ((0 : Nat) : Int) = 0 from rfl, creationAnswer, if_pos isFailed] at refused
        cases refused
        refine .inl ⟨rfl, ?_⟩
        have fresh : db.session? env.uuid = none := by simpa using taken.1
        have differs : ¬ wholeSha256 = H [] := same
        have committed := @MismatchCommitted.created H ⟨env, .createSession 0 wholeSha256⟩ db _ rfl
          fresh differs
        simpa [creationWrites, creationAudits, createdSession, differs, Write.applyAll, Write.apply,
          emptySha256] using committed
    · -- any other package stays open
      have isOpen := createdSession_open (H := H) env totalBytes wholeSha256 (by omega)
      rw [creationAnswer, if_neg (by simp [isOpen])] at refused
      cases refused
  · rw [run] at refused ⊢
    cases refused
    refine .inr ⟨?_, rfl⟩
    cases refusal <;> rfl

end Creation

/-! ## Puts -/

section Put

variable {env : Env} {id : String} {start declaredLength : Int} {chunkDigest : String}
  {payload : Bytes}

theorem putRefusal_isMismatch {session : UploadSession} {exception : Raised}
    (refused : putRefusal H session start declaredLength chunkDigest payload = some exception) :
    exception.isMismatch = false := by
  obtain ⟨-, error, rfl, declared⟩ | ⟨-, rfl⟩ := putRefusal_some refused
  · simp only [List.mem_cons, List.not_mem_nil, or_false] at declared
    obtain rfl | rfl | rfl | rfl | rfl := declared <;> rfl
  · rfl

/-- No refusal of a put is the mismatch of the whole digest. -/
theorem putPlan_refuse_isMismatch {rows : SessionRows} {exception : Raised}
    (decided : putPlan H env id start declaredLength chunkDigest payload rows = .refuse exception) :
    exception.isMismatch = false := by
  cases putPlan_refuse decided with
  | missing | stale _ => rfl
  | invalid _ refused => exact putRefusal_isMismatch refused
  | terminal session =>
    rw [terminalRefusal]
    split_ifs <;> rfl

variable {db : Store} (sound : Sound H db) {exception : Raised}
  (refused : ((Call.mk env (.putChunk id start declaredLength chunkDigest payload)).serve H db).1 =
    .error exception)

include sound refused

/-- A put that raises has completed and failed its session, or changed nothing. -/
theorem putChunk_refused :
    (exception.isMismatch = true ∧
        MismatchCommitted H ⟨env, .putChunk id start declaredLength chunkDigest payload⟩ db
          ((Call.mk env (.putChunk id start declaredLength chunkDigest payload)).serve H db).2) ∨
      (exception.isMismatch = false ∧
        ((Call.mk env (.putChunk id start declaredLength chunkDigest payload)).serve H db).2 = db) := by
  rw [serve_putChunk, run_putChunk env start declaredLength chunkDigest payload (sound.rows id)]
    at refused ⊢
  obtain ⟨error, decided⟩ | ⟨session, -, -, -, -, decided⟩ | ⟨session, found, forward, decided⟩ :=
    putPlan_cases env start declaredLength chunkDigest payload (sound.rows id)
  · have unrecorded := putPlan_refuse_isMismatch decided
    rw [decided] at refused ⊢
    cases refused
    exact .inr ⟨unrecorded, rfl⟩
  · rw [decided] at refused
    cases refused
  · obtain rfl := session?_id found
    have ordered : db.chunksOf session.id = (db.rowsOf session.id).chunks :=
      forward.consistent.ordered
    have outcome := forward.outcome env
    rw [← decided] at outcome
    generalize putPlan H env session.id start declaredLength chunkDigest payload
      (db.rowsOf session.id) = plan at outcome refused ⊢
    cases outcome with
    | advanced _ => cases refused
    | sealed _ _ _ => cases refused
    | auditFailed _ _ _ =>
      -- the chunk was flushed, and is rolled back with the audit row
      cases refused
      exact .inr ⟨rfl, rfl⟩
    | failed last differs =>
      cases refused
      refine .inl ⟨rfl, ?_⟩
      rw [← ordered] at differs
      have committed := @MismatchCommitted.stored H
        ⟨env, .putChunk session.id start declaredLength chunkDigest payload⟩ _ _ _ _ _ _ _ rfl found
        forward.active forward.frontier last differs
      rw [ordered] at committed
      simpa [PutPlan.writes, Write.applyAll, Write.apply, advancedSession, failedSession, last]
        using committed

end Put

/-! ## Compactions and comparisons -/

section Others

variable {db : Store} {env : Env} {exception : Raised}

/-- A compaction that raises has changed nothing: the rewrite is committed with its
    result or not at all. -/
theorem compactSealed_refused {id : String} {target : Int}
    (inRange : ∀ session, db.session? id = some session → session.totalBytes < 2 ^ 63)
    (refused : ((Call.mk env (.compactSealed id target)).serve H db).1 = .error exception) :
    ((Call.mk env (.compactSealed id target)).serve H db).2 = db := by
  rw [serve_compactSealed, run_compactSealed env target inRange] at refused ⊢
  cases decided : compactPlan H env id target (db.rowsOf id) with
  | refuse _ | abort _ | auditFailed _ => rfl
  | done _ _ =>
    rw [decided] at refused
    cases refused

theorem createComparison_refused {baseline candidate : String}
    (refused : ((Call.mk env (.createComparison baseline candidate)).serve H db).1 =
      .error exception) :
    ((Call.mk env (.createComparison baseline candidate)).serve H db).2 = db := by
  rw [serve_createComparison, run_createComparison] at refused ⊢
  cases decided : comparisonPlan H env baseline candidate db with
  | refuse _ => rfl
  | record row =>
    rw [decided] at refused
    cases taken : (Write.insertComparison row).rejects db with
    | none => simp [taken, Except.map] at refused
    | some _ => simp [taken]

end Others

/-! ## Sealing puts -/

variable (H) in
/-- The put is admissible and carries the last bytes of a package whose digest is
    right. -/
structure Seals (db : Store) (session : UploadSession) (start declaredLength : Int)
    (chunkDigest : String) (payload : Bytes) : Prop where
  found : db.session? session.id = some session
  active : session.status = .active
  frontier : start = session.confirmedOffset
  positive : 0 < declaredLength
  admitted : putRefusal H session start declaredLength chunkDigest payload = none
  last : start + declaredLength = session.totalBytes
  whole : H (contentOf (db.chunksOf session.id) ++ payload) = session.wholeSha256

section Seals

variable {db : Store} {session : UploadSession} {start declaredLength : Int} {chunkDigest : String}
  {payload : Bytes} (seals : Seals H db session start declaredLength chunkDigest payload)
  (sound : Sound H db)

include seals sound

theorem Seals.forward : Forward H db session start declaredLength chunkDigest payload := by
  obtain ⟨-, -, size, digest, within⟩ := putRefusal_none.mp seals.admitted
  exact ⟨seals.found, sound.consistent seals.found, seals.active, seals.frontier, seals.positive, size,
    digest, within⟩

theorem Seals.archived :
    H (contentOf (db.rowsOf session.id).chunks ++ payload) = session.wholeSha256 := by
  rw [← (sound.rows session.id).chunksOf seals.found]
  exact seals.whole

/-- Without its audit row the put is rolled back. -/
theorem Seals.serve_refused {env : Env} (fault : env.auditAccepted = false) :
    (Call.mk env (.putChunk session.id start declaredLength chunkDigest payload)).serve H db =
      (.error (.upload auditWriteFailed), db) := by
  rw [serve_putChunk]
  obtain ⟨ended, finalized, writes, audits, outcome, -⟩ | ⟨-, -, -, run⟩ :=
    (seals.forward sound).served env start declaredLength chunkDigest payload
  · -- the plan of a sealing put depends on the audit row
    have last := seals.last
    have whole := seals.archived sound
    cases outcome with
    | advanced more => omega
    | sealed _ _ taken => rw [fault] at taken; cases taken
    | failed _ differs => exact absurd whole differs
  · rw [run]
    rfl

/-- With its audit row it seals the session. -/
theorem Seals.serve_sealed {env : Env} (accepted : env.auditAccepted = true) :
    ∃ ended, ended.status = .sealed ∧ ended.confirmedOffset = session.totalBytes ∧
      ((Call.mk env (.putChunk session.id start declaredLength chunkDigest payload)).serve H db).1 =
        .ok (.ack (ack ended start declaredLength chunkDigest false)) := by
  rw [serve_putChunk]
  obtain ⟨ended, finalized, writes, audits, outcome, answered, -⟩ | ⟨-, -, refused, -⟩ :=
    (seals.forward sound).served env start declaredLength chunkDigest payload
  · have last := seals.last
    obtain ⟨-, -, -, confirmed⟩ := outcome.ended
    obtain ⟨more, -, -⟩ | ⟨-, -, ⟨-, isSealed⟩ | ⟨differs, -⟩⟩ := outcome.status
    · omega
    · refine ⟨ended, isSealed, by omega, ?_⟩
      rw [answered, if_neg (by simp [isSealed])]
      rfl
    · exact absurd (seals.archived sound) differs
  · rw [accepted] at refused
    cases refused

end Seals

/-! ## Every call -/

variable (H) in
/-- What calls that raise leave of a store. -/
structure RefusalsAtomic (db : Store) : Prop where
  /-- Every table is as it was, except after a mismatch of the whole digest. -/
  unchanged : ∀ {call : Call} {exception}, (call.serve H db).1 = .error exception →
    exception.isMismatch = false ∨ call.request.recordsMismatch = false → (call.serve H db).2 = db
  mismatch : ∀ {call : Call} {exception}, (call.serve H db).1 = .error exception →
    exception.isMismatch = true → call.request.recordsMismatch = true →
      MismatchCommitted H call db (call.serve H db).2
  /-- A sealing put whose audit row is refused leaves its session open, and the same put
      seals it later. -/
  resumable : ∀ {session start declaredLength chunkDigest payload},
    Seals H db session start declaredLength chunkDigest payload → ∀ {env again : Env},
      env.auditAccepted = false → again.auditAccepted = true →
        (Call.mk env (.putChunk session.id start declaredLength chunkDigest payload)).serve H db =
            (.error (.upload auditWriteFailed), db) ∧
          ∃ ended, ended.status = .sealed ∧ ended.confirmedOffset = session.totalBytes ∧
            ((Call.mk again (.putChunk session.id start declaredLength chunkDigest payload)).serve H
              db).1 = .ok (.ack (ack ended start declaredLength chunkDigest false))

/-- A call that raises commits nothing, or what a mismatch of the whole digest
    records. -/
theorem refusals_atomic {db : Store} (reachable : Reachable H db) : RefusalsAtomic H db := by
  have sound := reachable.sound
  refine { unchanged := ?_, mismatch := ?_, resumable := ?_ }
  · rintro ⟨env, request⟩ exception refused unrecorded
    have recording : request.recordsMismatch = true → exception.isMismatch = false :=
      fun records => unrecorded.resolve_right (by simp [records])
    have reading : request.reads = true → ((Call.mk env request).serve H db).2 = db :=
      fun reads => (Call.program_quiet reads).run_data db
    cases request with
    | createSession totalBytes wholeSha256 =>
      obtain ⟨mismatch, -⟩ | ⟨-, same⟩ := createSession_refused sound refused
      · rw [recording rfl] at mismatch
        cases mismatch
      · exact same
    | putChunk id start declaredLength chunkDigest payload =>
      obtain ⟨mismatch, -⟩ | ⟨-, same⟩ := putChunk_refused sound refused
      · rw [recording rfl] at mismatch
        cases mismatch
      · exact same
    | compactSealed id target => exact compactSealed_refused (sound.rows id).inRange refused
    | createComparison baseline candidate => exact createComparison_refused refused
    | getSession _ | listSessions _ _ _ _ | listChunks _ | getAuditTrail _ | downloadContent _ _
    | getComparison _ => exact reading rfl
  · rintro ⟨env, request⟩ exception refused mismatch records
    cases request with
    | createSession totalBytes wholeSha256 =>
      obtain ⟨-, committed⟩ | ⟨other, -⟩ := createSession_refused sound refused
      · exact committed
      · rw [mismatch] at other
        cases other
    | putChunk id start declaredLength chunkDigest payload =>
      obtain ⟨-, committed⟩ | ⟨other, -⟩ := putChunk_refused sound refused
      · exact committed
      · rw [mismatch] at other
        cases other
    | compactSealed _ _ | createComparison _ _ | getSession _ | listSessions _ _ _ _ | listChunks _
    | getAuditTrail _ | downloadContent _ _ | getComparison _ => cases records
  · intro session start declaredLength chunkDigest payload seals env again fault accepted
    exact ⟨seals.serve_refused sound fault, seals.serve_sealed sound accepted⟩

/-- A package of two chunks. -/
def twoChunks : Store :=
  serveAll (fun _ => "d") [⟨⟨"s", 0, true⟩, .createSession 2 "d"⟩,
    ⟨⟨"", 1, true⟩, .putChunk "s" 0 1 "d" [1]⟩, ⟨⟨"", 2, true⟩, .putChunk "s" 1 1 "d" [2]⟩] Store.empty

/-- A target beyond `BIGINT` is refused after the rows are rewritten. -/
theorem refusals_atomic_rewrite :
    (Call.mk ⟨"", 3, true⟩ (.compactSealed "s" (2 ^ 63))).serve (fun _ => "d") twoChunks =
      (.error (.upload auditWriteFailed), twoChunks) :=
  have answered : ((Call.mk ⟨"", 3, true⟩ (.compactSealed "s" (2 ^ 63))).serve (fun _ => "d")
      twoChunks).1 = .error (.upload auditWriteFailed) := by decide
  Prod.ext answered ((refusals_atomic (reachable_serveAll (fun _ => "d") _)).unchanged answered (.inl rfl))

end

end SeismicIngest
