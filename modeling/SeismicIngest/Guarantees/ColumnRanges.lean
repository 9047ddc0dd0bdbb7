import SeismicIngest.Verified.Steps
import SeismicIngest.Transaction.Sending

/-! # Integers beyond a `BIGINT` column

Python's integers have no bound and the columns have 64 bits.  A put is bounded by the
registered length, and a compaction is rolled back with its audit row, so neither lets
a range error of the database out.  A creation has no such guard: a `total_bytes` from
2^63 on passes the schema and leaves `create_session` as a raw `DataError`
(`bigint_contained_iff`).
-/

namespace SeismicIngest

open Transaction

/-! ## Flushes whose integers fit -/

/-- The two ways the service flushes a list of writes. -/
inductive Flushes (writes : List Write) : Batch Store DbError → Prop where
  | pending : Flushes writes (pending writes)
  | audit (env : Env) : Flushes writes (auditBatch env writes)

/-- A flush all of whose integers fit their columns. -/
def FitsColumns (batch : Batch Store DbError) : Prop :=
  ∃ writes, Flushes writes batch ∧ ∀ write ∈ writes, write.outOfRange = false

/-- The database takes no integer beyond its column. -/
theorem Write.fit_of_accepted {writes : List Write} {db : Store} (accepted : Accepted writes db) :
    ∀ write ∈ writes, write.outOfRange = false := by
  induction writes generalizing db with
  | nil => exact fun write member => by cases member
  | cons head writes inductionHypothesis =>
    rw [Accepted, rejectsAll] at accepted
    cases refused : head.rejects db with
    | some error => simp [refused] at accepted
    | none =>
      rw [refused] at accepted
      refine List.forall_mem_cons.mpr ⟨?_, inductionHypothesis accepted⟩
      by_contra range
      simp [rejects, Bool.eq_true_of_not_eq_false range] at refused

theorem fitsColumns_of_accepted {batch : Batch Store DbError}
    (flushed : (∃ writes, Flushes writes batch) ∧ ∃ db, batch.rejects db = none) :
    FitsColumns batch := by
  obtain ⟨⟨writes, flushes⟩, db, accepted⟩ := flushed
  refine ⟨writes, flushes, ?_⟩
  cases flushes with
  | pending => exact Write.fit_of_accepted accepted
  | audit env =>
    cases taken : env.auditAccepted with
    | false => simp [auditBatch, taken] at accepted
    | true =>
      simp only [auditBatch, taken, if_true] at accepted
      exact Write.fit_of_accepted accepted

section

variable (H : Bytes → String)

/-! ## Strict calls -/

section Strict

/-- A refused flush gives the transaction up. -/
abbrev Strict {α : Type} (program : Db α) : Prop :=
  program.Strict fun batch => ∃ writes, Flushes writes batch

theorem getLockedSession_strict (id : String) : Strict (getLockedSession id) := by
  refine Program.Strict.bind (fun _ => trivial) fun answer => ?_
  cases answer <;> trivial

theorem commit_strict (writes : List Write) : Strict (Db.commit writes) :=
  ⟨⟨writes, .pending⟩, trivial, fun _ => trivial⟩

theorem flushOrRaise_strict (writes : List Write) : Strict (Db.flushOrRaise writes) :=
  ⟨⟨writes, .pending⟩, trivial, fun _ => trivial⟩

theorem addAudit_strict (env : Env) (changes : List Write) (session : UploadSession)
    (event : AuditKind) (totalBytes : Int) (wholeSha256 : String)
    (targetChunkBytes chunksBefore chunksAfter : Option Int) :
    Strict (addAudit env changes session event totalBytes wholeSha256 targetChunkBytes chunksBefore
      chunksAfter) :=
  fun _ => ⟨⟨_, .audit env⟩, trivial, fun _ => trivial⟩

theorem verifyAndFinalize_strict (env : Env) (session : UploadSession) :
    Strict (verifyAndFinalize H env session) := by
  refine Program.Strict.bind (fun _ => trivial) fun chunks => ?_
  split
  · split
    · exact (addAudit_strict _ _ _ _ _ _ _ _ _).bind fun _ => trivial
    · trivial
  · trivial

theorem putForward_strict (env : Env) (id : String) (session : UploadSession)
    (start declaredLength : Int) (chunkDigest : String) (payload : Bytes) :
    Strict (putForward H env id session start declaredLength chunkDigest payload) := by
  refine ⟨⟨_, .pending⟩, ?_, fun error => ?_⟩
  · change Strict (if _ then _ else _)
    split
    · refine (verifyAndFinalize_strict H env _).bind fun finalized => ?_
      exact (commit_strict _).bind fun _ => (acknowledge_quiet _ _ _ _ _).strict
    · exact (commit_strict _).bind fun _ => (acknowledge_quiet _ _ _ _ _).strict
  · -- the fallback starts with a rollback
    cases error <;> trivial

theorem putActive_strict (env : Env) (id : String) (session : UploadSession)
    (start declaredLength : Int) (chunkDigest : String) (payload : Bytes) :
    Strict (putActive H env id session start declaredLength chunkDigest payload) := by
  rw [putActive]
  split
  · exact putForward_strict H env id session start declaredLength chunkDigest payload
  · split
    · exact (commit_strict _).bind fun _ => trivial
    · split
      · refine (archivedBytes_quiet _ _).strict.bind fun archived => ?_
        split
        · exact (commit_strict _).bind fun _ => trivial
        · trivial
      · trivial

theorem putChunk_strict (env : Env) (id : String) (start declaredLength : Int)
    (chunkDigest : String) (payload : Bytes) :
    Strict (putChunk H env id start declaredLength chunkDigest payload) := by
  refine (getLockedSession_strict id).bind fun session => ?_
  split
  · trivial
  · split
    · refine (terminalReplay_quiet _ _ _ _ _).strict.bind fun echoed => ?_
      exact (commit_strict _).bind fun _ => trivial
    · exact putActive_strict H env id session start declaredLength chunkDigest payload

theorem compactBody_strict (env : Env) (id : String) (session : UploadSession) (target : Int) :
    Strict (compactBody H env id session target) := by
  refine Program.Strict.bind (fun _ => trivial) fun old => ?_
  refine (Program.Strict.lift _).bind fun buffer => ?_
  dsimp only
  split
  · exact (addAudit_strict _ _ _ _ _ _ _ _ _).bind fun _ => (commit_strict _).bind fun _ => trivial
  · refine (flushOrRaise_strict _).bind fun _ => (flushOrRaise_strict _).bind fun _ => ?_
    refine Program.Strict.bind (fun _ => trivial) fun verifyChunks => ?_
    refine (Program.Strict.lift _).bind fun verified => ?_
    exact (addAudit_strict _ _ _ _ _ _ _ _ _).bind fun _ => (commit_strict _).bind fun _ => trivial

theorem compactSealed_strict (env : Env) (id : String) (target : Int) :
    Strict (compactSealed H env id target) := by
  rw [compactSealed]
  split
  · trivial
  · refine (getLockedSession_strict id).bind fun session => ?_
    split
    · trivial
    · exact (compactBody_strict H env id session target).catching fun _ => ⟨trivial, trivial⟩

end Strict

/-- A strict call that commits has sent nothing that does not fit. -/
theorem Strict.fits {α : Type} {program rest : Db α} {db : Store} (strict : Strict program)
    (ending : (program.settle (.opened db)).1 = .committed rest) (quiet : rest.Quiet) :
    program.Sends FitsColumns (.opened db) :=
  (Program.Strict.sends strict ending quiet).mono fun _ flushed => fitsColumns_of_accepted flushed

/-! ## Contained calls -/

/-- Every integer the call writes fits its column, or the call is refused without a
    trace; and no range error of the database leaves it. -/
structure Contained (call : Call) (db : Store) : Prop where
  fits : (call.program H).Sends FitsColumns (.opened db) ∨
    ∃ error, call.serve H db = (.error (.upload error), db)
  noRangeError : (call.serve H db).1 ≠ .error (.database .dataError)

/-- The requests that the schemas and the route checks let through to a write. -/
def Request.admitted : Request → Prop
  | .createSession _ _ | .putChunk _ _ _ _ _ => True
  | .compactSealed _ targetChunkBytes => 0 < targetChunkBytes
  | _ => False

/-- A creation whose length no `BIGINT` column holds. -/
def Request.overflows : Request → Prop
  | .createSession totalBytes _ => 2 ^ 63 ≤ (totalBytes : Int)
  | _ => False

variable {H}

/-! ### Programs -/

/-- `Contained`, of the program that a call runs. -/
structure ContainedProgram {α : Type} (program : Db α) (db : Store) : Prop where
  fits : program.Sends FitsColumns (.opened db) ∨
    ∃ error, program.run db = (.error (.upload error), db)
  noRangeError : (program.run db).1 ≠ .error (.database .dataError)

namespace ContainedProgram

variable {α : Type} {program : Db α} {db : Store}

theorem refused {error : UploadError} (run : program.run db = (.error (.upload error), db)) :
    ContainedProgram program db where
  fits := .inr ⟨error, run⟩
  noRangeError := by
    rw [run]
    simp

theorem call (contained : ContainedProgram program db) {call : Call} {rename : α → Reply}
    (called : call.program H = rename <$> program) : Contained H call db := by
  have served : call.serve H db = ((program.run db).1.map rename, (program.run db).2) := by
    rw [Call.serve, called, Program.run_map]
  constructor
  · obtain sends | ⟨error, run⟩ := contained.fits
    · rw [called]
      exact .inl (sends.map rename)
    · rw [served, run]
      exact .inr ⟨error, rfl⟩
  · have noRangeError := contained.noRangeError
    rw [served]
    cases answer : (program.run db).1 with
    | ok _ => simp [Except.map]
    | error exception =>
      rw [answer] at noRangeError
      simpa [Except.map] using noRangeError

end ContainedProgram

section

variable {db : Store} {id : String} (env : Env)

/-! ### Puts and compactions -/

theorem getLockedSession_sends {holds : Batch Store DbError → Prop} (conn : Connection Store) :
    (getLockedSession id).Sends holds conn := by
  have reads : (Program.selectForUpdate id fun db : Store => db.session? id : Db _).settle conn =
      (.returned (conn.working.session? id), conn) := rfl
  refine Program.Sends.bind trivial reads ?_
  cases conn.working.session? id <;> trivial

/-- A put whose refusal does not print sends nothing. -/
theorem putChunk_unprinted {session : UploadSession} {start declaredLength : Int} {chunkDigest : String}
    {payload : Bytes} (found : db.session? id = some session)
    (refused : putRefusal H session start declaredLength chunkDigest payload = some .valueError) :
    (putChunk H env id start declaredLength chunkDigest payload).Sends FitsColumns (.opened db) := by
  have locks : (getLockedSession id).settle (.opened db) = (.returned session, .opened db) :=
    settle_getLockedSession found
  refine (getLockedSession_sends _).bind locks ?_
  rw [refused]
  trivial

theorem putChunk_contained (sound : RowsSound H (db.rowsOf id)) (start declaredLength : Int)
    (chunkDigest : String) (payload : Bytes) :
    ContainedProgram (putChunk H env id start declaredLength chunkDigest payload) db := by
  have strict := putChunk_strict H env id start declaredLength chunkDigest payload
  have ending : ((putChunk H env id start declaredLength chunkDigest payload).settle
      (.opened db)).1 = _ := congrArg Prod.fst (settle_putChunk sound)
  have quiet := putChunk_quietAfter sound env start declaredLength chunkDigest payload
  have run := run_putChunk env start declaredLength chunkDigest payload sound
  cases decided : putPlan H env id start declaredLength chunkDigest payload (db.rowsOf id) with
  | refuse exception =>
    rw [decided] at run
    cases putPlan_refuse decided with
    | missing | stale _ | terminal _ => exact .refused run
    | invalid found refused =>
      obtain ⟨-, error, rfl, -⟩ | ⟨-, rfl⟩ := putRefusal_some refused
      · exact .refused run
      · exact ⟨.inl (putChunk_unprinted env found refused), by simp [run, PutPlan.answer]⟩
  | auditFailed discarded =>
    rw [decided] at run
    exact .refused run
  | replay body =>
    rw [decided] at ending run
    refine ⟨.inl (strict.fits ending (quiet _ (.inl ending))), ?_⟩
    simp [run, PutPlan.answer]
  | append ended finalized writes =>
    rw [decided] at ending run
    refine ⟨.inl (strict.fits ending (quiet _ (.inl ending))), ?_⟩
    rw [run, PutPlan.answer]
    split <;> simp

theorem compactSealed_contained (sound : RowsSound H (db.rowsOf id)) (target : Int) :
    ContainedProgram (compactSealed H env id target) db := by
  have strict := compactSealed_strict H env id target
  have ending : ((compactSealed H env id target).settle (.opened db)).1 = _ :=
    congrArg Prod.fst (settle_compactSealed sound.inRange)
  have quiet := compactSealed_quietAfter sound env target
  have run := run_compactSealed (H := H) env target sound.inRange
  cases decided : compactPlan H env id target (db.rowsOf id) with
  | refuse error | abort error | auditFailed discarded =>
    rw [decided] at run
    exact .refused run
  | done result writes =>
    rw [decided] at ending run
    refine ⟨.inl (strict.fits ending (quiet _ (.inl ending))), ?_⟩
    simp [run, CompactPlan.answer]

/-! ### Creations -/

section Creation

variable {session : UploadSession}

theorem insertSession_outOfRange (nonneg : 0 ≤ session.totalBytes) (start : session.confirmedOffset = 0) :
    (Write.insertSession session).outOfRange = decide (2 ^ 63 ≤ session.totalBytes) := by
  have zero : fitsBigint 0 = true := fitsBigint_of_nonneg (by omega) (by omega)
  rw [Write.outOfRange, start, zero, Bool.and_true, fitsBigint, ← decide_not]
  exact decide_eq_decide.mpr (by omega)

/-- A creation without an audit row sends its session row, and nothing else. -/
theorem insertSession_sends (fits : (Write.insertSession session).outOfRange = false)
    {next : Unit → Db UploadSession} (quiet : (next ()).Quiet) :
    (Db.commit [.insertSession session] >>= next).Sends FitsColumns (.opened db) := by
  refine ⟨⟨_, .pending, by simpa using fits⟩, ?_⟩
  cases (pending [.insertSession session]).rejects (Connection.opened db).working with
  | none => exact quiet.sends _
  | some error => trivial

/-- A session row that fits is never refused for its range. -/
theorem insertSession_noRangeError (fits : (Write.insertSession session).outOfRange = false)
    {next : Unit → Db UploadSession}
    (noRangeError : ∀ data, ((next ()).run data).1 ≠ .error (.database .dataError)) :
    ((Db.commit [.insertSession session] >>= next).run db).1 ≠ .error (.database .dataError) := by
  rw [run_commit, Write.rejectsAll, Write.rejects, fits]
  by_cases violates : (Write.insertSession session).violates db
  · simp [violates]
  · simp only [violates, Write.rejectsAll]
    exact noRangeError _

theorem refresh_noRangeError (session : UploadSession) (data : Store) :
    ((Db.refresh session).run data).1 ≠ .error (.database .dataError) := by
  rw [Program.run, Db.refresh, Program.exec_bind, Program.exec_select]
  dsimp only
  split <;> simp

end Creation

/-- A creation that seals its session at once. -/
theorem createSealed_contained {session : UploadSession} (owned : RowsSound H (db.rowsOf session.id))
    (length : session.totalBytes = 0) (start : session.confirmedOffset = 0)
    (isSealed : session.status = .sealed) : ContainedProgram (createSealed H env session) db := by
  obtain ⟨taken, run⟩ | ⟨refused, run⟩ := run_createSealed env owned length start isSealed
  · have strict : Strict (createSealed H env session) :=
      (addAudit_strict _ _ _ _ _ _ _ _ _).bind fun _ =>
        (commit_strict _).bind fun _ => (refresh_quiet _).strict
    have ending := congrArg Prod.fst (settle_createSealed owned length start isSealed taken)
    exact ⟨.inl (strict.fits ending (refresh_quiet _)), by simp [run]⟩
  · exact .refused run

theorem createSession_contained (sound : RowsSound H (db.rowsOf env.uuid)) {totalBytes : Nat}
    (inRange : (totalBytes : Int) < 2 ^ 63) (wholeSha256 : String) :
    ContainedProgram (createSession H env totalBytes wholeSha256) db := by
  let session := createdSession H env totalBytes wholeSha256
  have length : session.totalBytes = totalBytes := createdSession_totalBytes env totalBytes wholeSha256
  have start : session.confirmedOffset = 0 :=
    createdSession_confirmedOffset env totalBytes wholeSha256
  have fits : (Write.insertSession session).outOfRange = false := by
    rw [insertSession_outOfRange (by omega) start, length]
    simpa using inRange
  by_cases empty : totalBytes = 0
  · subst empty
    rw [Nat.cast_zero]
    by_cases same : wholeSha256 = emptySha256 H
    · have isSealed : session.status = .sealed :=
        congrArg UploadSession.status (createdSession_sealed (H := H) env wholeSha256 same)
      have owned : RowsSound H (db.rowsOf session.id) := by simpa [session] using sound
      rw [createSession_sealing env wholeSha256 same]
      exact createSealed_contained env owned length start isSealed
    · rw [createSession_failing env wholeSha256 same]
      exact ⟨.inl (insertSession_sends fits trivial), insertSession_noRangeError fits (by simp [Db.refuse])⟩
  · rw [createSession_opening env wholeSha256 (by omega)]
    exact ⟨.inl (insertSession_sends fits (refresh_quiet _)),
      insertSession_noRangeError fits (refresh_noRangeError _)⟩

/-- A length beyond the column leaves the creation as an error of the driver. -/
theorem createSession_escapes {totalBytes : Nat} (beyond : 2 ^ 63 ≤ (totalBytes : Int))
    (wholeSha256 : String) (db : Store) :
    ((Call.mk env (.createSession totalBytes wholeSha256)).serve H db).1 =
      .error (.database .dataError) := by
  have length := createdSession_totalBytes (H := H) env totalBytes wholeSha256
  have start := createdSession_confirmedOffset (H := H) env totalBytes wholeSha256
  have range : (Write.insertSession (createdSession H env totalBytes wholeSha256)).outOfRange = true := by
    rw [insertSession_outOfRange (by omega) start, length]
    simpa using beyond
  rw [serve_createSession, createSession_opening env wholeSha256 (by omega), run_commit,
    Write.rejectsAll, Write.rejects, if_pos range]
  rfl

end

/-- A write is contained, unless it creates a session that no column can count. -/
theorem bigint_contained_iff {db : Store} (reachable : Reachable H db) {call : Call}
    (admitted : call.request.admitted) : Contained H call db ↔ ¬ call.request.overflows := by
  have sound := reachable.sound
  obtain ⟨env, request⟩ := call
  cases request with
  | createSession totalBytes wholeSha256 =>
    constructor
    · intro contained overflows
      exact contained.noRangeError (createSession_escapes env overflows wholeSha256 db)
    · intro fits
      exact (createSession_contained env (sound.rows _) (Int.not_le.mp fits) wholeSha256).call rfl
  | putChunk id start declaredLength chunkDigest payload =>
    exact ⟨fun _ => not_false,
      fun _ => (putChunk_contained env (sound.rows id) start declaredLength chunkDigest payload).call rfl⟩
  | compactSealed id target =>
    exact ⟨fun _ => not_false, fun _ => (compactSealed_contained env (sound.rows id) target).call rfl⟩
  | _ => exact admitted.elim

/-- A registered length of 2^63 - 1 is contained. -/
theorem bigint_contained_largest :
    Contained (fun _ => "d") ⟨⟨"s", 0, true⟩, .createSession 9223372036854775807 "d"⟩ Store.empty :=
  (@bigint_contained_iff (fun _ => "d") Store.empty .refl
    ⟨⟨"s", 0, true⟩, .createSession 9223372036854775807 "d"⟩ trivial).mpr
      (by simp [Request.overflows])

/-- One byte more, and the range error leaves the service. -/
theorem bigint_contained_overflow :
    let call : Call := ⟨⟨"s", 0, true⟩, .createSession 9223372036854775808
      "0000000000000000000000000000000000000000000000000000000000000000"⟩
    Reachable (fun _ => "d") Store.empty ∧ call.request.admitted ∧
      (call.serve (fun _ => "d") Store.empty).1 = .error (.database .dataError) ∧
      ¬ Contained (fun _ => "d") call Store.empty := by
  intro call
  have escapes : (call.serve (fun _ => "d") Store.empty).1 = .error (.database .dataError) := by
    decide
  exact ⟨.refl, trivial, escapes, fun contained => contained.noRangeError escapes⟩

end

end SeismicIngest
