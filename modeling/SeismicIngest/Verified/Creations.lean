import SeismicIngest.Verified.Invariant

/-! # What a creation does

A creation registers one session row (`createdSession`), and the audit row of its
sealing when the package is empty.  The database takes it when the id is unused
and the length fits its column (`run_createSession`), and the new rows are
consistent (`createdSession_consistent`).
-/

namespace SeismicIngest

open Transaction Spans

section

variable (H : Bytes → String)

/-! ## The new rows -/

/-- The session row a creation registers: an empty package is complete at once. -/
def createdSession (env : Env) (totalBytes : Int) (wholeSha256 : String) : UploadSession :=
  let session : UploadSession :=
    { id := env.uuid, totalBytes, wholeSha256, confirmedOffset := 0, status := .active,
      computedSha256 := none, failureReason := none, createdAt := env.now }
  if totalBytes = 0 then
    if wholeSha256 = emptySha256 H then
      { session with
        status := .sealed, confirmedOffset := 0, computedSha256 := some (emptySha256 H) }
    else
      { session with
        status := .failed
        computedSha256 := some (emptySha256 H)
        failureReason := some ("zero-length package metadata inconsistent: " ++
          "whole_sha256 does not match SHA-256 of empty payload") }
  else session

/-- The audit rows of a creation. -/
def creationAudits (env : Env) (session : UploadSession) : List AuditEvent :=
  if session.status = .sealed then
    [auditRow env 1 session .sealed 0 (emptySha256 H) none none none]
  else []

def creationWrites (env : Env) (session : UploadSession) : List Write :=
  .insertSession session :: (creationAudits H env session).map .insertAudit

/-- The database takes the new rows. -/
def CreationTaken (env : Env) (session : UploadSession) (db : Store) : Prop :=
  db.session? session.id = none ∧ session.totalBytes < 2 ^ 63 ∧
    (session.status = .sealed → env.auditAccepted = true)

/-- The answer of a creation the database takes. -/
def creationAnswer (session : UploadSession) : Except Raised UploadSession :=
  if session.status = .failed then
    .error (.upload (wholeDigestMismatchAtCreation H session.wholeSha256))
  else .ok session

/-- What a creation raises that the database does not take. -/
inductive CreationRefusal : Raised → Prop where
  | constraint (error : DbError) : CreationRefusal (.database error)
  | audit : CreationRefusal (.upload auditWriteFailed)

variable {H}

/-! ### The registered session -/

section Registered

variable (env : Env) (totalBytes : Int) (wholeSha256 : String)

@[simp] theorem createdSession_id : (createdSession H env totalBytes wholeSha256).id = env.uuid := by
  simp only [createdSession]
  split
  · split <;> rfl
  · rfl

@[simp] theorem createdSession_totalBytes :
    (createdSession H env totalBytes wholeSha256).totalBytes = totalBytes := by
  simp only [createdSession]
  split
  · split <;> rfl
  · rfl

@[simp] theorem createdSession_wholeSha256 :
    (createdSession H env totalBytes wholeSha256).wholeSha256 = wholeSha256 := by
  simp only [createdSession]
  split
  · split <;> rfl
  · rfl

@[simp] theorem createdSession_confirmedOffset :
    (createdSession H env totalBytes wholeSha256).confirmedOffset = 0 := by
  simp only [createdSession]
  split
  · split <;> rfl
  · rfl

theorem createdSession_sealed (same : wholeSha256 = emptySha256 H) :
    createdSession H env 0 wholeSha256 =
      { id := env.uuid, totalBytes := 0, wholeSha256, confirmedOffset := 0, status := .sealed,
        computedSha256 := some (emptySha256 H), failureReason := none, createdAt := env.now } := by
  simp only [createdSession, if_true, same]

theorem createdSession_failed (differs : wholeSha256 ≠ emptySha256 H) :
    (createdSession H env 0 wholeSha256).status = .failed := by
  simp only [createdSession, if_true, if_neg differs]

theorem createdSession_open (nonzero : totalBytes ≠ 0) :
    (createdSession H env totalBytes wholeSha256).status = .active := by
  simp only [createdSession, if_neg nonzero]

variable {env totalBytes wholeSha256} in
/-- A creation is not taken under an id that is stored. -/
theorem CreationTaken.notFound {db : Store} {id : String} {session : UploadSession}
    (taken : CreationTaken env (createdSession H env totalBytes wholeSha256) db)
    (drawn : env.uuid = id) (found : db.session? id = some session) : False := by
  have unused := taken.1
  rw [createdSession_id, drawn, found] at unused
  cases unused

theorem createdSession_consistent (nonneg : 0 ≤ totalBytes) (inRange : totalBytes < 2 ^ 63) :
    Consistent H (createdSession H env totalBytes wholeSha256) []
      (creationAudits H env (createdSession H env totalBytes wholeSha256)) where
  tiles := by
    rw [createdSession_confirmedOffset]
    exact tiles_nil.mpr rfl
  intact := fun chunk member => by cases member
  nonempty := fun chunk member => by cases member
  bounded := by simpa using nonneg
  inRange := by simpa using inRange
  whenActive := by
    simp only [createdSession, creationAudits]
    split
    · split <;> intro status <;> cases status
    · intro _
      exact ⟨by change 0 < totalBytes; omega, rfl, rfl⟩
  whenSealed := by
    simp only [createdSession]
    split
    · split
      · rename_i empty same
        intro _
        exact ⟨empty.symm, congrArg some same.symm, same⟩
      · intro status
        cases status
    · intro status
      cases status
  whenFailed := by
    simp only [createdSession, creationAudits]
    split
    · split
      · intro status
        cases status
      · rename_i empty differs
        intro _
        exact ⟨empty.symm, rfl, differs, rfl⟩
    · intro status
      cases status

end Registered

/-! ## When the database takes them -/

section Taken

variable {env : Env} {db : Store}

section

variable (session : UploadSession)

theorem rejects_insertSession (db : Store) (nonneg : 0 ≤ session.totalBytes)
    (start : session.confirmedOffset = 0) :
    (Write.insertSession session).rejects db = none ↔
      db.session? session.id = none ∧ session.totalBytes < 2 ^ 63 := by
  rw [Write.rejects, Write.outOfRange, start]
  have zero : fitsBigint 0 = true := fitsBigint_of_nonneg (by omega) (by omega)
  by_cases inRange : session.totalBytes < 2 ^ 63
  · have total := fitsBigint_of_nonneg nonneg inRange
    simp only [inRange, and_true]
    cases found : db.session? session.id <;> simp [Write.violates, total, zero, found]
  · have total : fitsBigint session.totalBytes = false := by
      simp only [fitsBigint, decide_eq_false_iff_not]
      omega
    simp only [inRange, and_false, total]
    simp

end

/-- No row is stored under an unused id. -/
theorem RowsSound.unused {id : String} (sound : RowsSound H (db.rowsOf id))
    (fresh : db.session? id = none) : db.rowsOf id = ⟨none, [], []⟩ := by
  have nothing : (db.rowsOf id).chunks = [] ∧ (db.rowsOf id).audits = [] := by
    rw [RowsSound, rowsOf_row, fresh] at sound
    exact sound
  rw [← fresh, ← nothing.1, ← nothing.2]
  rfl

variable {session : UploadSession}

theorem rowsOf_insertSession_fresh (sound : RowsSound H (db.rowsOf session.id))
    (fresh : db.session? session.id = none) :
    ((Write.insertSession session).apply db).rowsOf session.id = ⟨some session, [], []⟩ := by
  rw [Write.rowsOf_apply, Write.onRows, if_pos rfl, sound.unused fresh]
  rfl

/-- The rows under a new session. -/
theorem rowsOf_creation (env : Env) (sound : RowsSound H (db.rowsOf session.id))
    (fresh : db.session? session.id = none) :
    (Write.applyAll (creationWrites H env session) db).rowsOf session.id =
      ⟨some session, [], creationAudits H env session⟩ := by
  have registered := rowsOf_insertSession_fresh sound fresh
  rw [creationWrites, Write.applyAll_cons, creationAudits]
  split
  · have audited :=
      rowsOf_insertAudit (auditRow env 1 session .sealed 0 (emptySha256 H) none none none)
      ((Write.insertSession session).apply db)
    rw [show (auditRow env 1 session .sealed 0 (emptySha256 H) none none none).sessionId =
      session.id from rfl, registered] at audited
    exact audited
  · exact registered

theorem creationWrites_own : Write.AllOf session.id (creationWrites H env session) := by
  intro write member
  obtain rfl | later := List.mem_cons.mp member
  · rfl
  · obtain ⟨row, listed, rfl⟩ := List.mem_map.mp later
    rw [creationAudits] at listed
    split at listed
    · rw [List.mem_singleton.mp listed]
      rfl
    · cases listed

theorem creationWrites_sealed (isSealed : session.status = .sealed) :
    creationWrites H env session = [.insertSession session] ++
      [.insertAudit (auditRow env 1 session .sealed 0 (emptySha256 H) none none none)] := by
  rw [creationWrites, creationAudits, if_pos isSealed]
  rfl

/-- An unused id takes both rows of an empty sealing. -/
theorem creationWrites_accepted (sound : RowsSound H (db.rowsOf session.id))
    (isSealed : session.status = .sealed) (nonneg : 0 ≤ session.totalBytes)
    (start : session.confirmedOffset = 0) (fresh : db.session? session.id = none)
    (inRange : session.totalBytes < 2 ^ 63) :
    Write.Accepted (creationWrites H env session) db := by
  have registered := rowsOf_insertSession_fresh sound fresh
  rw [creationWrites_sealed isSealed]
  refine Write.accepted_cons ((rejects_insertSession session db nonneg start).mpr ⟨fresh, inRange⟩)
    (Write.accepted_cons ?_ (Write.accepted_nil _))
  have own : (auditRow env 1 session .sealed 0 (emptySha256 H) none none none).sessionId =
    session.id := rfl
  refine Write.accepts_insertAudit rfl (?_ : _ = some session) ?_
  · rw [← rowsOf_row, own, registered]
  · rw [own, registered]
    rfl

end Taken

/-! ## The whole call -/

section Call

variable {env : Env} {db : Store} {totalBytes : Int} {wholeSha256 : String}

/-- A creation that only inserts its session row. -/
theorem run_insertSession {α : Type} (session : UploadSession) (next : Unit → Db α)
    (nonneg : 0 ≤ session.totalBytes) (start : session.confirmedOffset = 0) :
    (db.session? session.id = none ∧ session.totalBytes < 2 ^ 63 ∧
        (Db.commit [.insertSession session] >>= next).run db =
          (next ()).run ((Write.insertSession session).apply db)) ∨
      (¬ (db.session? session.id = none ∧ session.totalBytes < 2 ^ 63) ∧
        ∃ error, (Write.insertSession session).rejects db = some error ∧
          (Db.commit [.insertSession session] >>= next).run db = (.error (.database error), db)) := by
  have rejects := rejects_insertSession session db nonneg start
  have run := run_commit [.insertSession session] next db
  rw [Write.rejectsAll] at run
  cases refused : (Write.insertSession session).rejects db with
  | none =>
    have taken := rejects.mp refused
    rw [refused] at run
    exact .inl ⟨taken.1, taken.2, run⟩
  | some error =>
    rw [refused] at run
    refine .inr ⟨fun taken => ?_, error, rfl, run⟩
    rw [rejects.mpr taken] at refused
    cases refused

theorem run_refresh {session stored : UploadSession} (found : db.session? session.id = some stored) :
    (Db.refresh session).run db = (.ok stored, db) :=
  Program.run_of_returned (congrArg Prod.fst (@settle_refresh (.opened db) _ _ found))

variable (H) in
/-- The sealing of an empty package, from its audit row on. -/
def createSealed (env : Env) (session : UploadSession) : Db UploadSession := do
  addAudit env [.insertSession session] session .sealed 0 (emptySha256 H) none none none
  Db.commit []
  Db.refresh session

section Sealing

variable {session : UploadSession} (sound : RowsSound H (db.rowsOf session.id))
  (empty : session.totalBytes = 0) (start : session.confirmedOffset = 0)
  (isSealed : session.status = .sealed)

include sound empty start isSealed

theorem settle_createSealed (taken : CreationTaken env session db) :
    (createSealed H env session).settle (.opened db) = (.committed (Db.refresh session),
      (Connection.opened db).staged (Write.applyAll (creationWrites H env session) db)) := by
  obtain ⟨fresh, inRange, audit⟩ := taken
  have accepted : Write.Accepted (creationWrites H env session) db :=
    creationWrites_accepted sound isSealed (by omega) start fresh inRange
  -- no audit row is stored under an unused id
  have number : db.maxSequence session.id + 1 = 1 := by
    rw [maxSequence_eq, sound.unused fresh]
    rfl
  rw [creationWrites_sealed isSealed] at accepted
  have audited := @settle_addAudit (.opened db) env [.insertSession session] session .sealed 0
    (emptySha256 H) none none none (audit isSealed)
    (by rw [Connection.opened_working, number]; exact accepted)
  rw [Connection.opened_working, number, ← creationWrites_sealed isSealed] at audited
  rw [createSealed, Program.settle_bind, audited]
  simp only
  rw [Program.settle_bind, settle_commit (Write.accepted_nil _)]
  rfl

omit sound isSealed in
/-- The audit row and the session row are refused together. -/
theorem settle_createSealed_refused (refused : ¬ CreationTaken env session db) :
    (createSealed H env session).settle (.opened db) =
      (.rolledBack (.raise (.upload auditWriteFailed)), .opened db) := by
  have rejects := rejects_insertSession session db (by omega) start
  have rejected : env.auditAccepted = false ∨ Write.rejectsAll ([.insertSession session] ++
      [.insertAudit (auditRow env ((Connection.opened db).working.maxSequence session.id + 1) session
        .sealed 0 (emptySha256 H) none none none)]) (Connection.opened db).working ≠ none := by
    cases audit : env.auditAccepted with
    | false => exact .inl rfl
    | true =>
      refine .inr fun accepted => refused ?_
      cases answer : (Write.insertSession session).rejects db with
      | none =>
        obtain ⟨fresh, inRange⟩ := rejects.mp answer
        exact ⟨fresh, inRange, fun _ => audit⟩
      | some error => simp [Write.rejectsAll, answer] at accepted
  rw [createSealed, Program.settle_bind, settle_addAudit_refused rejected]
  rfl

variable (env) in
theorem run_createSealed :
    (CreationTaken env session db ∧ (createSealed H env session).run db =
        (.ok session, Write.applyAll (creationWrites H env session) db)) ∨
      (¬ CreationTaken env session db ∧
        (createSealed H env session).run db = (.error (.upload auditWriteFailed), db)) := by
  by_cases taken : CreationTaken env session db
  · have settled := settle_createSealed sound empty start isSealed taken
    refine .inl ⟨taken, ?_⟩
    rw [Program.run_of_committed (congrArg Prod.fst settled), settled]
    exact run_refresh (congrArg SessionRows.row (rowsOf_creation env sound taken.1))
  · have settled := settle_createSealed_refused (H := H) empty start taken
    exact .inr ⟨taken, Program.run_of_rolledBack (congrArg Prod.fst settled)⟩

end Sealing

/-! ### The three shapes of a creation -/

section Shapes

variable (env) (wholeSha256)

theorem createSession_sealing (same : wholeSha256 = emptySha256 H) :
    createSession H env 0 wholeSha256 =
      createSealed H env (createdSession H env 0 wholeSha256) := by
  simp only [createSession, createdSession, createSealed, if_true, if_pos same]

theorem createSession_failing (differs : wholeSha256 ≠ emptySha256 H) :
    createSession H env 0 wholeSha256 =
      (Db.commit [.insertSession (createdSession H env 0 wholeSha256)] >>= fun _ =>
        Db.refuse (wholeDigestMismatchAtCreation H wholeSha256)) := by
  simp only [createSession, createdSession, if_true, if_neg differs]

theorem createSession_opening (nonzero : totalBytes ≠ 0) :
    createSession H env totalBytes wholeSha256 =
      (Db.commit [.insertSession (createdSession H env totalBytes wholeSha256)] >>= fun _ =>
        Db.refresh (createdSession H env totalBytes wholeSha256)) := by
  simp only [createSession, createdSession, if_neg nonzero]

end Shapes

/-- A creation run alone registers its session, or changes nothing. -/
theorem run_createSession (env : Env) (wholeSha256 : String)
    (sound : RowsSound H (db.rowsOf env.uuid)) (nonneg : 0 ≤ totalBytes) :
    let session := createdSession H env totalBytes wholeSha256
    (CreationTaken env session db ∧ (createSession H env totalBytes wholeSha256).run db =
        (creationAnswer H session, Write.applyAll (creationWrites H env session) db)) ∨
      (¬ CreationTaken env session db ∧ ∃ error, CreationRefusal error ∧
        (createSession H env totalBytes wholeSha256).run db = (.error error, db)) := by
  intro session
  have length : 0 ≤ session.totalBytes := by simpa [session] using nonneg
  have start : session.confirmedOffset = 0 :=
    createdSession_confirmedOffset env totalBytes wholeSha256
  -- without an audit row only the session row can be refused
  have plain : session.status ≠ .sealed → (CreationTaken env session db ↔
      db.session? session.id = none ∧ session.totalBytes < 2 ^ 63) ∧
      creationWrites H env session = [.insertSession session] := by
    intro notSealed
    constructor
    · simp [CreationTaken, notSealed]
    · simp [creationWrites, creationAudits, notSealed]
  by_cases empty : totalBytes = 0
  · -- an empty package is decided at once
    subst empty
    by_cases same : wholeSha256 = emptySha256 H
    · have shape := createdSession_sealed (H := H) env wholeSha256 same
      have isSealed : session.status = .sealed := congrArg UploadSession.status shape
      rw [createSession_sealing env wholeSha256 same, creationAnswer, if_neg (by simp [isSealed])]
      obtain taken | ⟨refused, run⟩ := run_createSealed env (by simpa [session] using sound)
        (createdSession_totalBytes env 0 wholeSha256) start isSealed
      · exact .inl taken
      · exact .inr ⟨refused, _, .audit, run⟩
    · have isFailed : session.status = .failed := createdSession_failed env wholeSha256 same
      obtain ⟨taken, writes⟩ := plain (by simp [isFailed])
      rw [createSession_failing env wholeSha256 same, creationAnswer, if_pos isFailed, taken, writes,
        show session.wholeSha256 = wholeSha256 from createdSession_wholeSha256 env 0 wholeSha256]
      obtain ⟨fresh, inRange, run⟩ | ⟨refused, error, -, run⟩ := run_insertSession session
        (fun _ => Db.refuse (wholeDigestMismatchAtCreation H wholeSha256)) length start
      · exact .inl ⟨⟨fresh, inRange⟩, run⟩
      · exact .inr ⟨refused, _, .constraint error, run⟩
  · have isOpen : session.status = .active := createdSession_open env totalBytes wholeSha256 empty
    obtain ⟨taken, writes⟩ := plain (by simp [isOpen])
    rw [createSession_opening env wholeSha256 empty, creationAnswer, if_neg (by simp [isOpen]), taken,
      writes]
    obtain ⟨fresh, inRange, run⟩ | ⟨refused, error, -, run⟩ :=
      run_insertSession session (fun _ => Db.refresh session) length start
    · refine .inl ⟨⟨fresh, inRange⟩, ?_⟩
      have unusedSound : RowsSound H (db.rowsOf session.id) := by simpa [session] using sound
      have registered := rowsOf_insertSession_fresh unusedSound fresh
      rw [run, run_refresh (congrArg SessionRows.row registered)]
      rfl
    · exact .inr ⟨refused, _, .constraint error, run⟩

end Call

end

end SeismicIngest
