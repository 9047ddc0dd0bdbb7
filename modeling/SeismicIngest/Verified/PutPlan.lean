import SeismicIngest.Verified.Invariant

/-! # What a put does

On consistent rows the statements of `put_chunk` can be read off the archived
content: `putPlan` says what the call decides, as a function of the rows of its
session alone, and `settle_putChunk` that its transaction ends that way.  Every
result about puts starts from the plan and the run it stands for
(`run_putChunk`).
-/

namespace SeismicIngest

open Transaction Spans

/-- What a put decides. -/
inductive PutPlan where
  | refuse (exception : Raised)
  | replay (body : Ack)
  /-- The chunk is stored, and the session row becomes `ended`. -/
  | append (ended : UploadSession) (finalized : Bool) (writes : List Write)
  /-- The audit row of a sealing is refused, and the chunk with it. -/
  | auditFailed (discarded : List Write)

section

variable (H : Bytes → String)

/-! ## The decision -/

section Decision

variable (env : Env) (session : UploadSession) (start declaredLength : Int) (chunkDigest : String)
  (payload : Bytes) (archived : Bytes)

/-- The audit row of a sealing: the first of its session. -/
def sealingRow (computed : String) : AuditEvent :=
  auditRow env 1 session .sealed session.totalBytes computed none none none

/-- The plan of the chunk at the frontier. -/
def forwardPlan : PutPlan :=
  let chunk := forwardChunk session start declaredLength chunkDigest payload
  let advanced := advancedSession session start declaredLength
  let computed := H (archived ++ payload)
  if start + declaredLength = session.totalBytes then
    if computed = session.wholeSha256 then
      let verified := sealedSession advanced computed
      if env.auditAccepted then
        .append verified true [.insertChunk chunk, .updateSession verified,
          .insertAudit (sealingRow env verified computed)]
      else .auditFailed [.insertChunk chunk]
    else
      let failed := failedSession advanced (some computed)
      .append failed true [.insertChunk chunk, .updateSession failed]
  else .append advanced false [.insertChunk chunk, .updateSession advanced]

/-- The bytes of the request are those archived at its span. -/
def Echoes : Prop :=
  start + declaredLength ≤ session.confirmedOffset ∧
    slice archived start (start + declaredLength) = payload

instance : Decidable (Echoes session start declaredLength payload archived) :=
  inferInstanceAs (Decidable (_ ∧ _))

/-- The plan of a put that passed its validation. -/
def admittedPlan : PutPlan :=
  if session.status = .active then
    if start = session.confirmedOffset ∧ 0 < declaredLength then
      forwardPlan H env session start declaredLength chunkDigest payload archived
    else if Echoes session start declaredLength payload archived then
      .replay (ack session start declaredLength chunkDigest true)
    else .refuse (.upload (staleOffsetError session start))
  else if 0 < declaredLength ∧ Echoes session start declaredLength payload archived then
    .replay (ack session start declaredLength chunkDigest true)
  else .refuse (.upload (terminalRefusal session start declaredLength))

end Decision

def putPlan (env : Env) (sessionId : String) (start declaredLength : Int) (chunkDigest : String)
    (payload : Bytes) (rows : SessionRows) : PutPlan :=
  match rows.row with
  | none => .refuse (.upload (sessionNotFound sessionId))
  | some session =>
    match putRefusal H session start declaredLength chunkDigest payload with
    | some exception => .refuse exception
    | none =>
      admittedPlan H env session start declaredLength chunkDigest payload (contentOf rows.chunks)

/-! ## What the plan stands for -/

namespace PutPlan

/-- How the transaction ends. -/
def ending (start declaredLength : Int) (chunkDigest : String) :
    PutPlan → Ending Store String DbError Raised Ack
  | .refuse exception => .raised exception
  | .replay body => .committed (.pure body)
  | .append ended finalized _ =>
    .committed (acknowledge ended finalized start declaredLength chunkDigest)
  | .auditFailed _ => .rolledBack (.raise (.upload auditWriteFailed))

/-- The writes sent before the transaction ends. -/
def sent : PutPlan → List Write
  | .refuse _ | .replay _ => []
  | .append _ _ writes => writes
  | .auditFailed discarded => discarded

/-- The writes that are committed. -/
def writes : PutPlan → List Write
  | .append _ _ writes => writes
  | _ => []

/-- The answer when no other client moves. -/
def answer (start declaredLength : Int) (chunkDigest : String) : PutPlan → Except Raised Ack
  | .refuse exception => .error exception
  | .replay body => .ok body
  | .append ended finalized _ =>
    if finalized ∧ ended.status = .failed then .error (.upload (wholeDigestMismatch ended))
    else .ok (ack ended start declaredLength chunkDigest false)
  | .auditFailed _ => .error (.upload auditWriteFailed)

end PutPlan

/-! ## Validation -/

variable {H}

/-- What a put that passed its validation satisfies. -/
theorem putRefusal_none {session : UploadSession} {start declaredLength : Int}
    {chunkDigest : String} {payload : Bytes} :
    putRefusal H session start declaredLength chunkDigest payload = none ↔
      0 ≤ start ∧ 0 ≤ declaredLength ∧ (payload.length : Int) = declaredLength ∧
        H payload = chunkDigest ∧ start + declaredLength ≤ session.totalBytes := by
  rw [putRefusal]
  split
  · simp; omega
  · split
    · simp; omega
    · split
      · simp; omega
      · split
        · rename_i differs
          simp [differs]
        · rename_i nonneg lengthNonneg size digest
          simp only [Decidable.not_not] at size digest
          split
          · simp; omega
          · simp [size, digest]; omega

variable (H) in
/-- The integers that the message of a refused put prints. -/
def putPrinted (session : UploadSession) (start declaredLength : Int) (chunkDigest : String)
    (payload : Bytes) : List Int :=
  if start < 0 ∨ declaredLength < 0 then []
  else if (payload.length : Int) ≠ declaredLength then [declaredLength, payload.length]
  else if H payload ≠ chunkDigest then [start]
  else if start + declaredLength > session.totalBytes then
    [start, start + declaredLength, session.totalBytes]
  else []

theorem UploadError.printing_cases (error : UploadError) (integers : List Int) :
    (integers.all printable = true ∧ error.printing integers = .upload error) ∨
      (integers.all printable = false ∧ error.printing integers = .valueError) := by
  rw [UploadError.printing]
  cases integers.all printable with
  | true => exact .inl ⟨rfl, rfl⟩
  | false => exact .inr ⟨rfl, rfl⟩

/-- A refusal is the error of a check, or a message that does not print. -/
theorem putRefusal_some {session : UploadSession} {start declaredLength : Int} {chunkDigest : String}
    {payload : Bytes} {exception : Raised}
    (refused : putRefusal H session start declaredLength chunkDigest payload = some exception) :
    ((putPrinted H session start declaredLength chunkDigest payload).all printable = true ∧
        ∃ error, exception = .upload error ∧
          error ∈ [invalidOffset start, invalidLength start declaredLength,
            lengthMismatch start declaredLength payload,
            chunkDigestMismatch start chunkDigest (H payload),
            chunkBeyondTotal session start (start + declaredLength)]) ∨
      ((putPrinted H session start declaredLength chunkDigest payload).all printable = false ∧
        exception = .valueError) := by
  rw [putRefusal] at refused
  rw [putPrinted]
  by_cases negative : start < 0
  · rw [if_pos negative] at refused
    rw [if_pos (.inl negative)]
    cases refused
    exact .inl ⟨rfl, _, rfl, by simp⟩
  by_cases short : declaredLength < 0
  · rw [if_neg negative, if_pos short] at refused
    rw [if_pos (.inr short)]
    cases refused
    exact .inl ⟨rfl, _, rfl, by simp⟩
  rw [if_neg negative, if_neg short] at refused
  rw [if_neg (not_or.mpr ⟨negative, short⟩)]
  -- the messages of the other checks print what was measured
  have printed : ∀ {error : UploadError} {integers : List Int},
      some (error.printing integers) = some exception →
        (integers.all printable = true ∧ exception = .upload error) ∨
          (integers.all printable = false ∧ exception = .valueError) := by
    intro error integers same
    rw [← Option.some.inj same]
    exact error.printing_cases integers
  split_ifs at refused ⊢
  · exact (printed refused).imp_left fun both => ⟨both.1, _, both.2, by simp⟩
  · exact (printed refused).imp_left fun both => ⟨both.1, _, both.2, by simp⟩
  · exact (printed refused).imp_left fun both => ⟨both.1, _, both.2, by simp⟩

/-- A put that passes its validation prints nothing. -/
theorem putPrinted_admitted {session : UploadSession} {start declaredLength : Int}
    {chunkDigest : String} {payload : Bytes}
    (admitted : putRefusal H session start declaredLength chunkDigest payload = none) :
    putPrinted H session start declaredLength chunkDigest payload = [] := by
  obtain ⟨lower, lengthNonneg, size, digest, within⟩ := putRefusal_none.mp admitted
  rw [putPrinted, if_neg (by omega), if_neg (by simp [size]), if_neg (by simp [digest]),
    if_neg (by omega)]

/-- A message that does not print is a refusal. -/
theorem putRefusal_unprinted {session : UploadSession} {start declaredLength : Int}
    {chunkDigest : String} {payload : Bytes}
    (long : (putPrinted H session start declaredLength chunkDigest payload).all printable = false) :
    putRefusal H session start declaredLength chunkDigest payload = some .valueError := by
  cases refused : putRefusal H session start declaredLength chunkDigest payload with
  | none =>
    rw [putPrinted_admitted refused] at long
    cases long
  | some exception =>
    obtain ⟨prints, -⟩ | ⟨-, rfl⟩ := putRefusal_some refused
    · rw [long] at prints
      cases prints
    · rfl

/-! ## The plan, case by case -/

section Equations

variable {env : Env} {sessionId : String} {start declaredLength : Int} {chunkDigest : String}
  {payload : Bytes} {rows : SessionRows} {session : UploadSession}

theorem putPlan_missing (missing : rows.row = none) :
    putPlan H env sessionId start declaredLength chunkDigest payload rows =
      .refuse (.upload (sessionNotFound sessionId)) := by
  simp only [putPlan, missing]

theorem putPlan_refused {exception : Raised} (found : rows.row = some session)
    (refused : putRefusal H session start declaredLength chunkDigest payload = some exception) :
    putPlan H env sessionId start declaredLength chunkDigest payload rows = .refuse exception := by
  simp only [putPlan, found, refused]

theorem putPlan_admitted (found : rows.row = some session)
    (admitted : putRefusal H session start declaredLength chunkDigest payload = none) :
    putPlan H env sessionId start declaredLength chunkDigest payload rows =
      admittedPlan H env session start declaredLength chunkDigest payload (contentOf rows.chunks) := by
  simp only [putPlan, found, admitted]

/-- Why a put is refused. -/
inductive PutRefused (H : Bytes → String) (sessionId : String) (start declaredLength : Int)
    (chunkDigest : String) (payload : Bytes) (row : Option UploadSession) : Raised → Prop where
  | missing : PutRefused H sessionId start declaredLength chunkDigest payload row
      (.upload (sessionNotFound sessionId))
  | invalid {session : UploadSession} {exception : Raised} (found : row = some session)
    (refused : putRefusal H session start declaredLength chunkDigest payload = some exception) :
    PutRefused H sessionId start declaredLength chunkDigest payload row exception
  | stale (session : UploadSession) :
    PutRefused H sessionId start declaredLength chunkDigest payload row
      (.upload (staleOffsetError session start))
  | terminal (session : UploadSession) :
    PutRefused H sessionId start declaredLength chunkDigest payload row
      (.upload (terminalRefusal session start declaredLength))

theorem putPlan_refuse {exception : Raised}
    (decided : putPlan H env sessionId start declaredLength chunkDigest payload rows =
      .refuse exception) :
    PutRefused H sessionId start declaredLength chunkDigest payload rows.row exception := by
  rw [putPlan] at decided
  split at decided
  · cases decided
    exact .missing
  · rename_i session found
    split at decided
    · rename_i refused
      cases decided
      exact .invalid found refused
    · rw [admittedPlan, forwardPlan] at decided
      -- the plan of a forward chunk refuses nothing
      split_ifs at decided <;> cases decided
      · exact .stale session
      · exact .terminal session

end Equations

/-! ## Replays on a terminal session -/

section Replay

variable {db : Store} {session : UploadSession} {audits : List AuditEvent}
  {start declaredLength : Int} {chunkDigest : String} {payload : Bytes}

theorem settle_archived (consistent : Consistent H session (db.rowsOf session.id).chunks audits)
    (lower : 0 ≤ start) (lengthNonneg : 0 ≤ declaredLength)
    (upper : start + declaredLength ≤ session.confirmedOffset) :
    (archivedBytes session.id start (start + declaredLength)).settle (.opened db) =
      (.returned (some (slice (contentOf (db.rowsOf session.id).chunks) start
        (start + declaredLength))), .opened db) := by
  have inOrder : db.chunksOf session.id = (db.rowsOf session.id).chunks := consistent.ordered
  have rows := consistent.contiguous
  rw [← inOrder] at rows ⊢
  rw [settle_archivedBytes rows lower (by omega), if_pos (.inr upper)]
  rfl

theorem settle_terminalReplay
    (consistent : Consistent H session (db.rowsOf session.id).chunks audits)
    (terminal : session.status ≠ .active) (lower : 0 ≤ start) (lengthNonneg : 0 ≤ declaredLength)
    (upper : start + declaredLength ≤ session.totalBytes) :
    (terminalReplay session start declaredLength chunkDigest payload).settle (.opened db) =
      if 0 < declaredLength ∧ Echoes session start declaredLength payload
          (contentOf (db.rowsOf session.id).chunks) then
        (.returned (ack session start declaredLength chunkDigest true), .opened db)
      else (.raised (.upload (terminalRefusal session start declaredLength)), .opened db) := by
  have complete := consistent.complete terminal
  rw [terminalReplay]
  by_cases positive : 0 < declaredLength
  · -- everything is confirmed, so the range is inside the archive
    rw [if_pos (by omega), Program.settle_bind,
      settle_archived consistent lower lengthNonneg (by omega)]
    by_cases same : slice (contentOf (db.rowsOf session.id).chunks) start
        (start + declaredLength) = payload
    · rw [if_pos ⟨positive, by omega, same⟩]
      simp only [same, if_true]
      rfl
    · rw [if_neg fun echoes => same echoes.2.2]
      simp only [Option.some.injEq, same, if_false]
      rfl
  · -- a terminal session takes no empty chunk for a replay
    rw [if_neg (by omega), if_neg fun echoes => positive echoes.1]
    rfl

end Replay

/-! ## The forward chunk -/

section Forward

variable {db : Store} {session : UploadSession} {env : Env} {start declaredLength : Int}
  {chunkDigest : String} {payload : Bytes}

/-- The request is a chunk that may be stored at the frontier of its session. -/
structure Forward (H : Bytes → String) (db : Store) (session : UploadSession)
    (start declaredLength : Int) (chunkDigest : String) (payload : Bytes) : Prop where
  found : db.session? session.id = some session
  consistent : Consistent H session (db.rowsOf session.id).chunks (db.rowsOf session.id).audits
  active : session.status = .active
  frontier : start = session.confirmedOffset
  positive : 0 < declaredLength
  size : (payload.length : Int) = declaredLength
  digest : H payload = chunkDigest
  within : start + declaredLength ≤ session.totalBytes

namespace Forward

variable (forward : Forward H db session start declaredLength chunkDigest payload)

include forward

theorem admitted : putRefusal H session start declaredLength chunkDigest payload = none := by
  have nonneg := forward.consistent.nonneg
  have frontier := forward.frontier
  have positive := forward.positive
  exact putRefusal_none.mpr ⟨by omega, by omega, forward.size, forward.digest, forward.within⟩

theorem intact : Intact H (forwardChunk session start declaredLength chunkDigest payload) where
  span := by simp only [forwardChunk]; omega
  size := forward.size
  digest := forward.digest.symm

theorem nonempty : (forwardChunk session start declaredLength chunkDigest payload).data ≠ [] := by
  have size := forward.size
  have positive := forward.positive
  rintro empty
  simp only [forwardChunk] at empty
  rw [empty] at size
  simp at size
  omega

theorem accepted : Write.Accepted
    [.insertChunk (forwardChunk session start declaredLength chunkDigest payload)] db := by
  have nonneg := forward.consistent.nonneg
  have inRange := forward.consistent.inRange
  have frontier := forward.frontier
  have positive := forward.positive
  have within := forward.within
  have fresh : ∀ chunk ∈ (db.rowsOf session.id).chunks,
      chunk.startOffset ≠ (forwardChunk session start declaredLength chunkDigest payload).startOffset := by
    -- every stored chunk ends at or before the frontier
    intro chunk member
    have inside := Layout.Tiles.within forward.consistent.tiles forward.consistent.fits member
    have fits := forward.consistent.fits chunk member
    have size := List.length_pos_iff.mpr (forward.consistent.nonempty chunk member)
    simp only [Layout.Fits, chunkLayout_data, chunkLayout_start, chunkLayout_stop] at inside fits
    simp only [forwardChunk]
    omega
  have starts : fitsBigint start := fitsBigint_of_nonneg (by omega) (by omega)
  have ends : fitsBigint (start + declaredLength) := fitsBigint_of_nonneg (by omega) (by omega)
  have length : fitsBigint declaredLength := fitsBigint_of_nonneg (by omega) (by omega)
  exact Write.accepted_cons
    (Write.accepts_insertChunk starts ends length forward.found fresh) (Write.accepted_nil _)

omit forward in
/-- The rows after the chunk is stored. -/
theorem rows : (Write.applyAll
      [.insertChunk (forwardChunk session start declaredLength chunkDigest payload)] db).rowsOf
        session.id =
    { db.rowsOf session.id with
      chunks := (db.rowsOf session.id).chunks ++
        [forwardChunk session start declaredLength chunkDigest payload] } :=
  rowsOf_insertChunk (forwardChunk session start declaredLength chunkDigest payload) db

theorem tiles : Tiles 0 ((db.rowsOf session.id).chunks ++
    [forwardChunk session start declaredLength chunkDigest payload]) (start + declaredLength) :=
  Layout.Tiles.snoc forward.consistent.tiles forward.frontier

theorem allIntact : ∀ chunk ∈ (db.rowsOf session.id).chunks ++
    [forwardChunk session start declaredLength chunkDigest payload], Intact H chunk := by
  intro chunk member
  obtain earlier | last := List.mem_append.mp member
  · exact forward.consistent.intact chunk earlier
  · rw [List.mem_singleton.mp last]
    exact forward.intact

theorem allNonempty : ∀ chunk ∈ (db.rowsOf session.id).chunks ++
    [forwardChunk session start declaredLength chunkDigest payload], chunk.data ≠ [] := by
  intro chunk member
  obtain earlier | last := List.mem_append.mp member
  · exact forward.consistent.nonempty chunk earlier
  · rw [List.mem_singleton.mp last]
    exact forward.nonempty

omit forward in
theorem content : contentOf ((db.rowsOf session.id).chunks ++
    [forwardChunk session start declaredLength chunkDigest payload]) =
      contentOf (db.rowsOf session.id).chunks ++ payload := by
  simp [contentOf, Layout.content, forwardChunk, chunkLayout]

/-- A row of the same session may replace it. -/
theorem updateSession_accepted (ended : UploadSession) (total : ended.totalBytes = session.totalBytes)
    (confirmed : ended.confirmedOffset = start + declaredLength) (data : Store) :
    (Write.updateSession ended).rejects data = none := by
  have nonneg := forward.consistent.nonneg
  have inRange := forward.consistent.inRange
  have frontier := forward.frontier
  have positive := forward.positive
  have within := forward.within
  exact Write.accepts_updateSession data (fitsBigint_of_nonneg (by omega) (by omega))
    (fitsBigint_of_nonneg (by omega) (by omega))

theorem noAudits : (db.rowsOf session.id).audits = [] :=
  (forward.consistent.whenActive forward.active).2.2

/-- The number of the sealing row is 1, and the database takes the row. -/
theorem sealing_accepted (env : Env) (last : start + declaredLength = session.totalBytes)
    (computed : String) :
    let stored := Write.applyAll
      [.insertChunk (forwardChunk session start declaredLength chunkDigest payload)] db
    let verified := sealedSession (advancedSession session start declaredLength) computed
    stored.maxSequence session.id + 1 = 1 ∧
      Write.Accepted [.updateSession verified, .insertAudit (sealingRow env verified computed)]
        stored := by
  intro stored verified
  have rows : stored.rowsOf session.id = _ := rows
  have found : stored.session? session.id = some session := by
    rw [← rowsOf_row, rows]
    exact forward.found
  -- an active session has no audit row yet
  have sequence : stored.maxSequence session.id = 0 := by
    rw [maxSequence_eq]
    exact SessionRows.maxSequence_empty (by rw [rows]; exact forward.noAudits)
  have updated : ((Write.updateSession verified).apply stored).rowsOf session.id =
      { stored.rowsOf session.id with row := some verified } := rowsOf_updateSession found
  have totalFits : fitsBigint session.totalBytes := forward.consistent.confirmedInRange.1
  have sealedRow : ((Write.updateSession verified).apply stored).session? session.id =
      some verified := by rw [← rowsOf_row, updated]
  have noAudits : (((Write.updateSession verified).apply stored).rowsOf session.id).audits = [] := by
    rw [updated, rows]
    exact forward.noAudits
  have inRange : (Write.insertAudit (sealingRow env verified computed)).outOfRange = false := by
    change (!(fitsBigint 1 && fitsBigint session.totalBytes && true && true && true)) = false
    rw [totalFits]
    decide
  have next : 1 = (((Write.updateSession verified).apply stored).rowsOf session.id).maxSequence + 1 := by
    rw [SessionRows.maxSequence_empty noAudits]
    rfl
  exact ⟨by rw [sequence]; rfl, Write.accepted_cons
    (forward.updateSession_accepted verified rfl last.symm _)
    (Write.accepted_cons (Write.accepts_insertAudit inRange sealedRow next) (Write.accepted_nil _))⟩

end Forward

/-- `_verify_and_finalize` once the last chunk is stored: the digest is that of the
    whole content. -/
theorem settle_verifyAndFinalize (env : Env)
    (forward : Forward H db session start declaredLength chunkDigest payload)
    (last : start + declaredLength = session.totalBytes) :
    let stored := (Connection.opened db).staged (Write.applyAll
      [.insertChunk (forwardChunk session start declaredLength chunkDigest payload)] db)
    let advanced := advancedSession session start declaredLength
    let computed := H (contentOf (db.rowsOf session.id).chunks ++ payload)
    let verified := sealedSession advanced computed
    let failed := failedSession advanced (some computed)
    let sealing := [.updateSession verified, .insertAudit (sealingRow env verified computed)]
    (verifyAndFinalize H env advanced).settle stored =
      if computed = session.wholeSha256 then
        if env.auditAccepted then
          (.returned (verified, []), stored.staged (Write.applyAll sealing stored.working))
        else (.rolledBack (.raise (.upload auditWriteFailed)), stored)
      else (.returned (failed, [.updateSession failed]), stored) := by
  intro stored advanced computed verified failed sealing
  have chunks : stored.working.chunksOf advanced.id = (db.rowsOf session.id).chunks ++
      [forwardChunk session start declaredLength chunkDigest payload] := by
    have rows : stored.working.rowsOf session.id = _ := Forward.rows
    rw [show advanced.id = session.id from rfl, chunksOf_eq, rows]
    exact byStartOffset_tiles forward.tiles (fits_of_intact forward.allIntact) forward.allNonempty
  -- what is hashed is read back from the rows, the new one among them
  have digest : finalDigest H (stored.working.chunksOf advanced.id) session.totalBytes =
      some computed := by
    rw [chunks, ← last, finalDigest_tiles H forward.tiles, Forward.content]
  rw [verifyAndFinalize, Program.settle_bind, Program.settle_select]
  simp only [show advanced.totalBytes = session.totalBytes from rfl, digest,
    show advanced.wholeSha256 = session.wholeSha256 from rfl]
  split
  · obtain ⟨first, accepted⟩ := forward.sealing_accepted env last computed
    cases taken : env.auditAccepted with
    | true =>
      have row : auditRow env (stored.working.maxSequence verified.id + 1) verified .sealed
          session.totalBytes computed none none none = sealingRow env verified computed := by
        rw [show stored.working.maxSequence verified.id + 1 = 1 from first]
        rfl
      rw [Program.settle_bind, settle_addAudit taken (by rw [row]; exact accepted), row]
      rfl
    | false =>
      rw [Program.settle_bind, settle_addAudit_refused (.inl taken)]
      rfl
  · rfl

/-- The frontier branch of `put_chunk`. -/
theorem settle_putForward
    (forward : Forward H db session start declaredLength chunkDigest payload) :
    let plan := forwardPlan H env session start declaredLength chunkDigest payload
      (contentOf (db.rowsOf session.id).chunks)
    (putForward H env session.id session start declaredLength chunkDigest payload).settle
        (.opened db) =
      (plan.ending start declaredLength chunkDigest,
        (Connection.opened db).staged (Write.applyAll plan.sent db)) := by
  intro plan
  rw [putForward, Program.settle_bind, settle_flush_accepted forward.accepted]
  simp only []
  by_cases last : start + declaredLength = session.totalBytes
  · rw [if_pos last, Program.settle_bind, Connection.opened_working,
      settle_verifyAndFinalize env forward last]
    by_cases same : H (contentOf (db.rowsOf session.id).chunks ++ payload) = session.wholeSha256
    · cases taken : env.auditAccepted with
      | true =>
        -- the package is sealed
        simp only [plan, forwardPlan, last, same, taken, if_true]
        rw [Program.settle_bind, settle_commit (Write.accepted_nil _)]
        rfl
      | false =>
        -- the audit row is refused, and everything is rolled back
        simp only [plan, forwardPlan, last, same, taken, if_true]
        rfl
    · -- the package fails
      simp only [plan, forwardPlan, last, same, if_true, if_false]
      rw [Program.settle_bind, settle_commit (Write.accepted_cons (forward.updateSession_accepted
        (failedSession (advancedSession session start declaredLength) _) rfl rfl _)
        (Write.accepted_nil _))]
      rfl
  · -- the session stays open
    rw [if_neg last, Program.settle_bind, settle_commit (Write.accepted_cons
      (forward.updateSession_accepted (advancedSession session start declaredLength) rfl rfl _)
      (Write.accepted_nil _))]
    simp only [plan, forwardPlan, if_neg last]
    rfl

end Forward

/-! ## The whole call -/

section Call

variable {env : Env} {sessionId : String} {start declaredLength : Int} {chunkDigest : String}
  {payload : Bytes} {db : Store}

theorem settle_putActive {session : UploadSession} (found : db.session? session.id = some session)
    (consistent : Consistent H session (db.rowsOf session.id).chunks (db.rowsOf session.id).audits)
    (active : session.status = .active)
    (admitted : putRefusal H session start declaredLength chunkDigest payload = none) :
    let plan := admittedPlan H env session start declaredLength chunkDigest payload
      (contentOf (db.rowsOf session.id).chunks)
    (putActive H env session.id session start declaredLength chunkDigest payload).settle
        (.opened db) =
      (plan.ending start declaredLength chunkDigest,
        (Connection.opened db).staged (Write.applyAll plan.sent db)) := by
  obtain ⟨lower, lengthNonneg, size, digest, within⟩ := putRefusal_none.mp admitted
  intro plan
  by_cases frontier : start = session.confirmedOffset ∧ 0 < declaredLength
  · -- the expected forward chunk
    have forward : Forward H db session start declaredLength chunkDigest payload :=
      ⟨found, consistent, active, frontier.1, frontier.2, size, digest, within⟩
    rw [putActive, if_pos (by omega), settle_putForward forward]
    simp only [plan, admittedPlan, active, frontier, and_self, if_true]
  · rw [putActive, if_neg (by omega)]
    by_cases empty : start = session.confirmedOffset ∧ start + declaredLength = session.confirmedOffset
    · -- a zero-length chunk at the frontier
      obtain rfl : declaredLength = 0 := by omega
      have noBytes : payload = [] := by simpa using size
      have echoes : Echoes session start 0 payload (contentOf (db.rowsOf session.id).chunks) := by
        refine ⟨by omega, ?_⟩
        rw [Int.add_zero, slice_empty, noBytes]
      rw [if_pos empty, Program.settle_bind, settle_commit (Write.accepted_nil _)]
      simp only [plan, admittedPlan, active, if_true, if_neg frontier, if_pos echoes]
      rfl
    · rw [if_neg empty]
      by_cases confirmed : start + declaredLength ≤ session.confirmedOffset
      · -- inside the confirmed range: the archived bytes decide
        rw [if_pos confirmed, Program.settle_bind,
          settle_archived consistent lower lengthNonneg confirmed]
        by_cases same : slice (contentOf (db.rowsOf session.id).chunks) start
            (start + declaredLength) = payload
        · have echoes : Echoes session start declaredLength payload
              (contentOf (db.rowsOf session.id).chunks) := ⟨confirmed, same⟩
          simp only [same, if_true, plan, admittedPlan, active,
            if_neg frontier, if_pos echoes]
          rw [Program.settle_bind, settle_commit (Write.accepted_nil _)]
          rfl
        · have differs : ¬ Echoes session start declaredLength payload
              (contentOf (db.rowsOf session.id).chunks) := fun echoes => same echoes.2
          simp only [Option.some.injEq, same, if_false, plan,
            admittedPlan, active, if_true, if_neg frontier, if_neg differs]
          rfl
      · -- a gap, or a chunk that only begins in the confirmed range
        have ahead : ¬ Echoes session start declaredLength payload
            (contentOf (db.rowsOf session.id).chunks) := fun echoes => confirmed echoes.1
        rw [if_neg confirmed]
        simp only [plan, admittedPlan, active, if_true, if_neg frontier, if_neg ahead]
        rfl

/-- The transaction of a put ends as its plan says. -/
theorem settle_putChunk (sound : RowsSound H (db.rowsOf sessionId)) :
    let plan := putPlan H env sessionId start declaredLength chunkDigest payload (db.rowsOf sessionId)
    (putChunk H env sessionId start declaredLength chunkDigest payload).settle (.opened db) =
      (plan.ending start declaredLength chunkDigest,
        (Connection.opened db).staged (Write.applyAll plan.sent db)) := by
  intro plan
  cases found : db.session? sessionId with
  | none =>
    rw [putChunk, Program.settle_bind, settle_getLockedSession_missing found,
      show plan = _ from putPlan_missing found]
    rfl
  | some session =>
    have consistent := sound.consistent found
    obtain rfl := session?_id found
    rw [putChunk, Program.settle_bind, settle_getLockedSession found]
    cases refused : putRefusal H session start declaredLength chunkDigest payload with
    | some error =>
      simp only [show plan = _ from putPlan_refused found refused, refused]
      rfl
    | none =>
      obtain ⟨lower, lengthNonneg, -, -, within⟩ := putRefusal_none.mp refused
      simp only [show plan = _ from putPlan_admitted found refused, refused]
      by_cases active : session.status = .active
      · rw [if_neg (by simp [active]), settle_putActive found consistent active refused]
      · rw [if_pos (by cases status : session.status <;> simp_all), Program.settle_bind,
          settle_terminalReplay consistent active lower lengthNonneg within]
        simp only [admittedPlan, if_neg active]
        by_cases echoes : 0 < declaredLength ∧ Echoes session start declaredLength payload
            (contentOf (db.rowsOf session.id).chunks)
        · simp only [if_pos echoes]
          rw [Program.settle_bind, settle_commit (Write.accepted_nil _)]
          rfl
        · simp only [if_neg echoes]
          rfl

end Call

end

end SeismicIngest
