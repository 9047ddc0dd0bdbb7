import SeismicIngest.Verified.Evolution

/-! # Delivery over an unreliable link

A package is registered by its length and digest.  As long as every put that passes
its checks carries the bytes of the package at its span, the archive is a prefix of
the package (`Carries`): puts may come late, twice, in any order and cut in any way.
Every call keeps this (`RowEffect.carries`), so the session seals and never fails,
and what a download returns is the package.
-/

namespace SeismicIngest

open Transaction Spans

section

variable (H : Bytes → String) (package : Bytes)

/-! ## The link -/

/-- A put to session `id` that passes its checks carries the bytes of the package at
    its span.  Every other call is free. -/
def Faithful (id : String) (call : Call) : Prop :=
  ∀ start declaredLength chunkDigest payload,
    call.request = .putChunk id start declaredLength chunkDigest payload →
      0 ≤ start → (payload.length : Int) = declaredLength → H payload = chunkDigest →
        start + declaredLength ≤ package.length →
          payload = slice package start (start + declaredLength)

/-- One faithful call. -/
def FaithfulStep (id : String) (before after : Store) : Prop :=
  ∃ call : Call, Faithful H package id call ∧ (call.serve H before).2 = after

/-- Some sequence of faithful calls. -/
def FaithfulRun (id : String) (before after : Store) : Prop :=
  Relation.ReflTransGen (FaithfulStep H package id) before after

/-- The session is registered for the package, has not failed, and archives a prefix
    of the package. -/
def Carries (rows : SessionRows) : Prop :=
  ∃ session, rows.row = some session ∧ session.totalBytes = package.length ∧
    session.wholeSha256 = H package ∧ session.status ≠ .failed ∧ contentOf rows.chunks <+: package

variable {H package}

/-! ## One call -/

/-- The next bytes of the package extend its archived prefix. -/
theorem prefix_extends {content payload : Bytes} {start declaredLength : Int}
    (archived : content <+: package) (frontier : start = content.length)
    (nonneg : 0 ≤ declaredLength)
    (carried : payload = slice package start (start + declaredLength)) :
    content ++ payload = package.take (start + declaredLength).toNat := by
  have front : content = package.take start.toNat := by
    rw [frontier, Int.toNat_natCast]
    exact List.prefix_iff_eq_take.mp archived
  have split := List.take_append_drop start.toNat (package.take (start + declaredLength).toNat)
  rw [List.take_take, Nat.min_eq_left (by omega), ← front] at split
  rw [carried, slice_of_nonneg _ (by omega) (by omega)]
  exact split

section Step

variable {call : Call} {db : Store} {id : String} {after : SessionRows}

/-- A faithful call keeps the archive a prefix of the package. -/
theorem RowEffect.carries (effect : RowEffect H call db id after)
    (faithful : Faithful H package id call) (carries : Carries H package (db.rowsOf id)) :
    Carries H package after := by
  obtain ⟨session, found, total, whole, alive, archived⟩ := carries
  cases effect with
  | unchanged => exact ⟨session, found, total, whole, alive, archived⟩
  | created request drawn taken =>
    -- the id is taken
    exact (taken.notFound drawn found).elim
  | stored request own forward outcome =>
    rename_i stored ended start declaredLength chunkDigest payload finalized writes
    subst own
    obtain rfl : stored = session := Option.some.inj (forward.found.symm.trans found)
    have length := forward.consistent.length
    have positive := forward.positive
    have frontier := forward.frontier
    have nonneg := forward.consistent.nonneg
    have within := forward.within
    rw [total] at within
    -- the chunk carries the bytes of the package at its offset
    have carried := faithful start declaredLength chunkDigest payload request (by omega)
      forward.size forward.digest within
    have extended := prefix_extends archived (by omega) (by omega) carried
    obtain ⟨-, sameTotal, sameWhole, confirmed⟩ := outcome.ended
    refine ⟨ended, rfl, sameTotal.trans total, sameWhole.trans whole, ?_, ?_⟩
    · obtain ⟨-, unchanged, -⟩ | ⟨last, -, ⟨-, isSealed⟩ | ⟨differs, -⟩⟩ := outcome.status
      · rw [unchanged]
        exact alive
      · simp [isSealed]
      · -- the last byte completes the package, whose digest is registered
        rw [extended, last, total, Int.toNat_natCast, List.take_length] at differs
        exact absurd whole.symm differs
    · rw [Forward.content, extended]
      exact List.take_prefix _ _
  | compacted request stored isSealed positive answered =>
    -- other rows, the same content
    obtain rfl := Option.some.inj (stored.symm.trans found)
    refine ⟨_, rfl, total, whole, alive, ?_⟩
    rw [plannedRows_content H id (contentOf (db.rowsOf id).chunks) positive]
    exact archived

/-- Only a put of the last byte ends an active session. -/
theorem RowEffect.ends {session ended : UploadSession} (effect : RowEffect H call db id after)
    (found : db.session? id = some session) (active : session.status = .active)
    (left : after.row = some ended) (terminal : ended.status ≠ .active) :
    ∃ start declaredLength chunkDigest payload,
      call.request = .putChunk id start declaredLength chunkDigest payload ∧
        Forward H db session start declaredLength chunkDigest payload ∧
          start + declaredLength = session.totalBytes := by
  cases effect with
  | unchanged =>
    obtain rfl : session = ended := Option.some.inj (found.symm.trans left)
    exact absurd active terminal
  | created request drawn taken =>
    -- the id is taken
    exact (taken.notFound drawn found).elim
  | stored request own forward outcome =>
    rename_i stored next start declaredLength chunkDigest payload finalized writes
    subst own
    obtain rfl : stored = session := Option.some.inj (forward.found.symm.trans found)
    obtain rfl : next = ended := Option.some.inj left
    refine ⟨start, declaredLength, chunkDigest, payload, request, forward, ?_⟩
    obtain ⟨-, unchanged, -⟩ | ⟨last, -⟩ := outcome.status
    · exact absurd (unchanged.trans active) terminal
    · exact last
  | compacted request stored isSealed positive answered =>
    -- only sealed sessions are compacted
    obtain rfl : _ = session := Option.some.inj (stored.symm.trans found)
    rw [active] at isSealed
    cases isSealed

end Step

/-! ## Every faithful run -/

theorem FaithfulRun.carries {id : String} {start db : Store} (sound : Sound H start)
    (run : FaithfulRun H package id start db) (carries : Carries H package (start.rowsOf id)) :
    Sound H db ∧ Carries H package (db.rowsOf id) := by
  induction run with
  | refl => exact ⟨sound, carries⟩
  | tail _ step inductionHypothesis =>
    obtain ⟨call, faithful, rfl⟩ := step
    obtain ⟨middle, carried⟩ := inductionHypothesis
    exact ⟨middle.serve call, (serve_rows middle call id).carries faithful carried⟩

/-- The confirmed offset tells a sealed session from an active one. -/
theorem sealed_iff_complete {session : UploadSession} {chunks : List Chunk} {audits : List AuditEvent}
    (consistent : Consistent H session chunks audits) (alive : session.status ≠ .failed) :
    session.status = .sealed ↔ session.confirmedOffset = session.totalBytes := by
  constructor
  · exact fun isSealed => (consistent.whenSealed isSealed).1
  · intro complete
    cases status : session.status with
    | active =>
      have open' := (consistent.whenActive status).1
      omega
    | sealed => rfl
    | failed => exact absurd status alive

/-- A creation that answers a session registers it, with no bytes archived. -/
theorem carries_of_created (nonempty : package ≠ []) {env : Env} {before start : Store}
    {session : UploadSession} (sound : Sound H before)
    (created : (createSession H env package.length (H package)).run before = (.ok session, start)) :
    Sound H start ∧ session.id = env.uuid ∧ Carries H package (start.rowsOf env.uuid) := by
  have nonzero : (package.length : Int) ≠ 0 := by simpa using nonempty
  obtain ⟨taken, run⟩ | ⟨-, error, -, run⟩ := run_createSession (H := H) env (H package)
    (sound.rows env.uuid) (Int.natCast_nonneg package.length)
  · have open' := @createdSession_open H env package.length (H package) nonzero
    have served := sound.serve ⟨env, .createSession package.length (H package)⟩
    rw [serve_createSession, created] at served
    rw [run] at created
    obtain rfl := congrArg Prod.snd created
    have answered := congrArg Prod.fst created
    simp only [creationAnswer, open', reduceCtorEq, if_false] at answered
    obtain rfl := Except.ok.inj answered
    have rows := rowsOf_creation (H := H) env (sound.rows _) taken.1
    rw [createdSession_id] at rows
    refine ⟨served, createdSession_id _ _ _, createdSession H env package.length (H package),
      congrArg SessionRows.row rows, createdSession_totalBytes _ _ _,
      createdSession_wholeSha256 _ _ _, ?_, ?_⟩
    · rw [open']
      simp
    · rw [congrArg SessionRows.chunks rows]
      exact List.nil_prefix
  · rw [run] at created
    cases created

/-! ## Downloads -/

/-- Every download of a sealed session that carries the package returns it. -/
theorem download_package {db : Store} {id : String} {session : UploadSession} (sound : Sound H db)
    (carries : Carries H package (db.rowsOf id)) (found : db.session? id = some session)
    (isSealed : session.status = .sealed) :
    (downloadContent H id []).run db = (.ok (wholeDownload session package), db) := by
  obtain ⟨stored, storedFound, total, -, -, archived⟩ := carries
  obtain rfl : stored = session := Option.some.inj (storedFound.symm.trans found)
  have consistent := sound.consistent found
  obtain rfl := session?_id found
  have ordered : db.chunksOf stored.id = (db.rowsOf stored.id).chunks := consistent.ordered
  have complete : contentOf (db.rowsOf stored.id).chunks = package := by
    refine archived.eq_of_length ?_
    have length := sealed_length consistent isSealed
    omega
  have certified : Certified H stored (db.chunksOf stored.id) := by
    rw [ordered]
    exact consistent.certified isSealed
  rw [run_download_certified found isSealed certified, ordered, complete]

/-! ## Sending the rest -/

variable (H) in
/-- The pieces of the rest of a package as consecutive puts, each with what its call
    draws. -/
def sendPieces (id : String) : Int → List (Env × Bytes) → List Call
  | _, [] => []
  | start, (env, piece) :: pieces =>
    ⟨env, .putChunk id start piece.length (H piece) piece⟩ ::
      sendPieces id (start + piece.length) pieces

variable (H) in
/-- The answers to a sequence of calls. -/
def answersOf : List Call → Store → List (Except Raised Reply)
  | [], _ => []
  | call :: calls, db => (call.serve H db).1 :: answersOf calls (call.serve H db).2

variable (H) in
/-- A piece is acknowledged as a forward chunk, and is confirmed to its end. -/
def PieceAccepted (piece : Env × Bytes) (answer : Except Raised Reply) : Prop :=
  ∃ body, answer = .ok (.ack body) ∧ body.idempotentReplay = false ∧
    body.length = piece.2.length ∧ body.chunkSha256 = H piece.2 ∧
    body.confirmedOffset = body.startOffset + piece.2.length

/-- The next piece of the package is accepted, and seals the session when nothing
    remains. -/
theorem piece_accepted {db : Store} {id : String} {session : UploadSession} (sound : Sound H db)
    (carries : Carries H package (db.rowsOf id)) (found : db.session? id = some session)
    (active : session.status = .active) {env : Env} {piece rest : Bytes} (nonempty : piece ≠ [])
    (accepted : env.auditAccepted = true)
    (remaining : package.drop session.confirmedOffset.toNat = piece ++ rest) :
    let call : Call := ⟨env, .putChunk id session.confirmedOffset piece.length (H piece) piece⟩
    let after := (call.serve H db).2
    PieceAccepted H (env, piece) (call.serve H db).1 ∧ Carries H package (after.rowsOf id) ∧
      ∃ ended, after.session? id = some ended ∧
        ended.confirmedOffset = session.confirmedOffset + piece.length ∧
        ended.status = if rest = [] then .sealed else .active := by
  intro call after
  have consistent := sound.consistent found
  obtain ⟨stored, storedFound, total, whole, -, archived⟩ := carries
  obtain rfl : stored = session := Option.some.inj (storedFound.symm.trans found)
  obtain rfl := session?_id found
  have nonneg := consistent.nonneg
  have positive := List.length_pos_iff.mpr nonempty
  have counted := congrArg List.length remaining
  rw [List.length_drop, List.length_append] at counted
  have forward : Forward H db stored stored.confirmedOffset piece.length (H piece) piece :=
    ⟨found, consistent, active, rfl, by omega, rfl, rfl, by omega⟩
  -- the piece is the next part of the package
  have carried : piece = slice package stored.confirmedOffset
      (stored.confirmedOffset + piece.length) := by
    rw [slice_of_nonneg _ nonneg (by omega), List.drop_take, remaining,
      show (stored.confirmedOffset + piece.length).toNat - stored.confirmedOffset.toNat =
        piece.length by omega, List.take_left]
  have faithful : Faithful H package stored.id call := by
    rintro start declaredLength chunkDigest payload request - - - -
    cases request
    exact carried
  have extended : contentOf (db.rowsOf stored.id).chunks ++ piece =
      package.take (stored.confirmedOffset + piece.length).toNat :=
    prefix_extends archived consistent.length.symm (by omega) carried
  have kept : Carries H package (after.rowsOf stored.id) := by
    have before : Carries H package (db.rowsOf stored.id) :=
      ⟨stored, found, total, whole, by simp [active], archived⟩
    exact (serve_rows sound call stored.id).carries faithful before
  -- the accepted audit rules out a rollback at the last byte
  have served : call.serve H db = _ := serve_putChunk stored.id stored.confirmedOffset piece.length
    (H piece) piece
  obtain ⟨ended, finalized, writes, audits, outcome, answered, left⟩ | ⟨-, -, refused, -⟩ :=
    forward.served env stored.confirmedOffset piece.length (H piece) piece
  · have endedFound : after.session? stored.id = some ended := by
      simp only [after, served]
      exact congrArg SessionRows.row left
    obtain ⟨-, -, -, confirmed⟩ := outcome.ended
    have status : ended.status = if rest = [] then .sealed else .active := by
      obtain ⟨more, unchanged, -⟩ | ⟨last, -, ⟨-, isSealed⟩ | ⟨differs, -⟩⟩ := outcome.status
      · rw [if_neg, unchanged, active]
        rintro rfl
        simp only [List.length_nil] at counted
        omega
      · rw [if_pos, isSealed]
        exact List.length_eq_zero_iff.mp (by omega)
      · rw [extended, last, total, Int.toNat_natCast, List.take_length] at differs
        exact absurd whole.symm differs
    have alive : ended.status ≠ .failed := by
      rw [status]
      split <;> simp
    refine ⟨⟨ack ended stored.confirmedOffset piece.length (H piece) false, ?_, rfl, rfl, rfl,
      confirmed⟩, kept, ended, endedFound, confirmed, status⟩
    rw [served, answered, if_neg alive]
    rfl
  · rw [accepted] at refused
    cases refused

/-- The rest of the package, cut into consecutive pieces that are not empty, is
    accepted piece by piece, and seals the session. -/
theorem pieces_accepted {id : String} {pieces : List (Env × Bytes)}
    (filled : ∀ piece ∈ pieces, piece.2 ≠ [] ∧ piece.1.auditAccepted = true) {db : Store}
    {session : UploadSession} (sound : Sound H db) (carries : Carries H package (db.rowsOf id))
    (found : db.session? id = some session) (active : session.status = .active)
    (remaining : package.drop session.confirmedOffset.toNat = (pieces.map Prod.snd).flatten) :
    let calls := sendPieces H id session.confirmedOffset pieces
    List.Forall₂ (PieceAccepted H) pieces (answersOf H calls db) ∧
      ∃ ended, (serveAll H calls db).session? id = some ended ∧ ended.status = .sealed := by
  induction pieces generalizing db session with
  | nil =>
    -- an active session misses a byte
    obtain ⟨stored, storedFound, total, -⟩ := carries
    obtain rfl : stored = session := Option.some.inj (storedFound.symm.trans found)
    have consistent := sound.consistent found
    have open' := (consistent.whenActive active).1
    have nonneg := consistent.nonneg
    have missing := congrArg List.length remaining
    simp only [List.length_drop, List.map_nil, List.flatten_nil, List.length_nil] at missing
    omega
  | cons head pieces inductionHypothesis =>
    obtain ⟨env, piece⟩ := head
    have first := filled (env, piece) List.mem_cons_self
    obtain ⟨answered, carried, ended, endedFound, confirmed, status⟩ :=
      piece_accepted sound carries found active first.1 first.2 remaining
    have later :=
      sound.serve ⟨env, .putChunk id session.confirmedOffset piece.length (H piece) piece⟩
    by_cases last : (pieces.map Prod.snd).flatten = []
    · -- the other pieces would be empty
      have none : pieces = [] := by
        cases pieces with
        | nil => rfl
        | cons next others =>
          have nonempty := (filled next (by simp)).1
          simp [nonempty] at last
      subst none
      refine ⟨.cons answered .nil, ended, endedFound, ?_⟩
      rw [status, if_pos last]
    · rw [if_neg last] at status
      have rest : package.drop ended.confirmedOffset.toNat = (pieces.map Prod.snd).flatten := by
        have nonneg := (sound.consistent found).nonneg
        rw [confirmed, show (session.confirmedOffset + piece.length).toNat =
          session.confirmedOffset.toNat + piece.length by omega, ← List.drop_drop, remaining,
          List.map_cons, List.flatten_cons, List.drop_left]
      have others := inductionHypothesis
        (fun piece member => filled piece (List.mem_cons_of_mem _ member)) later carried endedFound
        status rest
      rw [confirmed] at others
      exact ⟨.cons answered others.1, others.2⟩

/-! ## The delivery -/

variable (H package) in
/-- Where the delivery of a package stands when its session is `current`. -/
structure Delivering (db : Store) (current : UploadSession) : Prop where
  registered : current.totalBytes = package.length ∧ current.wholeSha256 = H package
  archived : contentOf (db.chunksOf current.id) = slice package 0 current.confirmedOffset
  alive : current.status ≠ .failed
  complete : current.status = .sealed ↔ current.confirmedOffset = package.length
  /-- The session is sealed by the put that confirms the last byte. -/
  sealing : ∀ call next, Faithful H package current.id call →
    (call.serve H db).2.session? current.id = some next → current.status = .active →
      next.status = .sealed →
        ∃ declaredLength chunkDigest payload body,
          call.request = .putChunk current.id current.confirmedOffset declaredLength chunkDigest payload ∧
            current.confirmedOffset + declaredLength = package.length ∧
            (call.serve H db).1 = .ok (.ack body) ∧ body.status = .sealed ∧
            body.confirmedOffset = package.length
  download : current.status = .sealed → ∀ later, Later H db later →
    ∃ response, ((downloadContent H current.id []).run later).1 = .ok response ∧
      response.body = package
  completes : current.status = .active → ∀ pieces : List (Env × Bytes),
    (∀ piece ∈ pieces, piece.2 ≠ [] ∧ piece.1.auditAccepted = true) →
      (pieces.map Prod.snd).flatten = package.drop current.confirmedOffset.toNat →
        let calls := sendPieces H current.id current.confirmedOffset pieces
        List.Forall₂ (PieceAccepted H) pieces (answersOf H calls db) ∧
          ∃ ended, (serveAll H calls db).session? current.id = some ended ∧ ended.status = .sealed

section Current

variable {db : Store} {current : UploadSession} (sound : Sound H db)
  (carries : Carries H package (db.rowsOf current.id))
  (found : db.session? current.id = some current)

include sound carries found

theorem sealing_put {call : Call} {next : UploadSession} (faithful : Faithful H package current.id call)
    (nextFound : (call.serve H db).2.session? current.id = some next)
    (active : current.status = .active) (isSealed : next.status = .sealed) :
    ∃ declaredLength chunkDigest payload body,
      call.request = .putChunk current.id current.confirmedOffset declaredLength chunkDigest payload ∧
        current.confirmedOffset + declaredLength = package.length ∧
        (call.serve H db).1 = .ok (.ack body) ∧ body.status = .sealed ∧
        body.confirmedOffset = package.length := by
  obtain ⟨start, declaredLength, chunkDigest, payload, request, forward, last⟩ :=
    (serve_rows sound call current.id).ends found active nextFound (by simp [isSealed])
  obtain ⟨stored, storedFound, total, -⟩ := carries
  obtain rfl : stored = current := Option.some.inj (storedFound.symm.trans found)
  obtain ⟨env, _⟩ := call
  obtain rfl : _ = Request.putChunk _ _ _ _ _ := request
  have frontier := forward.frontier
  have served : (Call.mk env (.putChunk stored.id start declaredLength chunkDigest payload)).serve H db =
    _ := serve_putChunk stored.id start declaredLength chunkDigest payload
  obtain ⟨ended, finalized, writes, audits, outcome, answered, left⟩ | ⟨-, -, -, unchanged⟩ :=
    forward.served env start declaredLength chunkDigest payload
  · rw [served] at nextFound
    obtain rfl : ended = next :=
      Option.some.inj ((congrArg SessionRows.row left).symm.trans nextFound)
    obtain ⟨-, -, -, confirmed⟩ := outcome.ended
    subst frontier
    refine ⟨declaredLength, chunkDigest, payload,
      ack ended stored.confirmedOffset declaredLength chunkDigest false, rfl,
      by omega, ?_, isSealed, confirmed.trans (by omega)⟩
    rw [served, answered, if_neg (by simp [isSealed])]
    rfl
  · -- a refused audit row leaves the session active
    rw [served, unchanged] at nextFound
    obtain rfl := Option.some.inj (found.symm.trans nextFound)
    rw [active] at isSealed
    cases isSealed

/-- A sealed package is downloaded whole at every later time. -/
theorem download_later (isSealed : current.status = .sealed) {later : Store}
    (happened : Later H db later) :
    (downloadContent H current.id []).run later = (.ok (wholeDownload current package), later) := by
  obtain ⟨ended, endedFound, evolves⟩ := evolves_of_later sound happened found
  obtain ⟨rfl, same⟩ := evolves.frozen (by simp [isSealed])
  obtain ⟨stored, storedFound, total, whole, alive, archived⟩ := carries
  obtain rfl : stored = ended := Option.some.inj (storedFound.symm.trans found)
  exact download_package (sound.later happened)
    ⟨stored, endedFound, total, whole, alive, same ▸ archived⟩ endedFound isSealed

end Current

/-- From a successful creation for the package, every faithful run delivers it. -/
theorem delivery_over_unreliable_link (nonempty : package ≠ []) {before start : Store}
    (reachable : Reachable H before) {env : Env} {session : UploadSession}
    (created : (createSession H env package.length (H package)).run before = (.ok session, start))
    {db : Store} (run : FaithfulRun H package session.id start db) :
    ∃ current, db.session? session.id = some current ∧ Delivering H package db current := by
  obtain ⟨startSound, drawn, registered⟩ := carries_of_created nonempty reachable.sound created
  rw [← drawn] at registered
  obtain ⟨sound, carries⟩ := run.carries startSound registered
  -- from here on everything is read off `Carries` and the invariant of the store
  have ⟨current, found, total, whole, alive, archived⟩ := carries
  have own : current.id = session.id := session?_id found
  rw [← own] at carries found archived ⊢
  have consistent := sound.consistent found
  have ordered : db.chunksOf current.id = (db.rowsOf current.id).chunks := consistent.ordered
  refine ⟨current, found, ?_⟩
  exact {
    registered := ⟨total, whole⟩
    archived := by
      rw [ordered, slice_front _ consistent.nonneg, ← consistent.length, Int.toNat_natCast]
      exact List.prefix_iff_eq_take.mp archived
    alive := alive
    complete := by
      rw [← total]
      exact sealed_iff_complete consistent alive
    sealing := fun call next faithful nextFound active isSealed =>
      sealing_put sound carries found faithful nextFound active isSealed
    download := fun isSealed later happened =>
      ⟨_, congrArg Prod.fst (download_later sound carries found isSealed happened), rfl⟩
    completes := fun active pieces filled remaining =>
      pieces_accepted filled sound carries found active remaining.symm }

/-- Three bytes, of which the first two have arrived twice. -/
theorem delivery_over_unreliable_link_resent :
    let digest : Bytes → String := fun _ => "d"
    let start := serveAll digest [⟨⟨"s", 0, true⟩, .createSession 3 "d"⟩] Store.empty
    let put : Call := ⟨⟨"", 0, true⟩, .putChunk "s" 0 2 "d" [1, 2]⟩
    let db := serveAll digest [put, put] start
    let session : UploadSession := ⟨"s", 3, "d", 0, .active, none, none, 0⟩
    ∃ current, db.session? session.id = some current ∧
      Delivering digest [1, 2, 3] db current := by
  intro digest start put db session
  have faithful : Faithful digest [1, 2, 3] "s" put := by
    rintro begin declaredLength chunkDigest payload request - - - -
    cases request
    decide
  have run : FaithfulRun digest [1, 2, 3] session.id start db :=
    (Relation.ReflTransGen.single ⟨put, faithful, rfl⟩).tail ⟨put, faithful, rfl⟩
  exact delivery_over_unreliable_link (by decide) (.refl : Reachable digest Store.empty)
    (show (createSession digest ⟨"s", 0, true⟩ 3 "d").run Store.empty = (.ok session, start) by decide)
    run

end

end SeismicIngest
