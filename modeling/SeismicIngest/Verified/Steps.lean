import SeismicIngest.Verified.Creations
import SeismicIngest.Verified.Comparisons
import SeismicIngest.Verified.Writers
import SeismicIngest.Model.Service

/-! # One call

`RowEffect` lists everything one call can do to the rows of one session, and
`serve_rows` says that nothing else happens.  Every result about runs is derived
from it: the invariant holds of every reachable store (`Reachable.sound`), and a
property of the rows of a session that survives every `RowEffect` survives every
run (`Later.rows_induction`).
-/

namespace SeismicIngest

open Transaction Spans

/-! ## Reads -/

section Reads

variable {H : Bytes → String}

theorem getSessionRow_quiet (id : String) : (getSessionRow id).Quiet := by
  refine (Program.Quiet.select _).bind fun found => ?_
  cases found <;> exact trivial

theorem listPage_quiet (scan : ScanOrder) (matching : UploadSession → Bool) (limit offset : Int) :
    (listPage scan matching limit offset).Quiet := by
  refine (Program.Quiet.select _).bind fun rows => ?_
  split <;> exact trivial

theorem listSessions_quiet (scan : ScanOrder) (status : Option String) (limit offset : Int) :
    (listSessions scan status limit offset).Quiet := by
  cases status with
  | none => exact listPage_quiet _ _ _ _
  | some text =>
    cases named : statusNamed text with
    | none =>
      simp only [listSessions, named]
      trivial
    | some status =>
      simp only [listSessions, named]
      exact listPage_quiet _ _ _ _

theorem verifiedSealedBytes_quiet (session : UploadSession) (begin stop : Int) :
    (verifiedSealedBytes H session begin stop).Quiet :=
  (Program.Quiet.select _).bind fun _ => Program.Quiet.lift _

theorem downloadContent_quiet (id : String) (rangeValues : List String) :
    (downloadContent H id rangeValues).Quiet := by
  refine (getSessionRow_quiet id).bind fun session => ?_
  split
  · trivial
  · match rangeValues with
    | [] => exact (verifiedSealedBytes_quiet _ _ _).bind fun _ => trivial
    | [_] =>
      exact (Program.Quiet.lift _).bind fun _ =>
        (verifiedSealedBytes_quiet _ _ _).bind fun _ => trivial
    | _ :: _ :: _ => trivial

theorem getAuditTrail_quiet (id : String) : (getAuditTrail id).Quiet := by
  refine (Program.Quiet.select _).bind fun found => ?_
  cases found with
  | none => trivial
  | some _ => exact Program.Quiet.select _

theorem getComparison_quiet (id : String) : (getComparison id).Quiet := by
  refine (Program.Quiet.select _).bind fun found => ?_
  cases found <;> exact trivial

end Reads

/-- The request only reads. -/
def Request.reads : Request → Bool
  | .createSession _ _ | .putChunk _ _ _ _ _ | .compactSealed _ _ | .createComparison _ _ => false
  | _ => true

theorem Call.program_quiet {H : Bytes → String} {call : Call} (reads : call.request.reads = true) :
    (call.program H).Quiet := by
  have named : ∀ {α : Type} (wrap : α → Reply) {program : Db α}, program.Quiet →
      (wrap <$> program).Quiet := fun _ _ quiet => quiet.bind fun _ => trivial
  rw [Call.program]
  cases request : call.request with
  | createSession _ _ | putChunk _ _ _ _ _ | compactSealed _ _ | createComparison _ _ =>
    rw [request] at reads
    cases reads
  | getSession id => exact named _ ((getSessionRow_quiet id).bind fun _ => trivial)
  | listSessions scan status limit offset => exact named _ (listSessions_quiet _ _ _ _)
  | listChunks id =>
    exact named _ ((getSessionRow_quiet id).bind fun _ => (Program.Quiet.select _).bind fun _ => trivial)
  | getAuditTrail id => exact named _ (getAuditTrail_quiet id)
  | downloadContent id rangeValues => exact named _ (downloadContent_quiet id rangeValues)
  | getComparison id => exact named _ (getComparison_quiet id)

section

variable {H : Bytes → String}

/-! ## What a call does to one session -/

variable (H) in
/-- What one call can do to the rows stored under `id`. -/
inductive RowEffect (call : Call) (db : Store) (id : String) : SessionRows → Prop where
  | unchanged : RowEffect call db id (db.rowsOf id)
  | created {totalBytes : Nat} {wholeSha256 : String}
    (request : call.request = .createSession totalBytes wholeSha256) (drawn : call.env.uuid = id)
    (taken : CreationTaken call.env (createdSession H call.env totalBytes wholeSha256) db) :
    RowEffect call db id
      ⟨some (createdSession H call.env totalBytes wholeSha256), [],
        creationAudits H call.env (createdSession H call.env totalBytes wholeSha256)⟩
  | stored {session ended : UploadSession} {start declaredLength : Int} {chunkDigest : String}
    {payload : Bytes} {finalized : Bool} {writes : List Write}
    (request : call.request = .putChunk id start declaredLength chunkDigest payload)
    (own : session.id = id) (forward : Forward H db session start declaredLength chunkDigest payload)
    (outcome : ForwardOutcome H call.env session start declaredLength
      (contentOf (db.rowsOf id).chunks ++ payload)
      (forwardChunk session start declaredLength chunkDigest payload)
      (.append ended finalized writes)) :
    RowEffect call db id
      ⟨some ended,
        (db.rowsOf id).chunks ++ [forwardChunk session start declaredLength chunkDigest payload],
        (db.rowsOf id).audits ++ if ended.status = .sealed ∧ finalized then
          [sealingRow call.env ended (H (contentOf (db.rowsOf id).chunks ++ payload))] else []⟩
  | compacted {session : UploadSession} {target : Int} {row : AuditEvent}
    (request : call.request = .compactSealed id target) (found : db.session? id = some session)
    (isSealed : session.status = .sealed) (positive : 0 < target)
    (answered : (call.serve H db).1 = .ok (.compacted (compacted H session target (db.rowsOf id).chunks
      (contentOf (db.rowsOf id).chunks)))) :
    RowEffect call db id
      ⟨some session, plannedRows H id (contentOf (db.rowsOf id).chunks) target,
        (db.rowsOf id).audits ++ [row]⟩

section Serve

variable {env : Env} {db : Store}

theorem serve_createSession (totalBytes : Nat) (wholeSha256 : String) :
    (Call.mk env (.createSession totalBytes wholeSha256)).serve H db =
      (((createSession H env totalBytes wholeSha256).run db).1.map .session,
        ((createSession H env totalBytes wholeSha256).run db).2) :=
  Program.run_map _ _ _

theorem serve_putChunk (sessionId : String) (start declaredLength : Int) (chunkDigest : String)
    (payload : Bytes) :
    (Call.mk env (.putChunk sessionId start declaredLength chunkDigest payload)).serve H db =
      (((putChunk H env sessionId start declaredLength chunkDigest payload).run db).1.map .ack,
        ((putChunk H env sessionId start declaredLength chunkDigest payload).run db).2) :=
  Program.run_map _ _ _

theorem serve_compactSealed (sessionId : String) (target : Int) :
    (Call.mk env (.compactSealed sessionId target)).serve H db =
      (((compactSealed H env sessionId target).run db).1.map .compacted,
        ((compactSealed H env sessionId target).run db).2) :=
  Program.run_map _ _ _

theorem serve_createComparison (baselineSessionId candidateSessionId : String) :
    (Call.mk env (.createComparison baselineSessionId candidateSessionId)).serve H db =
      (((createComparison H env baselineSessionId candidateSessionId).run db).1.map .comparison,
        ((createComparison H env baselineSessionId candidateSessionId).run db).2) :=
  Program.run_map _ _ _

end Serve

/-! ### The effect of each call -/

section Effects

variable {db : Store} (sound : ∀ id, RowsSound H (db.rowsOf id)) (env : Env) (id : String)

include sound

theorem createSession_rows (totalBytes : Nat) (wholeSha256 : String) :
    RowEffect H ⟨env, .createSession totalBytes wholeSha256⟩ db id
      (((Call.mk env (.createSession totalBytes wholeSha256)).serve H db).2.rowsOf id) := by
  rw [serve_createSession]
  obtain ⟨taken, run⟩ | ⟨-, error, -, run⟩ :=
    run_createSession (H := H) env wholeSha256 (sound env.uuid) (Int.natCast_nonneg totalBytes)
  · rw [run]
    by_cases drawn : env.uuid = id
    · subst drawn
      have rows := rowsOf_creation env (sound _) taken.1
      rw [createdSession_id] at rows
      rw [rows]
      exact .created rfl rfl taken
    · -- another id was drawn
      rw [Write.rowsOf_applyAll_other creationWrites_own
        (by rw [createdSession_id]; exact Ne.symm drawn)]
      exact .unchanged
  · rw [run]
    exact .unchanged

theorem putChunk_rows (sessionId : String) (start declaredLength : Int) (chunkDigest : String)
    (payload : Bytes) :
    RowEffect H ⟨env, .putChunk sessionId start declaredLength chunkDigest payload⟩ db id
      (((Call.mk env (.putChunk sessionId start declaredLength chunkDigest payload)).serve H
        db).2.rowsOf id) := by
  rw [serve_putChunk]
  by_cases own : id = sessionId
  · subst own
    rw [run_putChunk env start declaredLength chunkDigest payload (sound id)]
    obtain ⟨error, decided⟩ | ⟨session, -, -, -, -, decided⟩ | ⟨session, found, forward, decided⟩ :=
      putPlan_cases env start declaredLength chunkDigest payload (sound id)
    · rw [decided]
      exact .unchanged
    · rw [decided]
      exact .unchanged
    · obtain rfl := session?_id found
      have outcome := forward.outcome env
      rw [decided]
      obtain ⟨ended, finalized, writes, appended, -, rows⟩ | failed := outcome.rows found rfl
      · rw [appended] at outcome ⊢
        simp only [PutPlan.writes, rows]
        exact .stored rfl rfl forward outcome
      · rw [failed]
        exact .unchanged
  · -- a put stays on its own session
    have frame := sessionView_rows ((putChunk_local (H := H) sessionRowView env start declaredLength chunkDigest
      payload).run_frame own db)
    rw [frame]
    exact .unchanged

theorem compactSealed_rows (sessionId : String) (target : Int) :
    RowEffect H ⟨env, .compactSealed sessionId target⟩ db id
      (((Call.mk env (.compactSealed sessionId target)).serve H db).2.rowsOf id) := by
  have served := @serve_compactSealed H env db sessionId target
  rw [served]
  by_cases own : id = sessionId
  · subst own
    have run := run_compactSealed (H := H) env target (sound id).inRange
    obtain ⟨error, decided⟩ | ⟨session, found, isSealed, positive, decided⟩ :=
      compactPlan_cases env target (sound id)
    · rw [run, decided]
      exact .unchanged
    · have consistent := (sound id).consistent found
      obtain rfl := session?_id found
      have rows := acceptedPlan_rows found consistent isSealed env target
      rw [run, decided, rows]
      rw [run, decided, acceptedPlan] at served
      split
      · rename_i taken
        rw [if_pos taken] at served
        exact .compacted rfl found isSealed positive (congrArg Prod.fst served)
      · exact .unchanged
  · -- and so does a compaction
    have frame := sessionView_rows ((compactSealed_local (H := H) sessionRowView env target).run_frame own db)
    rw [frame]
    exact .unchanged

omit sound in
theorem createComparison_rows (baselineSessionId candidateSessionId : String) :
    RowEffect H ⟨env, .createComparison baselineSessionId candidateSessionId⟩ db id
      (((Call.mk env (.createComparison baselineSessionId candidateSessionId)).serve H db).2.rowsOf
        id) := by
  rw [serve_createComparison]
  obtain same | ⟨row, inserted⟩ :=
    createComparison_store (H := H) env db baselineSessionId candidateSessionId
  · rw [same]
    exact .unchanged
  · rw [inserted]
    exact .unchanged

end Effects

/-- Nothing else happens to the rows of a session. -/
theorem serve_rows {db : Store} (sound : Sound H db) (call : Call) (id : String) :
    RowEffect H call db id ((call.serve H db).2.rowsOf id) := by
  obtain ⟨env, request⟩ := call
  have reading : request.reads = true →
      RowEffect H ⟨env, request⟩ db id (((Call.mk env request).serve H db).2.rowsOf id) := by
    intro reads
    rw [Call.serve, (Call.program_quiet reads).run_data]
    exact .unchanged
  cases request with
  | createSession totalBytes wholeSha256 => exact createSession_rows sound.rows env id _ _
  | putChunk sessionId start declaredLength chunkDigest payload =>
    exact putChunk_rows sound.rows env id _ _ _ _ _
  | compactSealed sessionId target => exact compactSealed_rows sound.rows env id _ _
  | createComparison baseline candidate => exact createComparison_rows env id _ _
  | getSession _ | listSessions _ _ _ _ | listChunks _ | getAuditTrail _ | downloadContent _ _
  | getComparison _ => exact reading rfl

/-! ## The invariant of every reachable store -/

theorem RowEffect.sound {call : Call} {db : Store} {id : String} {after : SessionRows}
    (effect : RowEffect H call db id after) (sound : Sound H db) : RowsSound H after := by
  cases effect with
  | unchanged => exact sound.rows id
  | created request drawn taken =>
    refine RowsSound.of_consistent rfl (createdSession_consistent _ _ _ ?_ ?_)
    · exact Int.natCast_nonneg _
    · simpa using taken.2.1
  | stored request own forward outcome =>
    subst own
    have stored := outcome.sound forward
    obtain ⟨ended, finalized, writes, appended, -, rows⟩ | failed := outcome.rows forward.found rfl
    · cases appended
      rw [PutPlan.writes, rows] at stored
      exact stored
    · cases failed
  | compacted request found isSealed positive answered =>
    have consistent := sound.consistent found
    obtain rfl := session?_id found
    exact RowsSound.of_consistent rfl (consistent.planned isSealed positive)

theorem ForwardOutcome.existing {env : Env} {session : UploadSession} {start declaredLength : Int}
    {archived : Bytes} {chunk : Chunk} {plan : PutPlan}
    (outcome : ForwardOutcome H env session start declaredLength archived chunk plan) :
    ∀ write ∈ plan.writes, write.creates = false := by
  cases outcome <;> simp [PutPlan.writes, Write.creates]

theorem acceptedPlan_existing (env : Env) (session : UploadSession) (target : Int)
    (old : List Chunk) (sequence : Int) (buffer : Bytes) :
    ∀ write ∈ (acceptedPlan H env session target old sequence buffer).writes,
      write.creates = false := by
  intro write member
  -- a rewrite deletes and inserts chunks, and the audit row comes last
  have changes : ∀ write ∈ rewriteWrites H session target old buffer, write.creates = false := by
    intro write member
    obtain ⟨chunk, rfl | rfl⟩ := rewriteWrites_chunks member <;> rfl
  rw [acceptedPlan] at member
  split at member
  · obtain change | audit := List.mem_append.mp member
    · split at change
      · cases change
      · exact changes write change
    · rw [List.mem_singleton.mp audit]
      rfl
  · cases member

/-- Sessions are never removed, and a new one has an unused id. -/
theorem serve_ids {db : Store} (sound : Sound H db) (call : Call) :
    ((call.serve H db).2.uploadSessions.map UploadSession.id).Nodup := by
  have kept : ∀ {after : Store}, after.uploadSessions.map UploadSession.id =
      db.uploadSessions.map UploadSession.id → (after.uploadSessions.map UploadSession.id).Nodup :=
    fun same => by rw [same]; exact sound.ids
  obtain ⟨env, request⟩ := call
  have reading : request.reads = true →
      (((Call.mk env request).serve H db).2.uploadSessions.map UploadSession.id).Nodup := by
    intro reads
    rw [Call.serve, (Call.program_quiet reads).run_data]
    exact sound.ids
  cases request with
  | createSession totalBytes wholeSha256 =>
    rw [serve_createSession]
    obtain ⟨taken, run⟩ | ⟨-, error, -, run⟩ :=
      run_createSession (H := H) env wholeSha256 (sound.rows env.uuid) (Int.natCast_nonneg totalBytes)
    · -- the drawn id was unused
      rw [run]
      refine sound.ids_create taken.1 fun write member => ?_
      obtain ⟨row, -, rfl⟩ := List.mem_map.mp member
      rfl
    · rw [run]
      exact sound.ids
  | putChunk sessionId start declaredLength chunkDigest payload =>
    rw [serve_putChunk, run_putChunk env start declaredLength chunkDigest payload
      (sound.rows sessionId)]
    obtain ⟨error, decided⟩ | ⟨session, -, -, -, -, decided⟩ | ⟨session, found, forward, decided⟩ :=
      putPlan_cases env start declaredLength chunkDigest payload (sound.rows sessionId)
    · rw [decided]
      exact sound.ids
    · rw [decided]
      exact sound.ids
    · obtain rfl := session?_id found
      rw [decided]
      exact kept (ids_applyAll (forward.outcome env).existing db)
  | compactSealed sessionId target =>
    rw [serve_compactSealed, run_compactSealed env target (sound.rows sessionId).inRange]
    obtain ⟨error, decided⟩ | ⟨session, found, isSealed, positive, decided⟩ :=
      compactPlan_cases env target (sound.rows sessionId)
    · rw [decided]
      exact sound.ids
    · rw [decided]
      exact kept (ids_applyAll (acceptedPlan_existing _ _ _ _ _ _) db)
  | createComparison baseline candidate =>
    rw [serve_createComparison]
    obtain same | ⟨row, inserted⟩ := createComparison_store (H := H) env db baseline candidate
    · rw [same]
      exact sound.ids
    · rw [inserted]
      exact sound.ids
  | getSession _ | listSessions _ _ _ _ | listChunks _ | getAuditTrail _ | downloadContent _ _
  | getComparison _ => exact reading rfl

theorem Sound.serve {db : Store} (sound : Sound H db) (call : Call) : Sound H (call.serve H db).2 where
  ids := serve_ids sound call
  rows := fun id => (serve_rows sound call id).sound sound

theorem Sound.later {before after : Store} (sound : Sound H before) (later : Later H before after) :
    Sound H after := by
  induction later with
  | refl => exact sound
  | tail _ step inductionHypothesis =>
    obtain ⟨call, rfl⟩ := step
    exact inductionHypothesis.serve call

theorem Reachable.sound {db : Store} (reachable : Reachable H db) : Sound H db :=
  Sound.empty.later reachable

/-- A relation on the rows of a session that is reflexive, transitive and kept by
    every call holds along every run. -/
theorem Later.rows_induction {relation : SessionRows → SessionRows → Prop} {id : String}
    (refl : ∀ rows, relation rows rows)
    (trans : ∀ first second third, relation first second → relation second third →
      relation first third)
    (effect : ∀ {call db after}, Sound H db → RowEffect H call db id after →
      relation (db.rowsOf id) after)
    {before after : Store} (sound : Sound H before) (later : Later H before after) :
    Sound H after ∧ relation (before.rowsOf id) (after.rowsOf id) := by
  induction later with
  | refl => exact ⟨sound, refl _⟩
  | tail _ step inductionHypothesis =>
    obtain ⟨call, rfl⟩ := step
    obtain ⟨middle, related⟩ := inductionHypothesis
    exact ⟨middle.serve call, trans _ _ _ related (effect middle (serve_rows middle call id))⟩

end

end SeismicIngest
