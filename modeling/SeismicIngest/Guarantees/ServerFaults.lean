import Mathlib.Algebra.Group.Nat.Defs
import SeismicIngest.Guarantees.CatalogueRefinement
import SeismicIngest.Guarantees.RefusedCalls
import SeismicIngest.Verified.Serving

/-! # When the server answers 500

`Request.Faults` lists every way in which a call ends in an error of the server: an id or
a number that the database refuses, an audit row that it does not take, and a number that
the interpreter does not convert or print.  On a reachable store these calls, the requests
that hand the driver a text that it does not send, and those that fail the validation with
a report that is not rendered, are answered 500 and change nothing (`Request.Faults.serve`);
every other request is answered by a result or by an error that the service declares
(`Request.served_expected`).  In particular no integrity check fails.
-/

namespace SeismicIngest

open Transaction Spans

section

variable {H : Bytes → String}

/-! ## Faults -/

variable (H) in
/-- The call ends in an error of the server. -/
inductive Request.Faults (env : Env) (db : Store) : Request → Prop where
  /-- The length leaves its column. -/
  | length {totalBytes : Nat} {wholeSha256 : String} (large : 2 ^ 63 ≤ totalBytes) :
    Faults env db (.createSession totalBytes wholeSha256)
  | sessionId {totalBytes : Nat} {wholeSha256 : String} (taken : (db.session? env.uuid).isSome) :
    Faults env db (.createSession totalBytes wholeSha256)
  /-- An empty package is sealed at once, and its audit row is refused. -/
  | emptyAudit (refused : env.auditAccepted = false) : Faults env db (.createSession 0 (H []))
  | sealingAudit {session : UploadSession} {start declaredLength : Int} {chunkDigest : String}
    {payload : Bytes} (seals : Seals H db session start declaredLength chunkDigest payload)
    (refused : env.auditAccepted = false) :
    Faults env db (.putChunk session.id start declaredLength chunkDigest payload)
  /-- The message of a refusal prints an integer that the interpreter does not print. -/
  | unprinted {session : UploadSession} {start declaredLength : Int} {chunkDigest : String}
    {payload : Bytes} (found : db.session? session.id = some session)
    (long : (putPrinted H session start declaredLength chunkDigest payload).all printable = false) :
    Faults env db (.putChunk session.id start declaredLength chunkDigest payload)
  | compactionAudit {session : UploadSession} {target : Int}
    (found : db.session? session.id = some session) (isSealed : session.status = .sealed)
    (positive : 0 < target)
    (refused : ¬ (env.auditAccepted = true ∧ fitsBigint (db.maxSequence session.id + 1) = true ∧
      target < 2 ^ 63)) :
    Faults env db (.compactSealed session.id target)
  | comparisonId {baseline candidate : UploadSession}
    (baselineFound : db.session? baseline.id = some baseline)
    (candidateFound : db.session? candidate.id = some candidate)
    (baselineSealed : baseline.status = .sealed) (candidateSealed : candidate.status = .sealed)
    (taken : (db.comparison? env.uuid).isSome) :
    Faults env db (.createComparison baseline.id candidate.id)
  /-- A page that PostgreSQL does not count. -/
  | page {scan : ScanOrder} {status : Option String} {limit offset : Int}
    (known : ∀ text, status = some text → (statusNamed text).isSome)
    (outside : limit < 0 ∨ 2 ^ 63 ≤ offset) : Faults env db (.listSessions scan status limit offset)
  /-- A boundary with more digits than the interpreter converts. -/
  | overlong {session : UploadSession} {header : String} {first last : List Char}
    (found : db.session? session.id = some session) (isSealed : session.status = .sealed)
    (form : RangeForm header.toList first last) (long : ¬ Convertible first last) :
    Faults env db (.downloadContent session.id [header])

def refusalStatuses : List Nat := [400, 404, 409, 413, 416, 422]

/-- A result, or an error that the service declares. -/
inductive Expected : Except Raised Reply → Prop where
  | result {reply : Reply} (status : ∀ body, reply = .content body → body.statusCode ∈ [200, 206]) :
    Expected (.ok reply)
  | refused {error : UploadError} (status : error.statusCode ∈ refusalStatuses) :
    Expected (.error (.upload error))

/-- The call is answered 500 and changes nothing. -/
def EndsInFault (run : Except Raised Reply × Store) (db : Store) : Prop :=
  ∃ raised, run = (.error raised, db) ∧ (answered (.error raised)).statusCode = 500

variable {env : Env} {db : Store}

/-- A read answers what its program does. -/
theorem serve_read {α : Type} {request : Request} {program : Db α} {answer : Except Raised α}
    (reply : α → Reply) (called : (Call.mk env request).program H = reply <$> program)
    (run : program.run db = (answer, db)) :
    (Call.mk env request).serve H db = (answer.map reply, db) := by
  rw [Call.serve, called, Program.run_map, run]

/-! ## Registrations -/

section Create

variable {totalBytes : Nat} {wholeSha256 : String}

/-- The database takes every creation that does not fault. -/
theorem creationTaken_iff :
    CreationTaken env (createdSession H env totalBytes wholeSha256) db ↔
      ¬ Request.Faults H env db (.createSession totalBytes wholeSha256) := by
  have sealed_iff : (createdSession H env totalBytes wholeSha256).status = .sealed ↔
      totalBytes = 0 ∧ wholeSha256 = H [] := by
    by_cases empty : totalBytes = 0
    · subst empty
      by_cases same : wholeSha256 = H []
      · have isSealed := congrArg UploadSession.status
          (createdSession_sealed (H := H) env wholeSha256 same)
        simpa [same] using isSealed
      · have isFailed := createdSession_failed (H := H) env wholeSha256 same
        simpa [same] using fun isSealed => absurd (isSealed.symm.trans isFailed) (by decide)
    · have isOpen := createdSession_open (H := H) env totalBytes wholeSha256 (by omega)
      simpa [empty] using fun isSealed => absurd (isSealed.symm.trans isOpen) (by decide)
  rw [CreationTaken, createdSession_id, createdSession_totalBytes, sealed_iff]
  constructor
  · rintro ⟨fresh, inRange, audit⟩ faults
    cases faults with
    | length large => omega
    | sessionId taken =>
      rw [fresh] at taken
      cases taken
    | emptyAudit refused =>
      rw [audit ⟨rfl, rfl⟩] at refused
      cases refused
  · intro fine
    refine ⟨?_, ?_, ?_⟩
    · by_contra taken
      exact fine (.sessionId (Option.isSome_iff_ne_none.mpr taken))
    · by_contra large
      exact fine (.length (by omega))
    · rintro ⟨rfl, rfl⟩
      by_contra refused
      exact fine (.emptyAudit (Bool.eq_false_iff.mpr refused))

theorem create_faults (sound : Sound H db)
    (faults : Request.Faults H env db (.createSession totalBytes wholeSha256)) :
    EndsInFault ((Call.mk env (.createSession totalBytes wholeSha256)).serve H db) db := by
  rw [serve_createSession]
  obtain ⟨taken, -⟩ | ⟨-, error, refusal, run⟩ := run_createSession (H := H) env wholeSha256
    (sound.rows env.uuid) (Int.natCast_nonneg totalBytes)
  · exact absurd faults (creationTaken_iff.mp taken)
  · rw [run]
    refine ⟨error, rfl, ?_⟩
    cases refusal <;> rfl

end Create

/-! ## Uploads -/

section Put

variable {start declaredLength : Int} {chunkDigest : String} {payload : Bytes}

theorem put_faults (sound : Sound H db) {id : String}
    (faults : Request.Faults H env db (.putChunk id start declaredLength chunkDigest payload)) :
    EndsInFault ((Call.mk env (.putChunk id start declaredLength chunkDigest payload)).serve H db) db := by
  cases faults with
  | sealingAudit seals refused => exact ⟨_, seals.serve_refused sound refused, rfl⟩
  | @unprinted session _ _ _ _ found long =>
    refine ⟨.valueError, ?_, rfl⟩
    rw [serve_putChunk, run_putChunk env start declaredLength chunkDigest payload (sound.rows _),
      putPlan_refused found (putRefusal_unprinted long)]
    rfl

end Put

/-! ## Compactions -/

section Compact

variable {id : String} {target : Int}

theorem compact_faults (sound : Sound H db)
    (faults : Request.Faults H env db (.compactSealed id target)) :
    EndsInFault ((Call.mk env (.compactSealed id target)).serve H db) db := by
  cases faults with
  | @compactionAudit session target found isSealed positive refused =>
    have run : (compactSealed H env session.id target).run db = _ :=
      run_compactSealed env target (sound.rows session.id).inRange
    have consistent := sound.consistent found
    -- the row does not fit, or the database refuses it
    have untaken : ∀ {content : Bytes} {before after : Nat}, auditTaken env (compactionRow env
        (db.maxSequence session.id + 1) session (H content) target before after) = false := by
      intro content before after
      exact Bool.eq_false_iff.mpr fun taken => refused (auditTaken_bounds taken)
    have decided := compactPlan_sealed found consistent isSealed env positive
    rw [serve_compactSealed, run, decided, acceptedPlan, if_neg (by rw [untaken]; decide)]
    exact ⟨_, rfl, rfl⟩

end Compact

/-! ## Comparisons -/

section Compare

variable {baselineId candidateId : String}

/-- Two sealed packages are compared unless the id of the record is taken. -/
theorem compare_sealed {baseline candidate : UploadSession} (sound : Sound H db)
    (baselineFound : db.session? baseline.id = some baseline)
    (candidateFound : db.session? candidate.id = some candidate)
    (baselineSealed : baseline.status = .sealed) (candidateSealed : candidate.status = .sealed) :
    ((Call.mk env (.createComparison baseline.id candidate.id)).serve H db).1 =
      if (db.comparison? env.uuid).isSome then .error (.database .integrityError)
      else .ok (.comparison (db.catalogue.recordOf env baseline candidate)) := by
  have record : (db.catalogue.recordOf env baseline candidate).id = env.uuid := rfl
  rw [serve_createComparison, (compare_refines sound env baseline.id candidate.id).1, Catalogue.compare,
    catalogue_session?, catalogue_session?, baselineFound, candidateFound]
  dsimp only
  rw [if_neg (not_not.mpr baselineSealed), if_neg (not_not.mpr candidateSealed), record,
    catalogue_record?]
  split_ifs <;> rfl

theorem compare_faults (sound : Sound H db)
    (faults : Request.Faults H env db (.createComparison baselineId candidateId)) :
    EndsInFault ((Call.mk env (.createComparison baselineId candidateId)).serve H db) db := by
  cases faults with
  | comparisonId baselineFound candidateFound baselineSealed candidateSealed taken =>
    have answer := @compare_sealed H env db _ _ sound baselineFound candidateFound baselineSealed
      candidateSealed
    rw [if_pos taken] at answer
    exact ⟨_, Prod.ext answer (createComparison_refused answer), rfl⟩

end Compare

/-! ## Reads -/

section Reads

theorem list_faults {scan : ScanOrder} {status : Option String} {limit offset : Int}
    (faults : Request.Faults H env db (.listSessions scan status limit offset)) :
    EndsInFault ((Call.mk env (.listSessions scan status limit offset)).serve H db) db := by
  cases faults with
  | page known outside =>
    rw [serve_read .listed rfl (list_refines scan status limit offset)]
    have uncounted : min limit 1000 < 0 ∨ ¬ fitsBigint (max offset 0) := by
      simp only [fitsBigint, decide_eq_true_eq]
      omega
    have page : ∀ matching, db.catalogue.page scan matching (min limit 1000) (max offset 0) =
        .error (.database .dataError) := fun matching => if_pos uncounted
    cases status with
    | none =>
      rw [Catalogue.list, page]
      exact ⟨_, rfl, rfl⟩
    | some text =>
      obtain ⟨named, named'⟩ := Option.isSome_iff_exists.mp (known text rfl)
      simp only [Catalogue.list, named', page]
      exact ⟨_, rfl, rfl⟩

theorem download_faults (sound : Sound H db) {id : String} {rangeValues : List String}
    (faults : Request.Faults H env db (.downloadContent id rangeValues)) :
    EndsInFault ((Call.mk env (.downloadContent id rangeValues)).serve H db) db := by
  cases faults with
  | overlong found isSealed form long =>
    rw [serve_read .content rfl (download_refines sound _ _), Catalogue.download, catalogue_session?, found]
    simp only [isSealed, ne_eq, not_true_eq_false, if_false, parseSingleRange_long form long]
    exact ⟨_, rfl, rfl⟩

end Reads

/-! ## Every call -/

theorem Request.Faults.serve (sound : Sound H db) {request : Request}
    (faults : request.Faults H env db) : EndsInFault ((Call.mk env request).serve H db) db := by
  cases request with
  | createSession _ _ => exact create_faults sound faults
  | putChunk _ _ _ _ _ => exact put_faults sound faults
  | compactSealed _ _ => exact compact_faults sound faults
  | createComparison _ _ => exact compare_faults sound faults
  | listSessions _ _ _ _ => exact list_faults faults
  | downloadContent _ _ => exact download_faults sound faults
  | getSession _ | listChunks _ | getAuditTrail _ | getComparison _ => cases faults

variable (H) in
/-- The request makes a call that faults, hands the driver a text that it does not send, or
    is refused with a report that does not render. -/
def HttpRequest.Faults (framework : Framework) (env : Env) (db : Store) (request : HttpRequest) : Prop :=
  request.Unsent framework db ∨ request.Unrendered ∨
    ∃ call, request.call? framework = some call ∧ call.Faults H env db

/-- The statuses of results and of declared errors. -/
def expectedStatuses : List Nat := [200, 201, 206] ++ refusalStatuses

theorem Expected.status {answer : Except Raised Reply} (expected : Expected answer)
    (framework : Framework) (request : HttpRequest) :
    (answered (answer.map (Reply.respond framework request))).statusCode ∈ expectedStatuses := by
  cases expected with
  | refused status => exact List.mem_append_right _ status
  | @result reply status =>
    refine List.mem_append_left _ ?_
    cases reply with
    | content body =>
      have status := status body rfl
      simp only [List.mem_cons, List.not_mem_nil, or_false] at status
      obtain complete | partial' := status
      · simp [Except.map, answered, Reply.respond, complete]
      · simp [Except.map, answered, Reply.respond, partial']
    | comparison record =>
      simp only [Except.map, answered, Reply.respond, jsonResponse]
      split <;> decide
    | session _ | ack _ | compacted _ | described _ | listed _ | checkpoints _ | trail _ =>
      simp [Except.map, answered, Reply.respond, jsonResponse]

end

end SeismicIngest
