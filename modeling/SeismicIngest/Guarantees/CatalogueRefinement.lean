import SeismicIngest.Abstract.Catalogue
import SeismicIngest.Guarantees.AppendLogRefinement
import SeismicIngest.Guarantees.Comparing
import SeismicIngest.Guarantees.Delivery
import SeismicIngest.Guarantees.Isolation
import SeismicIngest.Guarantees.SessionPages
import SeismicIngest.Verified.RangeHeader

/-! # The service refines the catalogue

`Store.catalogue` forgets the chunk rows and the audit rows of a store.  On every
reachable store each call answers as on its catalogue, to the last character of a
message, and leaves the catalogue that the call leaves there (`call_refines`).  So no
call but those that report rows can tell how the bytes are cut into rows, and dropping
all compactions from a run changes no other answer (`layouts_indistinguishable`).
-/

namespace SeismicIngest

open Transaction Spans

section

variable {H : Bytes → String}

/-! ## The abstraction -/

def Store.catalogue (db : Store) : Catalogue where
  sessions := db.uploadSessions
  content := fun id => contentOf (db.rowsOf id).chunks
  records := db.comparisons

theorem catalogue_session? (db : Store) (id : String) : db.catalogue.session? id = db.session? id :=
  rfl

theorem catalogue_record? (db : Store) (id : String) :
    db.catalogue.record? id = db.comparison? id := rfl

/-- A run of a program is one of an operation of the catalogue. -/
def RunsAs {α : Type} (run : Except Raised α × Store) (step : Except Raised α × Catalogue) : Prop :=
  run.1 = step.1 ∧ run.2.catalogue = step.2

section Rows

variable {env : Env} {totalBytes : Nat} {wholeSha256 : String} {session : UploadSession}

theorem newSession_eq : newSession H env totalBytes wholeSha256 =
    createdSession H env totalBytes wholeSha256 := by
  rw [newSession, createdSession, lifecycle, emptySha256]
  by_cases empty : totalBytes = 0
  · subst empty
    by_cases same : wholeSha256 = H []
    · subst same
      simp
    · simp [same, Ne.symm same]
  · have positive : 0 < totalBytes := by omega
    simp [positive, empty]

/-- The session of a package that grows within its total. -/
theorem grownSession_eq {start declaredLength : Int} {content : Bytes}
    (confirmed : (content.length : Int) = start + declaredLength)
    (within : start + declaredLength ≤ session.totalBytes) :
    grownSession H session content =
      if start + declaredLength = session.totalBytes then
        if H content = session.wholeSha256 then
          sealedSession (advancedSession session start declaredLength) (H content)
        else failedSession (advancedSession session start declaredLength) (some (H content))
      else advancedSession session start declaredLength := by
  rw [grownSession, lifecycle, confirmed]
  by_cases last : start + declaredLength = session.totalBytes
  · by_cases same : H content = session.wholeSha256
    · simp [last, same, sealedSession, advancedSession]
    · simp [last, same, failedSession, advancedSession]
  · have more : start + declaredLength < session.totalBytes := by omega
    simp [more, last, advancedSession]

end Rows

/-! ## Registrations -/

section Create

variable {db : Store} {env : Env} {totalBytes : Nat} {wholeSha256 : String} {session : UploadSession}

variable (db) in
/-- The database refuses a new row as the catalogue does. -/
theorem insertSession_rejects (nonneg : 0 ≤ session.totalBytes) (start : session.confirmedOffset = 0) :
    (Write.insertSession session).rejects db = db.catalogue.registrationError session := by
  have zero : fitsBigint 0 = true := fitsBigint_of_nonneg (by omega) (by omega)
  rw [Write.rejects, Write.outOfRange, start, zero, Catalogue.registrationError, catalogue_session?]
  by_cases inRange : session.totalBytes < 2 ^ 63
  · have fits := fitsBigint_of_nonneg nonneg inRange
    have small : ¬ session.totalBytes ≥ 2 ^ 63 := by omega
    simp only [fits, small, Write.violates, Bool.and_self, Bool.not_true, Bool.false_eq_true, if_false]
    rfl
  · have outside : fitsBigint session.totalBytes = false := by
      simp only [fitsBigint, decide_eq_false_iff_not]
      omega
    have large : session.totalBytes ≥ 2 ^ 63 := by omega
    simp only [outside, large, Bool.false_and, Bool.not_false, if_true]

/-- Audit rows are not in the catalogue. -/
theorem catalogue_insertAudits (db : Store) (audits : List AuditEvent) :
    (Write.applyAll (audits.map .insertAudit) db).catalogue = db.catalogue := by
  refine Write.applyAll_keeps Store.catalogue ?_ db
  intro write member db
  obtain ⟨row, -, rfl⟩ := List.mem_map.mp member
  rfl

/-- The tables with one more session. -/
theorem catalogue_insertSession (db : Store) (session : UploadSession) (audits : List AuditEvent) :
    (Write.applyAll (.insertSession session :: audits.map .insertAudit) db).catalogue =
      { db.catalogue with sessions := db.catalogue.sessions ++ [session] } := by
  rw [Write.applyAll_cons, catalogue_insertAudits]
  rfl

theorem create_refines (sound : Sound H db) :
    RunsAs ((createSession H env totalBytes wholeSha256).run db)
      (db.catalogue.create H env totalBytes wholeSha256) := by
  have length := createdSession_totalBytes (H := H) env totalBytes wholeSha256
  have start := createdSession_confirmedOffset (H := H) env totalBytes wholeSha256
  have nonneg : 0 ≤ (createdSession H env totalBytes wholeSha256).totalBytes := by omega
  have rejects := insertSession_rejects db nonneg start
  have taken := rejects_insertSession (createdSession H env totalBytes wholeSha256) db nonneg start
  have own : RowsSound H (db.rowsOf (createdSession H env totalBytes wholeSha256).id) := sound.rows _
  rw [rejects] at taken
  rw [Catalogue.create, newSession_eq]
  by_cases empty : totalBytes = 0
  · subst empty
    by_cases same : wholeSha256 = emptySha256 H
    · have isSealed : (createdSession H env (0 : Nat) wholeSha256).status = .sealed :=
        congrArg UploadSession.status (createdSession_sealed env wholeSha256 same)
      have shape : createSession H env (0 : Nat) wholeSha256 = _ :=
        createSession_sealing env wholeSha256 same
      simp only [isSealed]
      rw [shape]
      obtain ⟨registered, run⟩ | ⟨refused, run⟩ := run_createSealed env own length start isSealed
      · rw [taken.mpr ⟨registered.1, registered.2.1⟩, registered.2.2 isSealed]
        refine ⟨congrArg Prod.fst run, ?_⟩
        exact (congrArg (fun run => Store.catalogue run.2) run).trans (catalogue_insertSession db _ _)
      · have answer : RunsAs ((createSealed H env (createdSession H env (0 : Nat) wholeSha256)).run db)
            (.error (.upload auditWriteFailed), db.catalogue) := by
          rw [run]
          exact ⟨rfl, rfl⟩
        cases verdict : db.catalogue.registrationError (createdSession H env (0 : Nat) wholeSha256) with
        | some error => exact answer
        | none =>
          -- then it is the audit row that is refused
          have audit : env.auditAccepted ≠ true := fun accepted =>
            refused ⟨(taken.mp verdict).1, (taken.mp verdict).2, fun _ => accepted⟩
          simp only [audit, Bool.false_eq_true, if_false]
          exact answer
    · have isFailed : (createdSession H env (0 : Nat) wholeSha256).status = .failed :=
        createdSession_failed env wholeSha256 same
      have shape : createSession H env (0 : Nat) wholeSha256 = _ :=
        createSession_failing env wholeSha256 same
      simp only [isFailed]
      rw [shape]
      obtain ⟨fresh, inRange, run⟩ | ⟨-, error, refused, run⟩ := run_insertSession _
        (fun _ => Db.refuse (wholeDigestMismatchAtCreation H wholeSha256)) nonneg start
      · rw [taken.mpr ⟨fresh, inRange⟩]
        exact ⟨congrArg Prod.fst run, (congrArg (fun run => Store.catalogue run.2) run).trans
          (catalogue_insertSession db _ [])⟩
      · rw [rejects] at refused
        rw [refused]
        exact ⟨congrArg Prod.fst run, congrArg (fun run => Store.catalogue run.2) run⟩
  · have isOpen : (createdSession H env totalBytes wholeSha256).status = .active :=
      createdSession_open env totalBytes wholeSha256 (by omega)
    have shape : createSession H env totalBytes wholeSha256 = _ :=
      createSession_opening env wholeSha256 (by omega)
    simp only [isOpen]
    rw [shape]
    obtain ⟨fresh, inRange, run⟩ | ⟨-, error, refused, run⟩ := run_insertSession _
      (fun _ => Db.refresh (createdSession H env totalBytes wholeSha256)) nonneg start
    · have stored := rowsOf_insertSession_fresh own fresh
      rw [run_refresh (congrArg SessionRows.row stored)] at run
      rw [taken.mpr ⟨fresh, inRange⟩]
      exact ⟨congrArg Prod.fst run, (congrArg (fun run => Store.catalogue run.2) run).trans
        (catalogue_insertSession db _ [])⟩
    · rw [rejects] at refused
      rw [refused]
      exact ⟨congrArg Prod.fst run, congrArg (fun run => Store.catalogue run.2) run⟩

end Create

/-! ## Uploads -/

section Put

variable {db : Store} {env : Env} {session ended : UploadSession} {start declaredLength : Int}
  {chunkDigest : String} {payload : Bytes}

/-- The tables with one more chunk, and the session row that counts it. -/
theorem catalogue_forward (own : ended.id = session.id) (audits : List AuditEvent) :
    (Write.applyAll (.insertChunk (forwardChunk session start declaredLength chunkDigest payload) ::
        .updateSession ended :: audits.map .insertAudit) db).catalogue =
      db.catalogue.replace session.id ended (contentOf (db.rowsOf session.id).chunks ++ payload) := by
  rw [Write.applyAll_cons, Write.applyAll_cons, catalogue_insertAudits]
  simp only [Store.catalogue, Catalogue.replace, Write.apply, own, Catalogue.mk.injEq, true_and,
    and_true]
  funext id
  by_cases same : id = session.id
  · subst same
    rw [Function.update_self]
    simp [Store.rowsOf, contentOf, forwardChunk]
  · rw [Function.update_of_ne same]
    have other : ¬ session.id = id := fun eq => same eq.symm
    simp [Store.rowsOf, forwardChunk, other]

theorem append_refines (env : Env)
    (forward : Forward H db session start declaredLength chunkDigest payload) :
    RunsAs ((putChunk H env session.id start declaredLength chunkDigest payload).run db)
      (db.catalogue.append H env session start declaredLength chunkDigest payload) := by
  have sound : RowsSound H (db.rowsOf session.id) := .of_consistent forward.found forward.consistent
  have counted : ((contentOf (db.rowsOf session.id).chunks ++ payload).length : Int) =
      start + declaredLength := by
    have length := forward.consistent.length
    have frontier := forward.frontier
    have size := forward.size
    rw [List.length_append]
    omega
  have grown := grownSession_eq (H := H) counted forward.within
  have run : (putChunk H env session.id start declaredLength chunkDigest payload).run db =
      ((forwardPlan H env session start declaredLength chunkDigest payload
          (contentOf (db.rowsOf session.id).chunks)).answer start declaredLength chunkDigest,
        Write.applyAll (forwardPlan H env session start declaredLength chunkDigest payload
          (contentOf (db.rowsOf session.id).chunks)).writes db) := by
    rw [← putPlan_forward env start declaredLength chunkDigest payload forward]
    exact run_putChunk env start declaredLength chunkDigest payload sound
  have outcome := forward.outcome env
  have content : db.catalogue.content session.id = contentOf (db.rowsOf session.id).chunks := rfl
  rw [run]
  generalize forwardPlan H env session start declaredLength chunkDigest payload
    (contentOf (db.rowsOf session.id).chunks) = plan at outcome
  cases outcome with
  | advanced more =>
    rw [if_neg (by omega)] at grown
    have active : (advancedSession session start declaredLength).status = .active := forward.active
    simp only [Catalogue.append, content, grown, active]
    exact ⟨rfl, catalogue_forward rfl []⟩
  | sealed last same taken =>
    rw [if_pos last, if_pos same] at grown
    simp only [Catalogue.append, content, grown, taken, sealedSession, if_true]
    exact ⟨rfl, catalogue_forward rfl [_]⟩
  | auditFailed last same refused =>
    rw [if_pos last, if_pos same] at grown
    simp only [Catalogue.append, content, grown, refused, sealedSession, Bool.false_eq_true, if_false]
    exact ⟨rfl, rfl⟩
  | failed last differs =>
    rw [if_pos last, if_neg differs] at grown
    simp only [Catalogue.append, content, grown, failedSession]
    exact ⟨rfl, catalogue_forward rfl []⟩

theorem put_refines (sound : Sound H db) (env : Env) (id : String) (start declaredLength : Int)
    (chunkDigest : String) (payload : Bytes) :
    RunsAs ((putChunk H env id start declaredLength chunkDigest payload).run db)
      (db.catalogue.put H env id start declaredLength chunkDigest payload) := by
  have run : (putChunk H env id start declaredLength chunkDigest payload).run db = _ :=
    run_putChunk env start declaredLength chunkDigest payload (sound.rows id)
  rw [Catalogue.put, catalogue_session?]
  cases found : db.session? id with
  | none =>
    rw [run, putPlan_missing found]
    exact ⟨rfl, rfl⟩
  | some session =>
    have consistent := sound.consistent found
    have length := consistent.length
    obtain rfl := session?_id found
    dsimp only
    cases refused : putRefusal H session start declaredLength chunkDigest payload with
    | some error =>
      rw [run, putPlan_refused found refused]
      exact ⟨rfl, rfl⟩
    | none =>
      obtain ⟨lower, -, size, digest, within⟩ := putRefusal_none.mp refused
      have content : db.catalogue.content session.id = contentOf (db.rowsOf session.id).chunks := rfl
      have echoes : Echoes session start declaredLength payload
          (contentOf (db.rowsOf session.id).chunks) ↔
            Catalogue.Holds (contentOf (db.rowsOf session.id).chunks) start declaredLength payload := by
        rw [Echoes, Catalogue.Holds, length]
      dsimp only
      rw [content, length]
      rw [putPlan_admitted found refused] at run
      by_cases active : session.status = .active
      · rw [if_pos active]
        by_cases frontier : start = session.confirmedOffset ∧ 0 < declaredLength
        · rw [if_pos frontier]
          exact append_refines env
            ⟨found, consistent, active, frontier.1, frontier.2, size, digest, within⟩
        · rw [if_neg frontier]
          rw [admittedPlan, if_pos active, if_neg frontier] at run
          by_cases holds : Catalogue.Holds (contentOf (db.rowsOf session.id).chunks) start
              declaredLength payload
          · rw [if_pos (echoes.mpr holds)] at run
            rw [if_pos holds, run]
            exact ⟨rfl, rfl⟩
          · rw [if_neg (mt echoes.mp holds)] at run
            rw [if_neg holds, run]
            exact ⟨rfl, rfl⟩
      · rw [if_neg active]
        rw [admittedPlan, if_neg active] at run
        by_cases holds : 0 < declaredLength ∧ Catalogue.Holds
            (contentOf (db.rowsOf session.id).chunks) start declaredLength payload
        · rw [if_pos ⟨holds.1, echoes.mpr holds.2⟩] at run
          rw [if_pos holds, run]
          exact ⟨rfl, rfl⟩
        · rw [if_neg fun both => holds ⟨both.1, echoes.mp both.2⟩] at run
          rw [if_neg holds, run]
          exact ⟨rfl, rfl⟩

end Put

/-! ## Compactions -/

/-- A compaction rewrites chunk rows and no session row. -/
theorem acceptedPlan_sessions (env : Env) (session : UploadSession) (target : Int) (old : List Chunk)
    (sequence : Int) (buffer : Bytes) (db : Store) :
    (Write.applyAll (acceptedPlan H env session target old sequence buffer).writes
      db).uploadSessions = db.uploadSessions := by
  refine Write.applyAll_keeps Store.uploadSessions ?_ db
  intro write member db
  have changes : ∀ write ∈ rewriteWrites H session target old buffer,
      (write.apply db).uploadSessions = db.uploadSessions := by
    intro write member
    obtain ⟨chunk, rfl | rfl⟩ := rewriteWrites_chunks member <;> rfl
  rw [acceptedPlan] at member
  split at member
  · obtain change | audit := List.mem_append.mp member
    · split at change
      · cases change
      · exact changes write change
    · rw [List.mem_singleton.mp audit]
      rfl
  · cases member

theorem compact_refines {db : Store} (sound : Sound H db) (env : Env) (id : String) (target : Int) :
    ((Call.mk env (.compactSealed id target)).serve H db).2.catalogue = db.catalogue := by
  have sessions : ((Call.mk env (.compactSealed id target)).serve H db).2.uploadSessions =
      db.uploadSessions := by
    rw [serve_compactSealed, run_compactSealed env target (sound.rows id).inRange]
    obtain ⟨error, decided⟩ | ⟨session, -, -, -, decided⟩ := compactPlan_cases env target (sound.rows id)
    · rw [decided]
      rfl
    · rw [decided]
      exact acceptedPlan_sessions env session target _ _ _ db
  have records : ((Call.mk env (.compactSealed id target)).serve H db).2.comparisons =
      db.comparisons := (isolated rfl).comparisons
  have content : ∀ other, contentOf
      (((Call.mk env (.compactSealed id target)).serve H db).2.rowsOf other).chunks =
        contentOf (db.rowsOf other).chunks := by
    intro other
    have effect := serve_rows sound ⟨env, .compactSealed id target⟩ other
    generalize ((Call.mk env (.compactSealed id target)).serve H db).2.rowsOf other = after at effect
    cases effect with
    | unchanged => rfl
    | created request => cases request
    | stored request => cases request
    | compacted request found isSealed positive answered =>
      exact plannedRows_content H other _ positive
  rw [Store.catalogue, sessions, records]
  exact congrArg (fun contents => Catalogue.mk db.uploadSessions contents db.comparisons)
    (funext content)

/-! ## Comparisons -/

section Compare

variable {db : Store}

/-- The record of two contents, as the catalogue says it. -/
theorem recordOf_eq (env : Env) (baseline candidate : UploadSession) :
    db.catalogue.recordOf env baseline candidate =
      contentRecord env baseline candidate (contentOf (db.rowsOf baseline.id).chunks)
        (contentOf (db.rowsOf candidate.id).chunks) := rfl

theorem compare_refines (sound : Sound H db) (env : Env) (baselineId candidateId : String) :
    RunsAs ((createComparison H env baselineId candidateId).run db)
      (db.catalogue.compare env baselineId candidateId) := by
  have run := @run_createComparison H env db baselineId candidateId
  rw [comparisonPlan] at run
  rw [Catalogue.compare, catalogue_session?, catalogue_session?]
  cases baselineFound : db.session? baselineId with
  | none =>
    rw [baselineFound] at run
    rw [run]
    exact ⟨rfl, rfl⟩
  | some baseline =>
    cases candidateFound : db.session? candidateId with
    | none =>
      rw [baselineFound, candidateFound] at run
      rw [run]
      exact ⟨rfl, rfl⟩
    | some candidate =>
      rw [baselineFound, candidateFound] at run
      dsimp only at run ⊢
      rw [pairPlan] at run
      by_cases baselineSealed : baseline.status = .sealed
      · by_cases candidateSealed : candidate.status = .sealed
        · obtain rfl := session?_id baselineFound
          obtain rfl := session?_id candidateFound
          rw [run_createComparison_contents sound baselineFound candidateFound baselineSealed
            candidateSealed, if_neg (not_not.mpr baselineSealed), if_neg (not_not.mpr candidateSealed),
            recordOf_eq, catalogue_record?]
          change RunsAs _ (if (db.comparison? env.uuid).isSome then _ else _)
          by_cases taken : (db.comparison? env.uuid).isSome
          · rw [if_pos taken, if_pos taken]
            exact ⟨rfl, rfl⟩
          · rw [if_neg taken, if_neg taken]
            exact ⟨rfl, rfl⟩
        · rw [if_neg (not_not.mpr baselineSealed), if_pos candidateSealed] at run
          rw [if_neg (not_not.mpr baselineSealed), if_pos candidateSealed, run]
          exact ⟨rfl, rfl⟩
      · rw [if_pos baselineSealed] at run
        rw [if_pos baselineSealed, run]
        exact ⟨rfl, rfl⟩

end Compare

/-! ## Reads -/

section Reads

variable {db : Store}

theorem describe_refines (id : String) :
    (getSession id).run db = (db.catalogue.describe id, db) := by
  rw [Catalogue.describe, catalogue_session?]
  cases found : db.session? id with
  | none => exact Program.run_bind_of_raised (settle_getSessionRow_missing found)
  | some session => exact Program.run_bind_of_returned (settle_getSessionRow found)

theorem list_refines (scan : ScanOrder) (status : Option String) (limit offset : Int) :
    (listSessions scan status limit offset).run db =
      (db.catalogue.list scan status limit offset, db) := by
  rw [listSessions.eq_def, Catalogue.list.eq_def]
  cases status with
  | none => exact run_listPage _ _ _
  | some text =>
    cases named : statusNamed text with
    | none => simp only [named]; rfl
    | some status => simp only [named]; exact run_listPage _ _ _

theorem lookUp_refines (id : String) :
    (getComparison id).run db = (db.catalogue.lookUp id, db) := by
  rw [Catalogue.lookUp, catalogue_record?]
  have read : (Program.select fun db : Store => db.comparison? id : Db _).settle (.opened db) =
      (.returned (db.comparison? id), .opened db) := Program.settle_select _ _
  rw [getComparison, Program.run_bind_of_returned read]
  cases db.comparison? id <;> rfl

theorem download_refines (sound : Sound H db) (id : String) (rangeValues : List String) :
    (downloadContent H id rangeValues).run db = (db.catalogue.download id rangeValues, db) := by
  rw [Catalogue.download, catalogue_session?]
  cases found : db.session? id with
  | none => exact Program.run_bind_of_raised (settle_getSessionRow_missing found)
  | some session =>
    obtain rfl := session?_id found
    by_cases isSealed : session.status = .sealed
    · have certified := sound.certified found isSealed
      have content : contentOf (db.chunksOf session.id) = db.catalogue.content session.id := by
        rw [(sound.rows _).chunksOf found]
        rfl
      dsimp only
      rw [if_neg (not_not.mpr isSealed)]
      match rangeValues with
      | [] =>
        rw [run_download_certified found isSealed certified, content]
        rfl
      | [header] =>
        rw [run_downloadRange found isSealed]
        cases parsed : parseSingleRange header session.totalBytes with
        | error exception => simp only [parsed]
        | ok span =>
          obtain ⟨begin, stop⟩ := span
          obtain ⟨lower, some', -⟩ := parseSingleRange_within
            (Int.le_trans (sound.consistent found).nonneg (sound.consistent found).bounded) parsed
          simp only [parsed, sealedBytesOf_certified certified lower (Int.le_of_lt some'), content]
          rfl
      | first :: second :: rest =>
        rw [downloadContent, Program.run_bind_of_returned (settle_getSessionRow found)]
        simp only [isSealed, ne_eq, not_true_eq_false, if_false]
        rfl
    · rw [downloadContent, Program.run_bind_of_returned (settle_getSessionRow found)]
      simp only [isSealed, ne_eq, not_false_eq_true, if_true]
      rfl

end Reads

/-! ## One call -/

/-- Where the catalogue has an answer, it is the answer of the service. -/
def Agrees (answer : Except Raised Reply) (said : Option (Except Raised Reply)) : Prop :=
  ∀ known, said = some known → answer = known

theorem Agrees.same (answer : Except Raised Reply) : Agrees answer (some answer) :=
  fun _ said => Option.some.inj said

theorem Agrees.unsaid (answer : Except Raised Reply) : Agrees answer none := by
  intro known said
  cases said

section Call

variable {db : Store}

/-- A call that writes answers as its operation does. -/
theorem RunsAs.named {α : Type} {run : Except Raised α × Store} {step : Except Raised α × Catalogue}
    (runs : RunsAs run step) (reply : α → Reply) :
    Agrees (run.1.map reply) (some (step.1.map reply)) ∧ run.2.catalogue = step.2 := by
  rw [runs.1]
  exact ⟨.same _, runs.2⟩

theorem call_refines (sound : Sound H db) (call : Call) :
    Agrees (call.serve H db).1 (Catalogue.serve H call db.catalogue).1 ∧
      (call.serve H db).2.catalogue = (Catalogue.serve H call db.catalogue).2 := by
  obtain ⟨env, request⟩ := call
  -- a read leaves the store alone
  have reading : ∀ {α : Type} {program : Db α} {answer : Except Raised α} (reply : α → Reply),
      program.run db = (answer, db) →
        Agrees ((reply <$> program).run db).1 (some (answer.map reply)) ∧
          ((reply <$> program).run db).2.catalogue = db.catalogue := by
    intro α program answer reply run
    rw [Program.run_map, run]
    exact ⟨.same _, rfl⟩
  have unknown : request.reads = true → ∀ {answer : Except Raised Reply}, Agrees answer none ∧
      ((Call.mk env request).serve H db).2.catalogue = db.catalogue := by
    intro reads answer
    rw [Call.serve, (Call.program_quiet reads).run_data]
    exact ⟨.unsaid answer, rfl⟩
  cases request with
  | createSession totalBytes wholeSha256 =>
    rw [serve_createSession]
    exact (create_refines sound).named .session
  | putChunk sessionId start declaredLength chunkDigest payload =>
    rw [serve_putChunk]
    exact (put_refines sound env sessionId start declaredLength chunkDigest payload).named .ack
  | compactSealed sessionId target =>
    exact ⟨.unsaid _, compact_refines sound env sessionId target⟩
  | createComparison baselineId candidateId =>
    rw [serve_createComparison]
    exact (compare_refines sound env baselineId candidateId).named .comparison
  | getSession id => exact reading .described (describe_refines id)
  | listSessions scan status limit offset =>
    exact reading .listed (list_refines scan status limit offset)
  | listChunks id => exact unknown rfl
  | getAuditTrail id => exact unknown rfl
  | downloadContent id rangeValues => exact reading .content (download_refines sound id rangeValues)
  | getComparison id => exact reading .comparison (lookUp_refines id)

end Call

/-! ## Every run -/

theorem run_refines {db : Store} (sound : Sound H db) (calls : List Call) :
    List.Forall₂ Agrees (answersOf H calls db) (Catalogue.answersOf H calls db.catalogue) ∧
      (serveAll H calls db).catalogue = Catalogue.serveAll H calls db.catalogue := by
  induction calls generalizing db with
  | nil => exact ⟨.nil, rfl⟩
  | cons call calls inductionHypothesis =>
    obtain ⟨answered, left⟩ := call_refines sound call
    have rest := inductionHypothesis (sound.serve call)
    rw [left] at rest
    exact ⟨.cons answered rest.1, rest.2⟩

/-- Whatever calls are served, in whatever order: each answers as on the catalogue, and the
    stores that the calls leave keep to the catalogues that they leave. -/
theorem catalogue_refinement {db : Store} (reachable : Reachable H db) (calls : List Call) :
    List.Forall₂ Agrees (answersOf H calls db) (Catalogue.answersOf H calls db.catalogue) ∧
      (serveAll H calls db).catalogue = Catalogue.serveAll H calls db.catalogue :=
  run_refines reachable.sound calls

/-- A package that is uploaded, compacted and downloaded. -/
theorem catalogue_refinement_download :
    let calls : List Call := [⟨⟨"s", 0, true⟩, .createSession 2 "d"⟩,
      ⟨⟨"", 0, true⟩, .putChunk "s" 0 2 "d" [1, 2]⟩, ⟨⟨"", 0, true⟩, .compactSealed "s" 1⟩,
      ⟨⟨"", 0, true⟩, .downloadContent "s" []⟩]
    let H : Bytes → String := fun _ => "d"
    (Catalogue.serveAll H calls Store.empty.catalogue).content "s" = [1, 2] ∧
      List.Forall₂ Agrees (answersOf H calls Store.empty)
        (Catalogue.answersOf H calls Store.empty.catalogue) ∧
      (serveAll H calls Store.empty).catalogue =
        Catalogue.serveAll H calls Store.empty.catalogue := by
  intro calls H
  exact ⟨by decide, @catalogue_refinement H _ .refl calls⟩

/-! ## Layouts -/

/-- The calls that report rows. -/
def Request.reportsRows : Request → Bool
  | .compactSealed _ _ | .listChunks _ | .getAuditTrail _ => true
  | _ => false

variable (H) in
/-- The answers to the calls that report no rows. -/
def told : List Call → Store → List (Except Raised Reply)
  | [], _ => []
  | call :: calls, db =>
    if call.request.reportsRows then told calls (call.serve H db).2
    else (call.serve H db).1 :: told calls (call.serve H db).2

variable (H) in
/-- The same answers, from the catalogue. -/
def Catalogue.told (calls : List Call) (catalogue : Catalogue) : List (Except Raised Reply) :=
  (Catalogue.answersOf H calls catalogue).reduceOption

/-- The catalogue has an answer unless it takes rows, and then it stays as it is. -/
theorem Catalogue.serve_reports (call : Call) (catalogue : Catalogue) :
    if call.request.reportsRows then Catalogue.serve H call catalogue = (none, catalogue)
    else ∃ answer, (Catalogue.serve H call catalogue).1 = some answer := by
  obtain ⟨env, request⟩ := call
  cases request <;> first | exact ⟨_, rfl⟩ | rfl

theorem told_eq {db : Store} (sound : Sound H db) (calls : List Call) :
    told H calls db = Catalogue.told H calls db.catalogue := by
  induction calls generalizing db with
  | nil => rfl
  | cons call calls inductionHypothesis =>
    obtain ⟨answered, left⟩ := call_refines sound call
    have rest := inductionHypothesis (sound.serve call)
    have reports := Catalogue.serve_reports (H := H) call db.catalogue
    rw [left] at rest
    rw [Catalogue.told, Catalogue.answersOf, told]
    by_cases rows : call.request.reportsRows
    · rw [if_pos rows] at reports
      rw [if_pos rows, rest, reports]
      rfl
    · rw [if_neg rows] at reports
      obtain ⟨answer, said⟩ := reports
      rw [if_neg rows, rest, said, answered answer said]
      rfl

/-- Calls that report rows change no later answer and no catalogue. -/
theorem Catalogue.told_filter (calls : List Call) (catalogue : Catalogue) :
    let others := calls.filter fun call => !call.request.reportsRows
    Catalogue.told H others catalogue = Catalogue.told H calls catalogue ∧
      Catalogue.serveAll H others catalogue = Catalogue.serveAll H calls catalogue := by
  intro others
  induction calls generalizing catalogue with
  | nil => exact ⟨rfl, rfl⟩
  | cons call calls inductionHypothesis =>
    have reports := Catalogue.serve_reports (H := H) call catalogue
    by_cases rows : call.request.reportsRows
    · rw [if_pos rows] at reports
      have dropped : others = calls.filter fun call => !call.request.reportsRows :=
        List.filter_cons_of_neg (by simp [rows])
      obtain ⟨answers, left⟩ := inductionHypothesis catalogue
      rw [dropped, answers, left, Catalogue.told, Catalogue.told, Catalogue.answersOf, Catalogue.serveAll,
        Catalogue.serveAll, List.foldl_cons, reports]
      exact ⟨rfl, rfl⟩
    · rw [if_neg rows] at reports
      obtain ⟨answer, said⟩ := reports
      have kept : others = call :: calls.filter fun call => !call.request.reportsRows :=
        List.filter_cons_of_pos (by simp [rows])
      obtain ⟨answers, left⟩ := inductionHypothesis (Catalogue.serve H call catalogue).2
      rw [kept, Catalogue.told, Catalogue.told, Catalogue.answersOf, Catalogue.answersOf, said]
      exact ⟨congrArg (answer :: ·) answers, left⟩

/-- Only the bytes of registered packages can differ between two catalogues. -/
theorem catalogue_eq {left right : Store} (leftSound : Sound H left) (rightSound : Sound H right)
    (sessions : left.uploadSessions = right.uploadSessions)
    (records : left.comparisons = right.comparisons)
    (content : ∀ session ∈ left.uploadSessions,
      contentOf (left.rowsOf session.id).chunks = contentOf (right.rowsOf session.id).chunks) :
    left.catalogue = right.catalogue := by
  have contents : left.catalogue.content = right.catalogue.content := by
    funext id
    have same : left.session? id = right.session? id := by rw [Store.session?, sessions]; rfl
    change contentOf (left.rowsOf id).chunks = contentOf (right.rowsOf id).chunks
    cases found : left.session? id with
    | some session =>
      obtain rfl := session?_id found
      exact content session (session?_mem found)
    | none =>
      -- no rows are stored under an id that is not registered
      rw [(leftSound.rows id).unused found, (rightSound.rows id).unused (same.symm.trans found)]
  rw [Store.catalogue, Store.catalogue, sessions, records]
  exact congrArg (fun contents => Catalogue.mk _ contents _) contents

/-- Two stores that differ in their layouts cannot be told apart: runs whose calls are the
    same but for compactions and reports of rows, put in anywhere on either side, answer
    the same and leave stores that differ in their layouts. -/
theorem layouts_indistinguishable {left right : Store} (leftReachable : Reachable H left)
    (rightReachable : Reachable H right) (same : left.catalogue = right.catalogue)
    {lefts rights : List Call}
    (alike : lefts.filter (fun call => !call.request.reportsRows) =
      rights.filter fun call => !call.request.reportsRows) :
    told H lefts left = told H rights right ∧
      (serveAll H lefts left).catalogue = (serveAll H rights right).catalogue := by
  have leftFilter := Catalogue.told_filter (H := H) lefts left.catalogue
  have rightFilter := Catalogue.told_filter (H := H) rights right.catalogue
  rw [alike, same] at leftFilter
  constructor
  · rw [told_eq leftReachable.sound, told_eq rightReachable.sound, same]
    exact leftFilter.1.symm.trans rightFilter.1
  · rw [(run_refines leftReachable.sound lefts).2, (run_refines rightReachable.sound rights).2, same]
    exact leftFilter.2.symm.trans rightFilter.2

/-- The same package in two rows and in one, read while one side is compacted. -/
theorem layouts_indistinguishable_read :
    let H : Bytes → String := fun _ => "d"
    let left := serveAll H [⟨⟨"s", 0, true⟩, .createSession 2 "d"⟩,
      ⟨⟨"", 0, true⟩, .putChunk "s" 0 1 "d" [1]⟩, ⟨⟨"", 0, true⟩, .putChunk "s" 1 1 "d" [2]⟩]
      Store.empty
    let right := serveAll H [⟨⟨"s", 0, true⟩, .createSession 2 "d"⟩,
      ⟨⟨"", 0, true⟩, .putChunk "s" 0 2 "d" [1, 2]⟩] Store.empty
    let read : Call := ⟨⟨"", 0, true⟩, .downloadContent "s" []⟩
    let lefts : List Call := [read, ⟨⟨"", 0, true⟩, .compactSealed "s" 2⟩, read]
    left.chunksOf "s" ≠ right.chunksOf "s" ∧ told H lefts left = told H [read, read] right ∧
      (serveAll H lefts left).catalogue = (serveAll H [read, read] right).catalogue := by
  intro H left right read lefts
  have leftReachable : Reachable H left := reachable_serveAll H _
  have rightReachable : Reachable H right := reachable_serveAll H _
  have same : left.catalogue = right.catalogue :=
    catalogue_eq leftReachable.sound rightReachable.sound (by decide) (by decide) (by decide)
  exact ⟨by decide, layouts_indistinguishable leftReachable rightReachable same rfl⟩

end

end SeismicIngest
