import SeismicIngest.Abstract.AppendLog
import SeismicIngest.Verified.Evolution

/-! # Sessions refine append-only logs

`Refines` relates a store to one log for each session: the log holds the archived
content, whatever rows it is cut into.  Every reachable store refines such logs
(`Sound.logs`), and a call is answered by the store as by the logs
(`put_simulates`, `compact_simulates`), so a run of the store is a run of the logs, as
long as the messages of its refusals print (`append_log_refinement_iff`).  The interpreter
raises while it formats an integer of more than 4300 digits, and such a put ends in an
error of the server instead of its refusal.
-/

namespace SeismicIngest

open Transaction Spans

section

variable {H : Bytes → String}

/-! ## The relation -/

/-- The log of a session, whose rows are `chunks`. -/
structure LogOf (session : UploadSession) (chunks : List Chunk) (log : AppendLog H) : Prop where
  id : log.id = session.id
  total : log.total = session.totalBytes
  whole : log.whole = session.wholeSha256
  content : log.content = contentOf chunks
  status : log.status = session.status

/-- Every stored session has its log. -/
structure Refines (db : Store) (logs : Logs H) : Prop where
  stored : ∀ {id session}, db.session? id = some session →
    ∃ log, logs id = some log ∧ LogOf session (db.chunksOf id) log
  absent : ∀ {id}, db.session? id = none → logs id = none

/-- Where a consistent session stands is decided by its content. -/
theorem Consistent.placed {session : UploadSession} {chunks : List Chunk} {audits : List AuditEvent}
    (consistent : Consistent H session chunks audits) :
    session.status = lifecycle H session.totalBytes session.wholeSha256 (contentOf chunks) := by
  have length := consistent.length
  rw [lifecycle]
  cases status : session.status with
  | active =>
    have open' := (consistent.whenActive status).1
    rw [if_pos (by omega)]
  | sealed =>
    obtain ⟨complete, -, whole⟩ := consistent.whenSealed status
    rw [if_neg (by omega), if_pos whole.symm]
  | failed =>
    obtain ⟨complete, -, differs, -⟩ := consistent.whenFailed status
    rw [if_neg (by omega), if_neg (Ne.symm differs)]

/-- The log of a consistent session. -/
def Consistent.log {session : UploadSession} {chunks : List Chunk} {audits : List AuditEvent}
    (consistent : Consistent H session chunks audits) : AppendLog H where
  id := session.id
  total := session.totalBytes
  whole := session.wholeSha256
  content := contentOf chunks
  status := session.status
  bounded := by
    rw [consistent.length]
    exact consistent.bounded
  placed := consistent.placed

/-- A sound store refines some logs. -/
theorem Sound.logs {db : Store} (sound : Sound H db) : ∃ logs : Logs H, Refines db logs := by
  have each : ∀ id, ∃ log : Option (AppendLog H),
      (∀ session, db.session? id = some session →
        ∃ held, log = some held ∧ LogOf session (db.chunksOf id) held) ∧
      (db.session? id = none → log = none) := by
    intro id
    cases found : db.session? id with
    | none => exact ⟨none, fun _ stored => (Option.some_ne_none _ stored.symm).elim, fun _ => rfl⟩
    | some session =>
      have consistent := sound.consistent found
      refine ⟨some consistent.log, ?_, fun missing => (Option.some_ne_none _ missing).elim⟩
      rintro _ ⟨⟩
      refine ⟨_, rfl, rfl, rfl, rfl, ?_, rfl⟩
      rw [chunksOf_eq, consistent.ordered]
      rfl
  choose logs held using each
  exact ⟨logs, fun {id session} found => (held id).1 session found, fun {id} => (held id).2⟩

/-! ## Answers -/

/-- What a client sees. -/
def observe : Except Raised Reply → LogAnswer
  | .ok (.ack body) => .acknowledged body
  | .ok (.compacted body) =>
    .compacted body.id body.totalBytesBefore body.totalBytesAfter body.wholeSha256
  | .error (.upload error) => .refused error.code error.expectedOffset
  | _ => .crashed

section Put

variable {db : Store} {id : String} {session : UploadSession} {log : AppendLog H}
  {audits : List AuditEvent}

/-- The log holds what is confirmed. -/
theorem LogOf.confirmed {chunks : List Chunk} (logOf : LogOf session chunks log)
    (consistent : Consistent H session chunks audits) :
    session.confirmedOffset = log.content.length := by
  rw [logOf.content, consistent.length]

/-- A session acknowledges as its log does. -/
theorem ack_eq {chunks : List Chunk} (consistent : Consistent H session chunks audits)
    (logOf : LogOf session chunks log) (request : PutRequest) (replay : Bool) :
    SeismicIngest.ack session request.start request.length request.digest replay =
      log.ack request replay := by
  have confirmed := logOf.confirmed consistent
  have expected : (if session.status = .active then session.confirmedOffset
      else session.totalBytes) = log.content.length := by
    split
    · exact confirmed
    · -- a closed session expects its total, which is what it has confirmed
      rename_i terminal
      rw [← consistent.complete terminal, confirmed]
  rw [SeismicIngest.ack, AppendLog.ack, expected, confirmed, logOf.id, logOf.status, logOf.total]

/-- A session refuses, once it is closed, as its log does. -/
theorem terminalRefusal_observed {chunks : List Chunk} (consistent : Consistent H session chunks audits)
    (logOf : LogOf session chunks log) (terminal : session.status ≠ .active) {start length : Int}
    (within : start + length ≤ session.totalBytes) :
    observe (.error (.upload (terminalRefusal session start length))) =
      if log.status = .failed then .refused .sessionFailedTerminal (some log.content.length)
      else .refused .sealedContentConflict (some log.content.length) := by
  have complete := consistent.complete terminal
  have confirmed := logOf.confirmed consistent
  rw [logOf.status, terminalRefusal]
  split
  · simp only [observe, sessionFailedTerminal, confirmed]
  · rw [if_pos (by omega)]
    simp only [observe, sealedContentConflict, ← complete, confirmed]

/-- A put that fails a check of the session fails the same check of its log, when the
    message prints. -/
theorem put_refused {chunks : List Chunk} (consistent : Consistent H session chunks audits)
    (logOf : LogOf session chunks log) {request : PutRequest} {exception : Raised}
    (refused : putRefusal H session request.start request.length request.digest request.payload =
      some exception)
    (prints : (putPrinted H session request.start request.length request.digest
      request.payload).all printable = true) (taken : Bool) :
    log.put request taken = (observe (.error exception), log) := by
  have confirmed := logOf.confirmed consistent
  rw [putRefusal] at refused
  rw [putPrinted] at prints
  rw [AppendLog.put]
  -- one case for each check, in the order of the source
  by_cases negative : request.start < 0
  · rw [if_pos negative] at refused ⊢
    cases refused
    rfl
  by_cases short : request.length < 0
  · rw [if_neg negative, if_pos short] at refused ⊢
    cases refused
    rfl
  rw [if_neg negative, if_neg short] at refused ⊢
  rw [if_neg (not_or.mpr ⟨negative, short⟩)] at prints
  by_cases size : (request.payload.length : Int) ≠ request.length
  · rw [if_pos size] at refused prints
    rw [dif_pos size, ← Option.some.inj refused, UploadError.printing, if_pos prints]
    rfl
  rw [if_neg size] at refused prints
  rw [dif_neg size]
  by_cases digest : H request.payload ≠ request.digest
  · rw [if_pos digest] at refused prints ⊢
    rw [← Option.some.inj refused, UploadError.printing, if_pos prints]
    rfl
  rw [if_neg digest] at refused prints ⊢
  by_cases beyond : request.start + request.length > session.totalBytes
  · rw [if_pos beyond] at refused prints
    rw [dif_pos (logOf.total ▸ beyond), ← Option.some.inj refused, UploadError.printing, if_pos prints]
    simp only [observe, chunkBeyondTotal, confirmed]
  · rw [if_neg beyond] at refused
    cases refused

/-- What is left of a put once it has passed its checks. -/
theorem put_admitted {request : PutRequest} (taken : Bool) (lower : 0 ≤ request.start)
    (lengthNonneg : 0 ≤ request.length)
    (size : (request.payload.length : Int) = request.length)
    (digest : H request.payload = request.digest)
    (within : request.start + request.length ≤ log.total) :
    log.put request taken =
      if log.status = .active then
        if frontier : request.start = log.content.length ∧ 1 ≤ request.length then
          log.append request taken (by omega)
        else if log.Holds request then (.acknowledged (log.ack request true), log)
        else (.refused .staleOffset (some log.content.length), log)
      else if 1 ≤ request.length ∧ log.Holds request then
        (.acknowledged (log.ack request true), log)
      else if log.status = .failed then
        (.refused .sessionFailedTerminal (some log.content.length), log)
      else (.refused .sealedContentConflict (some log.content.length), log) := by
  rw [AppendLog.put, if_neg (by omega), if_neg (by omega), dif_neg (by simp [size]),
    if_neg (by simp [digest]), dif_neg (by omega)]

/-- A chunk at the frontier is appended, as it is to the log. -/
theorem append_simulates {request : PutRequest}
    (forward : Forward H db session request.start request.length request.digest request.payload)
    (logOf : LogOf session (db.rowsOf session.id).chunks log) (env : Env)
    (fits : (log.content.length : Int) + request.payload.length ≤ log.total) :
    let run := (putChunk H env session.id request.start request.length request.digest
      request.payload).run db
    let step := log.append request env.auditAccepted fits
    observe (run.1.map .ack) = step.1 ∧
      ∃ ended, run.2.session? session.id = some ended ∧
        LogOf ended (run.2.chunksOf session.id) step.2 := by
  intro run step
  have sound : RowsSound H (db.rowsOf session.id) := .of_consistent forward.found forward.consistent
  have total := logOf.total
  have whole := logOf.whole
  obtain ⟨ended, finalized, writes, laterAudits, outcome, answered, left⟩ |
    ⟨last, same, refused, unchanged⟩ :=
      forward.served env request.start request.length request.digest request.payload
  · have found : (run.2.rowsOf session.id).row = some ended := congrArg SessionRows.row left
    have consistent := (rowsSound_putChunk env request.start request.length request.digest
      request.payload sound).consistent found
    obtain ⟨own, sameTotal, sameWhole, -⟩ := outcome.ended
    -- what the log holds decides where it stands, and the session with it
    have grown : LogOf ended (run.2.rowsOf session.id).chunks (log.extend request.payload fits) := by
      have content : contentOf (run.2.rowsOf session.id).chunks = log.content ++ request.payload := by
        rw [left, Forward.content, logOf.content]
      refine ⟨logOf.id.trans own.symm, total.trans sameTotal.symm, whole.trans sameWhole.symm,
        content.symm, ?_⟩
      rw [consistent.placed, content, sameTotal, sameWhole, ← total, ← whole]
      rfl
    have ordered : run.2.chunksOf session.id = (run.2.rowsOf session.id).chunks :=
      consistent.ordered
    have stands := grown.status
    rw [ordered]
    simp only [step, AppendLog.append, stands]
    cases status : ended.status with
    | active =>
      refine ⟨?_, ended, found, grown⟩
      rw [answered, if_neg (by simp [status]), ← ack_eq consistent grown]
      rfl
    | sealed =>
      have taken : env.auditAccepted = true := by
        cases outcome with
        | advanced _ => exact absurd status (by simp [advancedSession, forward.active])
        | sealed _ _ taken => exact taken
        | failed _ _ => cases status
      simp only [taken, if_true]
      refine ⟨?_, ended, found, grown⟩
      rw [answered, if_neg (by simp [status]), ← ack_eq consistent grown]
      rfl
    | failed =>
      refine ⟨?_, ended, found, grown⟩
      rw [answered, if_pos status]
      rfl
  · -- the log would be sealed, but its audit is refused
    have length := forward.consistent.length
    have frontier := forward.frontier
    have size := forward.size
    have stands : (log.extend request.payload fits).status = .sealed := by
      change lifecycle H log.total log.whole (log.content ++ request.payload) = .sealed
      rw [lifecycle, logOf.content, whole, if_neg (by rw [List.length_append]; omega), if_pos same]
    simp only [step, AppendLog.append, stands, refused, Bool.false_eq_true, if_false, run, unchanged]
    refine ⟨rfl, session, forward.found, ?_⟩
    rw [chunksOf_eq, forward.consistent.ordered]
    exact logOf

/-- A put is answered by its session as by its log. -/
theorem put_simulates (sound : RowsSound H (db.rowsOf id)) (found : db.session? id = some session)
    (logOf : LogOf session (db.chunksOf id) log) (env : Env) (request : PutRequest)
    (prints : (putPrinted H session request.start request.length request.digest
      request.payload).all printable = true) :
    let run := (putChunk H env id request.start request.length request.digest request.payload).run db
    let step := log.put request env.auditAccepted
    observe (run.1.map .ack) = step.1 ∧
      ∃ ended, run.2.session? id = some ended ∧ LogOf ended (run.2.chunksOf id) step.2 := by
  intro run step
  have consistent := sound.consistent found
  obtain rfl := session?_id found
  have logRows := logOf
  rw [chunksOf_eq, consistent.ordered] at logRows
  have served : run = _ := run_putChunk env request.start request.length request.digest
    request.payload sound
  cases refused : putRefusal H session request.start request.length request.digest
      request.payload with
  | some exception =>
    have answer : step = _ := put_refused consistent logRows refused prints env.auditAccepted
    rw [served, putPlan_refused found refused, answer]
    exact ⟨rfl, session, found, logOf⟩
  | none =>
    obtain ⟨lower, lengthNonneg, size, digest, within⟩ := putRefusal_none.mp refused
    have within' : request.start + request.length ≤ log.total := by
      rw [logOf.total]
      exact within
    have confirmed := logRows.confirmed consistent
    rw [putPlan_admitted found refused] at served
    have echoes : Echoes session request.start request.length request.payload
        (contentOf (db.rowsOf session.id).chunks) ↔ log.Holds request := by
      rw [Echoes, AppendLog.Holds, confirmed, logRows.content]
    have kept : ∃ ended, db.session? session.id = some ended ∧
        LogOf ended (db.chunksOf session.id) log := ⟨session, found, logOf⟩
    have answer : step = _ := put_admitted env.auditAccepted lower lengthNonneg size digest within'
    by_cases active : session.status = .active
    · rw [if_pos (logOf.status.trans active)] at answer
      by_cases frontier : request.start = log.content.length ∧ 1 ≤ request.length
      · -- bytes at the end of the log
        rw [dif_pos frontier] at answer
        rw [answer]
        exact append_simulates ⟨found, consistent, active, by omega, by omega, size, digest, within⟩
          logRows env (by omega)
      · rw [dif_neg frontier] at answer
        rw [admittedPlan, if_pos active, if_neg (by omega)] at served
        by_cases holds : log.Holds request
        · -- bytes the log holds already
          rw [if_pos (echoes.mpr holds)] at served
          rw [if_pos holds] at answer
          rw [served, answer, ← ack_eq consistent logRows]
          exact ⟨rfl, kept⟩
        · rw [if_neg (mt echoes.mp holds)] at served
          rw [if_neg holds] at answer
          rw [served, answer, ← confirmed]
          exact ⟨rfl, kept⟩
    · -- a closed session only echoes
      rw [if_neg (by rw [logOf.status]; exact active)] at answer
      rw [admittedPlan, if_neg active] at served
      by_cases holds : 1 ≤ request.length ∧ log.Holds request
      · rw [if_pos ⟨holds.1, echoes.mpr holds.2⟩] at served
        rw [if_pos holds] at answer
        rw [served, answer, ← ack_eq consistent logRows]
        exact ⟨rfl, kept⟩
      · rw [if_neg (fun both => holds ⟨both.1, echoes.mp both.2⟩)] at served
        rw [if_neg holds] at answer
        have observed := terminalRefusal_observed consistent logRows active within
        rw [served, answer]
        refine ⟨?_, ?_⟩
        · refine observed.trans ?_
          split <;> rfl
        · split <;> exact kept

end Put

/-! ## Compactions -/

/-- The outcome of the audit insert of a call.  The audit row of a sealing always fits; that
    of a compaction has its number and its target in `BIGINT` columns. -/
def LogCall.taken (env : Env) (db : Store) : LogCall → Bool
  | .put _ _ => env.auditAccepted
  | .compact id target =>
    env.auditAccepted = true ∧ fitsBigint (db.maxSequence id + 1) = true ∧ target < 2 ^ 63

/-- A compaction answers as its log, whatever the rows. -/
theorem compact_observed {db : Store} {logs : Logs H} (sound : Sound H db) (refines : Refines db logs)
    (env : Env) (id : String) (target : Int) :
    Compacts (LogCall.taken env db (.compact id target)) target (logs id)
      (observe (((compactSealed H env id target).run db).1.map .compacted)) := by
  rw [run_compactSealed env target (sound.rows id).inRange]
  by_cases invalid : target ≤ 0
  · rw [compactPlan_invalid invalid]
    exact .invalid invalid
  · have positive : 0 < target := Int.not_le.mp invalid
    cases found : db.session? id with
    | none =>
      rw [compactPlan_missing positive found, refines.absent found]
      exact .missing positive
    | some session =>
      obtain ⟨log, held, logOf⟩ := refines.stored found
      have consistent := sound.consistent found
      obtain rfl := session?_id found
      rw [held]
      by_cases isSealed : session.status = .sealed
      · have logSealed : log.status = .sealed := logOf.status.trans isSealed
        rw [compactPlan_sealed found consistent isSealed env positive, acceptedPlan]
        split
        · -- the old layout leaves no trace in the answer
          rename_i taken
          have done := Compacts.done positive logSealed (decide_eq_true (auditTaken_bounds taken))
          rw [logOf.id, logOf.total, logOf.whole] at done
          change Compacts _ target (some log) (.compacted session.id
            (totalLength (db.rowsOf session.id).chunks) session.totalBytes
            (H (contentOf (db.rowsOf session.id).chunks)))
          rw [sealed_totalLength consistent isSealed, sealed_digest consistent isSealed]
          exact done
        · rename_i untaken
          refine .auditRefused positive logSealed (decide_eq_false fun fits => untaken ?_)
          exact auditTaken_sealed consistent isSealed fits.1 fits.2.1 positive fits.2.2
      · rw [chunksOf_eq, consistent.ordered] at logOf
        have conflict := @Compacts.conflict H (LogCall.taken env db (.compact session.id target)) _ _
          positive (logOf.status.trans_ne isSealed)
        rw [← logOf.confirmed consistent] at conflict
        rw [compactPlan_conflict positive found isSealed]
        exact conflict

/-! ## One call -/

/-- The call of the service that a call to a log stands for. -/
def LogCall.request : LogCall → Request
  | .put id request => .putChunk id request.start request.length request.digest request.payload
  | .compact id target => .compactSealed id target

variable (H) in
/-- Every integer that the message of a refusal prints has at most 4300 digits. -/
def LogCall.Prints (db : Store) : LogCall → Prop
  | .put id request => ∀ session ∈ db.session? id,
    ∀ integer ∈ putPrinted H session request.start request.length request.digest request.payload,
      printable integer = true
  | .compact _ _ => True

instance (db : Store) (call : LogCall) : Decidable (call.Prints H db) :=
  match call with
  | .put id request => inferInstanceAs (Decidable (∀ session ∈ db.session? id, ∀ integer ∈
      putPrinted H session request.start request.length request.digest request.payload,
        printable integer = true))
  | .compact _ _ => inferInstanceAs (Decidable True)

/-- One session and its log move, and the others keep their rows. -/
theorem Refines.update {before after : Store} {logs : Logs H} (refines : Refines before logs)
    {id : String} {ended : UploadSession} {log : AppendLog H} (found : after.session? id = some ended)
    (logOf : LogOf ended (after.chunksOf id) log)
    (others : ∀ other, other ≠ id → after.rowsOf other = before.rowsOf other) :
    Refines after (Function.update logs id (some log)) where
  stored := by
    intro other session otherFound
    by_cases own : other = id
    · subst own
      obtain rfl := Option.some.inj (found.symm.trans otherFound)
      exact ⟨log, Function.update_self _ _ _, logOf⟩
    · rw [← rowsOf_row, others other own] at otherFound
      rw [Function.update_of_ne own, chunksOf_eq, others other own]
      exact refines.stored otherFound
  absent := by
    intro other missing
    by_cases own : other = id
    · subst own
      cases found.symm.trans missing
    · rw [← rowsOf_row, others other own] at missing
      rw [Function.update_of_ne own]
      exact refines.absent missing

section Serve

variable {db : Store} {logs : Logs H} (sound : Sound H db) (refines : Refines db logs) (env : Env)

include sound

/-- A compaction keeps every session row and every content. -/
theorem compact_keeps (id : String) (target : Int) (other : String) :
    let after := ((Call.mk env (.compactSealed id target)).serve H db).2
    after.session? other = db.session? other ∧
      contentOf (after.chunksOf other) = contentOf (db.chunksOf other) := by
  intro after
  have effect := serve_rows sound ⟨env, .compactSealed id target⟩ other
  generalize left : ((Call.mk env (.compactSealed id target)).serve H db).2.rowsOf other = rows at effect
  rw [← rowsOf_row, ← rowsOf_row, chunksOf_eq, chunksOf_eq, left]
  cases effect with
  | unchanged => exact ⟨rfl, rfl⟩
  | created request _ _ => cases request
  | stored request _ _ _ => cases request
  | compacted request found isSealed positive answered =>
    have consistent := sound.consistent found
    refine ⟨found.symm, ?_⟩
    rw [plannedRows_ordered H other _ positive, plannedRows_content H other _ positive,
      consistent.ordered]

include refines

theorem compact_simulates (id : String) (target : Int) :
    let served := (Call.mk env (.compactSealed id target)).serve H db
    logs.Serves (LogCall.taken env db (.compact id target)) (.compact id target) (observe served.1) logs ∧
      Refines served.2 logs := by
  intro served
  have run : served = _ := serve_compactSealed id target
  have keeps := compact_keeps sound env id target
  refine ⟨.compact ?_, ?_, ?_⟩
  · rw [run]
    exact compact_observed sound refines env id target
  · intro other session found
    rw [(keeps other).1] at found
    obtain ⟨log, held, logOf⟩ := refines.stored found
    exact ⟨log, held, logOf.id, logOf.total, logOf.whole, logOf.content.trans (keeps other).2.symm,
      logOf.status⟩
  · intro other missing
    rw [(keeps other).1] at missing
    exact refines.absent missing

theorem put_call_simulates (id : String) (request : PutRequest)
    (prints : (LogCall.put id request).Prints H db) :
    let served := (Call.mk env (LogCall.put id request).request).serve H db
    ∃ after, logs.Serves env.auditAccepted (.put id request) (observe served.1) after ∧
      Refines served.2 after := by
  intro served
  have run : served = _ :=
    serve_putChunk id request.start request.length request.digest request.payload
  cases found : db.session? id with
  | none =>
    rw [run, run_putChunk env request.start request.length request.digest request.payload
      (sound.rows id), putPlan_missing found]
    exact ⟨logs, .missing (refines.absent found), refines⟩
  | some session =>
    obtain ⟨log, held, logOf⟩ := refines.stored found
    obtain ⟨answered, ended, endedFound, endedLog⟩ :=
      put_simulates (sound.rows id) found logOf env request (List.all_eq_true.mpr (prints session found))
    refine ⟨Function.update logs id (some (log.put request env.auditAccepted).2), ?_, ?_⟩
    · rw [run, show observe _ = _ from answered]
      exact .put held
    · rw [run]
      exact refines.update endedFound endedLog fun other own =>
        sessionView_rows ((putChunk_local sessionRowView env request.start request.length request.digest
          request.payload).run_frame own db)

/-- One call of the service is one call to the logs. -/
theorem call_simulates (call : LogCall) (prints : call.Prints H db) :
    let served := (Call.mk env call.request).serve H db
    ∃ after, logs.Serves (call.taken env db) call (observe served.1) after ∧
      Refines served.2 after := by
  cases call with
  | put id request => exact put_call_simulates sound refines env id request prints
  | compact id target => exact ⟨logs, compact_simulates sound refines env id target⟩

omit refines in
/-- A put whose message does not print is not answered by the protocol. -/
theorem call_crashes (call : LogCall) (long : ¬ call.Prints H db) :
    observe ((Call.mk env call.request).serve H db).1 = .crashed := by
  cases call with
  | put id request =>
    simp only [LogCall.Prints, not_forall] at long
    obtain ⟨session, found, integer, member, unprinted⟩ := long
    have some' : (putPrinted H session request.start request.length request.digest
        request.payload).all printable = false :=
      List.all_eq_false.mpr ⟨integer, member, unprinted⟩
    rw [LogCall.request, serve_putChunk, run_putChunk env request.start request.length request.digest
      request.payload (sound.rows id), putPlan_refused found (putRefusal_unprinted some')]
    rfl
  | compact id target => exact absurd trivial long

end Serve

/-! ## Every sequence of calls -/

variable (H) in
/-- The answers to a sequence of calls, as a client sees them. -/
def observeAll : List (Env × LogCall) → Store → List LogAnswer
  | [], _ => []
  | (env, call) :: calls, db =>
    let served := (Call.mk env call.request).serve H db
    observe served.1 :: observeAll calls served.2

variable (H) in
/-- A sequence of calls, each with the outcome of its audit insert. -/
def outcomes : List (Env × LogCall) → Store → List (Bool × LogCall)
  | [], _ => []
  | (env, call) :: calls, db =>
    (call.taken env db, call) :: outcomes calls ((Call.mk env call.request).serve H db).2

variable (H) in
/-- Every call of the sequence is refused, if it is refused, by a message that prints. -/
def AllPrint : List (Env × LogCall) → Store → Prop
  | [], _ => True
  | (env, call) :: calls, db =>
    call.Prints H db ∧ AllPrint calls ((Call.mk env call.request).serve H db).2

instance decidableAllPrint (calls : List (Env × LogCall)) (db : Store) :
    Decidable (AllPrint H calls db) :=
  match calls with
  | [] => inferInstanceAs (Decidable True)
  | (env, call) :: calls =>
    have := decidableAllPrint calls ((Call.mk env call.request).serve H db).2
    inferInstanceAs (Decidable (call.Prints H db ∧ AllPrint H calls _))

/-- Every reachable store refines logs.  A sequence of puts and compactions is answered by
    the store as by its logs when, and only when, the messages of its refusals print. -/
theorem append_log_refinement_iff {db : Store} (reachable : Reachable H db) :
    (∃ logs : Logs H, Refines db logs) ∧
      ∀ (logs : Logs H) (calls : List (Env × LogCall)), Refines db logs →
        ((∃ after, logs.Runs (outcomes H calls db) (observeAll H calls db) after ∧
            Refines (serveAll H (calls.map fun call => ⟨call.1, call.2.request⟩) db) after) ↔
          AllPrint H calls db) := by
  refine ⟨reachable.sound.logs, fun logs calls refines => ?_⟩
  have sound := reachable.sound
  clear reachable
  induction calls generalizing db logs with
  | nil => exact ⟨fun _ => trivial, fun _ => ⟨logs, .done logs, refines⟩⟩
  | cons head calls inductionHypothesis =>
    obtain ⟨env, call⟩ := head
    have later := sound.serve ⟨env, call.request⟩
    constructor
    · rintro ⟨after, runs, afterRefines⟩
      cases runs with
      | next served rest =>
        have prints : call.Prints H db := by
          by_contra long
          exact served.answers (call_crashes sound env call long)
        -- the logs in the middle are those of the store
        obtain ⟨middle, simulated, middleRefines⟩ := call_simulates sound refines env call prints
        obtain rfl := served.unique simulated
        exact ⟨prints, (inductionHypothesis _ middleRefines later).mp ⟨after, rest, afterRefines⟩⟩
    · rintro ⟨prints, allPrint⟩
      obtain ⟨middle, served, middleRefines⟩ := call_simulates sound refines env call prints
      obtain ⟨after, rest, afterRefines⟩ :=
        (inductionHypothesis middle middleRefines later).mpr allPrint
      exact ⟨after, .next served rest, afterRefines⟩

/-- A package sent as one chunk and half of it again, with a compaction between. -/
theorem append_log_refinement_upload :
    let digest : Bytes → String := fun _ => "d"
    let db := serveAll digest [⟨⟨"s", 0, true⟩, .createSession 2 "d"⟩] Store.empty
    let calls : List (Env × LogCall) :=
      [(⟨"", 0, true⟩, .put "s" ⟨0, 2, "d", [1, 2]⟩), (⟨"", 0, true⟩, .compact "s" 1),
        (⟨"", 0, true⟩, .put "s" ⟨1, 1, "d", [2]⟩)]
    observeAll digest calls db = [.acknowledged ⟨"s", .sealed, 0, 2, "d", 2, 2, 2, false⟩,
        .compacted "s" 2 2 "d", .acknowledged ⟨"s", .sealed, 1, 1, "d", 2, 2, 2, true⟩] ∧
      ∃ logs after : Logs digest, Refines db logs ∧
        logs.Runs (outcomes digest calls db) (observeAll digest calls db) after := by
  intro digest db calls
  obtain ⟨⟨logs, refines⟩, simulates⟩ := append_log_refinement_iff (reachable_serveAll digest _)
  have prints : AllPrint digest calls db := by decide
  obtain ⟨after, runs, -⟩ := (simulates logs calls refines).mpr prints
  exact ⟨by decide, logs, after, refines, runs⟩

/-- A chunk of one byte, right with itself. -/
def endingAt (stop : Int) : PutRequest := ⟨stop - 1, 1, "d", [1]⟩

theorem endingAt_printed {stop : Int} (beyond : 1 < stop) {session : UploadSession}
    (total : session.totalBytes = 1) :
    stop ∈ putPrinted (fun _ => "d") session (endingAt stop).start (endingAt stop).length
      (endingAt stop).digest (endingAt stop).payload := by
  simp only [putPrinted, endingAt, total]
  rw [if_neg (by omega), if_neg (by simp), if_neg (by simp), if_pos (by omega)]
  simp

/-- A log of one byte refuses it for its total. -/
theorem endingAt_refused {stop : Int} (beyond : 1 < stop) {log : AppendLog fun _ => "d"}
    (total : log.total = 1) (taken : Bool) :
    (log.put (endingAt stop) taken).1 = .refused .chunkBeyondTotal (some log.content.length) := by
  have refused : log.put (endingAt stop) taken =
      (.refused .chunkBeyondTotal (some log.content.length), log) := by
    have lower : ¬ (endingAt stop).start < 0 := by simp only [endingAt]; omega
    have outside : (endingAt stop).start + (endingAt stop).length > log.total := by
      simp only [endingAt]
      omega
    rw [AppendLog.put, if_neg lower, if_neg (by simp [endingAt]), dif_neg (by simp [endingAt]),
      if_neg (by simp [endingAt]), dif_pos outside]
  rw [refused]

/-- The least integer with more than so many digits. -/
def tenPow (digits : Nat) : Int := Int.ofNat (10 ^ digits)

theorem one_lt_tenPow {digits : Nat} (positive : 0 < digits) : 1 < tenPow digits :=
  Int.ofNat_lt.mpr (Nat.one_lt_pow (by omega) (by omega))

theorem not_natAbs_tenPow_lt (digits : Nat) : ¬ (tenPow digits).natAbs < 10 ^ digits :=
  Nat.lt_irrefl _

theorem printable_tenPow : printable (tenPow maxStrDigits) = false :=
  decide_eq_false (not_natAbs_tenPow_lt _)

/-- The log refuses the chunk as `chunk_beyond_total`, where the service ends in a
    `ValueError`. -/
theorem append_log_refinement_unprinted :
    let digest : Bytes → String := fun _ => "d"
    let db := serveAll digest [⟨⟨"s", 0, true⟩, .createSession 1 "d"⟩] Store.empty
    let calls : List (Env × LogCall) := [(⟨"", 0, true⟩, .put "s" (endingAt (tenPow maxStrDigits)))]
    Reachable digest db ∧ observeAll digest calls db = [.crashed] ∧
      ∃ logs : Logs digest, Refines db logs ∧
        (∀ answers after, logs.Runs (outcomes digest calls db) answers after →
          answers = [.refused .chunkBeyondTotal (some 0)]) ∧
        ¬ ∃ after, logs.Runs (outcomes digest calls db) (observeAll digest calls db) after := by
  intro digest db calls
  have reachable : Reachable digest db := reachable_serveAll digest _
  have found : db.session? "s" =
      some ⟨"s", 1, "d", 0, .active, none, none, 0⟩ := by decide
  have crashes : observeAll digest calls db = [.crashed] := by
    have long : ¬ (LogCall.put "s" (endingAt (tenPow maxStrDigits))).Prints digest db := by
      intro prints
      have printed := prints _ found _ (endingAt_printed (one_lt_tenPow (by decide)) rfl)
      rw [printable_tenPow] at printed
      cases printed
    exact congrArg (· :: []) (call_crashes reachable.sound ⟨"", 0, true⟩ _ long)
  obtain ⟨logs, refines⟩ := reachable.sound.logs
  obtain ⟨log, held, logOf⟩ := refines.stored found
  have refusals : ∀ answers after, logs.Runs (outcomes digest calls db) answers after →
      answers = [.refused .chunkBeyondTotal (some 0)] := by
    intro answers after runs
    cases runs with
    | next served rest =>
      cases rest
      cases served with
      | missing absent =>
        rw [held] at absent
        cases absent
      | put stored =>
        obtain rfl := Option.some.inj (held.symm.trans stored)
        have empty : db.chunksOf "s" = [] := by decide
        rw [endingAt_refused (one_lt_tenPow (by decide)) logOf.total, logOf.content, empty]
        rfl
  refine ⟨reachable, crashes, logs, refines, refusals, ?_⟩
  rintro ⟨after, runs⟩
  rw [crashes] at runs
  cases refusals _ _ runs

end

end SeismicIngest
