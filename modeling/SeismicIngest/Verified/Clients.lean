import SeismicIngest.Verified.Writers
import SeismicIngest.Verified.Evolution

/-! # Clients of the service

Clients that send puts and compactions are writers of the interleaving theory
(`clients_workload`), and the serial execution of that theory is the service
serving their calls in order (`serial_eq`).  What is left of a call after its
transaction has ended can only be a look at the session row, so its answer is the
serial one, or an acknowledgement of the row as a later call left it
(`responds_of_mayAnswer`).
-/

namespace SeismicIngest

open Transaction Spans

section

variable {H : Bytes → String} {ι : Type}

/-! ## The workload -/

/-- A call that writes to session `id`. -/
inductive Call.WritesTo (id : String) : Call → Prop where
  | putChunk (env : Env) (start declaredLength : Int) (chunkDigest : String) (payload : Bytes) :
    WritesTo id ⟨env, .putChunk id start declaredLength chunkDigest payload⟩
  | compactSealed (env : Env) (target : Int) : WritesTo id ⟨env, .compactSealed id target⟩

/-- A put or a compaction is a writer of its session; a compaction to no positive target is
    refused without a statement. -/
theorem Call.WritesTo.writer {id : String} {call : Call} (writes : call.WritesTo id) {ν : Type}
    {view : String → Store → ν} (isView : RowView view) :
    Writer view sessionPresent (fun seen => RowsSound H (isView.rows seen)) DbError.integrityError id
      (call.program H) ∨ (call.program H).Quiet := by
  cases writes with
  | putChunk env start declaredLength chunkDigest payload =>
    exact .inl ((putChunk_writer isView env start declaredLength chunkDigest payload).map _)
  | compactSealed env target =>
    by_cases positive : 0 < target
    · exact .inl ((compactSealed_writer isView env positive).map _)
    · right
      change (Reply.compacted <$> SeismicIngest.compactSealed H env id target).Quiet
      rw [compactSealed_invalid env (Int.not_lt.mp positive)]
      trivial

variable (H) in
/-- The program of each client. -/
def clientProgram (calls : ι → Call) (i : ι) : Db Reply :=
  (calls i).program H

section Clients

variable {calls : ι → Call} {key : ι → String} (writers : ∀ i, (calls i).WritesTo (key i))
  {initial : Store} (sound : Sound H initial)

include writers sound

theorem clients_workload :
    Workload sessionView sessionPresent (fun seen => RowsSound H seen.rows) DbError.integrityError
      (clientProgram H calls) key initial where
  present_congr same := present_congr sessionRowView same
  calls i := (writers i).writer sessionRowView
  initially := sound.rows

end Clients

/-- The serial execution is the service serving the calls in order. -/
theorem serial_eq (calls : ι → Call) (order : List ι) (initial : Store) :
    serial (clientProgram H calls) order initial = serveAll H (order.map calls) initial := by
  rw [serial, serveAll, List.foldl_map]
  rfl

/-! ## Answers after the end of a transaction -/

/-- What the acknowledgement of a stored chunk can answer when the session row it
    reads may have moved on. -/
theorem acknowledge_mayAnswer {seen : Store → Prop} {session : UploadSession} {finalized : Bool}
    {start declaredLength : Int} {chunkDigest : String} {answer : Except Raised Ack}
    (may : (acknowledge session finalized start declaredLength chunkDigest).MayAnswer seen answer) :
    ∃ db, seen db ∧ ∀ row, db.session? session.id = some row →
      answer = if finalized ∧ row.status = .failed then .error (.upload (wholeDigestMismatch row))
        else .ok (ack row start declaredLength chunkDigest false) := by
  obtain ⟨db, found, answered⟩ := may
  refine ⟨db, found, ?_⟩
  intro row stored
  simp only [Program.bind, stored] at answered
  change Program.MayAnswer seen (if finalized ∧ row.status = .failed then
    Db.refuse (wholeDigestMismatch row) else pure (ack row start declaredLength chunkDigest false)) answer
    at answered
  split at answered
  · rename_i fails
    rw [if_pos fails]
    exact answered
  · rename_i fine
    rw [if_neg fine]
    exact answered

/-- The answers of a put when the session row it reads at last may have moved on from
    the store the put leaves. -/
theorem put_mayAnswer {db : Store} {env : Env} {id : String} {start declaredLength : Int}
    {chunkDigest : String} {payload : Bytes} {seen : Store → Prop} {answer : Except Raised Ack}
    (sound : Sound H db)
    (lasting : ∀ found, seen found → ∃ stage,
      Later H ((putChunk H env id start declaredLength chunkDigest payload).run db).2 stage ∧
        found.session? id = stage.session? id)
    (may : ((putChunk H env id start declaredLength chunkDigest payload).settle
      (.opened db)).1.MayAnswer seen answer) :
    answer = ((putChunk H env id start declaredLength chunkDigest payload).run db).1 ∨
      ∃ session row found, seen found ∧ found.session? id = some row ∧ session.status = .active ∧
        ((putChunk H env id start declaredLength chunkDigest payload).run db).1 =
          .ok (ack session start declaredLength chunkDigest false) ∧
        answer = .ok (ack row start declaredLength chunkDigest false) := by
  have run := run_putChunk env start declaredLength chunkDigest payload (sound.rows id)
  have afterSound := sound.serve ⟨env, .putChunk id start declaredLength chunkDigest payload⟩
  rw [serve_putChunk] at afterSound
  rw [settle_putChunk (sound.rows id)] at may
  obtain ⟨error, decided⟩ | ⟨session, -, -, -, -, decided⟩ | ⟨session, found, forward, decided⟩ :=
    putPlan_cases env start declaredLength chunkDigest payload (sound.rows id)
  · -- a refusal and a replay read nothing after the commit
    rw [decided] at may run
    rw [run]
    exact .inl may
  · rw [decided] at may run
    rw [run]
    exact .inl may
  · obtain rfl := session?_id found
    have outcome := forward.outcome env
    obtain ⟨ended, finalized, writes, appended, own, rows⟩ | failed := outcome.rows found rfl
    · rw [decided, appended] at may run
      rw [appended] at outcome
      rw [run] at lasting afterSound ⊢
      have endedFound : (Write.applyAll writes db).session? session.id = some ended :=
        congrArg SessionRows.row rows
      obtain ⟨later, seenLater, answers⟩ := acknowledge_mayAnswer may
      obtain ⟨stage, happened, same⟩ := lasting later seenLater
      obtain ⟨row, rowFound, evolves⟩ := evolves_of_later afterSound happened endedFound
      have laterFound : later.session? session.id = some row := same.trans rowFound
      have answered := answers row (by rw [own]; exact laterFound)
      by_cases active : ended.status = .active
      · -- the session is open, so the row may have moved on
        have notFinal : finalized = false := by
          obtain ⟨-, -, notFinal⟩ | ⟨-, -, ⟨-, isSealed⟩ | ⟨-, isFailed⟩⟩ := outcome.status
          · exact notFinal
          · rw [active] at isSealed
            cases isSealed
          · rw [active] at isFailed
            cases isFailed
        refine .inr ⟨ended, row, later, seenLater, laterFound, active, ?_, ?_⟩
        · simp only [PutPlan.answer, notFinal, Bool.false_eq_true, false_and, if_false]
        · simpa [notFinal] using answered
      · -- a closed session keeps its row
        obtain ⟨rfl, -⟩ := evolves.frozen active
        exact .inl answered
    · -- the audit row was refused before any commit
      rw [decided, failed] at may run
      rw [run]
      exact .inl may

/-- A compaction answers before its transaction ends. -/
theorem compact_mayAnswer {db : Store} {env : Env} {id : String} {target : Int} {seen : Store → Prop}
    {answer : Except Raised CompactResult} (sound : Sound H db)
    (may : ((compactSealed H env id target).settle (.opened db)).1.MayAnswer seen answer) :
    answer = ((compactSealed H env id target).run db).1 := by
  have inRange := (sound.rows id).inRange
  rw [run_compactSealed env target inRange]
  rw [settle_compactSealed inRange] at may
  cases decided : compactPlan H env id target (db.rowsOf id) with
  | refuse error | abort error | done result writes | auditFailed discarded =>
    rw [decided] at may
    exact may

/-- The answer of a client next to its answer in the serial execution. -/
inductive Responds (H : Bytes → String) (calls : ι → Call) (initial : Store) (before : List ι) (i : ι)
    (after : List ι) (answer : Except Raised Reply) : Prop where
  /-- The serial answer. -/
  | same (serialAnswer : answer = ((calls i).serve H (serveAll H (before.map calls) initial)).1) :
    Responds H calls initial before i after answer
  /-- The acknowledgement of a chunk that leaves its session active reports the row as
      a later stage of the serial execution has it. -/
  | refreshed {env : Env} {id : String} {start declaredLength : Int} {chunkDigest : String}
    {payload : Bytes} {session ended : UploadSession} {middle later : List ι}
    (request : calls i = ⟨env, .putChunk id start declaredLength chunkDigest payload⟩)
    (serialAnswer : ((calls i).serve H (serveAll H (before.map calls) initial)).1 =
      .ok (.ack (ack session start declaredLength chunkDigest false)))
    (advanced : session.status = .active) (split : after = middle ++ later)
    (found : (serveAll H ((before ++ i :: middle).map calls) initial).session? id = some ended)
    (answered : answer = .ok (.ack (ack ended start declaredLength chunkDigest false))) :
    Responds H calls initial before i after answer

/-- A put that is acknowledged is acknowledged in the serial execution. -/
theorem Responds.acknowledges {calls : ι → Call} {initial : Store} {before after : List ι} {i : ι}
    {reply : Reply} (responds : Responds H calls initial before i after (.ok reply)) {env : Env}
    {id : String} {start declaredLength : Int} {chunkDigest : String} {payload : Bytes}
    (request : calls i = ⟨env, .putChunk id start declaredLength chunkDigest payload⟩) :
    ∃ body, ((putChunk H env id start declaredLength chunkDigest payload).run
      (serveAll H (before.map calls) initial)).1 = .ok body := by
  have accepted : ∃ reply, ((calls i).serve H (serveAll H (before.map calls) initial)).1 = .ok reply := by
    cases responds with
    | same serialAnswer => exact ⟨reply, serialAnswer.symm⟩
    | refreshed _ serialAnswer _ _ _ _ => exact ⟨_, serialAnswer⟩
  obtain ⟨serialReply, accepted⟩ := accepted
  rw [request, serve_putChunk] at accepted
  cases answer : ((putChunk H env id start declaredLength chunkDigest payload).run
      (serveAll H (before.map calls) initial)).1 with
  | ok body => exact ⟨body, rfl⟩
  | error exception =>
    rw [answer] at accepted
    cases accepted

section Responses

variable {calls : ι → Call} {key : ι → String} (writers : ∀ i, (calls i).WritesTo (key i))
  {initial : Store} (sound : Sound H initial)

include writers sound

theorem responds_of_mayAnswer {before after : List ι} {i : ι} {answer : Except Raised Reply}
    (may : ((clientProgram H calls i).settle
      (.opened (serial (clientProgram H calls) before initial))).1.MayAnswer
        (SeenAfter sessionView (clientProgram H calls) key initial before i after) answer) :
    Responds H calls initial before i after answer := by
  have stageSound := sound.later (Later.serveAll H (before.map calls) initial)
  have writes := writers i
  rw [serial_eq] at may
  generalize called : calls i = call at writes
  cases writes with
  | putChunk env start declaredLength chunkDigest payload =>
    have program : clientProgram H calls i =
        Reply.ack <$> putChunk H env (key i) start declaredLength chunkDigest payload := by
      rw [clientProgram, called]
      rfl
    have served := @serve_putChunk H env (serveAll H (before.map calls) initial) (key i) start
      declaredLength chunkDigest payload
    rw [program] at may
    obtain ⟨result, mayResult, rfl⟩ := Ending.mayAnswer_map may
    -- a stage that includes the call itself
    have lasting : ∀ found,
        SeenAfter sessionView (clientProgram H calls) key initial before i after found → ∃ stage,
          Later H ((putChunk H env (key i) start declaredLength chunkDigest payload).run
            (serveAll H (before.map calls) initial)).2 stage ∧
            found.session? (key i) = stage.session? (key i) := by
      rintro found ⟨middle, later, -, same⟩
      refine ⟨_, Later.serveAll H (middle.map calls) _, ?_⟩
      rw [sessionView_session same, serial_eq, List.map_append, List.map_cons, serveAll_append, called]
      change (serveAll H _ (Call.serve H _ _).2).session? _ = _
      rw [served]
    obtain same | ⟨session, row, found, ⟨middle, later, split, same⟩, stored, active, serialAnswer,
      answered⟩ := put_mayAnswer stageSound lasting mayResult
    · refine .same ?_
      rw [called, served, same]
    · refine .refreshed called ?_ active split ?_ (congrArg (Except.map Reply.ack) answered)
      · rw [called, served, serialAnswer]
        rfl
      · rw [← stored, sessionView_session same, serial_eq]
  | compactSealed env target =>
    have program : clientProgram H calls i = Reply.compacted <$> compactSealed H env (key i) target := by
      rw [clientProgram, called]
      rfl
    rw [program] at may
    obtain ⟨result, mayResult, rfl⟩ := Ending.mayAnswer_map may
    refine .same ?_
    rw [called, serve_compactSealed, compact_mayAnswer stageSound mayResult]

omit writers in
/-- A put that has its acknowledgement has ended its transaction. -/
theorem put_releases {sys : System ι Store String DbError Raised Reply}
    (linear : Linear sessionView (clientProgram H calls) key initial DbError.integrityError sys)
    {i : ι} {env : Env} {start declaredLength : Int} {chunkDigest : String} {payload : Bytes}
    (request : calls i = ⟨env, .putChunk (key i) start declaredLength chunkDigest payload⟩)
    {reply : Reply} (answered : sys.Answered i (.ok reply)) : sys.owner (key i) ≠ some i := by
  intro owns
  -- while it holds the lock, its program still ends as it would from the committed data
  obtain ⟨-, midway, before, after, -, -, started⟩ := linear.held _ _ owns
  have rows : RowsSound H (sys.committed.rowsOf (key i)) := by
    rw [sessionView_rows started, serial_eq]
    exact (sound.later (Later.serveAll H (before.map calls) initial)).rows (key i)
  have ending := midway.ending
  rw [answered] at ending
  change Ending.returned reply = (((calls i).program H).settle (.opened sys.committed)).1 at ending
  rw [request] at ending
  change _ = ((putChunk H env (key i) start declaredLength chunkDigest payload >>=
    fun body => Pure.pure (Reply.ack body)).settle (.opened sys.committed)).1 at ending
  rw [Program.settle_bind, settle_putChunk rows] at ending
  -- no plan of a put ends without an end of its transaction
  cases decided : putPlan H env (key i) start declaredLength chunkDigest payload
      (sys.committed.rowsOf (key i)) with
  | refuse _ | replay _ | append _ _ _ | auditFailed _ =>
    rw [decided] at ending
    cases ending

omit writers sound in
/-- A put that has its acknowledgement has locked its row. -/
theorem put_ordered {sys : System ι Store String DbError Raised Reply}
    (linear : Linear sessionView (clientProgram H calls) key initial DbError.integrityError sys)
    {i : ι} {env : Env} {start declaredLength : Int} {chunkDigest : String} {payload : Bytes}
    (request : calls i = ⟨env, .putChunk (key i) start declaredLength chunkDigest payload⟩)
    {answer : Except Raised Reply} (answered : sys.Answered i answer) : i ∈ sys.lockOrder := by
  by_cases ordered : i ∈ sys.lockOrder
  · exact ordered
  · have quiet := (linear.answers_unordered answered ordered).1
    change ((calls i).program H).Quiet at quiet
    rw [request] at quiet
    exact quiet.elim

omit sound in
/-- A call that locks no row answers without looking at the store. -/
theorem unordered_answer {sys : System ι Store String DbError Raised Reply}
    (linear : Linear sessionView (clientProgram H calls) key initial DbError.integrityError sys)
    {i : ι} {answer : Except Raised Reply} (answered : sys.Answered i answer)
    (unordered : i ∉ sys.lockOrder) (db : Store) : answer = ((calls i).serve H db).1 := by
  obtain ⟨quiet, may⟩ := linear.answers_unordered answered unordered
  have writes := writers i
  rw [clientProgram] at quiet may
  generalize calls i = call at writes quiet may ⊢
  cases writes with
  | putChunk env start declaredLength chunkDigest payload => exact quiet.elim
  | compactSealed env target =>
    by_cases positive : 0 < target
    · obtain ⟨rest, starts, -⟩ := (@compactSealed_writer H (key i) _ _ sessionRowView env _ positive).locksFirst
      change (Reply.compacted <$> compactSealed H env (key i) target).Quiet at quiet
      rw [starts] at quiet
      exact quiet.elim
    · -- a target that is not positive is refused at the head
      change Program.MayAnswer _ (Reply.compacted <$> compactSealed H env (key i) target) answer at may
      rw [serve_compactSealed]
      rw [compactSealed_invalid env (Int.not_lt.mp positive)] at may ⊢
      exact may

end Responses

end

end SeismicIngest
