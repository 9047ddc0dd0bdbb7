import SeismicIngest.Transaction.Crashes
import SeismicIngest.Guarantees.Serialisable
import SeismicIngest.Guarantees.Isolation

/-! # Crashes and restarts

A client can lose its connection, and the process can be killed, between any two
statements.  `runMortals` are clients each of which may die, `Lifetime` is one life of
the process: it starts on the committed tables, and what is committed when it ends is
what the next life starts on.

After any number of lives the tables are those of a service that never crashed and
served, one after another, the calls that reached their commit (`restarts_recover`),
and in every life the clients that have received an answer are among them
(`mortal_clients_serialisable`).
-/

namespace SeismicIngest

open Transaction Spans

section

variable {H : Bytes → String} {lost : Raised}

/-! ## Stores with the same views -/

/-- The same rows under every id, in the same order. -/
def SameViews (left right : Store) : Prop :=
  ∀ id, sessionView id left = sessionView id right

namespace SameViews

variable {left right : Store} (same : SameViews left right)

include same

theorem tables : SameTables left right :=
  sameTables_of_views same

theorem comparisons : left.comparisons = right.comparisons :=
  congrArg SessionView.comparisons (same "")

theorem chunksOf (id : String) : left.chunksOf id = right.chunksOf id := by
  rw [chunksOf_eq, chunksOf_eq, sessionView_rows (same id)]

/-- A comparison decides the same on both. -/
theorem comparisonPlan (env : Env) (baseline candidate : String) :
    comparisonPlan H env baseline candidate left = comparisonPlan H env baseline candidate right := by
  rw [SeismicIngest.comparisonPlan, SeismicIngest.comparisonPlan, sessionView_session (same baseline),
    sessionView_session (same candidate)]
  simp only [same.chunksOf]

theorem insertComparison (row : Comparison) :
    (Write.insertComparison row).rejects left = (Write.insertComparison row).rejects right ∧
      SameViews (Write.applyAll [.insertComparison row] left)
        (Write.applyAll [.insertComparison row] right) := by
  have found : left.comparison? row.id = right.comparison? row.id := by
    rw [Store.comparison?, Store.comparison?, same.comparisons]
  have violates : (Write.insertComparison row).violates left =
      (Write.insertComparison row).violates right := by
    simp only [Write.violates, found, sessionView_session (same _)]
  constructor
  · rw [Write.rejects, Write.rejects, violates]
  · intro id
    have rows := sessionView_rows (same id)
    have registered := congrArg SessionView.registered (same id)
    change SessionView.mk (left.rowsOf id) (left.registered id) (left.comparisons ++ [row]) =
      SessionView.mk (right.rowsOf id) (right.registered id) (right.comparisons ++ [row])
    rw [rows, same.comparisons]
    congr 1

/-- Calls do the same to stores that look the same. -/
theorem serve (call : Call) : SameViews (call.serve H left).2 (call.serve H right).2 := by
  cases addressed : call.addressee with
  | some id =>
    have isLocal := call_local (H := H) sessionRowView addressed
    intro other
    by_cases own : other = id
    · subst own
      exact (isLocal.run_congr (same other)).2
    · rw [Call.serve, Call.serve, isLocal.run_frame own, isLocal.run_frame own]
      exact same other
  | none =>
    obtain ⟨env, request⟩ := call
    have reading : request.reads = true → SameViews ((Call.mk env request).serve H left).2
        ((Call.mk env request).serve H right).2 := by
      intro reads
      have quiet := @Call.program_quiet H ⟨env, request⟩ reads
      rw [Call.serve, Call.serve, quiet.run_data, quiet.run_data]
      exact same
    cases request with
    | createComparison baseline candidate =>
      rw [serve_createComparison, serve_createComparison, run_createComparison,
        run_createComparison, same.comparisonPlan]
      cases SeismicIngest.comparisonPlan H env baseline candidate right with
      | refuse exception => exact same
      | record row =>
        obtain ⟨verdict, inserted⟩ := same.insertComparison row
        simp only [verdict]
        cases (Write.insertComparison row).rejects right with
        | none => exact inserted
        | some error => exact same
    | listSessions _ _ _ _ | getComparison _ => exact reading rfl
    | _ => cases addressed

theorem serveAll (calls : List Call) :
    SameViews (serveAll H calls left) (serveAll H calls right) := by
  induction calls generalizing left right with
  | nil => exact same
  | cons call calls inductionHypothesis => exact inductionHypothesis (same.serve call)

end SameViews

/-! ## After the end of a transaction -/

section EndsOnce

variable {α : Type}

/-- `Db.commit` answers behind its commit. -/
theorem commit_endsOnce (writes : List Write) :
    (Db.commit writes).EndsOnce (fun _ => False) fun _ => True := by
  intro answer
  cases answer with
  | none => exact ⟨trivial, trivial⟩
  | some error => trivial

/-- A refused audit row is a rollback, and no result. -/
theorem addAudit_endsOnce (env : Env) (changes : List Write) (session : UploadSession)
    (event : AuditKind) (totalBytes : Int) (wholeSha256 : String)
    (targetChunkBytes chunksBefore chunksAfter : Option Int) :
    (addAudit env changes session event totalBytes wholeSha256 targetChunkBytes chunksBefore
      chunksAfter).EndsOnce (fun _ => True) fun _ => False := by
  intro data answer
  cases answer with
  | none => trivial
  | some error => exact ⟨trivial, trivial⟩

theorem refresh_reads (session : UploadSession) :
    (Db.refresh session).Quiet ∧ (Db.refresh session).Returns fun _ => True := by
  refine ⟨.bind (.select _) fun row => ?_, .of_all (fun _ => trivial) _⟩
  cases row <;> trivial

theorem createSession_endsOnce (env : Env) (totalBytes : Int) (wholeSha256 : String) :
    (createSession H env totalBytes wholeSha256).EndsOnce (fun _ => False) fun _ => True := by
  have committed : ∀ {writes : List Write} {next : Unit → Db UploadSession},
      (∀ done, (next done).Quiet ∧ (next done).Returns fun _ => True) →
        (Db.commit writes >>= next).EndsOnce (fun _ => False) fun _ => True :=
    fun reads => (commit_endsOnce _).bind (fun _ never => never.elim) fun done _ => reads done
  rw [createSession]
  split
  · split
    · refine (addAudit_endsOnce env _ _ _ _ _ _ _ _).bind (fun _ _ => ?_) fun _ never => never.elim
      exact committed fun _ => refresh_reads _
    · exact committed fun _ => ⟨trivial, trivial⟩
  · exact committed fun _ => refresh_reads _

theorem createComparison_endsOnce (env : Env) (baseline candidate : String) :
    (createComparison H env baseline candidate).EndsOnce (fun _ => True) fun _ => True := by
  have selected : ∀ {β : Type} (view : Store → β),
      (Program.select view : Db β).EndsOnce (fun _ => True) fun _ => False :=
    fun _ _ => trivial
  have looked : ∀ id, (getSessionRow id).EndsOnce (fun _ => True) fun _ => False := by
    intro id
    refine Program.EndsOnce.bind (selected _) (fun row _ => ?_) fun _ never => never.elim
    cases row <;> trivial
  have verified : ∀ session side,
      (verifiedArchiveChunks H session side).EndsOnce (fun _ => True) fun _ => False := by
    intro session side
    refine Program.EndsOnce.bind (selected _) (fun chunks _ => ?_) fun _ never => never.elim
    cases (archiveChunksOf H side session chunks).mapError Raised.upload <;> trivial
  rw [createComparison]
  refine (looked _).bind (fun left _ => ?_) fun _ never => never.elim
  refine (looked _).bind (fun right _ => ?_) fun _ never => never.elim
  split
  · trivial
  · split
    · trivial
    · refine (verified _ _).bind (fun leftChunks _ => ?_) fun _ never => never.elim
      refine (verified _ _).bind (fun rightChunks _ => ?_) fun _ never => never.elim
      split
      · trivial
      · refine (commit_endsOnce _).bind (fun _ never => never.elim) fun _ _ => ?_
        refine ⟨fun data => ?_, .of_all (fun _ => trivial) _⟩
        dsimp only [Program.bind]
        split <;> trivial

end EndsOnce

/-- Once its transaction has ended, a call only reads. -/
theorem call_quietAfter {db : Store} (sound : Sound H db) (call : Call) (rest : Db Reply)
    (ending : ((call.program H).settle (.opened db)).1 = .committed rest ∨
      ((call.program H).settle (.opened db)).1 = .rolledBack rest) : rest.Quiet := by
  have writing : ∀ {id}, call.WritesTo id → rest.Quiet := by
    intro id writes
    obtain writer | quiet := writes.writer (H := H) sessionRowView
    · exact writer.quietAfter db (sound.rows id) rest ending
    · exact quiet.settle_rest ending
  have once : ∀ {α : Type} {wrap : α → Reply} {program : Db α} {inside : α → Prop},
      (program.EndsOnce inside fun _ => True) → call.program H = wrap <$> program → rest.Quiet := by
    intro α wrap program inside ends named
    have mapped : (wrap <$> program).EndsOnce (fun _ => True) fun _ => True :=
      ends.bind (fun _ _ => trivial) fun _ _ => ⟨trivial, trivial⟩
    rw [named] at ending
    exact mapped.quietAfter ending
  obtain ⟨env, request⟩ := call
  cases request with
  | createSession totalBytes wholeSha256 =>
    exact once (createSession_endsOnce env totalBytes wholeSha256) rfl
  | createComparison baseline candidate =>
    exact once (createComparison_endsOnce env baseline candidate) rfl
  | putChunk _ _ _ _ _ => exact writing (.putChunk env _ _ _ _)
  | compactSealed _ _ => exact writing (.compactSealed env _)
  | _ => exact (Call.program_quiet rfl).settle_rest ending

/-! ## Clients that die -/

section Clients

variable {ι : Type} [DecidableEq ι]

variable (H lost) in
/-- The clients after a schedule, when client `i` dies after `life i` statements. -/
def runMortals (calls : ι → Call) (life : ι → Option Nat) (initial : Store) (schedule : List ι) :
    Clients ι :=
  (System.start (mortals lost (clientProgram H calls) life) initial).runSchedule sessionPresent schedule

variable (H) in
/-- The clients of the order that lived to the end of their transaction. -/
def committers (calls : ι → Call) (life : ι → Option Nat) (initial : Store) (order : List ι) : List ι :=
  survivors (clientProgram H calls) life order initial

variable (H lost) in
/-- What holds of clients that die after every schedule. -/
structure Survived (calls : ι → Call) (key : ι → String) (life : ι → Option Nat) (initial : Store)
    (sys : Clients ι) : Prop where
  /-- A call is in the tables as a whole or not at all. -/
  views : SameViews sys.committed
    (serveAll H ((committers H calls life initial (released key sys)).map calls) initial)
  sound : Sound H sys.committed
  kept : ∀ {id session}, initial.session? id = some session →
    ∃ ended, sys.committed.session? id = some ended ∧
      Evolves session (initial.rowsOf id).chunks ended (sys.committed.rowsOf id).chunks
  /-- The answer is the one of its call among those that lived, up to an acknowledgement that
      reads the session row again after its commit and shows a later stage (`Responds`). -/
  answers : ∀ {i answer}, sys.Answered i answer → answer ≠ .error lost → i ∈ sys.lockOrder →
    ∃ before after, committers H calls life initial sys.lockOrder = before ++ i :: after ∧
      Responds H calls initial before i after answer
  acknowledged : ∀ {i env start declaredLength chunkDigest payload reply},
    calls i = ⟨env, .putChunk (key i) start declaredLength chunkDigest payload⟩ →
      sys.Answered i (.ok reply) →
        ∃ session, Archived H (sys.committed.rowsOf (key i)) session start declaredLength chunkDigest
          payload
  noIntegrityError : ∀ {i batch next}, (sys.client i).program = .flush batch next →
    batch.rejects (sys.working i) ≠ some .integrityError

section Mortal

variable {calls : ι → Call} {key : ι → String} {life : ι → Option Nat} {initial : Store}
  {sys : Clients ι} (writers : ∀ i, (calls i).WritesTo (key i)) (sound : Sound H initial)
  (linear : Linear sessionView (mortals lost (clientProgram H calls) life) key initial
    DbError.integrityError sys)

include writers sound linear

omit [DecidableEq ι] in
/-- A put that has received its acknowledgement has released its row. -/
theorem mortal_put_releases {i : ι} {env : Env} {start declaredLength : Int} {chunkDigest : String}
    {payload : Bytes}
    (request : calls i = ⟨env, .putChunk (key i) start declaredLength chunkDigest payload⟩)
    {reply : Reply} (answered : sys.Answered i (.ok reply)) : sys.owner (key i) ≠ some i := by
  intro owns
  obtain ⟨-, midway, before, after, -, -, started⟩ := linear.held _ _ owns
  have workload := (clients_workload (H := H) writers sound).mortal lost life
  have rows : RowsSound H (sys.committed.rowsOf (key i)) := by
    rw [sessionView_rows started]
    exact workload.serial_invariant before (key i)
  have ending := midway.ending
  rw [answered] at ending
  change Ending.returned reply = ((((calls i).program H).mortal lost (life i)).settle
    (.opened sys.committed)).1 at ending
  cases lives : ((calls i).program H).outlives (.opened sys.committed) (life i) with
  | false =>
    rw [Program.settle_mortal_of_dies lives] at ending
    cases ending
  | true =>
    obtain ⟨left, settled⟩ := Program.settle_mortal_of_outlives lost lives
    rw [settled, request] at ending
    change _ = Ending.mortal lost left ((putChunk H env (key i) start declaredLength chunkDigest
      payload >>= fun body => Pure.pure (Reply.ack body)).settle (.opened sys.committed)).1 at ending
    rw [Program.settle_bind, settle_putChunk rows] at ending
    cases decided : putPlan H env (key i) start declaredLength chunkDigest payload
        (sys.committed.rowsOf (key i)) with
    | refuse _ | replay _ | append _ _ _ | auditFailed _ =>
      rw [decided] at ending
      cases ending

omit [DecidableEq ι] in
theorem mortal_answers {i : ι} {answer : Except Raised Reply} (answered : sys.Answered i answer)
    (received : answer ≠ .error lost) (ordered : i ∈ sys.lockOrder) :
    ∃ before after, committers H calls life initial sys.lockOrder = before ++ i :: after ∧
      Responds H calls initial before i after answer ∧
        (sys.owner (key i) ≠ some i →
          SeenAfter sessionView (clientProgram H calls) key initial before i after sys.committed) := by
  obtain ⟨before, after, split, may, seen⟩ :=
    linear.answers_mortal (clients_workload writers sound) answered received ordered
  exact ⟨before, after, split, responds_of_mayAnswer writers sound may, seen⟩

omit writers sound in
/-- A put that has received an answer has locked its row. -/
theorem mortal_put_ordered {i : ι} {env : Env} {start declaredLength : Int} {chunkDigest : String}
    {payload : Bytes}
    (request : calls i = ⟨env, .putChunk (key i) start declaredLength chunkDigest payload⟩)
    {reply : Reply} (answered : sys.Answered i (.ok reply)) : i ∈ sys.lockOrder := by
  by_cases ordered : i ∈ sys.lockOrder
  · exact ordered
  · obtain ⟨quiet, may⟩ := linear.answers_unordered answered ordered
    change (((calls i).program H).mortal lost (life i)).Quiet at quiet
    change (((calls i).program H).mortal lost (life i)).MayAnswer _ _ at may
    rw [request] at quiet may
    generalize life i = span at quiet may
    cases span with
    | none => exact quiet.elim
    | some count =>
      cases count with
      | zero => cases may
      | succ count => exact quiet.elim

/-- The bytes of a put that has received its acknowledgement are archived. -/
theorem mortal_acknowledged {i : ι} {env : Env} {start declaredLength : Int} {chunkDigest : String}
    {payload : Bytes}
    (request : calls i = ⟨env, .putChunk (key i) start declaredLength chunkDigest payload⟩)
    {reply : Reply} (answered : sys.Answered i (.ok reply)) :
    ∃ session, Archived H (sys.committed.rowsOf (key i)) session start declaredLength chunkDigest
      payload := by
  obtain ⟨before, after, -, responds, seen⟩ := mortal_answers writers sound linear answered
    (by rintro ⟨⟩) (mortal_put_ordered linear request answered)
  have stageSound := sound.later (Later.serveAll H (before.map calls) initial)
  have served := @serve_putChunk H env (serveAll H (before.map calls) initial) (key i) start
    declaredLength chunkDigest payload
  obtain ⟨body, acknowledged⟩ := responds.acknowledges request
  obtain ⟨-, _, archived⟩ := archived_of_acknowledged (stageSound.rows (key i)) acknowledged
  -- the committed row is that of the call itself or of a later stage
  obtain ⟨middle, later, -, same⟩ := seen (mortal_put_releases writers sound linear request answered)
  rw [serial_eq, List.map_append, List.map_cons, serveAll_append, request] at same
  rw [sessionView_rows same]
  change ∃ session, Archived H ((serveAll H (middle.map calls) (Call.serve H _ _).2).rowsOf _) _ _ _ _ _
  rw [served]
  have afterSound := stageSound.serve
    ⟨env, .putChunk (key i) start declaredLength chunkDigest payload⟩
  rw [served] at afterSound
  exact archived.later afterSound (Later.serveAll H _ _)

end Mortal

variable (lost) in
/-- Clients that die leave the work of those that lived, and break no promise. -/
theorem survived {calls : ι → Call} {key : ι → String} {initial : Store} (sound : Sound H initial)
    (writers : ∀ i, (calls i).WritesTo (key i)) (life : ι → Option Nat) (schedule : List ι) :
    Survived H lost calls key life initial (runMortals H lost calls life initial schedule) := by
  have workload := clients_workload (H := H) writers sound
  have linear := Linear.runSchedule (workload.mortal lost life) schedule
  change Linear _ _ _ _ _ (runMortals H lost calls life initial schedule) at linear
  generalize runMortals H lost calls life initial schedule = sys at linear
  have views : SameViews sys.committed
      (serveAll H ((committers H calls life initial (released key sys)).map calls) initial) := by
    intro id
    rw [← serial_eq]
    exact linear.committed_mortal workload id
  have serialSound := sound.later (Later.serveAll H
    ((committers H calls life initial (released key sys)).map calls) initial)
  refine {
    views := views
    sound := views.tables.sound serialSound
    kept := ?_
    answers := ?_
    acknowledged := fun request answered => mortal_acknowledged writers sound linear request answered
    noIntegrityError := fun flushes => linear.accepts (workload.mortal lost life) flushes }
  · intro id session found
    obtain ⟨ended, endedFound, evolves⟩ := evolves_of_later sound (Later.serveAll H _ initial) found
    refine ⟨ended, (sessionView_session (views id)).trans endedFound, ?_⟩
    rw [sessionView_rows (views id)]
    exact evolves
  · intro i answer answered received ordered
    obtain ⟨before, after, split, responds, -⟩ :=
      mortal_answers writers sound linear answered received ordered
    exact ⟨before, after, split, responds⟩

end Clients

/-! ## Lives of the process -/

variable (H lost) in
/-- One life of the process, from the tables it starts on to those it leaves: clients that
    write under some schedule, or one call alone. -/
inductive Lifetime (before : Store) : Store → Prop where
  | clients {ι : Type} [DecidableEq ι] (calls : ι → Call) (key : ι → String)
    (writers : ∀ i, (calls i).WritesTo (key i)) (life : ι → Option Nat) (schedule : List ι) :
    Lifetime before (runMortals H lost calls life before schedule).committed
  | alone (call : Call) (life : Option Nat) :
    Lifetime before (((call.program H).mortal lost life).run before).2

variable (H lost) in
/-- Any number of lives, one after another. -/
def Survives (before after : Store) : Prop :=
  Relation.ReflTransGen (Lifetime H lost) before after

/-- What one life leaves is what some calls leave that are served one after another. -/
theorem Lifetime.served {before after : Store} (lifetime : Lifetime H lost before after)
    (sound : Sound H before) : ∃ calls, SameViews after (serveAll H calls before) := by
  cases lifetime with
  | clients calls key writers life schedule =>
    exact ⟨_, (survived lost sound writers life schedule).views⟩
  | alone call life =>
    rw [Program.run_mortal lost life (call_quietAfter sound call)]
    split
    · exact ⟨[call], fun _ => rfl⟩
    · exact ⟨[], fun _ => rfl⟩

theorem Survives.served {before after : Store} (survives : Survives H lost before after)
    (sound : Sound H before) : ∃ calls, SameViews after (serveAll H calls before) := by
  induction survives with
  | refl => exact ⟨[], fun _ => rfl⟩
  | tail _ lifetime inductionHypothesis =>
    obtain ⟨calls, same⟩ := inductionHypothesis
    have middleSound := same.tables.sound (sound.later (Later.serveAll H calls before))
    obtain ⟨last, sameLast⟩ := lifetime.served middleSound
    refine ⟨calls ++ last, fun id => ?_⟩
    rw [serveAll_append]
    exact (sameLast id).trans (same.serveAll last id)

theorem Survives.sound {before after : Store} (survives : Survives H lost before after)
    (sound : Sound H before) : Sound H after := by
  obtain ⟨calls, same⟩ := survives.served sound
  exact same.tables.sound (sound.later (Later.serveAll H calls before))

/-- After any history of crashes, clients that die are serialisable. -/
theorem mortal_clients_serialisable {ι : Type} [DecidableEq ι] {calls : ι → Call} {key : ι → String}
    {initial : Store} (history : Survives H lost Store.empty initial)
    (writers : ∀ i, (calls i).WritesTo (key i)) (life : ι → Option Nat) (schedule : List ι) :
    Survived H lost calls key life initial (runMortals H lost calls life initial schedule) :=
  survived lost (history.sound Sound.empty) writers life schedule

/-- Two clients send the same byte. -/
def sendTwice (_ : Bool) : Call :=
  ⟨⟨"", 0, true⟩, .putChunk "s" 0 1 "d" [1]⟩

theorem sendTwice_writers (second : Bool) : (sendTwice second).WritesTo "s" :=
  .putChunk _ _ _ _ _

/-- The first of them dies once its row is staged. -/
def firstDies : Bool → Option Nat
  | false => some 2
  | true => none

def nobody : Raised := .database .operationalError

/-- A package of two bytes is registered, and the process restarts. -/
def restarted : Store :=
  serveAll (fun _ => "d") [⟨⟨"s", 0, true⟩, .createSession 2 "d"⟩] Store.empty

theorem restarted_survives : Survives (fun _ => "d") nobody Store.empty restarted :=
  .single (.alone ⟨⟨"s", 0, true⟩, .createSession 2 "d"⟩ none)

/-- The second client waits for the lock of the first, which dies with it. -/
def afterDeath : Clients Bool :=
  runMortals (fun _ => "d") nobody sendTwice firstDies restarted
    ([false, false, true, false] ++ List.replicate 6 true)

theorem mortal_clients_serialisable_death :
    committers (fun _ => "d") sendTwice firstDies restarted
        (released (fun _ => "s") afterDeath) = [true] ∧
      afterDeath.lockOrder = [false, true] ∧
      afterDeath.Answered true (.ok (.ack ⟨"s", .active, 0, 1, "d", 1, 1, 2, false⟩)) ∧
      Survived (fun _ => "d") nobody sendTwice (fun _ => "s") firstDies restarted afterDeath :=
  ⟨by decide, by decide, rfl,
    mortal_clients_serialisable restarted_survives sendTwice_writers firstDies _⟩

variable (H) in
/-- What is found after some lives of the process that started on `before`. -/
structure Recovered (before after : Store) : Prop where
  /-- A service that never crashed could have left these tables. -/
  crashFree : ∃ calls, SameTables after (serveAll H calls before)
  sound : Sound H after
  kept : ∀ {id session}, before.session? id = some session →
    ∃ ended, after.session? id = some ended ∧
      Evolves session (before.rowsOf id).chunks ended (after.rowsOf id).chunks
  archived : ∀ {id session start declaredLength chunkDigest payload},
    Archived H (before.rowsOf id) session start declaredLength chunkDigest payload →
      ∃ ended, Archived H (after.rowsOf id) ended start declaredLength chunkDigest payload
  records : before.comparisons <+: after.comparisons

/-- From one crash to any later one nothing that was committed is lost, and the tables are
    always those of a service that never crashed. -/
theorem restarts_recover {before after : Store} (history : Survives H lost Store.empty before)
    (survives : Survives H lost before after) : Recovered H before after := by
  have sound := history.sound Sound.empty
  obtain ⟨calls, same⟩ := survives.served sound
  have later := Later.serveAll H calls before
  refine {
    crashFree := ⟨calls, same.tables⟩
    sound := survives.sound sound
    kept := ?_
    archived := ?_
    records := ?_ }
  · intro id session found
    obtain ⟨ended, endedFound, evolves⟩ := evolves_of_later sound later found
    refine ⟨ended, (sessionView_session (same id)).trans endedFound, ?_⟩
    rw [sessionView_rows (same id)]
    exact evolves
  · intro id session start declaredLength chunkDigest payload archived
    rw [sessionView_rows (same id)]
    exact archived.later sound later
  · rw [same.comparisons]
    exact records_kept later

/-- The process restarts after the death of a client. -/
theorem restarts_recover_death : Recovered (fun _ => "d") restarted afterDeath.committed :=
  restarts_recover restarted_survives
    (.single (.clients sendTwice (fun _ => "s") sendTwice_writers firstDies _))

end

end SeismicIngest
