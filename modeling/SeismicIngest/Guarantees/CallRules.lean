import SeismicIngest.Transaction.Interference
import SeismicIngest.Guarantees.LockFreeReads
import SeismicIngest.Guarantees.Restarts

/-! # What the calls of the service count on

Calls of every kind run beside each other: puts and compactions under the lock of their
row, creations of rows that nobody else sees, comparisons and reads without a lock.  Every
call counts on the others serving whole calls (`Counts.served`); a creation and a
comparison count on their id being theirs, a writer on its row while it holds the lock.
On sound tables each call is safe by these rules (`call_safe`): what it commits is what
it would commit alone at that moment, and what it answers holds from then on.
-/

namespace SeismicIngest

open Transaction Spans

section

variable {H : Bytes → String} {ι : Type}

/-! ## The rules -/

/-- The rows of a session and its registration. -/
def packageView (id : String) (db : Store) : SessionRows × List UploadSession :=
  (db.rowsOf id, db.registered id)

def packageRowView : RowView packageView where
  rows := Prod.fst
  shows _ _ := rfl
  apply_congr := by
    intro id writes left right own same
    have rows : left.rowsOf id = right.rowsOf id := congrArg Prod.fst same
    have registered := Write.registered_applyAll writes id (congrArg Prod.snd same)
    simp only [packageView, Write.rowsOf_applyAll, rows, registered]
  apply_frame := by
    intro id other writes own different db
    simp only [packageView, Write.rowsOf_applyAll_other own different,
      Write.registered_applyAll_other own different]

/-- The row a call may lock: that of the session it is addressed to. -/
def Call.row (call : Call) : String :=
  call.addressee.getD ""

/-- The request stores a row under an id that its call draws. -/
def Request.draws : Request → Bool
  | .createSession _ _ | .createComparison _ _ => true
  | _ => false

variable (H) in
/-- What a call that is not over counts on from the others. -/
structure Counts (call : Call) (held : Bool) (before after : Store) : Prop where
  served : ∃ others, SameViews after (serveAll H others before)
  unused : call.request.draws = true → before.session? call.env.uuid = none →
    after.session? call.env.uuid = none
  record : call.request.draws = true →
    after.comparison? call.env.uuid = before.comparison? call.env.uuid
  row : held = true → packageView call.row before = packageView call.row after

/-- A session is registered for such a package. -/
def Registered (db : Store) (id : String) (totalBytes : Int) (wholeSha256 : String) : Prop :=
  ∃ session, db.session? id = some session ∧ session.totalBytes = totalBytes ∧
    session.wholeSha256 = wholeSha256

variable (H) in
/-- What a reply promises from then on. -/
def Call.Promises (call : Call) (reply : Reply) (db : Store) : Prop :=
  match call.request, reply with
  | .putChunk id start declaredLength chunkDigest payload, .ack _ =>
    ∃ session, Archived H (db.rowsOf id) session start declaredLength chunkDigest payload
  | .createSession totalBytes wholeSha256, .session row =>
    row.id = call.env.uuid ∧ Registered db call.env.uuid totalBytes wholeSha256
  | .createComparison _ _, .comparison record => db.comparison? call.env.uuid = some record
  | .putChunk _ _ _ _ _, _ | .createSession _ _, _ | .createComparison _ _, _ => False
  | _, _ => True

variable (H) in
def serviceRules (calls : ι → Call) : Rules ι Store Raised Reply where
  invariant := Sound H
  rely i := Counts H (calls i)
  guarantee i held before after :=
    SameViews after ((calls i).serve H before).2 ∧ (∀ id, (calls i).WritesTo id → held = true)
  answers i answer db := ∀ reply, answer = .ok reply → (calls i).Promises H reply db

/-! ## What one call leaves alone -/

section Serve

variable {db : Store} (call : Call) {id : String}

theorem serve_reads {call : Call} (reads : call.request.reads = true) : (call.serve H db).2 = db :=
  (Call.program_quiet reads).run_data db

/-- A call without an addressee registers nothing. -/
theorem serve_unaddressed {call : Call} (addressed : call.addressee = none) :
    packageView id (call.serve H db).2 = packageView id db := by
  obtain ⟨env, request⟩ := call
  cases request with
  | createComparison baseline candidate =>
    cases comparisonAdds (H := H) db env baseline candidate with
    | recorded record _ _ served =>
      rw [served]
      rfl
    | refused exception served => rw [served]
  | listSessions _ _ _ _ | getComparison _ => rw [serve_reads rfl]
  | _ => cases addressed

/-- An id that is not in use stays so, unless a creation draws it. -/
theorem serve_unused (unused : db.session? id = none)
    (draws : call.request.draws = true → call.env.uuid ≠ id) :
    (call.serve H db).2.session? id = none := by
  cases addressed : call.addressee with
  | none =>
    have same := @serve_unaddressed H db id call addressed
    exact (congrArg (fun seen => seen.1.row) same).trans unused
  | some other =>
    by_cases own : other = id
    · subst own
      obtain ⟨env, request⟩ := call
      have writes : ∀ {call : Call}, call.WritesTo other → (call.serve H db).2 = db := by
        intro call writes
        obtain writer | quiet := writes.writer (H := H) sessionRowView
        · -- the first statement finds no row
          obtain ⟨next, starts, absent⟩ := writer.locksFirst
          obtain ⟨exception, raises⟩ := absent db (by rw [sessionPresent, unused]; rfl)
          rw [Call.serve, starts]
          change ((next db).run db).2 = db
          rw [raises]
          rfl
        · exact quiet.run_data db
      cases request with
      | createSession _ _ => exact absurd (Option.some.inj addressed) (draws rfl)
      | putChunk _ _ _ _ _ =>
        obtain rfl := Option.some.inj addressed
        rw [writes (.putChunk _ _ _ _ _)]
        exact unused
      | compactSealed _ _ =>
        obtain rfl := Option.some.inj addressed
        rw [writes (.compactSealed _ _)]
        exact unused
      | createComparison _ _ | listSessions _ _ _ _ | getComparison _ => cases addressed
      | _ =>
        rw [serve_reads rfl]
        exact unused
    · exact (congrArg SessionRows.row ((isolated addressed).others id (Ne.symm own)).1).trans unused

/-- A session that is there is changed only by those that write to it. -/
theorem serve_present (sound : Sound H db) (present : (db.session? id).isSome) (others : ¬ call.WritesTo id) :
    packageView id (call.serve H db).2 = packageView id db := by
  cases addressed : call.addressee with
  | none => exact serve_unaddressed addressed
  | some other =>
    by_cases own : other = id
    · subst own
      obtain ⟨env, request⟩ := call
      cases request with
      | createSession totalBytes wholeSha256 =>
        obtain rfl := Option.some.inj addressed
        obtain ⟨session, found⟩ := Option.isSome_iff_exists.mp present
        rw [serve_createSession]
        obtain ⟨taken, -⟩ | ⟨-, _, -, run⟩ := run_createSession env wholeSha256 (sound.rows env.uuid)
          (Int.natCast_nonneg totalBytes)
        · exact (taken.notFound rfl found).elim
        · rw [run]
      | putChunk _ _ _ _ _ =>
        obtain rfl := Option.some.inj addressed
        exact absurd (.putChunk _ _ _ _ _) others
      | compactSealed _ _ =>
        obtain rfl := Option.some.inj addressed
        exact absurd (.compactSealed _ _) others
      | createComparison _ _ | listSessions _ _ _ _ | getComparison _ => cases addressed
      | _ => rw [serve_reads rfl]
    · have frame : Isolated H db call other := isolated addressed
      obtain ⟨rows, registered⟩ := frame.others id (Ne.symm own)
      exact Prod.ext rows registered

/-- A record is added only under an id that is drawn. -/
theorem serve_record (draws : call.request.draws = true → call.env.uuid ≠ id) :
    (call.serve H db).2.comparison? id = db.comparison? id := by
  cases addressed : call.addressee with
  | some other =>
    rw [Store.comparison?, (isolated addressed).comparisons]
    rfl
  | none =>
    obtain ⟨env, request⟩ := call
    cases request with
    | createComparison baseline candidate =>
      cases comparisonAdds (H := H) db env baseline candidate with
      | recorded record drawn _ served =>
        have other : record.id ≠ id := by
          rw [drawn]
          exact draws rfl
        rw [served]
        simp [Store.comparison?, List.find?_append, other]
      | refused exception served => rw [served]
    | listSessions _ _ _ _ | getComparison _ => rw [serve_reads rfl]
    | _ => cases addressed

end Serve

/-! ## The rules fit together -/

section Counts

variable {call : Call} {held : Bool} {before after : Store}

theorem Counts.refl (db : Store) : Counts H call held db db :=
  ⟨⟨[], fun _ => rfl⟩, fun _ unused => unused, fun _ => rfl, fun _ => rfl⟩

theorem Counts.trans {third : Store} (earlier : Counts H call held before after)
    (later : Counts H call held after third) : Counts H call held before third where
  served := by
    obtain ⟨first, same⟩ := earlier.served
    obtain ⟨second, sameLater⟩ := later.served
    refine ⟨first ++ second, fun id => ?_⟩
    rw [serveAll_append]
    exact (sameLater id).trans (same.serveAll second id)
  unused draws unused := later.unused draws (earlier.unused draws unused)
  record draws := (later.record draws).trans (earlier.record draws)
  row owns := (earlier.row owns).trans (later.row owns)

variable (sound : Sound H before) (counts : Counts H call held before after)

include counts

theorem Counts.stage : ∃ stage, Later H before stage ∧ SameViews after stage := by
  obtain ⟨others, same⟩ := counts.served
  exact ⟨_, Later.serveAll H others before, same⟩

include sound

/-- A session that is there stays, and only evolves. -/
theorem Counts.evolves {id : String} {session : UploadSession}
    (found : before.session? id = some session) :
    ∃ ended, after.session? id = some ended ∧
      Evolves session (before.rowsOf id).chunks ended (after.rowsOf id).chunks := by
  obtain ⟨stage, later, same⟩ := counts.stage
  obtain ⟨ended, endedFound, evolves⟩ := evolves_of_later sound later found
  refine ⟨ended, (sessionView_session (same id)).trans endedFound, ?_⟩
  rw [sessionView_rows (same id)]
  exact evolves

theorem Counts.unused_before {id : String} (unused : after.session? id = none) :
    before.session? id = none := by
  cases found : before.session? id with
  | none => rfl
  | some session =>
    obtain ⟨ended, endedFound, -⟩ := counts.evolves sound found
    rw [unused] at endedFound
    cases endedFound

theorem Counts.registered {id : String} {totalBytes : Int} {wholeSha256 : String}
    (stored : Registered before id totalBytes wholeSha256) :
    Registered after id totalBytes wholeSha256 := by
  obtain ⟨session, found, total, whole⟩ := stored
  obtain ⟨ended, endedFound, evolves⟩ := counts.evolves sound found
  exact ⟨ended, endedFound, evolves.total.trans total, evolves.whole.trans whole⟩

theorem Counts.archived {id : String} {start declaredLength : Int} {chunkDigest : String}
    {payload : Bytes} (archived : ∃ session,
      Archived H (before.rowsOf id) session start declaredLength chunkDigest payload) :
    ∃ session, Archived H (after.rowsOf id) session start declaredLength chunkDigest payload := by
  obtain ⟨stage, later, same⟩ := counts.stage
  obtain ⟨session, archived⟩ := archived
  obtain ⟨ended, still⟩ := archived.later sound later
  exact ⟨ended, by rw [sessionView_rows (same id)]; exact still⟩

/-- What has been promised still holds. -/
theorem Counts.promised {reply : Reply} (promised : call.Promises H reply before) :
    call.Promises H reply after := by
  obtain ⟨env, request⟩ := call
  cases request with
  | putChunk id start declaredLength chunkDigest payload =>
    cases reply with
    | ack body => exact counts.archived sound promised
    | _ => exact promised.elim
  | createSession totalBytes wholeSha256 =>
    cases reply with
    | session row => exact ⟨promised.1, counts.registered sound promised.2⟩
    | _ => exact promised.elim
  | createComparison baseline candidate =>
    cases reply with
    | comparison record => exact (counts.record rfl).trans promised
    | _ => exact promised.elim
  | _ => trivial

end Counts

section

variable {calls : ι → Call}

variable (calls) in
/-- No two calls draw the same id. -/
def DrawApart : Prop :=
  ∀ i j, i ≠ j → (calls i).request.draws = true → (calls j).request.draws = true →
    (calls i).env.uuid ≠ (calls j).env.uuid

theorem Call.WritesTo.addressee {id : String} {call : Call} (writes : call.WritesTo id) :
    call.addressee = some id := by
  cases writes <;> rfl

theorem Call.WritesTo.row {id : String} {call : Call} (writes : call.WritesTo id) : call.row = id := by
  rw [Call.row, writes.addressee]
  rfl

theorem serviceRules_lawful (apart : DrawApart calls) :
    (serviceRules H calls).Lawful sessionPresent fun i => (calls i).row where
  refl := fun _ => .refl _
  trans := .trans
  weaken := fun counts => ⟨counts.served, counts.unused, counts.record, nofun⟩
  stays := fun counts here => (present_congr packageRowView (counts.row rfl)).symm.trans here
  kept := by
    intro i before after answer finds promised reply same
    exact Counts.promised finds.valid finds.counts (promised reply same)
  preserved := fun sound guarantees => guarantees.1.tables.sound (sound.serve _)
  others := by
    rintro i j held other before after different sound present separate ⟨same, locked⟩
    have drawn : ∀ {id}, (calls i).request.draws = true → (calls i).env.uuid = id →
        (calls j).request.draws = true → (calls j).env.uuid ≠ id := by
      rintro id draws rfl otherDraws
      exact apart j i different.symm otherDraws draws
    refine ⟨⟨[calls j], same⟩, fun draws unused => ?_, fun draws => ?_, fun owns => ?_⟩
    · exact (sessionView_session (same _)).trans (serve_unused _ unused (drawn draws rfl))
    · rw [Store.comparison?, same.comparisons]
      exact serve_record _ (drawn draws rfl)
    · -- the holder of the lock is the only one to write to the row
      have others : ¬ (calls j).WritesTo (calls i).row := fun writes =>
        separate owns (locked _ writes) writes.row.symm
      have left := serve_present (calls j) sound (present owns) others
      refine left.symm.trans (Prod.ext ?_ ?_)
      · exact (sessionView_rows (same _)).symm
      · exact (congrArg SessionView.registered (same _)).symm

/-! ## Writers -/

section Writers

variable {i : ι} {db : Store}

/-- What a client of a row has staged is what its call would leave alone. -/
theorem midway_serves {rest : Db Reply} {staged : Store → Store} (sound : Sound H db)
    (midway : Midway packageView (clientProgram H calls) (fun i => (calls i).row)
      DbError.integrityError db ⟨.commit rest, staged⟩ i)
    (keeps : (⟨.commit rest, staged⟩ : Client Store String DbError Raised Reply).Keeps
      Store.comparisons)
    (addressed : (calls i).addressee = some (calls i).row) :
    rest.Quiet ∧ SameViews (staged db) ((calls i).serve H db).2 := by
  have ending : Ending.committed rest = (((calls i).program H).settle (.opened db)).1 := midway.ending
  have quiet := call_quietAfter sound (calls i) rest (.inl ending.symm)
  have run : ((calls i).serve H db).2 = (((calls i).program H).settle (.opened db)).2.working := by
    rw [Call.serve, Program.run_of_committed ending.symm, quiet.run_data]
  have own : packageView (calls i).row (staged db) = packageView (calls i).row ((calls i).serve H db).2 := by
    rw [run]
    exact midway.working
  refine ⟨quiet, fun id => ?_⟩
  have view : packageView id (staged db) = packageView id ((calls i).serve H db).2 := by
    by_cases same : id = (calls i).row
    · rw [same]
      exact own
    · exact (midway.staged_frame id same db).trans (midway.callLocal.run_frame same db).symm
  have comparisons : (staged db).comparisons = ((calls i).serve H db).2.comparisons :=
    (keeps.staged db).trans (isolated addressed).comparisons.symm
  change SessionView.mk _ _ _ = SessionView.mk _ _ _
  rw [comparisons]
  exact congrArg (fun seen : SessionRows × List UploadSession => SessionView.mk seen.1 seen.2 _) view

/-- The bytes of a put that has been acknowledged are archived. -/
theorem put_promised {call : Call} {env : Env} {id : String} {start declaredLength : Int}
    {chunkDigest : String} {payload : Bytes}
    (request : call = ⟨env, .putChunk id start declaredLength chunkDigest payload⟩)
    (sound : Sound H db) {left : Store} (same : SameViews left (call.serve H db).2)
    {seen : Store → Prop} (since : ∀ found, seen found → ∃ others, SameViews found (serveAll H others left))
    {reply : Reply} (may : ((call.program H).settle (.opened db)).1.MayAnswer seen (.ok reply)) :
    call.Promises H reply left := by
  subst request
  rw [serve_putChunk] at same
  obtain ⟨result, answers, named⟩ := Ending.mayAnswer_map may
  have lasting : ∀ found, seen found → ∃ stage,
      Later H ((putChunk H env id start declaredLength chunkDigest payload).run db).2 stage ∧
        found.session? id = stage.session? id := by
    intro found seenFound
    obtain ⟨others, later⟩ := since found seenFound
    exact ⟨_, Later.serveAll H others _,
      sessionView_session ((later id).trans (same.serveAll others id))⟩
  have accepted : ∃ body,
      ((putChunk H env id start declaredLength chunkDigest payload).run db).1 = .ok body := by
    obtain serial | ⟨session, _, _, -, -, -, serial, -⟩ := put_mayAnswer sound lasting answers
    · cases result with
      | ok body => exact ⟨body, serial.symm⟩
      | error exception => cases named
    · exact ⟨_, serial⟩
  obtain ⟨body, accepted⟩ := accepted
  obtain ⟨-, session, archived⟩ := archived_of_acknowledged (sound.rows id) accepted
  cases result with
  | ok body =>
    obtain rfl : reply = .ack body := Except.ok.inj named
    exact ⟨session, by rw [sessionView_rows (same id)]; exact archived⟩
  | error exception => cases named

/-- A writer locks its row, or is refused without a statement. -/
theorem Call.WritesTo.begins {sessionId : String} {call : Call} (writes : call.WritesTo sessionId) :
    Writer packageView sessionPresent (fun seen => RowsSound H seen.1) DbError.integrityError sessionId
        (call.program H) ∨ ∃ exception, call.program H = .raise exception := by
  cases writes with
  | putChunk env start declaredLength chunkDigest payload =>
    exact .inl ((putChunk_writer packageRowView env start declaredLength chunkDigest payload).map _)
  | compactSealed env target =>
    by_cases positive : 0 < target
    · exact .inl ((compactSealed_writer packageRowView env positive).map _)
    · refine .inr ⟨.upload (invalidTarget target), ?_⟩
      change Reply.compacted <$> SeismicIngest.compactSealed H env sessionId target = _
      rw [compactSealed_invalid env (Int.not_lt.mp positive)]
      rfl

variable (apart : DrawApart calls) {sessionId : String} (writes : (calls i).WritesTo sessionId)

include writes

/-- What a writer promises, from the end of its transaction on. -/
theorem writer_promised (sound : Sound H db) {left : Store}
    (same : SameViews left ((calls i).serve H db).2) {reply : Reply}
    (may : (((calls i).program H).settle (.opened db)).1.MayAnswer
      ((serviceRules H calls).Finds i false left) (.ok reply)) :
    (calls i).Promises H reply left := by
  have since : ∀ found, (serviceRules H calls).Finds i false left found →
      ∃ others, SameViews found (serveAll H others left) := fun _ finds => finds.counts.served
  generalize request : calls i = call at *
  cases writes with
  | putChunk env start declaredLength chunkDigest payload =>
    exact put_promised rfl sound same since may
  | compactSealed env target => trivial

include apart

/-- A writer concludes by the rules. -/
theorem writer_concludes {client : Client Store String DbError Raised Reply} (sound : Sound H db)
    (midway : Midway packageView (clientProgram H calls) (fun i => (calls i).row)
      DbError.integrityError db client i) (keeps : client.Keeps Store.comparisons) :
    client.Concludes (serviceRules H calls) i db := by
  have addressed : (calls i).addressee = some (calls i).row := by rw [writes.addressee, writes.row]
  have lawful := serviceRules_lawful (H := H) apart
  have ending := midway.ending
  obtain ⟨program, staged⟩ := client
  cases program with
  | pure result =>
    change Ending.returned result = (((calls i).program H).settle (.opened db)).1 at ending
    rintro reply ⟨⟩
    refine writer_promised writes sound (fun id => ?_) (by rw [← ending]; rfl)
    rw [Call.serve, Program.run_of_returned ending.symm]
  | raise exception =>
    rintro reply ⟨⟩
  | commit rest =>
    change Ending.committed rest = (((calls i).program H).settle (.opened db)).1 at ending
    obtain ⟨quiet, same⟩ := midway_serves sound midway keeps addressed
    refine ⟨⟨same, fun _ _ => rfl⟩, Program.Quiet.reports lawful quiet fun answer may => ?_⟩
    rintro reply rfl
    exact writer_promised writes sound same (by rw [← ending]; exact may)
  | rollback rest =>
    change Ending.rolledBack rest = (((calls i).program H).settle (.opened db)).1 at ending
    have quiet := call_quietAfter sound (calls i) rest (.inr ending.symm)
    refine Program.Quiet.reports lawful quiet fun answer may => ?_
    rintro reply rfl
    refine writer_promised writes sound (fun id => ?_) (by rw [← ending]; exact may)
    rw [Call.serve, Program.run_of_rolledBack ending.symm, quiet.run_data]
  | _ => trivial

theorem writer_safe (db : Store) :
    (clientProgram H calls i).Safe (serviceRules H calls) i sessionPresent (calls i).row false id db := by
  obtain writer | ⟨exception, refused⟩ := writes.begins (H := H)
  · rw [← writes.row] at writer
    have sound : ∀ {data}, (serviceRules H calls).invariant data →
        RowsSound H (packageView (calls i).row data).1 := fun sound => Sound.rows sound _
    have frozen : ∀ {before after}, (serviceRules H calls).rely i true before after →
        packageView (calls i).row before = packageView (calls i).row after :=
      fun counts => Counts.row counts rfl
    exact @Writer.safe _ _ _ _ _ _ _ _ (serviceRules H calls) i packageView (clientProgram H calls)
      (fun i => (calls i).row) DbError.integrityError sessionPresent Store.comparisons _ writer
      writes.keeps_comparisons sound (fun _ _ _ => nofun) frozen
      (fun sound midway keeps => writer_concludes apart writes sound midway keeps) db
  · rw [clientProgram, refused]
    exact fun _ => nofun

end Writers

/-! ## Calls without a lock -/

theorem promises_read {call : Call} (reads : call.request.reads = true) (reply : Reply) (db : Store) :
    call.Promises H reply db := by
  obtain ⟨env, request⟩ := call
  cases request with
  | createSession _ _ | putChunk _ _ _ _ _ | compactSealed _ _ | createComparison _ _ => cases reads
  | _ => trivial

section Unlocked

variable {i : ι} {db : Store} (apart : DrawApart calls)

include apart

/-- A read is safe, whatever it finds. -/
theorem read_safe (reads : (calls i).request.reads = true) :
    (clientProgram H calls i).Safe (serviceRules H calls) i sessionPresent (calls i).row false id db := by
  have quiet : (clientProgram H calls i).Quiet := Call.program_quiet reads
  exact Program.Quiet.safe (serviceRules_lawful (H := H) apart) quiet
    fun _ _ _ _ => promises_read reads _ _

omit apart in
/-- An error promises nothing. -/
theorem promises_error {α : Type} {rename : α → Reply} (exception : Raised) (db : Store) :
    ((serviceRules H calls).through rename).answers i (.error exception) db := by
  intro reply same
  cases same

/-! ### Statements -/

section Statements

variable {α : Type} {rules : Rules ι Store Raised α} {row : String} {held : Bool}
variable (raises : ∀ exception db, rules.answers i (.error exception) db)

include raises

omit apart in
/-- A commit flushes first; what it commits then is what has been flushed. -/
theorem commit_safe {writes : List Write} {next : Unit → Db α} {staged : Store → Store}
    (commits : ∀ found, rules.Finds i held db found → Write.rejectsAll writes (staged found) = none →
      ∀ later, rules.Finds i held found later →
        rules.guarantee i held later (Write.applyAll writes (staged later)) ∧
          (next ()).Reports rules i (Write.applyAll writes (staged later))) :
    (Db.commit writes >>= next).Safe rules i sessionPresent row held staged db := by
  intro found finds
  have verdict : (pending writes).rejects (staged found) = Write.rejectsAll writes (staged found) := rfl
  cases refused : Write.rejectsAll writes (staged found) with
  | none =>
    rw [verdict, refused]
    exact fun later meets => commits found finds refused later meets
  | some error =>
    rw [verdict, refused]
    exact raises _ _

omit apart in
/-- An audit row is flushed with the changes of its session, or the transaction ends. -/
theorem addAudit_safe {env : Env} {changes : List Write} {session : UploadSession} {event : AuditKind}
    {totalBytes : Int} {wholeSha256 : String} {target before after : Option Int} {next : Unit → Db α}
    (goes : ∀ first second, rules.Finds i held db first → rules.Finds i held first second →
      env.auditAccepted = true →
      let writes := changes ++ [.insertAudit (auditRow env (first.maxSequence session.id + 1) session
        event totalBytes wholeSha256 target before after)]
      Write.rejectsAll writes second = none →
        (next ()).Safe rules i sessionPresent row held (Write.applyAll writes) second) :
    (addAudit env changes session event totalBytes wholeSha256 target before after >>= next).Safe rules
      i sessionPresent row held id db := by
  intro first findsFirst second findsSecond
  have going := goes first second findsFirst findsSecond
  generalize verdict : (auditBatch env _).rejects (id second) = answer
  cases answer with
  | some error => exact fun later meets => raises _ _
  | none =>
    change (if env.auditAccepted then Write.rejectsAll _ second else some .operationalError) = none
      at verdict
    split at verdict
    · rename_i audit
      exact going audit verdict
    · cases verdict

omit apart in
/-- The row of a session, and what is done with it. -/
theorem getSessionRow_safe {id : String} {next : UploadSession → Db α}
    (goes : ∀ found session, rules.Finds i held db found → found.session? id = some session →
      (next session).Safe rules i sessionPresent row held (fun data => data) found) :
    (getSessionRow id >>= next).Safe rules i sessionPresent row held (fun data => data) db := by
  intro found finds
  cases stored : found.session? id with
  | none =>
    simp only [Program.bind, stored]
    exact raises _ _
  | some session =>
    simp only [Program.bind, stored]
    exact goes found session finds stored

end Statements

/-! ### Creations -/

section Creation

variable {env : Env} {totalBytes : Nat} {wholeSha256 : String}
variable (request : calls i = ⟨env, .createSession totalBytes wholeSha256⟩)

include request

omit apart in
/-- What a creation commits that has found its id unused. -/
theorem creation_commits (sound : Sound H db)
    (taken : CreationTaken env (createdSession H env totalBytes wholeSha256) db) :
    let session := createdSession H env totalBytes wholeSha256
    (serviceRules H calls).guarantee i false db (Write.applyAll (creationWrites H env session) db) ∧
      Registered (Write.applyAll (creationWrites H env session) db) env.uuid totalBytes wholeSha256 := by
  intro session
  have own : session.id = env.uuid := createdSession_id env totalBytes wholeSha256
  have rows := rowsOf_creation env (sound.rows session.id) taken.1
  refine ⟨⟨fun id => ?_, fun id writes => ?_⟩, session, ?_,
    createdSession_totalBytes env totalBytes wholeSha256,
    createdSession_wholeSha256 env totalBytes wholeSha256⟩
  · rw [request, serve_createSession]
    obtain ⟨-, run⟩ | ⟨refused, -⟩ := run_createSession env wholeSha256 (sound.rows env.uuid)
      (Int.natCast_nonneg totalBytes)
    · rw [run]
    · exact absurd taken refused
  · rw [request] at writes
    cases writes
  · rw [← own]
    exact congrArg SessionRows.row rows

omit apart in
/-- After the commit the session is read back. -/
theorem refresh_reports {session : UploadSession} {left : Store} (own : session.id = env.uuid)
    (stored : Registered left env.uuid totalBytes wholeSha256) :
    (Db.refresh session).Reports ((serviceRules H calls).through .session) i left := by
  intro found finds
  cases row : found.session? session.id with
  | none =>
    simp only [Program.bind, row]
    exact promises_error _ _
  | some other =>
    simp only [Program.bind, row]
    rintro reply ⟨⟩
    rw [request]
    exact ⟨(session?_id row).trans own, finds.counts.registered finds.valid stored⟩

section Shapes

variable {session : UploadSession} (own : session = createdSession H env totalBytes wholeSha256)

include own

omit apart request in
theorem created_fresh {writes : List Write}
    (accepted : Write.rejectsAll (.insertSession session :: writes) db = none) :
    db.session? env.uuid = none ∧ session.totalBytes < 2 ^ 63 := by
  subst own
  have nonneg : 0 ≤ (createdSession H env totalBytes wholeSha256).totalBytes := by simp
  have rejects := rejects_insertSession _ db nonneg
    (createdSession_confirmedOffset env totalBytes wholeSha256)
  rw [createdSession_id] at rejects
  rw [Write.rejectsAll] at accepted
  cases verdict : (Write.insertSession (createdSession H env totalBytes wholeSha256)).rejects db with
  | none => exact rejects.mp verdict
  | some error =>
    rw [verdict] at accepted
    cases accepted

omit apart in
/-- A creation that is not sealed at once. -/
theorem insert_safe (plain : session.status ≠ .sealed) {next : Unit → Db UploadSession}
    (reports : ∀ left, Registered left env.uuid totalBytes wholeSha256 →
      (next ()).Reports ((serviceRules H calls).through .session) i left) :
    (Db.commit [.insertSession session] >>= next).Safe ((serviceRules H calls).through .session) i
      sessionPresent (calls i).row false id db := by
  refine commit_safe promises_error fun found finds accepted later meets => ?_
  obtain ⟨fresh, inRange⟩ := created_fresh own accepted
  have unused := meets.counts.unused (by rw [request]; rfl)
  rw [request] at unused
  have writes : creationWrites H env session = [.insertSession session] := by
    simp [creationWrites, creationAudits, plain]
  subst own
  have taken : CreationTaken env (createdSession H env totalBytes wholeSha256) later :=
    ⟨by rw [createdSession_id]; exact unused fresh, inRange, fun isSealed => absurd isSealed plain⟩
  obtain ⟨guarantees, stored⟩ := creation_commits (H := H) request meets.found taken
  rw [writes] at guarantees stored
  exact ⟨guarantees, reports _ stored⟩

omit apart in
/-- A creation that is sealed at once, with its audit row. -/
theorem createSealed_safe (isSealed : session.status = .sealed) :
    (createSealed H env session).Safe ((serviceRules H calls).through .session) i sessionPresent
      (calls i).row false id db := by
  refine addAudit_safe promises_error fun first second findsFirst findsSecond audit accepted => ?_
  obtain ⟨fresh, inRange⟩ := created_fresh own accepted
  subst own
  have unused : ∀ {before after}, ((serviceRules H calls).through .session).Finds i false before after →
      before.session? env.uuid = none → after.session? env.uuid = none := by
    intro before after meets
    have stays := meets.counts.unused (by rw [request]; rfl)
    rw [request] at stays
    exact stays
  -- no audit row was stored under the id when the number was drawn
  have number : first.maxSequence (createdSession H env totalBytes wholeSha256).id + 1 = 1 := by
    have before := Counts.unused_before findsSecond.valid findsSecond.counts fresh
    rw [createdSession_id, maxSequence_eq, (findsSecond.valid.rows env.uuid).unused before]
    rfl
  rw [number, ← creationWrites_sealed isSealed]
  refine commit_safe promises_error fun third findsThird _ later meets => ?_
  have taken : CreationTaken env (createdSession H env totalBytes wholeSha256) later :=
    ⟨by rw [createdSession_id]; exact unused meets (unused findsThird fresh), inRange,
      fun _ => audit⟩
  obtain ⟨guarantees, stored⟩ := creation_commits (H := H) request meets.found taken
  exact ⟨guarantees, refresh_reports request (createdSession_id env totalBytes wholeSha256) stored⟩

end Shapes

omit apart in
theorem creation_safe :
    (clientProgram H calls i).Safe (serviceRules H calls) i sessionPresent (calls i).row false id db := by
  have named : clientProgram H calls i = .session <$> createSession H env totalBytes wholeSha256 := by
    rw [clientProgram, request]
    rfl
  rw [named]
  refine Program.Safe.map ?_
  by_cases empty : totalBytes = 0
  · subst empty
    by_cases same : wholeSha256 = emptySha256 H
    · have isSealed := congrArg UploadSession.status (createdSession_sealed (H := H) env wholeSha256 same)
      rw [Int.natCast_zero, createSession_sealing env wholeSha256 same]
      exact createSealed_safe request rfl isSealed
    · have isFailed := createdSession_failed env wholeSha256 same
      rw [Int.natCast_zero, createSession_failing env wholeSha256 same]
      exact insert_safe request rfl (by simp [isFailed]) fun _ _ => promises_error _ _
  · have isOpen := createdSession_open (H := H) env (totalBytes : Int) wholeSha256 (by omega)
    rw [createSession_opening env wholeSha256 (by omega)]
    exact insert_safe request rfl (by simp [isOpen]) fun _ stored =>
      refresh_reports request (createdSession_id env totalBytes wholeSha256) stored

end Creation

/-! ### Comparisons -/

section Comparing

variable {env : Env} {baselineId candidateId : String}
variable (request : calls i = ⟨env, .createComparison baselineId candidateId⟩)

omit apart in
/-- A sealed package stays, in some layout. -/
theorem Package.counts {call : Call} {held : Bool} {session : UploadSession} {content : Bytes}
    {before after : Store} (sound : Sound H before) (soundAfter : Sound H after)
    (counts : Counts H call held before after) (package : Package H session content before) :
    Package H session content after := by
  obtain ⟨ended, endedFound, evolves⟩ := counts.evolves sound package.found
  obtain ⟨rfl, same⟩ := evolves.frozen (by simp [package.isSealed])
  have later := (soundAfter.rows _).package endedFound package.isSealed
  rwa [same, ← (sound.rows _).chunksOf package.found, package.holds] at later

include request

omit apart in
/-- The record of two packages is stored as it would be alone. -/
theorem keepRecord_safe {baseline candidate : UploadSession} {left right : Bytes}
    (baselineId_eq : baselineId = baseline.id) (candidateId_eq : candidateId = candidate.id)
    (baselines : Package H baseline left db) (candidates : Package H candidate right db)
    (sound : Sound H db) :
    (keepRecord (contentRecord env baseline candidate left right)).Safe
      ((serviceRules H calls).through .comparison) i sessionPresent (calls i).row false id db := by
  subst baselineId_eq candidateId_eq
  have recorded : ∀ {before after}, ((serviceRules H calls).through .comparison).Finds i false before after →
      after.comparison? env.uuid = before.comparison? env.uuid := by
    intro before after finds
    have stays := finds.counts.record (by rw [request]; rfl)
    rwa [request] at stays
  refine commit_safe promises_error fun found finds accepted later meets => ⟨⟨fun id => ?_, ?_⟩, ?_⟩
  · -- alone, the call finds the same packages and an unused id
    have fresh : found.comparison? env.uuid = none := by
      cases verdict : (Write.insertComparison (contentRecord env baseline candidate left right)).rejects
          found with
      | none => exact insertComparison_fresh verdict
      | some error =>
        change (Write.rejectsAll [.insertComparison _] found) = none at accepted
        rw [Write.rejectsAll, verdict] at accepted
        cases accepted
    have lefts := (baselines.counts sound finds.found finds.counts).counts finds.found meets.found
      meets.counts
    have rights := (candidates.counts sound finds.found finds.counts).counts finds.found meets.found
      meets.counts
    rw [request, serve_createComparison, run_createComparison_contents meets.found lefts.found rights.found
      lefts.isSealed rights.isSealed, recorded meets, fresh,
      ← (meets.found.rows _).chunksOf lefts.found, ← (meets.found.rows _).chunksOf rights.found,
      lefts.holds, rights.holds]
    rfl
  · intro id writes
    rw [request] at writes
    cases writes
  · intro last ends
    cases stored : last.comparison? (contentRecord env baseline candidate left right).id with
    | none =>
      simp only [Program.bind, stored]
      exact promises_error _ _
    | some record =>
      simp only [Program.bind, stored]
      rintro reply ⟨⟩
      rw [request]
      exact stored

omit apart request in
/-- A side is read in some layout of its package. -/
theorem verifiedArchiveChunks_safe {rules : Rules ι Store Raised Comparison} {session : UploadSession}
    {content : Bytes} {side : String} {next : List Chunk → Db Comparison} {held : Bool}
    (packages : ∀ found, rules.Finds i held db found → Package H session content found)
    (goes : ∀ found audits, rules.Finds i held db found →
      Consistent H session (found.chunksOf session.id) audits → contentOf (found.chunksOf session.id) = content →
        (next (found.chunksOf session.id)).Safe rules i sessionPresent (calls i).row held id found) :
    (verifiedArchiveChunks H session side >>= next).Safe rules i sessionPresent (calls i).row held id db := by
  intro found finds
  have package := packages found finds
  obtain ⟨audits, consistent⟩ := package.consistent
  simp only [id, Program.bind, archiveChunksOf_certified package.certified]
  exact goes found audits finds consistent package.holds

omit apart in
theorem comparison_safe :
    (clientProgram H calls i).Safe (serviceRules H calls) i sessionPresent (calls i).row false id db := by
  have named : clientProgram H calls i = .comparison <$> createComparison H env baselineId candidateId := by
    rw [clientProgram, request]
    rfl
  rw [named]
  refine Program.Safe.map ?_
  refine getSessionRow_safe promises_error fun first baseline findsFirst baselineFound => ?_
  refine getSessionRow_safe promises_error fun second candidate findsSecond candidateFound => ?_
  split
  · exact promises_error _ _
  · rename_i baselineSealed
    split
    · exact promises_error _ _
    · rename_i candidateSealed
      have baselineOwn := session?_id baselineFound
      have candidateOwn := session?_id candidateFound
      rw [← baselineOwn] at baselineFound
      rw [← candidateOwn] at candidateFound
      have lefts := ((findsFirst.found.rows baseline.id).package baselineFound
        (not_not.mp baselineSealed)).counts findsFirst.found findsSecond.found findsSecond.counts
      have rights := (findsSecond.found.rows candidate.id).package candidateFound
        (not_not.mp candidateSealed)
      refine verifiedArchiveChunks_safe
        (fun _ finds => lefts.counts finds.valid finds.found finds.counts)
        fun third leftAudits findsThird leftConsistent leftHolds => ?_
      have leftsThird := lefts.counts findsThird.valid findsThird.found findsThird.counts
      have rightsThird := rights.counts findsThird.valid findsThird.found findsThird.counts
      refine verifiedArchiveChunks_safe
        (fun _ finds => rightsThird.counts finds.valid finds.found finds.counts)
        fun fourth rightAudits findsFourth rightConsistent rightHolds => ?_
      -- whatever layouts were found, the walk compares the contents
      simp only [streamsFirstDifference_consistent leftConsistent rightConsistent, leftHolds, rightHolds]
      exact keepRecord_safe request baselineOwn.symm candidateOwn.symm
        (leftsThird.counts findsFourth.valid findsFourth.found findsFourth.counts)
        (rightsThird.counts findsFourth.valid findsFourth.found findsFourth.counts) findsFourth.found

end Comparing

/-- Every call is safe by the rules. -/
theorem call_safe (db : Store) :
    (clientProgram H calls i).Safe (serviceRules H calls) i sessionPresent (calls i).row false id db := by
  have writing : ∀ {sessionId}, (calls i).WritesTo sessionId → (clientProgram H calls i).Safe
      (serviceRules H calls) i sessionPresent (calls i).row false id db :=
    fun writes => writer_safe apart writes db
  have reading : (calls i).request.reads = true → (clientProgram H calls i).Safe
      (serviceRules H calls) i sessionPresent (calls i).row false id db := read_safe apart
  cases request : calls i with
  | mk env asked =>
    rw [request] at writing reading
    cases asked with
    | createSession totalBytes wholeSha256 => exact request ▸ creation_safe request
    | createComparison baseline candidate => exact request ▸ comparison_safe request
    | putChunk _ _ _ _ _ => exact writing (.putChunk _ _ _ _ _)
    | compactSealed _ _ => exact writing (.compactSealed _ _)
    | _ => exact reading rfl

end Unlocked

end

end

end SeismicIngest
