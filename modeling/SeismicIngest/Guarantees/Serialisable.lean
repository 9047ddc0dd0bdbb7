import SeismicIngest.Verified.Clients
import SeismicIngest.Verified.Replays

/-! # Concurrent writers are serialisable

Any number of clients put and compact under any schedule.  The committed tables are
those of the service serving, in lock order, the calls whose transaction has ended
(`SameTables`), and every client answers as it would there, except that the
acknowledgement of a chunk that leaves its session open reads the session row after
its commit and may report a later stage (`Responds`).
-/

namespace SeismicIngest

open Transaction Spans

section

variable {H : Bytes → String}

/-! ## Tables -/

/-- The same rows in every table, and the same answer to every query by id. -/
structure SameTables (left right : Store) : Prop where
  uploadSessions : left.uploadSessions.Perm right.uploadSessions
  chunks : left.chunks.Perm right.chunks
  auditEvents : left.auditEvents.Perm right.auditEvents
  comparisons : left.comparisons = right.comparisons
  rows : ∀ id, left.rowsOf id = right.rowsOf id

/-- Lists that agree on every key are permutations of each other. -/
theorem perm_of_filter {α κ : Type} [DecidableEq α] [DecidableEq κ] {key : α → κ} {left right : List α}
    (same : ∀ k, (left.filter fun row => key row = k) = right.filter fun row => key row = k) :
    left.Perm right := by
  rw [List.perm_iff_count]
  intro row
  -- a row is counted among the rows of its own key
  have counted : ∀ rows : List α,
      (rows.filter fun other => key other = key row).count row = rows.count row :=
    fun rows => List.count_filter (by simp)
  rw [← counted left, same, counted right]

theorem sameTables_of_views {left right : Store}
    (same : ∀ id, sessionView id left = sessionView id right) : SameTables left right where
  uploadSessions := perm_of_filter fun id => congrArg SessionView.registered (same id)
  chunks := perm_of_filter fun id => congrArg SessionRows.chunks (sessionView_rows (same id))
  auditEvents := perm_of_filter fun id => congrArg SessionRows.audits (sessionView_rows (same id))
  comparisons := congrArg SessionView.comparisons (same "")
  rows := fun id => sessionView_rows (same id)

theorem SameTables.sound {left right : Store} (same : SameTables left right) (sound : Sound H right) :
    Sound H left where
  ids := (same.uploadSessions.map UploadSession.id).nodup_iff.mpr sound.ids
  rows := fun id => by
    rw [same.rows]
    exact sound.rows id

/-! ## Advances -/

variable {ι : Type}

variable (H) in
/-- In the serial execution of `order`, call `i` moves session `id` on from `offset`. -/
def Advances (calls : ι → Call) (initial : Store) (id : String) (offset : Int) (order : List ι)
    (i : ι) : Prop :=
  ∃ before after session ended, order = before ++ i :: after ∧
    (serveAll H (before.map calls) initial).session? id = some session ∧
    session.confirmedOffset = offset ∧
    ((calls i).serve H (serveAll H (before.map calls) initial)).2.session? id = some ended ∧
    ended.confirmedOffset ≠ offset

section Advances

variable {calls : ι → Call} {initial : Store} {id : String} {offset : Int} {order : List ι}

/-- An offset is left behind once. -/
theorem not_advances_twice (sound : Sound H initial) {before middle : List ι} {i : ι}
    {session ended again : UploadSession}
    (found : (serveAll H (before.map calls) initial).session? id = some session)
    (left : ((calls i).serve H (serveAll H (before.map calls) initial)).2.session? id = some ended)
    (advanced : ended.confirmedOffset ≠ session.confirmedOffset)
    (later : (serveAll H ((before ++ i :: middle).map calls) initial).session? id = some again) :
    again.confirmedOffset ≠ session.confirmedOffset := by
  have stageSound := sound.later (Later.serveAll H (before.map calls) initial)
  obtain ⟨_, endedFound, first⟩ := evolves_of_later stageSound
    (Relation.ReflTransGen.single ⟨calls i, rfl⟩) found
  obtain rfl := Option.some.inj (endedFound.symm.trans left)
  obtain ⟨_, againFound, second⟩ := evolves_of_later (stageSound.serve (calls i))
    (Later.serveAll H (middle.map calls) _) left
  rw [List.map_append, List.map_cons, serveAll_append] at later
  obtain rfl := Option.some.inj (againFound.symm.trans later)
  -- offsets only grow, so the step away from this one is never taken back
  have := first.confirmed
  have := second.confirmed
  omega

/-- No two calls move a session on from the same offset. -/
theorem advances_unique (sound : Sound H initial) {i j : ι}
    (first : Advances H calls initial id offset order i)
    (second : Advances H calls initial id offset order j) : i = j := by
  obtain ⟨before, after, session, ended, split, found, rfl, left, advanced⟩ := first
  obtain ⟨otherBefore, otherAfter, other, otherEnded, otherSplit, otherFound, same, otherLeft,
    otherAdvanced⟩ := second
  obtain ⟨gap, rfl, rest⟩ | ⟨gap, rfl, rest⟩ :=
    List.append_eq_append_iff.mp (split.symm.trans otherSplit)
  · cases gap with
    | nil => exact (List.cons.inj rest).1
    | cons head middle =>
      -- `j` would come after `i`
      obtain ⟨rfl, -⟩ := List.cons.inj rest
      exact absurd same (not_advances_twice sound found left advanced otherFound)
  · cases gap with
    | nil => exact (List.cons.inj rest).1.symm
    | cons head middle =>
      obtain ⟨rfl, -⟩ := List.cons.inj rest
      rw [← same] at otherAdvanced
      exact absurd same.symm (not_advances_twice sound otherFound otherLeft otherAdvanced found)

/-- Between two stages with different offsets some call moves on from the first. -/
theorem exists_advance (sound : Sound H initial) {base middle rest : List ι}
    {session again : UploadSession} (split : order = base ++ (middle ++ rest))
    (found : (serveAll H (base.map calls) initial).session? id = some session)
    (later : (serveAll H ((base ++ middle).map calls) initial).session? id = some again)
    (moved : again.confirmedOffset ≠ session.confirmedOffset) :
    ∃ j, Advances H calls initial id session.confirmedOffset order j := by
  -- over the calls between the stages: the first that moves the offset is the one
  induction middle generalizing base session with
  | nil =>
    rw [List.append_nil, found] at later
    obtain rfl := Option.some.inj later
    exact absurd rfl moved
  | cons j middle inductionHypothesis =>
    have stageSound := sound.later (Later.serveAll H (base.map calls) initial)
    obtain ⟨ended, endedFound, -⟩ := evolves_of_later stageSound
      (Relation.ReflTransGen.single ⟨calls j, rfl⟩) found
    by_cases stays : ended.confirmedOffset = session.confirmedOffset
    · rw [← stays] at moved ⊢
      refine @inductionHypothesis (base ++ [j]) ended ?_ ?_ ?_ moved
      · rw [split]
        simp
      · rw [List.map_append, serveAll_append]
        exact endedFound
      · rw [List.append_assoc]
        exact later
    · exact ⟨j, base, middle ++ rest, session, ended, split, found, rfl, endedFound, stays⟩

/-- An admissible put at a frontier makes sure that some call moves on from it. -/
theorem advances_exists (sound : Sound H initial) {earlier later : List ι} {i : ι} {env : Env}
    {declaredLength : Int} {chunkDigest : String} {payload : Bytes} {session : UploadSession}
    (split : order = earlier ++ later)
    (found : (serveAll H (earlier.map calls) initial).session? id = some session) (member : i ∈ later)
    (request : calls i =
      ⟨env, .putChunk id session.confirmedOffset declaredLength chunkDigest payload⟩)
    (positive : 0 < declaredLength)
    (admitted :
      putRefusal H session session.confirmedOffset declaredLength chunkDigest payload = none)
    (accepted : env.auditAccepted = true) :
    ∃ j, Advances H calls initial id session.confirmedOffset order j := by
  obtain ⟨middle, rest, rfl⟩ := List.append_of_mem member
  have earlierSound := sound.later (Later.serveAll H (earlier.map calls) initial)
  obtain ⟨again, againFound, evolves⟩ := evolves_of_later earlierSound
    (Later.serveAll H (middle.map calls) _) found
  rw [← serveAll_append, ← List.map_append] at againFound
  by_cases moved : again.confirmedOffset = session.confirmedOffset
  · -- the frontier is still there, and the put takes it
    have stageSound := sound.later (Later.serveAll H ((earlier ++ middle).map calls) initial)
    obtain ⟨-, -, size, digest, within⟩ := putRefusal_none.mp admitted
    have total := evolves.total
    have consistent := stageSound.consistent againFound
    obtain rfl := session?_id againFound
    -- a session with bytes to come is active
    have active : again.status = .active := by
      by_cases active : again.status = .active
      · exact active
      · have complete := consistent.complete active
        omega
    have forward : Forward H (serveAll H ((earlier ++ middle).map calls) initial) again
        session.confirmedOffset declaredLength chunkDigest payload :=
      ⟨againFound, consistent, active, moved.symm, positive, size, digest, by omega⟩
    have served :=
      @serve_putChunk H env (serveAll H ((earlier ++ middle).map calls) initial) again.id
      session.confirmedOffset declaredLength chunkDigest payload
    obtain ⟨ended, finalized, writes, audits, outcome, -, left⟩ | ⟨-, -, refused, -⟩ :=
      forward.served env session.confirmedOffset declaredLength chunkDigest payload
    · obtain ⟨-, -, -, confirmed⟩ := outcome.ended
      refine ⟨i, earlier ++ middle, rest, again, ended, ?_, againFound, moved, ?_, by omega⟩
      · rw [split, List.append_assoc]
      · rw [request, served]
        exact congrArg SessionRows.row left
    · rw [accepted] at refused
      cases refused
  · -- the frontier has moved before the put came
    exact exists_advance sound split found againFound moved

end Advances

/-! ## Runs of clients -/

abbrev Clients (ι : Type) := System ι Store String DbError Raised Reply

section Clients

variable [DecidableEq ι]

variable (H) in
/-- The clients after a schedule. -/
def runClients (calls : ι → Call) (initial : Store) (schedule : List ι) : Clients ι :=
  (System.start (clientProgram H calls) initial).runSchedule sessionPresent schedule

/-- The clients that have locked their row and hold it no more, in lock order. -/
def released (key : ι → String) (sys : Clients ι) : List ι :=
  sys.lockOrder.filter fun i => sys.owner (key i) ≠ some i

variable (H) in
/-- What holds of the clients after every schedule. -/
structure Serialised (calls : ι → Call) (key : ι → String) (initial : Store) (sys : Clients ι) :
    Prop where
  tables : SameTables sys.committed (serveAll H ((released key sys).map calls) initial)
  sound : Sound H sys.committed
  /-- Every session keeps its confirmed bytes. -/
  kept : ∀ {id session}, initial.session? id = some session →
    ∃ ended, sys.committed.session? id = some ended ∧
      Evolves session (initial.rowsOf id).chunks ended (sys.committed.rowsOf id).chunks
  /-- The bytes of an acknowledged put are committed. -/
  acknowledged : ∀ {i env start declaredLength chunkDigest payload reply},
    calls i = ⟨env, .putChunk (key i) start declaredLength chunkDigest payload⟩ →
      sys.Answered i (.ok reply) →
        ∃ session, Archived H (sys.committed.rowsOf (key i)) session start declaredLength chunkDigest
          payload
  ordered : ∀ {i answer}, sys.Answered i answer → i ∈ sys.lockOrder →
    ∃ before after, sys.lockOrder = before ++ i :: after ∧
      Responds H calls initial before i after answer
  unordered : ∀ {i answer}, sys.Answered i answer → i ∉ sys.lockOrder →
    ∀ db, answer = ((calls i).serve H db).1
  advancesOnce : ∀ {id offset i j}, Advances H calls initial id offset (released key sys) i →
    Advances H calls initial id offset (released key sys) j → i = j
  /-- Of the puts at a frontier that are released, one moves on from it. -/
  advances : ∀ {earlier later i env id declaredLength chunkDigest payload session},
    released key sys = earlier ++ later →
      (serveAll H (earlier.map calls) initial).session? id = some session → i ∈ later →
        calls i = ⟨env, .putChunk id session.confirmedOffset declaredLength chunkDigest payload⟩ →
          0 < declaredLength →
            putRefusal H session session.confirmedOffset declaredLength chunkDigest payload = none →
              env.auditAccepted = true →
                ∃ j, Advances H calls initial id session.confirmedOffset (released key sys) j
  noIntegrityError : ∀ {i batch next}, (sys.client i).program = .flush batch next →
    batch.rejects (sys.working i) ≠ some .integrityError

omit [DecidableEq ι] in
/-- The bytes of an acknowledged put are archived in the committed tables. -/
theorem acknowledged_committed {calls : ι → Call} {key : ι → String} {initial : Store}
    {sys : Clients ι} (sound : Sound H initial)
    (linear : Linear sessionView (clientProgram H calls) key initial DbError.integrityError sys)
    {i : ι} {env : Env} {start declaredLength : Int} {chunkDigest : String} {payload : Bytes}
    (request : calls i = ⟨env, .putChunk (key i) start declaredLength chunkDigest payload⟩)
    {reply : Reply} (answered : sys.Answered i (.ok reply)) {before after : List ι}
    (split : sys.lockOrder = before ++ i :: after)
    (responds : Responds H calls initial before i after (.ok reply)) :
    ∃ session, Archived H (sys.committed.rowsOf (key i)) session start declaredLength chunkDigest
      payload := by
  have stageSound := sound.later (Later.serveAll H (before.map calls) initial)
  have served := @serve_putChunk H env (serveAll H (before.map calls) initial) (key i) start
    declaredLength chunkDigest payload
  -- the serial answer is an acknowledgement too, so the call archives its bytes
  obtain ⟨body, acknowledged⟩ := responds.acknowledges request
  obtain ⟨-, _, archived⟩ := archived_of_acknowledged (stageSound.rows (key i)) acknowledged
  -- whatever is committed now came later
  obtain ⟨middle, later, -, same⟩ :=
    linear.seenAfter (put_releases sound linear request answered) split
  rw [serial_eq, List.map_append, List.map_cons, serveAll_append, request] at same
  rw [sessionView_rows same]
  change ∃ session, Archived H ((serveAll H (middle.map calls) (Call.serve H _ _).2).rowsOf _) _ _ _ _ _
  rw [served]
  have afterSound := stageSound.serve
    ⟨env, .putChunk (key i) start declaredLength chunkDigest payload⟩
  rw [served] at afterSound
  exact archived.later afterSound (Later.serveAll H _ _)

/-- Concurrent puts and compactions are serialisable in lock order. -/
theorem writers_serialisable {calls : ι → Call} {key : ι → String} {initial : Store}
    (reachable : Reachable H initial) (writers : ∀ i, (calls i).WritesTo (key i)) (schedule : List ι) :
    Serialised H calls key initial (runClients H calls initial schedule) := by
  have sound := reachable.sound
  have workload := clients_workload (H := H) writers sound
  have linear := Linear.runSchedule workload schedule
  change Linear _ _ _ _ _ (runClients H calls initial schedule) at linear
  generalize runClients H calls initial schedule = sys at linear
  -- the committed tables agree with the serial ones on every session's view
  have tables : SameTables sys.committed (serveAll H ((released key sys).map calls) initial) := by
    refine sameTables_of_views fun id => ?_
    rw [← serial_eq]
    exact linear.committed workload id
  have serialSound := sound.later (Later.serveAll H ((released key sys).map calls) initial)
  have ordered : ∀ {i answer}, sys.Answered i answer → i ∈ sys.lockOrder →
      ∃ before after, sys.lockOrder = before ++ i :: after ∧
        Responds H calls initial before i after answer := by
    intro i answer answered listed
    obtain ⟨before, after, split, may⟩ := linear.answers answered listed
    exact ⟨before, after, split, responds_of_mayAnswer writers sound may⟩
  refine {
    tables := tables
    sound := tables.sound serialSound
    kept := ?_
    acknowledged := ?_
    ordered := ordered
    unordered := unordered_answer writers linear
    advancesOnce := advances_unique sound
    advances := advances_exists sound
    noIntegrityError := fun flushes => linear.accepts workload flushes }
  · intro id session found
    obtain ⟨ended, endedFound, evolves⟩ := evolves_of_later sound (Later.serveAll H _ initial) found
    refine ⟨ended, ?_, ?_⟩
    · rw [← rowsOf_row, tables.rows]
      exact endedFound
    · rw [tables.rows]
      exact evolves
  · intro i env start declaredLength chunkDigest payload reply request answered
    obtain ⟨before, after, split, responds⟩ :=
      ordered answered (put_ordered linear request answered)
    exact acknowledged_committed sound linear request answered split responds

/-- The halves of a package of two bytes, as two clients send them. -/
def halves : Bool → Call
  | false => ⟨⟨"", 0, true⟩, .putChunk "s" 0 1 "d" [1]⟩
  | true => ⟨⟨"", 0, true⟩, .putChunk "s" 1 1 "d" [2]⟩

theorem halves_writers : ∀ second, (halves second).WritesTo "s"
  | false => .putChunk _ _ _ _ _
  | true => .putChunk _ _ _ _ _

/-- The store in which the package is registered. -/
def registeredPair : Store :=
  serveAll (fun _ => "d") [⟨⟨"s", 0, true⟩, .createSession 2 "d"⟩] Store.empty

/-- The second half is committed between the commit of the first and its last read. -/
def overtaken : Clients Bool :=
  runClients (fun _ => "d") halves registeredPair
    (List.replicate 4 false ++ List.replicate 8 true ++ List.replicate 2 false)

theorem overtaken_ordered : overtaken.lockOrder = [false, true] := by decide

theorem writers_serialisable_halves :
    released (fun _ => "s") overtaken = [false, true] ∧
      Serialised (fun _ => "d") halves (fun _ => "s") registeredPair overtaken :=
  ⟨by decide, writers_serialisable (reachable_serveAll (fun _ => "d") _) halves_writers _⟩

variable (H) in
/-- Every client answers exactly as in the serial execution. -/
def AnswersSerially (calls : ι → Call) (initial : Store) (sys : Clients ι) : Prop :=
  ∀ i answer before after, sys.Answered i answer → sys.lockOrder = before ++ i :: after →
    answer = ((calls i).serve H (serveAll H (before.map calls) initial)).1

/-- The first half is acknowledged with the offset and the status that the second half
    leaves.  Alone it is acknowledged with its own. -/
theorem writers_serialisable_overtaken :
    Reachable (fun _ => "d") registeredPair ∧ overtaken.lockOrder = [false, true] ∧
      overtaken.Answered false (.ok (.ack ⟨"s", .sealed, 0, 1, "d", 2, 2, 2, false⟩)) ∧
      ((halves false).serve (fun _ => "d") registeredPair).1 =
        .ok (.ack ⟨"s", .active, 0, 1, "d", 1, 1, 2, false⟩) ∧
      ¬ AnswersSerially (fun _ => "d") halves registeredPair overtaken := by
  have answered : overtaken.Answered false
      (.ok (.ack ⟨"s", .sealed, 0, 1, "d", 2, 2, 2, false⟩)) := by rfl
  have alone : ((halves false).serve (fun _ => "d") registeredPair).1 =
      .ok (.ack ⟨"s", .active, 0, 1, "d", 1, 1, 2, false⟩) := by decide
  refine ⟨reachable_serveAll _ _, overtaken_ordered, answered, alone, ?_⟩
  intro serially
  have same := serially false _ [] [true] answered overtaken_ordered
  rw [List.map_nil, serveAll, List.foldl_nil, alone] at same
  cases same

end Clients

end

end SeismicIngest
