import SeismicIngest.Verified.Evolution

/-! # The audit trail

A sealed session carries one event for its sealing and one for each compaction that
succeeded, and each compaction starts from the layout that the last event left
(`Linked`).  Events are only ever added, one at a time, and only by the calls that
`audits` names.
-/

namespace SeismicIngest

open Transaction Spans

/-! ## Trails -/

section Trails

/-- Each compaction finds as many rows as the event before it left. -/
def Linked : Nat → List AuditEvent → Nat → Prop
  | before, [], now => before = now
  | before, event :: events, now =>
    event.chunksBefore = some (before : Int) ∧
      ∃ after : Nat, event.chunksAfter = some (after : Int) ∧ Linked after events now

theorem Linked.snoc {before now after : Nat} {events : List AuditEvent} {event : AuditEvent}
    (linked : Linked before events now) (found : event.chunksBefore = some (now : Int))
    (left : event.chunksAfter = some (after : Int)) : Linked before (events ++ [event]) after := by
  induction events generalizing before with
  | nil =>
    obtain rfl : before = now := linked
    exact ⟨found, after, left, rfl⟩
  | cons head tail inductionHypothesis =>
    obtain ⟨headFound, middle, headLeft, tailLinked⟩ := linked
    exact ⟨headFound, middle, headLeft, inductionHypothesis tailLinked⟩

structure SealingEvent (event : AuditEvent) : Prop where
  kind : event.event = .sealed
  targetChunkBytes : event.targetChunkBytes = none
  chunksBefore : event.chunksBefore = none
  chunksAfter : event.chunksAfter = none

structure CompactionEvent (total : Int) (event : AuditEvent) : Prop where
  kind : event.event = .compacted
  planned : ∃ target, 0 < target ∧ event.targetChunkBytes = some target ∧
    event.chunksAfter = some (spanCount total target : Int)

/-- The sequence numbers are `1, 2, …`. -/
def Numbered (events : List AuditEvent) : Prop :=
  events.map AuditEvent.sequence = (List.range events.length).map fun k : Nat => (k : Int) + 1

/-- The trail of a sealed session with `sealedRows` chunk rows at its sealing and
    `storedRows` now. -/
structure Trail (session : UploadSession) (sealedRows storedRows compactions : Nat)
    (events : List AuditEvent) : Prop where
  numbered : Numbered events
  carried : ∀ event ∈ events,
    event.totalBytes = session.totalBytes ∧ event.wholeSha256 = session.wholeSha256
  linked : ∃ sealing compacted, events = sealing :: compacted ∧ SealingEvent sealing ∧
    (∀ event ∈ compacted, CompactionEvent session.totalBytes event) ∧
      compacted.length = compactions ∧ Linked sealedRows compacted storedRows

theorem Numbered.snoc {events : List AuditEvent} {event : AuditEvent} (numbered : Numbered events)
    (next : event.sequence = events.length + 1) : Numbered (events ++ [event]) := by
  rw [Numbered, List.map_append, numbered, List.length_append, List.length_singleton,
    List.range_succ, List.map_append]
  simp [next]

/-- The largest number counts the events. -/
theorem Numbered.maxSequence {rows : SessionRows} (numbered : Numbered rows.audits) :
    rows.maxSequence = rows.audits.length := by
  rw [SessionRows.maxSequence, numbered]
  cases count : rows.audits.length with
  | zero => rfl
  | succ n =>
    have largest : ((List.range (n + 1)).map fun k : Nat => (k : Int) + 1).max? =
        some ((n : Int) + 1) := by
      rw [List.max?_eq_some_iff]
      refine ⟨List.mem_map.mpr ⟨n, List.self_mem_range_succ, rfl⟩, ?_⟩
      intro number listed
      obtain ⟨k, inside, rfl⟩ := List.mem_map.mp listed
      have := List.mem_range.mp inside
      omega
    rw [largest, Option.getD_some, Int.natCast_succ]

/-- Numbered events are read in table order. -/
theorem Numbered.ordered {events : List AuditEvent} (numbered : Numbered events) :
    events.insertionSort (fun left right => left.sequence ≤ right.sequence) = events := by
  apply List.Pairwise.insertionSort_eq
  have sorted : (events.map AuditEvent.sequence).Pairwise (· ≤ ·) := by
    rw [numbered, List.pairwise_map]
    refine List.pairwise_lt_range.imp ?_
    intro left right below
    omega
  exact List.pairwise_map.mp sorted

section Events

variable {session : UploadSession} {event : AuditEvent}

/-- The trail of a session that has just been sealed. -/
theorem Trail.sealed (rows : Nat) (first : event.sequence = 1) (sealing : SealingEvent event)
    (total : event.totalBytes = session.totalBytes)
    (whole : event.wholeSha256 = session.wholeSha256) : Trail session rows rows 0 [event] where
  numbered := by simp [Numbered, first]
  carried := by
    intro listed member
    rw [List.mem_singleton.mp member]
    exact ⟨total, whole⟩
  linked := ⟨event, [], rfl, sealing, (fun _ member => absurd member List.not_mem_nil), rfl, rfl⟩

/-- And after one more compaction. -/
theorem Trail.compacted {sealedRows storedRows compactions after : Nat} {events : List AuditEvent}
    (trail : Trail session sealedRows storedRows compactions events)
    (next : event.sequence = events.length + 1)
    (compaction : CompactionEvent session.totalBytes event)
    (found : event.chunksBefore = some (storedRows : Int))
    (left : event.chunksAfter = some (after : Int))
    (total : event.totalBytes = session.totalBytes)
    (whole : event.wholeSha256 = session.wholeSha256) :
    Trail session sealedRows after (compactions + 1) (events ++ [event]) where
  numbered := trail.numbered.snoc next
  carried := by
    intro listed member
    obtain earlier | last := List.mem_append.mp member
    · exact trail.carried listed earlier
    · rw [List.mem_singleton.mp last]
      exact ⟨total, whole⟩
  linked := by
    obtain ⟨sealing, compacted, rfl, isSealing, all, count, linked⟩ := trail.linked
    refine ⟨sealing, compacted ++ [event], rfl, isSealing, ?_, ?_, linked.snoc found left⟩
    · intro listed member
      obtain earlier | last := List.mem_append.mp member
      · exact all listed earlier
      · rw [List.mem_singleton.mp last]
        exact compaction
    · rw [List.length_append, List.length_singleton, count]

end Events

end Trails

/-! ## The history of a session -/

section History

variable (H : Bytes → String) (id : String)

/-- The session is stored and sealed. -/
def SealedIn (db : Store) : Prop :=
  ∃ session, db.session? id = some session ∧ session.status = .sealed

/-- The call is a compaction of the session, and succeeds. -/
def CompactsOn (call : Call) (db : Store) : Bool :=
  match call.request, (call.serve H db).1 with
  | .compactSealed sessionId _, .ok _ => sessionId = id
  | _, _ => false

/-- How many of the calls are. -/
def compactionCount : List Call → Store → Nat
  | [], _ => 0
  | call :: calls, db =>
    compactionCount calls (call.serve H db).2 + if CompactsOn H id call db then 1 else 0

/-- One of the calls sealed the session, and left `rows` chunk rows of it. -/
def SealedWith (calls : List Call) (rows : Nat) : Prop :=
  ∃ earlier call later, calls = earlier ++ call :: later ∧
    ¬ SealedIn id (serveAll H earlier Store.empty) ∧
    SealedIn id (serveAll H (earlier ++ [call]) Store.empty) ∧
    ((serveAll H (earlier ++ [call]) Store.empty).chunksOf id).length = rows

/-- What the rows of the session record of the calls. -/
structure Recorded (calls : List Call) : Prop where
  unsealed : ¬ SealedIn id (serveAll H calls Store.empty) →
    compactionCount H id calls Store.empty = 0
  trail : ∀ session, (serveAll H calls Store.empty).session? id = some session →
    session.status = .sealed →
      ∃ sealedRows, SealedWith H id calls sealedRows ∧
        Trail session sealedRows ((serveAll H calls Store.empty).rowsOf id).chunks.length
          (compactionCount H id calls Store.empty)
          ((serveAll H calls Store.empty).rowsOf id).audits

variable {H id}

theorem compactionCount_snoc (calls : List Call) (call : Call) (db : Store) :
    compactionCount H id (calls ++ [call]) db = compactionCount H id calls db +
      if CompactsOn H id call (serveAll H calls db) then 1 else 0 := by
  induction calls generalizing db with
  | nil => rfl
  | cons first calls inductionHypothesis =>
    rw [List.cons_append, compactionCount, compactionCount, inductionHypothesis]
    exact Nat.add_right_comm _ _ _

theorem serveAll_snoc (calls : List Call) (call : Call) (db : Store) :
    serveAll H (calls ++ [call]) db = (call.serve H (serveAll H calls db)).2 :=
  serveAll_append H calls [call] db

/-- The moment of the sealing stays where it was. -/
theorem SealedWith.snoc {calls : List Call} {rows : Nat} (sealedWith : SealedWith H id calls rows)
    (call : Call) : SealedWith H id (calls ++ [call]) rows := by
  obtain ⟨earlier, sealing, later, rfl, before, after, count⟩ := sealedWith
  exact ⟨earlier, sealing, later ++ [call], by simp, before, after, count⟩

theorem compactsOn_iff {call : Call} {db : Store} :
    CompactsOn H id call db = true ↔
      ∃ target reply, call.request = .compactSealed id target ∧ (call.serve H db).1 = .ok reply := by
  rw [CompactsOn]
  constructor
  · intro compacts
    split at compacts
    · rename_i sessionId target reply request answered
      obtain rfl : sessionId = id := by simpa using compacts
      exact ⟨target, reply, request, answered⟩
    · cases compacts
  · rintro ⟨target, reply, request, answered⟩
    rw [request, answered]
    exact decide_eq_true rfl

/-- The rows a successful compaction leaves. -/
theorem serve_compactsOn {db : Store} (sound : Sound H db) {call : Call}
    (compacts : CompactsOn H id call db = true) :
    ∃ session target, db.session? id = some session ∧ session.status = .sealed ∧ 0 < target ∧
      (call.serve H db).2.rowsOf id =
        let content := contentOf (db.rowsOf id).chunks
        let planned := plannedRows H id content target
        ⟨some session, planned, (db.rowsOf id).audits ++
          [compactionRow call.env (db.maxSequence id + 1) session (H content) target
            (db.rowsOf id).chunks.length planned.length]⟩ := by
  obtain ⟨target, reply, request, answered⟩ := compactsOn_iff.mp compacts
  obtain ⟨env, _⟩ := call
  subst request
  rw [serve_compactSealed] at answered ⊢
  have run := run_compactSealed (H := H) env target (sound.rows id).inRange
  obtain ⟨error, decided⟩ | ⟨session, found, isSealed, positive, decided⟩ :=
    compactPlan_cases env target (sound.rows id)
  · rw [run, decided] at answered
    cases answered
  · have consistent := sound.consistent found
    obtain rfl := session?_id found
    rw [run, decided] at answered
    by_cases taken : auditTaken env (compactionRow env (db.maxSequence session.id + 1) session
        (H (contentOf (db.rowsOf session.id).chunks)) target (db.rowsOf session.id).chunks.length
        (plannedRows H session.id (contentOf (db.rowsOf session.id).chunks) target).length)
    · have rows := (acceptedPlan_rows found consistent isSealed env target).trans (if_pos taken)
      refine ⟨session, target, found, isSealed, positive, ?_⟩
      rw [run, decided]
      exact rows
    · -- without its audit row the compaction would have raised
      dsimp only at answered
      rw [acceptedPlan_refused target _ taken] at answered
      cases answered

/-! ### The run -/

theorem auditRow_sealing (env : Env) (session : UploadSession) (total : Int) (whole : String) :
    SealingEvent (auditRow env 1 session .sealed total whole none none none) :=
  ⟨rfl, rfl, rfl, rfl⟩

theorem compactionRow_compaction (env : Env) (sequence : Int) (session : UploadSession)
    (whole : String) {target : Int} (positive : 0 < target) (before : Nat) {buffer : Bytes}
    (size : (buffer.length : Int) = session.totalBytes) :
    CompactionEvent session.totalBytes (compactionRow env sequence session whole target before
      (plannedRows H session.id buffer target).length) where
  kind := rfl
  planned := by
    refine ⟨target, positive, rfl, ?_⟩
    rw [← size, plannedRows, List.length_map, List.length_range]
    rfl

/-- A compaction links its event to the trail. -/
theorem Recorded.compacted {calls : List Call} {call : Call}
    (recorded : Recorded H id calls) (sound : Sound H (serveAll H calls Store.empty))
    (compacts : CompactsOn H id call (serveAll H calls Store.empty) = true) :
    Recorded H id (calls ++ [call]) := by
  obtain ⟨session, target, found, isSealed, positive, rows⟩ := serve_compactsOn sound compacts
  obtain ⟨sealedRows, sealedWith, trail⟩ := recorded.trail session found isSealed
  have consistent := sound.consistent found
  have stored : (serveAll H (calls ++ [call]) Store.empty).session? id = some session := by
    rw [serveAll_snoc, ← rowsOf_row, rows]
  refine ⟨fun unsealed => absurd ⟨session, stored, isSealed⟩ unsealed, ?_⟩
  intro later laterFound _
  obtain rfl := Option.some.inj (stored.symm.trans laterFound)
  obtain rfl := session?_id found
  refine ⟨sealedRows, sealedWith.snoc call, ?_⟩
  rw [compactionCount_snoc, if_pos compacts, serveAll_snoc, rows]
  refine trail.compacted ?_ (compactionRow_compaction _ _ _ _ positive _
    (sealed_length consistent isSealed)) rfl rfl rfl (sealed_digest consistent isSealed)
  change (serveAll H calls Store.empty).maxSequence session.id + 1 = _
  rw [maxSequence_eq, trail.numbered.maxSequence]

/-- A session sealed at its creation is empty, and has the digest of nothing. -/
theorem createdSession_empty {env : Env} {totalBytes : Int} {wholeSha256 : String}
    (isSealed : (createdSession H env totalBytes wholeSha256).status = .sealed) :
    totalBytes = 0 ∧ wholeSha256 = emptySha256 H := by
  by_cases empty : totalBytes = 0
  · refine ⟨empty, ?_⟩
    subst empty
    by_cases same : wholeSha256 = emptySha256 H
    · exact same
    · rw [createdSession_failed env wholeSha256 same] at isSealed
      cases isSealed
  · rw [createdSession_open env totalBytes wholeSha256 empty] at isSealed
    cases isSealed

/-- A trail that starts with this call. -/
theorem Recorded.started {calls : List Call} {call : Call} (recorded : Recorded H id calls)
    (before : ¬ SealedIn id (serveAll H calls Store.empty))
    (other : CompactsOn H id call (serveAll H calls Store.empty) = false)
    (starts : ∀ session, (serveAll H (calls ++ [call]) Store.empty).session? id = some session →
      session.status = .sealed →
        Trail session ((serveAll H (calls ++ [call]) Store.empty).chunksOf id).length
          ((serveAll H (calls ++ [call]) Store.empty).rowsOf id).chunks.length 0
          ((serveAll H (calls ++ [call]) Store.empty).rowsOf id).audits) :
    Recorded H id (calls ++ [call]) := by
  have none' : compactionCount H id (calls ++ [call]) Store.empty = 0 := by
    rw [compactionCount_snoc, other, recorded.unsealed before]
    rfl
  refine ⟨fun _ => none', ?_⟩
  intro session found isSealed
  refine ⟨_, ⟨calls, call, [], rfl, before, ⟨session, found, isSealed⟩, rfl⟩, ?_⟩
  rw [none']
  exact starts session found isSealed

/-- A call that leaves the rows of the session alone. -/
theorem Recorded.unchanged {calls : List Call} {call : Call} (recorded : Recorded H id calls)
    (other : CompactsOn H id call (serveAll H calls Store.empty) = false)
    (same : (serveAll H (calls ++ [call]) Store.empty).rowsOf id =
      (serveAll H calls Store.empty).rowsOf id) :
    Recorded H id (calls ++ [call]) := by
  have row := congrArg SessionRows.row same
  rw [rowsOf_row, rowsOf_row] at row
  have count : compactionCount H id (calls ++ [call]) Store.empty =
      compactionCount H id calls Store.empty := by
    rw [compactionCount_snoc, other]
    rfl
  constructor
  · intro unsealed
    rw [count]
    refine recorded.unsealed ?_
    rintro ⟨session, found, isSealed⟩
    exact unsealed ⟨session, row.trans found, isSealed⟩
  · intro session found isSealed
    obtain ⟨sealedRows, sealedWith, trail⟩ := recorded.trail session (row.symm.trans found) isSealed
    rw [same, count]
    exact ⟨sealedRows, sealedWith.snoc call, trail⟩

/-- Any other call leaves the trail as it is, or starts it. -/
theorem Recorded.other {calls : List Call} {call : Call} (recorded : Recorded H id calls)
    (sound : Sound H (serveAll H calls Store.empty))
    (other : CompactsOn H id call (serveAll H calls Store.empty) = false) :
    Recorded H id (calls ++ [call]) := by
  have effect := serve_rows sound call id
  rw [← serveAll_snoc] at effect
  generalize left : (serveAll H (calls ++ [call]) Store.empty).rowsOf id = rows at effect
  cases effect with
  | unchanged => exact recorded.unchanged other left
  | created request drawn taken =>
    refine recorded.started ?_ other ?_
    · rintro ⟨session, found, -⟩
      exact taken.notFound drawn found
    · intro session found isSealed
      rw [← rowsOf_row, left] at found
      obtain rfl := Option.some.inj found
      obtain ⟨empty, same⟩ := createdSession_empty isSealed
      rw [chunksOf_eq, left, creationAudits, if_pos isSealed]
      refine Trail.sealed 0 rfl (auditRow_sealing _ _ _ _) ?_ ?_
      · rw [createdSession_totalBytes, empty]
        rfl
      · rw [createdSession_wholeSha256, same]
        rfl
  | stored request own forward outcome =>
    subst own
    refine recorded.started ?_ other ?_
    · -- the session was still active
      rintro ⟨session, found, isSealed⟩
      obtain rfl := Option.some.inj (forward.found.symm.trans found)
      rw [forward.active] at isSealed
      cases isSealed
    · intro session found isSealed
      rw [← rowsOf_row, left] at found
      obtain rfl := Option.some.inj found
      obtain ⟨-, status, -⟩ | ⟨-, finalized, ⟨same, -⟩ | ⟨-, isFailed⟩⟩ := outcome.status
      · rw [status, forward.active] at isSealed
        cases isSealed
      · rw [chunksOf_eq, left, forward.noAudits, List.nil_append, if_pos ⟨isSealed, finalized⟩]
        have length : ∀ rows, (Store.byStartOffset rows).length = rows.length :=
          fun rows => List.length_insertionSort _ _
        rw [length]
        refine Trail.sealed _ rfl (auditRow_sealing _ _ _ _) rfl ?_
        exact same.trans outcome.ended.2.2.1.symm
      · rw [isFailed] at isSealed
        cases isSealed
  | compacted request found isSealed positive answered =>
    have compacts := compactsOn_iff.mpr ⟨_, _, request, answered⟩
    rw [other] at compacts
    cases compacts

/-- The rows of a session record every run. -/
theorem recorded_run (calls : List Call) (id : String) : Recorded H id calls := by
  induction calls using List.reverseRecOn with
  | nil =>
    refine ⟨fun _ => rfl, fun session found => ?_⟩
    cases found
  | append_singleton calls call inductionHypothesis =>
    have sound := (reachable_serveAll H calls).sound
    cases compacts : CompactsOn H id call (serveAll H calls Store.empty) with
    | true => exact inductionHypothesis.compacted sound compacts
    | false => exact inductionHypothesis.other sound compacts

end History

/-! ## Which calls add an event -/

/-- The audit row a write inserts. -/
def Write.audit? : Write → Option AuditEvent
  | .insertAudit row => some row
  | _ => none

/-- No write changes or removes an event. -/
theorem auditEvents_applyAll (writes : List Write) (db : Store) :
    (Write.applyAll writes db).auditEvents = db.auditEvents ++ writes.filterMap Write.audit? := by
  induction writes generalizing db with
  | nil => exact (List.append_nil _).symm
  | cons write writes inductionHypothesis =>
    rw [Write.applyAll_cons, inductionHypothesis]
    cases write with
    | insertAudit row =>
      exact List.append_assoc db.auditEvents [row] _
    | insertSession _ | updateSession _ | insertChunk _ | deleteChunk _ | insertComparison _ => rfl

/-- The calls that add an event: creations and puts that seal their session, and
    compactions that succeed. -/
def audits : Request → Except Raised Reply → Bool
  | .createSession _ _, .ok (.session row) => row.status = .sealed
  | .putChunk _ _ _ _ _, .ok (.ack body) => body.status = .sealed ∧ body.idempotentReplay = false
  | .compactSealed _ _, .ok (.compacted _) => true
  | _, _ => false

/-- The session whose trail the call can extend. -/
def Call.audited (call : Call) : Option String :=
  match call.request with
  | .createSession _ _ => some call.env.uuid
  | .putChunk sessionId _ _ _ _ | .compactSealed sessionId _ => some sessionId
  | _ => none

section Append

variable {H : Bytes → String}

variable (H) in
/-- The events stand, and one is added or none. -/
inductive Appends (call : Call) (db : Store) : Prop where
  | none (quiet : audits call.request (call.serve H db).1 = false)
    (same : (call.serve H db).2.auditEvents = db.auditEvents)
  | one (event : AuditEvent) (adds : audits call.request (call.serve H db).1 = true)
    (own : call.audited = some event.sessionId)
    (grown : (call.serve H db).2.auditEvents = db.auditEvents ++ [event])

section Served

variable {call : Call} {db : Store} {answer : Except Raised Reply} {writes : List Write}
  (served : call.serve H db = (answer, Write.applyAll writes db))

include served

/-- A call is judged by the writes it commits. -/
theorem Appends.of_quiet (quiet : audits call.request answer = false)
    (plain : writes.filterMap Write.audit? = []) : Appends H call db := by
  refine .none (by rw [served]; exact quiet) ?_
  rw [served, auditEvents_applyAll, plain, List.append_nil]

theorem Appends.of_event {event : AuditEvent} (single : writes.filterMap Write.audit? = [event])
    (adds : audits call.request answer = true) (own : call.audited = some event.sessionId) :
    Appends H call db := by
  refine .one event (by rw [served]; exact adds) own ?_
  rw [served, auditEvents_applyAll, single]

end Served

theorem createSession_appends {db : Store} (sound : Sound H db) (env : Env) (totalBytes : Nat)
    (wholeSha256 : String) : Appends H ⟨env, .createSession totalBytes wholeSha256⟩ db := by
  have served := @serve_createSession H env db totalBytes wholeSha256
  obtain ⟨taken, run⟩ | ⟨-, error, -, run⟩ :=
    run_createSession (H := H) env wholeSha256 (sound.rows env.uuid) (Int.natCast_nonneg totalBytes)
  · rw [run] at served
    by_cases isSealed : (createdSession H env totalBytes wholeSha256).status = .sealed
    · refine Appends.of_event served (congrArg (List.filterMap Write.audit?)
        (creationWrites_sealed isSealed)) ?_ ?_
      · rw [creationAnswer, if_neg (by simp [isSealed])]
        exact decide_eq_true isSealed
      · exact congrArg some (createdSession_id env totalBytes wholeSha256).symm
    · refine Appends.of_quiet served ?_ ?_
      · rw [creationAnswer]
        by_cases isFailed : (createdSession H env totalBytes wholeSha256).status = .failed
        · rw [if_pos isFailed]
          rfl
        · rw [if_neg isFailed]
          exact decide_eq_false isSealed
      · rw [creationWrites, creationAudits, if_neg isSealed]
        rfl
  · rw [run] at served
    exact @Appends.of_quiet H _ db _ [] served rfl rfl

theorem putChunk_appends {db : Store} (sound : Sound H db) (env : Env) (id : String)
    (start declaredLength : Int) (chunkDigest : String) (payload : Bytes) :
    Appends H ⟨env, .putChunk id start declaredLength chunkDigest payload⟩ db := by
  have served := @serve_putChunk H env db id start declaredLength chunkDigest payload
  rw [run_putChunk env start declaredLength chunkDigest payload (sound.rows id)] at served
  obtain ⟨error, decided⟩ | ⟨session, -, -, -, -, decided⟩ | ⟨session, found, forward, decided⟩ :=
    putPlan_cases env start declaredLength chunkDigest payload (sound.rows id)
  · rw [decided] at served
    exact @Appends.of_quiet H _ db _ [] served rfl rfl
  · -- a replay writes nothing
    rw [decided] at served
    exact @Appends.of_quiet H _ db _ [] served (by simp [audits, PutPlan.answer, Except.map, ack]) rfl
  · obtain rfl := session?_id found
    have outcome := forward.outcome env
    rw [← decided] at outcome
    generalize putPlan H env session.id start declaredLength chunkDigest payload
      (db.rowsOf session.id) = plan at outcome served
    cases outcome with
    | advanced _ =>
      refine Appends.of_quiet served ?_ rfl
      simp [audits, PutPlan.answer, Except.map, ack, advancedSession, forward.active]
    | sealed _ _ _ => exact Appends.of_event served rfl rfl rfl
    | auditFailed _ _ _ => exact @Appends.of_quiet H _ db _ [] served rfl rfl
    | failed _ _ => exact Appends.of_quiet served rfl rfl

/-- An accepted compaction writes one audit row, and otherwise chunks. -/
theorem acceptedPlan_audits {env : Env} {session : UploadSession} {target : Int} {old : List Chunk}
    {sequence : Int} {buffer : Bytes}
    (taken : auditTaken env (compactionRow env sequence session (H buffer) target old.length
      (plannedRows H session.id buffer target).length)) :
    (acceptedPlan H env session target old sequence buffer).writes.filterMap Write.audit? =
      [compactionRow env sequence session (H buffer) target old.length
        (plannedRows H session.id buffer target).length] := by
  have changes : (rewriteWrites H session target old buffer).filterMap Write.audit? = [] := by
    rw [List.filterMap_eq_nil_iff]
    intro write member
    obtain ⟨chunk, rfl | rfl⟩ := rewriteWrites_chunks member <;> rfl
  rw [acceptedPlan, if_pos taken, CompactPlan.writes, List.filterMap_append]
  split
  · rfl
  · rw [changes]
    rfl

theorem compactSealed_appends {db : Store} (sound : Sound H db) (env : Env) (id : String)
    (target : Int) : Appends H ⟨env, .compactSealed id target⟩ db := by
  have served := @serve_compactSealed H env db id target
  rw [run_compactSealed env target (sound.rows id).inRange] at served
  obtain ⟨error, decided⟩ | ⟨session, found, -, -, decided⟩ :=
    compactPlan_cases env target (sound.rows id)
  · rw [decided] at served
    exact @Appends.of_quiet H _ db _ [] served rfl rfl
  · obtain rfl := session?_id found
    rw [decided] at served
    by_cases taken : auditTaken env (compactionRow env (db.maxSequence session.id + 1) session
        (H (contentOf (db.rowsOf session.id).chunks)) target (db.rowsOf session.id).chunks.length
        (plannedRows H session.id (contentOf (db.rowsOf session.id).chunks) target).length)
    · refine Appends.of_event served (acceptedPlan_audits taken) ?_ rfl
      rw [acceptedPlan, if_pos taken]
      rfl
    · rw [acceptedPlan, if_neg taken] at served
      exact @Appends.of_quiet H _ db _ [] served rfl rfl

theorem serve_appends {db : Store} (sound : Sound H db) (call : Call) : Appends H call db := by
  obtain ⟨env, request⟩ := call
  have reading : request.reads = true → audits request ((Call.mk env request).serve H db).1 = false →
      Appends H ⟨env, request⟩ db :=
    fun reads quiet => .none quiet (by rw [Call.serve, (Call.program_quiet reads).run_data])
  cases request with
  | createSession totalBytes wholeSha256 => exact createSession_appends sound env _ _
  | putChunk id start declaredLength chunkDigest payload =>
    exact putChunk_appends sound env id _ _ _ _
  | compactSealed id target => exact compactSealed_appends sound env id _
  | createComparison baseline candidate =>
    refine .none rfl ?_
    rw [serve_createComparison]
    obtain same | ⟨row, inserted⟩ := createComparison_store (H := H) env db baseline candidate
    · rw [same]
    · rw [inserted]
      rfl
  | getSession _ | listSessions _ _ _ _ | listChunks _ | getAuditTrail _ | downloadContent _ _
  | getComparison _ => exact reading rfl rfl

end Append

/-! ## Every store -/

section Stores

variable (H : Bytes → String)

/-- The trail of a stored session, read in the order of its numbers, after these calls. -/
structure TrailOf (calls : List Call) (db : Store) (session : UploadSession) : Prop where
  numbered : Numbered (db.auditOf session.id)
  empty_iff : db.auditOf session.id = [] ↔ session.status = .active ∨ session.status = .failed
  carried : ∀ event ∈ db.auditOf session.id, event.totalBytes = session.totalBytes ∧
    event.wholeSha256 = session.wholeSha256 ∧
      event.wholeSha256 = H (contentOf (db.chunksOf session.id))
  trail : session.status = .sealed → ∃ sealing compacted sealedRows,
    db.auditOf session.id = sealing :: compacted ∧ SealingEvent sealing ∧
      (∀ event ∈ compacted, CompactionEvent session.totalBytes event) ∧
      compacted.length = compactionCount H session.id calls Store.empty ∧
      SealedWith H session.id calls sealedRows ∧
      Linked sealedRows compacted (db.chunksOf session.id).length

/-- What the next call does to the events. -/
structure EventsKept (db : Store) (call : Call) : Prop where
  kept : db.auditEvents <+: (call.serve H db).2.auditEvents
  added_iff : audits call.request (call.serve H db).1 = true ↔
    ∃ event, call.audited = some event.sessionId ∧
      (call.serve H db).2.auditEvents = db.auditEvents ++ [event]
  /-- Refusals, rollbacks and failed finalizations. -/
  refused : ∀ {exception}, (call.serve H db).1 = .error exception →
    (call.serve H db).2.auditEvents = db.auditEvents
  replayed : ∀ {body}, (call.serve H db).1 = .ok (.ack body) → body.idempotentReplay = true →
    (call.serve H db).2.auditEvents = db.auditEvents
  reading : call.request.reads = true → (call.serve H db).2.auditEvents = db.auditEvents
  compared : ∀ {baseline candidate}, call.request = .createComparison baseline candidate →
    (call.serve H db).2.auditEvents = db.auditEvents

variable {H}

theorem eventsKept {db : Store} (sound : Sound H db) (call : Call) : EventsKept H db call := by
  have appends := serve_appends sound call
  have same : audits call.request (call.serve H db).1 = false →
      (call.serve H db).2.auditEvents = db.auditEvents := by
    intro quiet
    cases appends with
    | none _ unchanged => exact unchanged
    | one _ adds _ _ =>
      rw [quiet] at adds
      cases adds
  refine {
    kept := ?_
    added_iff := ⟨fun adds => ?_, fun ⟨event, _, grown⟩ => ?_⟩
    refused := fun {exception} raised => same ?_
    replayed := fun {body} answered replay => same ?_
    reading := fun reads => same ?_
    compared := fun {baseline candidate} request => same ?_ }
  · cases appends with
    | none _ unchanged => rw [unchanged]
    | one event _ _ grown => exact ⟨[event], grown.symm⟩
  · cases appends with
    | none quiet _ =>
      rw [adds] at quiet
      cases quiet
    | one event _ own grown => exact ⟨event, own, grown⟩
  · by_contra quiet
    rw [same (Bool.not_eq_true _ ▸ quiet)] at grown
    have lengths := congrArg List.length grown
    rw [List.length_append, List.length_singleton] at lengths
    omega
  · rw [raised]
    cases call.request <;> rfl
  · rw [answered]
    cases call.request <;> simp [audits, replay]
  · generalize (call.serve H db).1 = answer
    cases request : call.request <;> simp_all [Request.reads, audits]
  · rw [request]
    rfl

/-- Every session's trail after every run, and what the next call makes of the events. -/
theorem audit_trail (calls : List Call) :
    let db := serveAll H calls Store.empty
    (∀ session ∈ db.uploadSessions, TrailOf H calls db session) ∧
      ∀ call, EventsKept H db call := by
  intro db
  have sound := (reachable_serveAll H calls).sound
  refine ⟨fun session stored => ?_, fun call => eventsKept sound call⟩
  have found := sound.session? stored
  have consistent := sound.consistent found
  have read : ∀ events, (db.rowsOf session.id).audits = events → Numbered events →
      db.auditOf session.id = events := by
    rintro events rfl numbered
    exact numbered.ordered
  -- an unsealed session has no events at all
  have unsealed : session.status = .active ∨ session.status = .failed →
      TrailOf H calls db session := by
    intro status
    have empty : (db.rowsOf session.id).audits = [] := by
      obtain active | failed := status
      · exact (consistent.whenActive active).2.2
      · exact (consistent.whenFailed failed).2.2.2
    have none' : db.auditOf session.id = [] := read [] empty rfl
    refine ⟨?_, ?_, ?_, ?_⟩
    · rw [none']
      rfl
    · simp [none', status]
    · rw [none']
      exact fun _ member => absurd member List.not_mem_nil
    · intro isSealed
      obtain active | failed := status
      · rw [isSealed] at active
        cases active
      · rw [isSealed] at failed
        cases failed
  cases status : session.status with
  | active => exact unsealed (.inl status)
  | failed => exact unsealed (.inr status)
  | sealed =>
    obtain ⟨sealedRows, sealedWith, trail⟩ := (recorded_run calls session.id).trail session found status
    have events : db.auditOf session.id = (db.rowsOf session.id).audits :=
      read _ rfl trail.numbered
    have chunks : db.chunksOf session.id = (db.rowsOf session.id).chunks := consistent.ordered
    obtain ⟨sealing, compacted, shape, isSealing, all, count, linked⟩ := trail.linked
    refine ⟨?_, ?_, ?_, ?_⟩
    · rw [events]
      exact trail.numbered
    · rw [events, shape]
      simp [status]
    · rw [events, chunks]
      intro event member
      obtain ⟨total, whole⟩ := trail.carried event member
      exact ⟨total, whole, whole.trans (consistent.whenSealed status).2.2⟩
    · rw [events, chunks]
      exact fun _ => ⟨sealing, compacted, sealedRows, shape, isSealing, all, count, sealedWith, linked⟩

end Stores

end SeismicIngest
