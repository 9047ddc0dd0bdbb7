import SeismicIngest.Guarantees.AuditTrail
import SeismicIngest.Guarantees.CatalogueRefinement

/-! # Archives from before the audit trail

A database that an older version of the service has filled has no audit rows; the table is
created when the new version starts.  Such a store is sound (`Sound.preUpgrade`), so every
call answers as it would with the rows, except those that report them, and from then on
each session keeps a trail: one sealed before the upgrade has an event for each compaction
since, numbered from one and linked to the layout that the upgrade found
(`LegacyTrail`), and one sealed after it has the full trail.
-/

namespace SeismicIngest

open Transaction Spans

section

variable {H : Bytes → String}

/-! ## The upgrade -/

/-- The tables as the version without audit rows left them. -/
def Store.preUpgrade (db : Store) : Store :=
  { db with auditEvents := [] }

theorem rowsOf_preUpgrade (db : Store) (id : String) :
    db.preUpgrade.rowsOf id = { db.rowsOf id with audits := [] } := rfl

theorem Consistent.withoutAudits {session : UploadSession} {chunks : List Chunk}
    {audits : List AuditEvent} (consistent : Consistent H session chunks audits) :
    Consistent H session chunks [] :=
  { consistent with
    whenActive := fun active =>
      ⟨(consistent.whenActive active).1, (consistent.whenActive active).2.1, rfl⟩
    whenFailed := fun failed =>
      ⟨(consistent.whenFailed failed).1, (consistent.whenFailed failed).2.1,
        (consistent.whenFailed failed).2.2.1, rfl⟩ }

theorem Sound.preUpgrade {db : Store} (sound : Sound H db) : Sound H db.preUpgrade where
  ids := sound.ids
  rows := fun id => by
    have rows := sound.rows id
    rw [rowsOf_preUpgrade]
    rw [RowsSound] at rows ⊢
    dsimp only
    cases row : (db.rowsOf id).row with
    | none =>
      rw [row] at rows
      exact ⟨rows.1, rfl⟩
    | some session =>
      rw [row] at rows
      exact rows.withoutAudits

/-! ## Trails without a sealing event -/

/-- The trail of a session that was sealed before the upgrade, with `foundRows` chunk rows
    then and `storedRows` now. -/
structure LegacyTrail (session : UploadSession) (foundRows storedRows compactions : Nat)
    (events : List AuditEvent) : Prop where
  numbered : Numbered events
  carried : ∀ event ∈ events,
    event.totalBytes = session.totalBytes ∧ event.wholeSha256 = session.wholeSha256
  compacted : ∀ event ∈ events, CompactionEvent session.totalBytes event
  counted : events.length = compactions
  linked : Linked foundRows events storedRows

theorem LegacyTrail.empty (session : UploadSession) (rows : Nat) :
    LegacyTrail session rows rows 0 [] where
  numbered := rfl
  carried := fun _ member => absurd member List.not_mem_nil
  compacted := fun _ member => absurd member List.not_mem_nil
  counted := rfl
  linked := rfl

/-- One more compaction. -/
theorem LegacyTrail.snoc {session : UploadSession} {foundRows storedRows compactions after : Nat}
    {events : List AuditEvent} {event : AuditEvent}
    (trail : LegacyTrail session foundRows storedRows compactions events)
    (next : event.sequence = events.length + 1)
    (compaction : CompactionEvent session.totalBytes event)
    (found : event.chunksBefore = some (storedRows : Int))
    (left : event.chunksAfter = some (after : Int))
    (total : event.totalBytes = session.totalBytes)
    (whole : event.wholeSha256 = session.wholeSha256) :
    LegacyTrail session foundRows after (compactions + 1) (events ++ [event]) where
  numbered := trail.numbered.snoc next
  carried := List.forall_mem_append.mpr ⟨trail.carried, List.forall_mem_singleton.mpr ⟨total, whole⟩⟩
  compacted := List.forall_mem_append.mpr ⟨trail.compacted, List.forall_mem_singleton.mpr compaction⟩
  counted := by rw [List.length_append, List.length_singleton, trail.counted]
  linked := trail.linked.snoc found left

/-! ## One call -/

section Step

variable {db : Store} {id : String} {call : Call}

/-- A call that is no compaction of the session leaves its rows, or seals it with the first
    event of its trail, or leaves it unsealed. -/
theorem serve_uncompacted (sound : Sound H db) (other : CompactsOn H id call db = false) :
    (call.serve H db).2.rowsOf id = db.rowsOf id ∨
      ¬ SealedIn id db ∧ ∀ session, (call.serve H db).2.session? id = some session →
        session.status = .sealed →
          Trail session ((call.serve H db).2.rowsOf id).chunks.length
            ((call.serve H db).2.rowsOf id).chunks.length 0 ((call.serve H db).2.rowsOf id).audits := by
  have effect := serve_rows sound call id
  generalize left : (call.serve H db).2.rowsOf id = rows at effect
  have row : (call.serve H db).2.session? id = rows.row := by rw [← left, rowsOf_row]
  cases effect with
  | unchanged => exact .inl rfl
  | created request drawn taken =>
    refine .inr ⟨?_, ?_⟩
    · rintro ⟨session, found, -⟩
      exact taken.notFound drawn found
    · intro session found isSealed
      obtain rfl := Option.some.inj (row.symm.trans found)
      obtain ⟨empty, same⟩ := createdSession_empty isSealed
      rw [creationAudits, if_pos isSealed]
      refine Trail.sealed 0 rfl (auditRow_sealing _ _ _ _) ?_ ?_
      · rw [createdSession_totalBytes, empty]
        rfl
      · rw [createdSession_wholeSha256, same]
        rfl
  | stored request own forward outcome =>
    subst own
    refine .inr ⟨?_, ?_⟩
    · -- the session was still active
      rintro ⟨session, found, isSealed⟩
      obtain rfl := Option.some.inj (forward.found.symm.trans found)
      rw [forward.active] at isSealed
      cases isSealed
    · intro session found isSealed
      obtain rfl := Option.some.inj (row.symm.trans found)
      obtain ⟨-, status, -⟩ | ⟨-, finalized, ⟨same, -⟩ | ⟨-, isFailed⟩⟩ := outcome.status
      · rw [status, forward.active] at isSealed
        cases isSealed
      · rw [forward.noAudits, List.nil_append, if_pos ⟨isSealed, finalized⟩]
        exact Trail.sealed _ rfl (auditRow_sealing _ _ _ _) rfl (same.trans outcome.ended.2.2.1.symm)
      · rw [isFailed] at isSealed
        cases isSealed
  | compacted request found isSealed positive answered =>
    have compacts := compactsOn_iff.mpr ⟨_, _, request, answered⟩
    rw [other] at compacts
    cases compacts

end Step

/-! ## Every run -/

section Run

variable {start : Store} {calls : List Call} {id : String} {call : Call}

variable (H start calls id) in
/-- What the rows of the session record of the calls since `start`. -/
structure RecordedSince : Prop where
  legacy : ∀ session, start.session? id = some session → session.status = .sealed →
    (serveAll H calls start).session? id = some session ∧
      LegacyTrail session (start.rowsOf id).chunks.length
        ((serveAll H calls start).rowsOf id).chunks.length (compactionCount H id calls start)
        ((serveAll H calls start).rowsOf id).audits
  since : ¬ SealedIn id start → ∀ session, (serveAll H calls start).session? id = some session →
    session.status = .sealed →
      ∃ sealedRows, Trail session sealedRows ((serveAll H calls start).rowsOf id).chunks.length
        (compactionCount H id calls start) ((serveAll H calls start).rowsOf id).audits
  unsealed : ¬ SealedIn id (serveAll H calls start) → compactionCount H id calls start = 0

/-- A compaction adds its event to either trail. -/
theorem RecordedSince.compacted (recorded : RecordedSince H start calls id)
    (sound : Sound H (serveAll H calls start))
    (compacts : CompactsOn H id call (serveAll H calls start) = true) :
    RecordedSince H start (calls ++ [call]) id := by
  obtain ⟨session, target, found, isSealed, positive, rows⟩ := serve_compactsOn sound compacts
  have consistent := sound.consistent found
  obtain rfl := session?_id found
  have size := sealed_length consistent isSealed
  have whole := sealed_digest consistent isSealed
  have stored : (serveAll H (calls ++ [call]) start).session? session.id = some session := by
    rw [serveAll_snoc, ← rowsOf_row, rows]
  have count : compactionCount H session.id (calls ++ [call]) start =
      compactionCount H session.id calls start + 1 := by
    rw [compactionCount_snoc, if_pos compacts]
  -- the next number is the length of the trail
  have next : ∀ {events}, ((serveAll H calls start).rowsOf session.id).audits = events →
      Numbered events → (serveAll H calls start).maxSequence session.id + 1 = events.length + 1 := by
    rintro events rfl numbered
    rw [maxSequence_eq, numbered.maxSequence]
  constructor
  · intro legacy legacyFound legacySealed
    obtain ⟨kept, trail⟩ := recorded.legacy legacy legacyFound legacySealed
    obtain rfl : legacy = session := Option.some.inj (kept.symm.trans found)
    refine ⟨stored, ?_⟩
    rw [count, serveAll_snoc, rows]
    exact trail.snoc (next rfl trail.numbered) (compactionRow_compaction _ _ _ _ positive _ size)
      rfl rfl rfl whole
  · intro since later laterFound laterSealed
    obtain rfl : session = later := Option.some.inj (stored.symm.trans laterFound)
    obtain ⟨sealedRows, trail⟩ := recorded.since since session found isSealed
    refine ⟨sealedRows, ?_⟩
    rw [count, serveAll_snoc, rows]
    exact trail.compacted (next rfl trail.numbered) (compactionRow_compaction _ _ _ _ positive _ size)
      rfl rfl rfl whole
  · exact fun unsealed => absurd ⟨session, stored, isSealed⟩ unsealed

/-- Any other call leaves both trails as they are, or starts the one of a new sealing. -/
theorem RecordedSince.other (recorded : RecordedSince H start calls id)
    (sound : Sound H (serveAll H calls start))
    (other : CompactsOn H id call (serveAll H calls start) = false) :
    RecordedSince H start (calls ++ [call]) id := by
  have count : compactionCount H id (calls ++ [call]) start = compactionCount H id calls start := by
    rw [compactionCount_snoc, other]
    rfl
  obtain same | ⟨before, starts⟩ := serve_uncompacted sound other
  · rw [← serveAll_snoc] at same
    have row : (serveAll H (calls ++ [call]) start).session? id = (serveAll H calls start).session? id :=
      congrArg SessionRows.row same
    constructor
    · intro session found isSealed
      rw [row, same, count]
      exact recorded.legacy session found isSealed
    · intro since session found isSealed
      rw [row] at found
      rw [same, count]
      exact recorded.since since session found isSealed
    · intro unsealed
      rw [count]
      refine recorded.unsealed ?_
      rintro ⟨session, found, isSealed⟩
      exact unsealed ⟨session, row.trans found, isSealed⟩
  · rw [← serveAll_snoc] at starts
    have none' := recorded.unsealed before
    constructor
    · intro session found isSealed
      exact absurd ⟨session, (recorded.legacy session found isSealed).1, isSealed⟩ before
    · intro since session found isSealed
      rw [count, none']
      exact ⟨_, starts session found isSealed⟩
    · exact fun _ => count.trans none'

theorem recordedSince_run (sound : Sound H start) (bare : (start.rowsOf id).audits = [])
    (calls : List Call) : RecordedSince H start calls id := by
  induction calls using List.reverseRecOn with
  | nil =>
    constructor
    · intro session found isSealed
      refine ⟨found, ?_⟩
      change LegacyTrail session _ _ 0 (start.rowsOf id).audits
      rw [bare]
      exact .empty session _
    · exact fun since session found isSealed => absurd ⟨session, found, isSealed⟩ since
    · exact fun _ => rfl
  | append_singleton calls call inductionHypothesis =>
    have soundNow := sound.later (Later.serveAll H calls start)
    cases compacts : CompactsOn H id call (serveAll H calls start) with
    | true => exact inductionHypothesis.compacted soundNow compacts
    | false => exact inductionHypothesis.other soundNow compacts

end Run

/-! ## Every upgraded store -/

/-- After the upgrade every call that reports no rows answers as it would have with the
    audit rows; a package sealed before keeps its row and content, and its trail is the
    compactions since; a package sealed later has its full trail. -/
theorem upgrade_keeps_archives {old : Store} (reachable : Reachable H old) (calls : List Call) :
    let start := old.preUpgrade
    let db := serveAll H calls start
    told H calls start = told H calls old ∧
      (∀ session ∈ old.uploadSessions, session.status = .sealed →
        db.session? session.id = some session ∧
          contentOf (db.chunksOf session.id) = contentOf (old.chunksOf session.id) ∧
          LegacyTrail session (old.chunksOf session.id).length (db.chunksOf session.id).length
            (compactionCount H session.id calls start) (db.auditOf session.id)) ∧
      ∀ session ∈ db.uploadSessions, session.status = .sealed → ¬ SealedIn session.id old →
        ∃ sealedRows, Trail session sealedRows (db.chunksOf session.id).length
          (compactionCount H session.id calls start) (db.auditOf session.id) := by
  intro start db
  have sound : Sound H start := reachable.sound.preUpgrade
  have soundNow : Sound H db := sound.later (Later.serveAll H calls start)
  have recorded : ∀ id, RecordedSince H start calls id :=
    fun id => recordedSince_run sound rfl calls
  have ordered : ∀ {id}, Numbered (db.rowsOf id).audits → db.auditOf id = (db.rowsOf id).audits :=
    fun numbered => numbered.ordered
  refine ⟨?_, ?_, ?_⟩
  · rw [told_eq sound, told_eq reachable.sound]
    rfl
  · intro session stored isSealed
    have found : start.session? session.id = some session := reachable.sound.session? stored
    obtain ⟨kept, trail⟩ := (recorded session.id).legacy session found isSealed
    obtain ⟨ended, endedFound, evolves⟩ :=
      evolves_of_later sound (Later.serveAll H calls start) found
    obtain ⟨-, same⟩ := evolves.frozen (by simp [isSealed])
    have before : old.chunksOf session.id = (start.rowsOf session.id).chunks :=
      (reachable.sound.rows session.id).chunksOf found
    have now : db.chunksOf session.id = (db.rowsOf session.id).chunks :=
      (soundNow.rows session.id).chunksOf kept
    rw [before, now, ordered trail.numbered]
    exact ⟨kept, same, trail⟩
  · intro session stored isSealed since
    have found := soundNow.session? stored
    obtain ⟨sealedRows, trail⟩ := (recorded session.id).since since session found isSealed
    rw [(soundNow.rows session.id).chunksOf found, ordered trail.numbered]
    exact ⟨sealedRows, trail⟩

/-- A package of two rows from before the upgrade, compacted to one after it. -/
theorem upgrade_keeps_archives_compacted :
    let H : Bytes → String := fun _ => "d"
    let session : UploadSession := ⟨"s", 2, "d", 2, .sealed, some "d", none, 0⟩
    let old := serveAll H [⟨⟨"s", 0, true⟩, .createSession 2 "d"⟩,
      ⟨⟨"", 0, true⟩, .putChunk "s" 0 1 "d" [1]⟩, ⟨⟨"", 0, true⟩, .putChunk "s" 1 1 "d" [2]⟩]
      Store.empty
    let calls : List Call := [⟨⟨"", 0, true⟩, .compactSealed "s" 2⟩]
    let db := serveAll H calls old.preUpgrade
    old.auditOf "s" ≠ [] ∧ contentOf (db.chunksOf "s") = [1, 2] ∧
      LegacyTrail session 2 1 1 (db.auditOf "s") := by
  intro H session old calls db
  have reachable : Reachable H old := reachable_serveAll H _
  have rowsBefore : (old.chunksOf session.id).length = 2 := by decide
  have rowsNow : (db.chunksOf session.id).length = 1 := by decide
  have compactions : compactionCount H session.id calls old.preUpgrade = 1 := by decide
  obtain ⟨-, content, trail⟩ :=
    (upgrade_keeps_archives reachable calls).2.1 session (by decide) rfl
  rw [rowsBefore, rowsNow, compactions] at trail
  exact ⟨by decide, content.trans (by decide), trail⟩

end

end SeismicIngest
