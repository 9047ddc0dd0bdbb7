import SeismicIngest.Verified.CompactionPlan

/-! # Compactions and the invariant

On consistent rows the checks of the old rows pass, and both ways to succeed leave
the planned rows of the archived content (`acceptedPlan_rows`).  So a compaction
keeps the invariant, the session row and the content, whatever it answers
(`rows_compactSealed`).
-/

namespace SeismicIngest

open Transaction Spans

section

variable {H : Bytes → String}

/-! ## Consistent rows -/

section Sealed

variable {db : Store} {session : UploadSession} (found : db.session? session.id = some session)
  (consistent : Consistent H session (db.rowsOf session.id).chunks (db.rowsOf session.id).audits)
  (isSealed : session.status = .sealed)

include consistent isSealed

theorem sealed_length : ((contentOf (db.rowsOf session.id).chunks).length : Int) = session.totalBytes := by
  rw [consistent.length, (consistent.whenSealed isSealed).1]

theorem sealed_digest : H (contentOf (db.rowsOf session.id).chunks) = session.wholeSha256 :=
  (consistent.whenSealed isSealed).2.2.symm

/-- The stored lengths add up to the registered total. -/
theorem sealed_totalLength : totalLength (db.rowsOf session.id).chunks = session.totalBytes := by
  rw [totalLength_intact consistent.tiles fun chunk member => (consistent.intact chunk member).span,
    (consistent.whenSealed isSealed).1, Int.sub_zero]

/-- The checks of the old rows pass. -/
theorem oldBuffer_consistent :
    oldBuffer H session (Store.byStartOffset (db.rowsOf session.id).chunks) =
      .ok (contentOf (db.rowsOf session.id).chunks) := by
  rw [consistent.ordered]
  have tiles := consistent.tiles
  rw [(consistent.whenSealed isSealed).1] at tiles
  exact oldBuffer_ok_iff.mpr ⟨tiles, rfl, sealed_length consistent isSealed,
    sealed_digest consistent isSealed⟩

include found

/-- Both ways to succeed leave the planned rows and one more audit row. -/
theorem acceptedPlan_rows (env : Env) (target : Int) :
    let content := contentOf (db.rowsOf session.id).chunks
    let row := compactionRow env (db.maxSequence session.id + 1) session (H content) target
      (db.rowsOf session.id).chunks.length (plannedRows H session.id content target).length
    let plan := acceptedPlan H env session target (db.rowsOf session.id).chunks
      (db.maxSequence session.id + 1) content
    (Write.applyAll plan.writes db).rowsOf session.id =
      if auditTaken env row then
        ⟨some session, plannedRows H session.id content target, (db.rowsOf session.id).audits ++ [row]⟩
      else db.rowsOf session.id := by
  intro content row plan
  have size := sealed_length consistent isSealed
  by_cases taken : auditTaken env row
  · have rows := (rowsOf_acceptedPlan found rowsOf_owned (fun _ member => member) taken).2
    rw [if_pos taken]
    refine rows.trans ?_
    by_cases planned : (db.rowsOf session.id).chunks.map Chunk.layoutRow =
        newLayout H content (plannedSpans session.totalBytes target)
    · -- the stored rows already are the planned rows
      have same : (db.rowsOf session.id).chunks = plannedRows H session.id content target :=
        eq_plannedRows H session.id target rowsOf_owned consistent.tiles consistent.fits
          (by rw [size]; exact planned)
      exact congrArg (SessionRows.mk (some session) · _) ((if_pos planned).trans same)
    · exact congrArg (SessionRows.mk (some session) · _) (if_neg planned)
  · -- the audit row is refused and everything is rolled back
    simp only [plan, acceptedPlan]
    rw [if_neg taken, if_neg taken]
    rfl

/-- The plan of a sealed session is the accepted one. -/
theorem compactPlan_sealed (env : Env) {target : Int} (positive : 0 < target) :
    compactPlan H env session.id target (db.rowsOf session.id) =
      acceptedPlan H env session target (db.rowsOf session.id).chunks
        (db.maxSequence session.id + 1) (contentOf (db.rowsOf session.id).chunks) := by
  have checked := oldBuffer_consistent consistent isSealed
  rw [← chunksOf_eq] at checked
  rw [compactPlan_of_ok positive found isSealed checked, chunksOf_eq, consistent.ordered]

omit found in
/-- A database without faults takes the audit row when its number and the target fit. -/
theorem auditTaken_sealed {env : Env} {target : Int} (accepted : env.auditAccepted = true)
    (number : fitsBigint (db.maxSequence session.id + 1) = true) (positive : 0 < target)
    (bounded : target < 2 ^ 63) :
    let content := contentOf (db.rowsOf session.id).chunks
    auditTaken env (compactionRow env (db.maxSequence session.id + 1) session (H content) target
      (db.rowsOf session.id).chunks.length (plannedRows H session.id content target).length) = true := by
  intro content
  have size : (content.length : Int) = session.totalBytes := sealed_length consistent isSealed
  have inRange := consistent.inRange
  -- rows are not empty, so there are at most as many as bytes, before and after
  have before : (db.rowsOf session.id).chunks.length ≤ content.length :=
    chunkLayout.length_le_content consistent.nonempty
  have after : (plannedRows H session.id content target).length ≤ content.length := by
    have counted : (plannedRows H session.id content target).length ≤
        (contentOf (plannedRows H session.id content target)).length :=
      chunkLayout.length_le_content (plannedRows_nonempty H session.id content positive)
    rwa [plannedRows_content H session.id content positive] at counted
  have total : fitsBigint session.totalBytes = true := consistent.confirmedInRange.1
  have targetFits : fitsBigint target = true := fitsBigint_of_nonneg (by omega) bounded
  have beforeFits : fitsBigint ((db.rowsOf session.id).chunks.length : Int) = true :=
    fitsBigint_of_nonneg (by omega) (by omega)
  have afterFits : fitsBigint ((plannedRows H session.id content target).length : Int) = true :=
    fitsBigint_of_nonneg (by omega) (by omega)
  simp [auditTaken, accepted, Write.outOfRange, compactionRow, auditRow, fitsBigint?, number, total,
    targetFits, beforeFits, afterFits]

end Sealed

/-- What the database asks of the audit row of a compaction. -/
theorem auditTaken_bounds {env : Env} {sequence target : Int} {session : UploadSession}
    {wholeSha256 : String} {before after : Nat}
    (taken : auditTaken env (compactionRow env sequence session wholeSha256 target before after) = true) :
    env.auditAccepted = true ∧ fitsBigint sequence = true ∧ target < 2 ^ 63 := by
  simp only [auditTaken, Write.outOfRange, compactionRow, auditRow, fitsBigint?, fitsBigint,
    Bool.and_eq_true, Bool.not_not, decide_eq_true_eq] at taken ⊢
  obtain ⟨accepted, ⟨⟨⟨number, -⟩, bounded⟩, -⟩, -⟩ := taken
  exact ⟨accepted, of_decide_eq_true number, bounded.2⟩

/-! ## The whole call -/

section Call

variable {sessionId : String} {db : Store} (env : Env) (target : Int)

/-- On sound rows a compaction is refused before it starts, or its plan is the
    accepted one. -/
theorem compactPlan_cases (sound : RowsSound H (db.rowsOf sessionId)) :
    (∃ error, compactPlan H env sessionId target (db.rowsOf sessionId) = .refuse error) ∨
      ∃ session, db.session? sessionId = some session ∧ session.status = .sealed ∧ 0 < target ∧
        compactPlan H env sessionId target (db.rowsOf sessionId) =
          acceptedPlan H env session target (db.rowsOf sessionId).chunks
            (db.maxSequence sessionId + 1) (contentOf (db.rowsOf sessionId).chunks) := by
  by_cases invalid : target ≤ 0
  · exact .inl ⟨_, compactPlan_invalid invalid _⟩
  · have positive : 0 < target := Int.not_le.mp invalid
    cases found : db.session? sessionId with
    | none => exact .inl ⟨_, compactPlan_missing positive found⟩
    | some session =>
      have consistent := sound.consistent found
      obtain rfl := session?_id found
      by_cases isSealed : session.status = .sealed
      · exact .inr ⟨session, rfl, isSealed, positive,
          compactPlan_sealed found consistent isSealed env positive⟩
      · exact .inl ⟨_, compactPlan_conflict positive found isSealed⟩

/-- The registered length of a sound session fits its column. -/
theorem RowsSound.inRange (sound : RowsSound H (db.rowsOf sessionId)) (session : UploadSession)
    (found : db.session? sessionId = some session) : session.totalBytes < 2 ^ 63 :=
  (sound.consistent found).inRange

/-- Planned rows keep a sealed session consistent. -/
theorem Consistent.planned {session : UploadSession} {chunks : List Chunk}
    {audits later : List AuditEvent} (consistent : Consistent H session chunks audits)
    (isSealed : session.status = .sealed) {target : Int} (positive : 0 < target) :
    Consistent H session (plannedRows H session.id (contentOf chunks) target) later where
  tiles := by
    rw [(consistent.whenSealed isSealed).1, ← (consistent.whenSealed isSealed).1, ← consistent.length]
    exact plannedRows_tiles H session.id (contentOf chunks) positive
  intact := plannedRows_intact H session.id (contentOf chunks) positive
  nonempty := plannedRows_nonempty H session.id (contentOf chunks) positive
  bounded := consistent.bounded
  inRange := consistent.inRange
  whenActive := fun status => by rw [isSealed] at status; cases status
  whenSealed := fun status => by
    rw [plannedRows_content H session.id (contentOf chunks) positive]
    exact consistent.whenSealed status
  whenFailed := fun status => by rw [isSealed] at status; cases status

/-- A compaction keeps the session row and the content of its session, and leaves
    sound rows. -/
theorem rows_compactSealed (sound : RowsSound H (db.rowsOf sessionId)) :
    let after := ((compactSealed H env sessionId target).run db).2.rowsOf sessionId
    RowsSound H after ∧ after.row = (db.rowsOf sessionId).row ∧
      contentOf after.chunks = contentOf (db.rowsOf sessionId).chunks := by
  intro after
  have run := run_compactSealed (H := H) env target sound.inRange
  have committed : after = (Write.applyAll (compactPlan H env sessionId target
      (db.rowsOf sessionId)).writes db).rowsOf sessionId := by
    simp only [after, run]
  rw [committed]
  obtain ⟨error, decided⟩ | ⟨session, found, isSealed, positive, decided⟩ :=
    compactPlan_cases env target sound
  · rw [decided]
    exact ⟨sound, rfl, rfl⟩
  · have consistent := sound.consistent found
    obtain rfl := session?_id found
    rw [decided, acceptedPlan_rows found consistent isSealed env target]
    split
    · refine ⟨consistent.planned isSealed positive, ?_, ?_⟩
      · rw [rowsOf_row, found]
      · exact plannedRows_content H session.id _ positive
    · exact ⟨sound, rfl, rfl⟩

end Call

end

end SeismicIngest
