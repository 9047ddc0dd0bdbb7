import SeismicIngest.Verified.Comparisons

/-! # Download and comparison agree on what a valid archive is

The two walks make the same checks in the same order: over any rows both succeed, or
both end at the same `Stop`, which each reports in its own words.  So a comparison
is recorded only of archives that can be downloaded, and the archive that cannot is
the one its error names.
-/

namespace SeismicIngest

open Transaction Spans

section

variable (H : Bytes → String)

/-! ## Where a walk stops -/

/-- The first check that fails: at the row with this index, or after the last row. -/
inductive Stop where
  | discontinuous (index : Nat) (cursor : Int)
  | inconsistentLength (index : Nat) (chunk : Chunk)
  | chunkDigest (index : Nat) (chunk : Chunk)
  | totalLength (cursor : Int)
  | wholeDigest

namespace Stop

/-- The error of a download. -/
def sealedError (session : UploadSession) : Stop → UploadError
  | .discontinuous _ cursor => sealedDiscontinuous cursor
  | .inconsistentLength _ chunk => sealedLengthInconsistent chunk
  | .chunkDigest _ chunk => sealedChunkDigest chunk
  | .totalLength cursor => sealedTotalLength session cursor
  | .wholeDigest => sealedWholeDigest session

/-- The error of a comparison. -/
def comparisonError (side : String) (session : UploadSession) : Stop → UploadError
  | .discontinuous _ cursor => comparisonDiscontinuous side session cursor
  | .inconsistentLength _ chunk => comparisonLengthInconsistent side session chunk
  | .chunkDigest _ chunk => comparisonChunkDigest side session chunk
  | .totalLength cursor => comparisonTotalLength side session cursor
  | .wholeDigest => comparisonWholeDigest side session

theorem comparisonError_code (side : String) (session : UploadSession) (stop : Stop) :
    (stop.comparisonError side session).code = .comparisonIntegrityError := by
  cases stop <;> rfl

theorem comparisonError_details (side : String) (session : UploadSession) (stop : Stop) :
    (stop.comparisonError side session).details = comparisonDetails side session := by
  cases stop <;> rfl

end Stop

/-- The rows before the one that fails: they tile `[lo, cursor)` and are intact. -/
structure Passed (lo : Int) (chunks : List Chunk) (cursor : Int) : Prop where
  tiles : Tiles lo chunks cursor
  intact : ∀ chunk ∈ chunks, Intact H chunk

/-- A walk from `lo` stops at a row. -/
inductive RowStops (lo : Int) : List Chunk → Stop → Prop where
  | discontinuous {before after : List Chunk} {chunk : Chunk} {cursor : Int}
    (passed : Passed H lo before cursor) (apart : chunk.startOffset ≠ cursor) :
    RowStops lo (before ++ chunk :: after) (.discontinuous before.length cursor)
  | inconsistentLength {before after : List Chunk} {chunk : Chunk} {cursor : Int}
    (passed : Passed H lo before cursor) (starts : chunk.startOffset = cursor)
    (inconsistent : chunk.length ≠ chunk.endOffset - chunk.startOffset ∨
      (chunk.data.length : Int) ≠ chunk.length) :
    RowStops lo (before ++ chunk :: after) (.inconsistentLength before.length chunk)
  | chunkDigest {before after : List Chunk} {chunk : Chunk} {cursor : Int}
    (passed : Passed H lo before cursor) (starts : chunk.startOffset = cursor)
    (consistent : ¬ (chunk.length ≠ chunk.endOffset - chunk.startOffset ∨
      (chunk.data.length : Int) ≠ chunk.length))
    (altered : H chunk.data ≠ chunk.sha256) :
    RowStops lo (before ++ chunk :: after) (.chunkDigest before.length chunk)

/-- The first check of an archive that fails. -/
inductive StopsAt (session : UploadSession) (chunks : List Chunk) : Stop → Prop where
  | row {stop : Stop} (stops : RowStops H 0 chunks stop) : StopsAt session chunks stop
  | totalLength {cursor : Int} (passed : Passed H 0 chunks cursor)
    (short : cursor ≠ session.totalBytes) : StopsAt session chunks (.totalLength cursor)
  | wholeDigest (passed : Passed H 0 chunks session.totalBytes)
    (differs : H (contentOf chunks) ≠ session.wholeSha256) : StopsAt session chunks .wholeDigest

variable {H}

/-! ## The two walks -/

theorem Passed.nil (lo : Int) : Passed H lo [] lo :=
  ⟨tiles_nil.mpr rfl, fun _ member => by cases member⟩

theorem Passed.cons {chunk : Chunk} {chunks : List Chunk} {lo cursor : Int}
    (starts : chunk.startOffset = lo) (intact : Intact H chunk)
    (passed : Passed H chunk.endOffset chunks cursor) : Passed H lo (chunk :: chunks) cursor :=
  ⟨tiles_cons.mpr ⟨starts, passed.tiles⟩, List.forall_mem_cons.mpr ⟨intact, passed.intact⟩⟩

/-- The stop of a walk whose first row has passed. -/
def Stop.next : Stop → Stop
  | .discontinuous index cursor => .discontinuous (index + 1) cursor
  | .inconsistentLength index chunk => .inconsistentLength (index + 1) chunk
  | .chunkDigest index chunk => .chunkDigest (index + 1) chunk
  | .totalLength cursor => .totalLength cursor
  | .wholeDigest => .wholeDigest

theorem RowStops.cons {chunk : Chunk} {chunks : List Chunk} {lo : Int} {stop : Stop}
    (starts : chunk.startOffset = lo) (intact : Intact H chunk)
    (stops : RowStops H chunk.endOffset chunks stop) : RowStops H lo (chunk :: chunks) stop.next := by
  cases stops with
  | discontinuous passed apart => exact .discontinuous (passed.cons starts intact) apart
  | inconsistentLength passed begins inconsistent =>
    exact .inconsistentLength (passed.cons starts intact) begins inconsistent
  | chunkDigest passed begins consistent altered =>
    exact .chunkDigest (passed.cons starts intact) begins consistent altered

theorem Stop.next_sealedError (session : UploadSession) (stop : Stop) :
    stop.next.sealedError session = stop.sealedError session := by
  cases stop <;> rfl

theorem Stop.next_comparisonError (side : String) (session : UploadSession) (stop : Stop) :
    stop.next.comparisonError side session = stop.comparisonError side session := by
  cases stop <;> rfl

/-- Both walks pass all rows, or stop at the same one. -/
theorem walks_agree (session : UploadSession) (chunks : List Chunk) (cursor : Int) :
    (∃ hi, Passed H cursor chunks hi) ∨
      ∃ stop, RowStops H cursor chunks stop ∧
        (∀ begin end' hasher out,
          sealedLoop H begin end' chunks cursor hasher out = .error (stop.sealedError session)) ∧
        ∀ side hasher,
          archiveLoop H side session chunks cursor hasher = .error (stop.comparisonError side session) := by
  induction chunks generalizing cursor with
  | nil => exact .inl ⟨cursor, .nil cursor⟩
  | cons chunk chunks inductionHypothesis =>
    -- the checks of the head, in the order both loops make them
    by_cases apart : chunk.startOffset ≠ cursor
    · refine .inr ⟨_, @RowStops.discontinuous H cursor [] _ _ _ (.nil cursor) apart, ?_, ?_⟩
      · intro begin end' hasher out
        rw [sealedLoop, if_pos apart]
        rfl
      · intro side hasher
        rw [archiveLoop, if_pos apart]
        rfl
    · have starts : chunk.startOffset = cursor := not_not.mp apart
      by_cases inconsistent : chunk.length ≠ chunk.endOffset - chunk.startOffset ∨
          (chunk.data.length : Int) ≠ chunk.length
      · refine .inr ⟨_, @RowStops.inconsistentLength H cursor [] _ _ _ (.nil cursor) starts inconsistent,
          ?_, ?_⟩
        · intro begin end' hasher out
          rw [sealedLoop, if_neg apart, if_pos inconsistent]
          rfl
        · intro side hasher
          rw [archiveLoop, if_neg apart, if_pos inconsistent]
          rfl
      · by_cases altered : H chunk.data ≠ chunk.sha256
        · refine .inr ⟨_, @RowStops.chunkDigest H cursor [] _ _ _ (.nil cursor) starts inconsistent
            altered, ?_, ?_⟩
          · intro begin end' hasher out
            rw [sealedLoop, if_neg apart, if_neg inconsistent, if_pos altered]
            rfl
          · intro side hasher
            rw [archiveLoop, if_neg apart, if_neg inconsistent, if_pos altered]
            rfl
        · -- the head passes, and the walks go on from its end
          have intact : Intact H chunk := intact_iff_checks.mpr ⟨inconsistent, altered⟩
          obtain ⟨hi, passed⟩ | ⟨stop, stops, read, compared⟩ := inductionHypothesis chunk.endOffset
          · exact .inl ⟨hi, passed.cons starts intact⟩
          · refine .inr ⟨stop.next, stops.cons starts intact, ?_, ?_⟩
            · intro begin end' hasher out
              rw [sealedLoop, if_neg apart, if_neg inconsistent, if_neg altered,
                Stop.next_sealedError]
              exact read begin end' _ _
            · intro side hasher
              rw [archiveLoop, if_neg apart, if_neg inconsistent, if_neg altered,
                Stop.next_comparisonError]
              exact compared side _

/-! ## The two verifiers -/

variable (H) in
/-- Both verifiers accept the rows, or both refuse them at the same stop. -/
inductive Agreement (db : Store) (session : UploadSession) : Prop where
  | accepted (certified : Certified H session (db.chunksOf session.id))
    (read : ∀ begin stop, ∃ data, ((verifiedSealedBytes H session begin stop).run db).1 = .ok data)
    (whole : ((verifiedSealedBytes H session 0 session.totalBytes).run db).1 =
      .ok (contentOf (db.chunksOf session.id)))
    (compared : ∀ side, ((verifiedArchiveChunks H session side).run db).1 =
      .ok (db.chunksOf session.id)) :
    Agreement db session
  | refused (stop : Stop) (stops : StopsAt H session (db.chunksOf session.id) stop)
    (read : ∀ begin end', ((verifiedSealedBytes H session begin end').run db).1 =
      .error (.upload (stop.sealedError session)))
    (compared : ∀ side, ((verifiedArchiveChunks H session side).run db).1 =
      .error (.upload (stop.comparisonError side session))) :
    Agreement db session

theorem run_verifiedArchiveChunks (db : Store) (session : UploadSession) (side : String) :
    ((verifiedArchiveChunks H session side).run db).1 =
      (archiveChunksOf H side session (db.chunksOf session.id)).mapError .upload := by
  have settled := settle_verifiedArchiveChunks (H := H) db session side
  cases checked : archiveChunksOf H side session (db.chunksOf session.id) with
  | ok chunks =>
    rw [checked] at settled
    rw [Program.run_of_returned (congrArg Prod.fst settled)]
    rfl
  | error error =>
    rw [checked] at settled
    rw [Program.run_of_raised (congrArg Prod.fst settled)]
    rfl

/-- The final checks come after the walk, on the same cursor and the same bytes. -/
theorem agreement (db : Store) (session : UploadSession) : Agreement H db session := by
  have readRun : ∀ begin end', ((verifiedSealedBytes H session begin end').run db).1 =
      (sealedBytesOf H session (db.chunksOf session.id) begin end').mapError .upload :=
    fun begin end' => congrArg Prod.fst (run_verifiedSealedBytes session begin end' db)
  obtain ⟨hi, passed⟩ | ⟨stop, stops, read, compared⟩ :=
    walks_agree (H := H) session (db.chunksOf session.id) 0
  · -- every row passes, so both walks hand the whole content to the final checks
    have read : ∀ begin end', sealedLoop H begin end' (db.chunksOf session.id) 0 [] [] =
        .ok (hi, contentOf (db.chunksOf session.id),
          window 0 (contentOf (db.chunksOf session.id)) begin end') :=
      fun begin end' => sealedLoop_ok_iff.mpr ⟨passed.tiles, passed.intact, rfl, rfl⟩
    have compared : ∀ side, archiveLoop H side session (db.chunksOf session.id) 0 [] =
        .ok (hi, contentOf (db.chunksOf session.id)) :=
      fun side => archiveLoop_ok_iff.mpr ⟨passed.tiles, passed.intact, rfl⟩
    by_cases short : hi ≠ session.totalBytes
    · refine .refused (.totalLength hi) (.totalLength passed short) ?_ ?_
      · intro begin end'
        rw [readRun, sealedBytesOf, read]
        simp only [if_pos short]
        rfl
      · intro side
        rw [run_verifiedArchiveChunks, archiveChunksOf, compared]
        simp only [if_pos short]
        rfl
    · have full : hi = session.totalBytes := not_not.mp short
      subst full
      by_cases differs : H (contentOf (db.chunksOf session.id)) ≠ session.wholeSha256
      · refine .refused .wholeDigest (.wholeDigest passed differs) ?_ ?_
        · intro begin end'
          rw [readRun, sealedBytesOf, read]
          simp only [if_neg short, if_pos differs]
          rfl
        · intro side
          rw [run_verifiedArchiveChunks, archiveChunksOf, compared]
          simp only [if_neg short, if_pos differs]
          rfl
      · have certified : Certified H session (db.chunksOf session.id) :=
          ⟨passed.tiles, passed.intact, not_not.mp differs⟩
        refine .accepted certified ?_ ?_ ?_
        · intro begin end'
          rw [readRun, sealedBytesOf, read]
          simp only [if_neg short, if_neg differs]
          exact ⟨_, rfl⟩
        · have length := certified.length
          rw [readRun, sealedBytesOf_certified certified (Int.le_refl 0) (by omega), ← length, slice_whole]
          rfl
        · intro side
          rw [run_verifiedArchiveChunks, archiveChunksOf, compared]
          simp only [if_neg short, if_neg differs]
          rfl
  · refine .refused stop (.row stops) ?_ ?_
    · intro begin end'
      rw [readRun, sealedBytesOf, read]
      rfl
    · intro side
      rw [run_verifiedArchiveChunks, archiveChunksOf, compared]
      rfl

/-! ## Comparisons -/

section Comparisons

variable {db : Store} {env : Env} {baselineId candidateId : String}

/-- An archive that a comparison accepts can be downloaded. -/
theorem downloadable_of_archive {session : UploadSession} {id side : String} {chunks : List Chunk}
    (found : db.session? id = some session) (isSealed : session.status = .sealed)
    (accepted : archiveChunksOf H side session (db.chunksOf session.id) = .ok chunks) :
    ∃ body, ((downloadContent H id []).run db).1 = .ok body := by
  have checked := run_verifiedArchiveChunks (H := H) db session side
  rw [accepted] at checked
  cases agreement (H := H) db session with
  | accepted certified _ _ _ =>
    rw [run_download_certified found isSealed certified]
    exact ⟨_, rfl⟩
  | refused stop _ _ compared =>
    rw [compared] at checked
    cases checked

/-- A comparison writes nothing, or both archives can be downloaded from the store it
    reads. -/
theorem compared_downloadable :
    ((createComparison H env baselineId candidateId).run db).2 = db ∨
      (∃ body, ((downloadContent H baselineId []).run db).1 = .ok body) ∧
        ∃ body, ((downloadContent H candidateId []).run db).1 = .ok body := by
  rw [run_createComparison]
  cases decided : comparisonPlan H env baselineId candidateId db with
  | refuse exception => exact .inl rfl
  | record row =>
    right
    obtain ⟨baseline, candidate, baselineFound, candidateFound, paired⟩ :=
      comparisonPlan_record decided
    obtain ⟨⟨baselineSealed, candidateSealed⟩, _, _, _, _, left, right, -⟩ := pairPlan_record paired
    exact ⟨downloadable_of_archive baselineFound baselineSealed left,
      downloadable_of_archive candidateFound candidateSealed right⟩

/-- A damaged archive is refused under the side it is compared as. -/
theorem archive_refused {session : UploadSession}
    (damaged : ¬ Certified H session (db.chunksOf session.id)) (side : String) :
    ∃ error, archiveChunksOf H side session (db.chunksOf session.id) = .error error ∧
      error.code = .comparisonIntegrityError ∧ error.details = comparisonDetails side session := by
  have checked := run_verifiedArchiveChunks (H := H) db session side
  cases agreement (H := H) db session with
  | accepted certified _ _ _ => exact absurd certified damaged
  | refused stop _ _ compared =>
    rw [compared] at checked
    refine ⟨stop.comparisonError side session, ?_, stop.comparisonError_code side session,
      stop.comparisonError_details side session⟩
    cases answer : archiveChunksOf H side session (db.chunksOf session.id) with
    | ok chunks =>
      rw [answer] at checked
      cases checked
    | error error =>
      rw [answer] at checked
      cases checked
      rfl

end Comparisons

variable (H) in
/-- What the verifiers make of a store, whatever its rows are. -/
structure VerifiersAgree (db : Store) : Prop where
  rows : ∀ session, Agreement H db session
  /-- A comparison writes nothing, or both archives can be downloaded. -/
  recorded : ∀ env baselineId candidateId,
    ((createComparison H env baselineId candidateId).run db).2 = db ∨
      (∃ body, ((downloadContent H baselineId []).run db).1 = .ok body) ∧
        ∃ body, ((downloadContent H candidateId []).run db).1 = .ok body
  /-- When one archive of two is damaged, the error names it. -/
  named : ∀ {baseline candidate}, db.session? baseline.id = some baseline →
    db.session? candidate.id = some candidate → baseline.status = .sealed →
      candidate.status = .sealed → ∀ env,
        let answer := ((createComparison H env baseline.id candidate.id).run db).1
        (¬ Certified H baseline (db.chunksOf baseline.id) →
            Certified H candidate (db.chunksOf candidate.id) →
              ∃ error, answer = .error (.upload error) ∧ error.code = .comparisonIntegrityError ∧
                error.details = comparisonDetails "baseline" baseline) ∧
          (Certified H baseline (db.chunksOf baseline.id) →
            ¬ Certified H candidate (db.chunksOf candidate.id) →
              ∃ error, answer = .error (.upload error) ∧ error.code = .comparisonIntegrityError ∧
                error.details = comparisonDetails "candidate" candidate)

/-- Download and comparison accept the same archives, and refuse the others at the
    same row for the same reason. -/
theorem verifiers_agree (db : Store) : VerifiersAgree H db where
  rows := agreement db
  recorded := fun _ _ _ => compared_downloadable
  named := by
    intro baseline candidate baselineFound candidateFound baselineSealed candidateSealed env answer
    have planned : comparisonPlan H env baseline.id candidate.id db =
        pairPlan H env baseline candidate (db.chunksOf baseline.id) (db.chunksOf candidate.id) := by
      simp only [comparisonPlan, baselineFound, candidateFound]
    have run : answer = _ := congrArg Prod.fst (run_createComparison (H := H) baseline.id candidate.id)
    rw [planned, pairPlan, if_neg (not_not_intro baselineSealed),
      if_neg (not_not_intro candidateSealed)] at run
    constructor
    · intro damaged _
      obtain ⟨error, refused, code, details⟩ := archive_refused damaged "baseline"
      rw [refused] at run
      exact ⟨error, run, code, details⟩
    · -- the baseline is checked first, and passes
      intro certified damaged
      obtain ⟨error, refused, code, details⟩ := archive_refused damaged "candidate"
      rw [archiveChunksOf_certified certified, refused] at run
      exact ⟨error, run, code, details⟩

end

end SeismicIngest
