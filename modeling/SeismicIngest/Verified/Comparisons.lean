import SeismicIngest.Verified.Reads
import SeismicIngest.Verified.StreamWalks

/-! # What a comparison does

A comparison reads both sides, and writes one record or nothing (`comparisonPlan`,
`run_createComparison`).  On two sealed sessions of a sound store it always
reaches its record, which depends on the contents alone (`pairPlan_sealed`).
-/

namespace SeismicIngest

open Transaction Spans

section

variable (H : Bytes → String)

/-! ## The plan -/

/-- What a comparison decides. -/
inductive ComparisonPlan where
  | refuse (exception : Raised)
  | record (row : Comparison)

/-- The plan on the two session rows and the chunk rows of both. -/
def pairPlan (env : Env) (baseline candidate : UploadSession)
    (baselineRows candidateRows : List Chunk) : ComparisonPlan :=
  if baseline.status ≠ .sealed then .refuse (.upload (comparisonStateConflict "baseline" baseline))
  else if candidate.status ≠ .sealed then
    .refuse (.upload (comparisonStateConflict "candidate" candidate))
  else
    match archiveChunksOf H "baseline" baseline baselineRows with
    | .error error => .refuse (.upload error)
    | .ok left =>
      match archiveChunksOf H "candidate" candidate candidateRows with
      | .error error => .refuse (.upload error)
      | .ok right =>
        match streamsFirstDifference (left.map Chunk.data) (right.map Chunk.data) with
        | none => .refuse .diverges
        | some (commonPrefix, firstDifference) =>
          .record (comparisonRecord env baseline candidate commonPrefix firstDifference)

def comparisonPlan (env : Env) (baselineSessionId candidateSessionId : String) (db : Store) :
    ComparisonPlan :=
  match db.session? baselineSessionId with
  | none => .refuse (.upload (sessionNotFound baselineSessionId))
  | some baseline =>
    match db.session? candidateSessionId with
    | none => .refuse (.upload (sessionNotFound candidateSessionId))
    | some candidate =>
      pairPlan H env baseline candidate (db.chunksOf baseline.id) (db.chunksOf candidate.id)

variable {H}

/-! ## What a plan says -/

section Plan

variable {env : Env} {row : Comparison}

/-- A planned record has passed every check of both sides. -/
theorem pairPlan_record {baseline candidate : UploadSession} {baselineRows candidateRows : List Chunk}
    (planned : pairPlan H env baseline candidate baselineRows candidateRows = .record row) :
    (baseline.status = .sealed ∧ candidate.status = .sealed) ∧
      ∃ left right commonPrefix firstDifference,
        archiveChunksOf H "baseline" baseline baselineRows = .ok left ∧
          archiveChunksOf H "candidate" candidate candidateRows = .ok right ∧
            row = comparisonRecord env baseline candidate commonPrefix firstDifference := by
  rw [pairPlan] at planned
  split at planned
  · cases planned
  · rename_i baselineSealed
    split at planned
    · cases planned
    · rename_i candidateSealed
      split at planned
      · cases planned
      · rename_i left leftPassed
        split at planned
        · cases planned
        · rename_i right rightPassed
          split at planned
          · cases planned
          · cases planned
            exact ⟨⟨not_not.mp baselineSealed, not_not.mp candidateSealed⟩, left, right, _, _,
              leftPassed, rightPassed, rfl⟩

theorem comparisonPlan_record {baselineSessionId candidateSessionId : String} {db : Store}
    (planned : comparisonPlan H env baselineSessionId candidateSessionId db = .record row) :
    ∃ baseline candidate, db.session? baselineSessionId = some baseline ∧
      db.session? candidateSessionId = some candidate ∧
        pairPlan H env baseline candidate (db.chunksOf baseline.id) (db.chunksOf candidate.id) =
          .record row := by
  rw [comparisonPlan] at planned
  split at planned
  · cases planned
  · rename_i baseline baselineFound
    split at planned
    · cases planned
    · rename_i candidate candidateFound
      exact ⟨baseline, candidate, baselineFound, candidateFound, planned⟩

end Plan

/-! ## The call -/

section Call

variable {env : Env} {db : Store}

theorem settle_verifiedArchiveChunks (db : Store) (session : UploadSession) (side : String) :
    (verifiedArchiveChunks H session side).settle (.opened db) =
      match archiveChunksOf H side session (db.chunksOf session.id) with
      | .ok chunks => (.returned chunks, .opened db)
      | .error error => (.raised (.upload error), .opened db) := by
  rw [verifiedArchiveChunks, Program.settle_bind, Program.settle_select]
  cases checked : archiveChunksOf H side session (db.chunksOf session.id) with
  | ok chunks => simp only [Connection.opened_working, checked]; rfl
  | error error => simp only [Connection.opened_working, checked]; rfl

/-- An accepted id was not in use. -/
theorem insertComparison_fresh {row : Comparison}
    (accepted : (Write.insertComparison row).rejects db = none) : db.comparison? row.id = none := by
  rw [Write.rejects] at accepted
  split at accepted
  · cases accepted
  · split at accepted
    · cases accepted
    · rename_i clear
      cases found : db.comparison? row.id with
      | none => rfl
      | some stored => simp [Write.violates, found] at clear

/-- The end of a comparison: the record is written and read back. -/
theorem run_record (row : Comparison) :
    (do
        Db.commit [.insertComparison row]
        match ← Program.select fun db => db.comparison? row.id with
        | some stored => pure stored
        | none => .raise (.database .invalidRequest) : Db Comparison).run db =
      match (Write.insertComparison row).rejects db with
      | none => (.ok row, Write.applyAll [.insertComparison row] db)
      | some error => (.error (.database error), db) := by
  cases refused : (Write.insertComparison row).rejects db with
  | none =>
    have settled := @settle_commit (.opened db) _
      (Write.accepted_cons refused (Write.accepted_nil _))
    -- so the record is the row read back under it
    have fresh := insertComparison_fresh refused
    have stored : ((Write.insertComparison row).apply db).comparison? row.id = some row := by
      rw [Store.comparison?] at fresh
      simp [Store.comparison?, Write.apply, List.find?_append, fresh]
    rw [Program.run_bind_of_committed settled]
    have read : (Program.select fun db : Store => db.comparison? row.id : Db _).settle
        (.opened ((Write.insertComparison row).apply db)) =
          (.returned (some row), .opened ((Write.insertComparison row).apply db)) := by
      rw [Program.settle_select, Connection.opened_working, stored]
    exact Program.run_bind_of_returned read
  | some error =>
    have all : Write.rejectsAll [.insertComparison row] (Connection.opened db).working =
        some error := by
      rw [Write.rejectsAll, Connection.opened_working, refused]
    exact Program.run_bind_of_raised (settle_commit_refused all)

/-- A comparison run alone writes its record, or changes nothing. -/
theorem run_createComparison (baselineSessionId candidateSessionId : String) :
    (createComparison H env baselineSessionId candidateSessionId).run db =
      match comparisonPlan H env baselineSessionId candidateSessionId db with
      | .refuse exception => (.error exception, db)
      | .record row =>
        match (Write.insertComparison row).rejects db with
        | none => (.ok row, Write.applyAll [.insertComparison row] db)
        | some error => (.error (.database error), db) := by
  -- one case for each place where the call can raise, in the order of the source
  rw [comparisonPlan]
  cases baselineFound : db.session? baselineSessionId with
  | none => exact Program.run_bind_of_raised (settle_getSessionRow_missing baselineFound)
  | some baseline =>
    rw [createComparison, Program.run_bind_of_returned (settle_getSessionRow baselineFound)]
    cases candidateFound : db.session? candidateSessionId with
    | none => exact Program.run_bind_of_raised (settle_getSessionRow_missing candidateFound)
    | some candidate =>
      rw [Program.run_bind_of_returned (settle_getSessionRow candidateFound)]
      simp only [pairPlan]
      by_cases baselineSealed : baseline.status = .sealed
      · by_cases candidateSealed : candidate.status = .sealed
        · simp only [baselineSealed, candidateSealed, ne_eq, not_true_eq_false, if_false]
          have left := settle_verifiedArchiveChunks (H := H) db baseline "baseline"
          have right := settle_verifiedArchiveChunks (H := H) db candidate "candidate"
          cases leftChecked : archiveChunksOf H "baseline" baseline (db.chunksOf baseline.id) with
          | error error =>
            rw [leftChecked] at left
            exact Program.run_bind_of_raised left
          | ok baselineRows =>
            rw [leftChecked] at left
            rw [Program.run_bind_of_returned left]
            cases rightChecked : archiveChunksOf H "candidate" candidate
                (db.chunksOf candidate.id) with
            | error error =>
              rw [rightChecked] at right
              exact Program.run_bind_of_raised right
            | ok candidateRows =>
              rw [rightChecked] at right
              rw [Program.run_bind_of_returned right]
              cases walked : streamsFirstDifference (baselineRows.map Chunk.data)
                  (candidateRows.map Chunk.data) with
              | none => simp only [walked]; rfl
              | some found => simp only [walked]; exact run_record _
        · simp only [baselineSealed, candidateSealed, ne_eq, not_true_eq_false, not_false_eq_true,
            if_false, if_true]
          rfl
      · simp only [baselineSealed, ne_eq, not_false_eq_true, if_true]
        rfl

/-- The effect of a comparison on the store. -/
theorem createComparison_store (env : Env) (db : Store) (baselineSessionId candidateSessionId : String) :
    ((createComparison H env baselineSessionId candidateSessionId).run db).2 = db ∨
      ∃ row, ((createComparison H env baselineSessionId candidateSessionId).run db).2 =
        Write.applyAll [.insertComparison row] db := by
  rw [run_createComparison]
  cases comparisonPlan H env baselineSessionId candidateSessionId db with
  | refuse exception => exact .inl rfl
  | record row =>
    simp only
    cases (Write.insertComparison row).rejects db with
    | none => exact .inr ⟨row, rfl⟩
    | some error => exact .inl rfl

end Call

/-! ## Two sealed sessions -/

/-- The re-verification of a side accepts certified rows. -/
theorem archiveChunksOf_certified {side : String} {session : UploadSession} {chunks : List Chunk}
    (certified : Certified H session chunks) :
    archiveChunksOf H side session chunks = .ok chunks := by
  rw [archiveChunksOf, archiveLoop_ok_iff.mpr ⟨certified.tiles, certified.intact, rfl⟩]
  simp [certified.whole]

section Sealed

variable {env : Env} {baseline candidate : UploadSession} {baselineRows candidateRows : List Chunk}
  {baselineAudits candidateAudits : List AuditEvent}
  (baselineConsistent : Consistent H baseline baselineRows baselineAudits)
  (candidateConsistent : Consistent H candidate candidateRows candidateAudits)

include baselineConsistent candidateConsistent

/-- Consistent rows are not empty, so every pass of the walk meets a byte. -/
theorem streamsFirstDifference_consistent :
    streamsFirstDifference (baselineRows.map Chunk.data) (candidateRows.map Chunk.data) =
      some (firstDifference (contentOf baselineRows) (contentOf candidateRows)) := by
  have blocks : ∀ rows : List Chunk, (rows.map Chunk.data).flatten = contentOf rows := by
    intro rows
    exact (List.flatMap_def).symm
  have nonempty : ∀ rows : List Chunk, (∀ chunk ∈ rows, chunk.data ≠ []) →
      ∀ block ∈ rows.map Chunk.data, block ≠ [] := by
    intro rows filled block member
    obtain ⟨chunk, stored, rfl⟩ := List.mem_map.mp member
    exact filled chunk stored
  have walked := streamsFirstDifference_eq (nonempty _ baselineConsistent.nonempty)
    (nonempty _ candidateConsistent.nonempty)
  rwa [blocks, blocks] at walked

/-- The record of two sealed sessions is decided by their contents. -/
theorem pairPlan_sealed (baselineSealed : baseline.status = .sealed)
    (candidateSealed : candidate.status = .sealed) :
    pairPlan H env baseline candidate baselineRows candidateRows =
      .record (comparisonRecord env baseline candidate
        (firstDifference (contentOf baselineRows) (contentOf candidateRows)).1
        (firstDifference (contentOf baselineRows) (contentOf candidateRows)).2) := by
  simp only [pairPlan, baselineSealed, candidateSealed, ne_eq, not_true_eq_false, if_false,
    archiveChunksOf_certified (baselineConsistent.certified baselineSealed),
    archiveChunksOf_certified (candidateConsistent.certified candidateSealed),
    streamsFirstDifference_consistent baselineConsistent candidateConsistent]

end Sealed

end

end SeismicIngest
