import SeismicIngest.Verified.Comparisons
import SeismicIngest.Verified.Evolution

/-! # Comparison

The record of two sealed archives is a function of their contents.  It names their
longest common prefix and the first difference, its conclusion tells the three ways
two contents can relate apart, and chunk layouts never enter.
-/

namespace SeismicIngest

open Transaction Spans

section

variable {H : Bytes → String}

/-! ## The record -/

variable (H) in
/-- What a comparison of the contents `left` and `right` records. -/
structure Compares (env : Env) (baseline candidate : UploadSession) (left right : Bytes)
    (record : Comparison) : Prop where
  drawn : record.id = env.uuid ∧ record.createdAt = env.now
  sides : record.baselineSessionId = baseline.id ∧ record.candidateSessionId = candidate.id
  baselineSnapshot : record.baselineTotalBytes = left.length ∧ record.baselineWholeSha256 = H left
  candidateSnapshot : record.candidateTotalBytes = right.length ∧ record.candidateWholeSha256 = H right
  commonPrefix : ∃ shared : Nat, record.commonPrefixBytes = shared ∧
    IsGreatest {n | Agree left right n} shared
  noDifference : record.firstDifferenceOffset = none ↔ left = right
  firstDifference : left ≠ right → record.firstDifferenceOffset = some record.commonPrefixBytes
  identical : record.conclusion = .identical ↔ left = right
  lengthDiffers : record.conclusion = .lengthDiffers ↔
    left ≠ right ∧ (left <+: right ∨ right <+: left)
  shorter : record.conclusion = .lengthDiffers →
    record.commonPrefixBytes = min left.length right.length ∧ left.length ≠ right.length
  contentDiffers : record.conclusion = .contentDiffers ↔
    ∃ offset, offset < min left.length right.length ∧ left[offset]? ≠ right[offset]?
  sameSnapshots : record.conclusion = .identical →
    record.baselineTotalBytes = record.candidateTotalBytes ∧
      record.baselineWholeSha256 = record.candidateWholeSha256

/-- The record with its sides exchanged. -/
def Comparison.swapped (record : Comparison) : Comparison :=
  { record with
    baselineSessionId := record.candidateSessionId
    candidateSessionId := record.baselineSessionId
    baselineTotalBytes := record.candidateTotalBytes
    baselineWholeSha256 := record.candidateWholeSha256
    candidateTotalBytes := record.baselineTotalBytes
    candidateWholeSha256 := record.baselineWholeSha256 }

/-- The record as another call would have drawn its id and time. -/
def Comparison.redrawn (record : Comparison) (env : Env) : Comparison :=
  { record with id := env.uuid, createdAt := env.now }

/-- The record of two contents. -/
def contentRecord (env : Env) (baseline candidate : UploadSession) (left right : Bytes) : Comparison :=
  comparisonRecord env baseline candidate (firstDifference left right).1 (firstDifference left right).2

/-! ## The conclusion -/

section Conclusion

variable {left right : Bytes}

/-- The conclusion drawn from the first difference of two contents. -/
theorem concludeFrom_firstDifference :
    concludeFrom (firstDifference left right).2 left.length right.length =
      if left = right then .identical
      else if commonPrefix left right = min left.length right.length then .lengthDiffers
      else .contentDiffers := by
  rw [firstDifference]
  by_cases same : left = right
  · simp only [same, if_true]
    rfl
  · -- the source compares the difference with the shorter total
    simp only [if_neg same, concludeFrom]
    congr 1
    apply propext
    omega

end Conclusion

/-- The record of two contents says what it should. -/
theorem contentRecord_compares (env : Env) {baseline candidate : UploadSession} {left right : Bytes}
    (baselineTotal : baseline.totalBytes = left.length) (baselineWhole : baseline.wholeSha256 = H left)
    (candidateTotal : candidate.totalBytes = right.length)
    (candidateWhole : candidate.wholeSha256 = H right) :
    Compares H env baseline candidate left right (contentRecord env baseline candidate left right) := by
  have conclusion : (contentRecord env baseline candidate left right).conclusion =
      if left = right then .identical
      else if commonPrefix left right = min left.length right.length then .lengthDiffers
      else .contentDiffers := by
    rw [contentRecord, comparisonRecord, baselineTotal, candidateTotal, concludeFrom_firstDifference]
  have offset : (contentRecord env baseline candidate left right).firstDifferenceOffset =
      if left = right then none else some (commonPrefix left right : Int) := by
    by_cases same : left = right <;> simp [contentRecord, comparisonRecord, firstDifference, same]
  have length : (contentRecord env baseline candidate left right).commonPrefixBytes =
      commonPrefix left right := rfl
  exact {
    drawn := ⟨rfl, rfl⟩
    sides := ⟨rfl, rfl⟩
    baselineSnapshot := ⟨baselineTotal, baselineWhole⟩
    candidateSnapshot := ⟨candidateTotal, candidateWhole⟩
    commonPrefix := ⟨_, rfl, commonPrefix_isGreatest left right⟩
    noDifference := by
      rw [offset]
      split <;> simp_all
    firstDifference := by
      intro differs
      rw [offset, if_neg differs, length]
    identical := by
      rw [conclusion]
      split
      · simp_all
      · split <;> simp_all
    lengthDiffers := by
      rw [conclusion, prefix_either]
      split
      · simp_all
      · split <;> simp_all
    shorter := by
      rw [conclusion, length]
      intro concluded
      split at concluded
      · cases concluded
      · rename_i differs
        split at concluded
        · rename_i agree
          exact ⟨by omega, fun sameLength => differs (eq_of_commonPrefix agree sameLength)⟩
        · cases concluded
    contentDiffers := by
      have inLeft := commonPrefix_le_left left right
      have inRight := commonPrefix_le_right left right
      rw [conclusion, differs_inside]
      split
      · simp_all
      · split
        · simp_all
        · simp only [true_iff]
          omega
    sameSnapshots := by
      rw [conclusion]
      intro concluded
      split at concluded
      · rename_i same
        subst same
        exact ⟨baselineTotal.trans candidateTotal.symm, baselineWhole.trans candidateWhole.symm⟩
      · split at concluded <;> cases concluded }

theorem contentRecord_redrawn (env other : Env) (baseline candidate : UploadSession)
    (left right : Bytes) :
    contentRecord other baseline candidate left right =
      (contentRecord env baseline candidate left right).redrawn other := rfl

/-- Swapping the sides swaps the snapshots. -/
theorem contentRecord_swapped (env : Env) (baseline candidate : UploadSession)
    (left right : Bytes) :
    contentRecord env candidate baseline right left =
      (contentRecord env baseline candidate left right).swapped := by
  -- the walk meets the same first difference from either side
  have first : firstDifference right left = firstDifference left right := by
    simp only [firstDifference, commonPrefix_comm right left, eq_comm (a := right)]
  simp only [contentRecord, first, comparisonRecord, Comparison.swapped, Comparison.mk.injEq,
    true_and, and_true]
  cases (firstDifference left right).2 with
  | none => rfl
  | some offset => simp only [concludeFrom, min_comm]

/-! ## The call -/

section Sealed

variable {db : Store} {baseline candidate : UploadSession} {left right : List Chunk}
  {leftAudits rightAudits : List AuditEvent} (baselineRows : Consistent H baseline left leftAudits)
  (candidateRows : Consistent H candidate right rightAudits)
  (baselineFound : db.session? baseline.id = some baseline)
  (candidateFound : db.session? candidate.id = some candidate)

include baselineRows candidateRows baselineFound candidateFound

/-- The record of two stored sessions is refused only when its id is taken. -/
theorem contentRecord_rejects (env : Env) :
    (Write.insertComparison (contentRecord env baseline candidate (contentOf left)
      (contentOf right))).rejects db =
        if (db.comparison? env.uuid).isSome then some .integrityError else none := by
  -- every integer of the record is bounded by the registered totals
  have shared : (commonPrefix (contentOf left) (contentOf right) : Int) ≤ baseline.totalBytes := by
    have inLeft := commonPrefix_le_left (contentOf left) (contentOf right)
    have length := baselineRows.length
    have bounded := baselineRows.bounded
    omega
  have prefixFits : fitsBigint (commonPrefix (contentOf left) (contentOf right)) = true :=
    fitsBigint_of_nonneg (Int.natCast_nonneg _) (Int.lt_of_le_of_lt shared baselineRows.inRange)
  have offsetFits : fitsBigint? (contentRecord env baseline candidate (contentOf left)
      (contentOf right)).firstDifferenceOffset = true := by
    simp only [contentRecord, comparisonRecord, firstDifference]
    split
    · rfl
    · exact prefixFits
  have inRange : (Write.insertComparison (contentRecord env baseline candidate (contentOf left)
      (contentOf right))).outOfRange = false := by
    rw [Write.outOfRange, offsetFits]
    change (!(fitsBigint baseline.totalBytes && fitsBigint candidate.totalBytes &&
      fitsBigint (commonPrefix _ _ : Nat) && true)) = false
    rw [baselineRows.confirmedInRange.1, candidateRows.confirmedInRange.1, prefixFits]
    rfl
  have violates : (Write.insertComparison (contentRecord env baseline candidate (contentOf left)
      (contentOf right))).violates db = (db.comparison? env.uuid).isSome := by
    change ((db.comparison? env.uuid).isSome || (db.session? baseline.id).isNone ||
      (db.session? candidate.id).isNone) = _
    rw [baselineFound, candidateFound]
    simp
  rw [Write.rejects, inRange, violates]
  rfl

end Sealed

section Alone

variable {db : Store} {baseline candidate : UploadSession} (sound : Sound H db)
  (baselineFound : db.session? baseline.id = some baseline)
  (candidateFound : db.session? candidate.id = some candidate)
  (baselineSealed : baseline.status = .sealed) (candidateSealed : candidate.status = .sealed)

include sound baselineFound candidateFound baselineSealed candidateSealed

/-- A comparison of two sealed sessions stores the record of their contents, unless its id
    is taken. -/
theorem run_createComparison_contents (env : Env) :
    let record := contentRecord env baseline candidate (contentOf (db.rowsOf baseline.id).chunks)
      (contentOf (db.rowsOf candidate.id).chunks)
    (createComparison H env baseline.id candidate.id).run db =
      if (db.comparison? env.uuid).isSome then (.error (.database .integrityError), db)
      else (.ok record, Write.applyAll [.insertComparison record] db) := by
  intro record
  have baselineRows := sound.consistent baselineFound
  have candidateRows := sound.consistent candidateFound
  have plan : comparisonPlan H env baseline.id candidate.id db = .record record := by
    rw [comparisonPlan]
    simp only [baselineFound, candidateFound]
    rw [(sound.rows _).chunksOf baselineFound, (sound.rows _).chunksOf candidateFound,
      pairPlan_sealed baselineRows candidateRows baselineSealed candidateSealed]
    rfl
  have rejects : (Write.insertComparison record).rejects db = _ :=
    contentRecord_rejects baselineRows candidateRows baselineFound candidateFound env
  rw [run_createComparison, plan]
  cases taken : db.comparison? env.uuid <;> simp only [rejects, taken] <;> rfl

theorem run_createComparison_sealed {env : Env} (fresh : db.comparison? env.uuid = none) :
    let record := contentRecord env baseline candidate (contentOf (db.rowsOf baseline.id).chunks)
      (contentOf (db.rowsOf candidate.id).chunks)
    (createComparison H env baseline.id candidate.id).run db =
      (.ok record, Write.applyAll [.insertComparison record] db) := by
  intro record
  rw [run_createComparison_contents sound baselineFound candidateFound baselineSealed candidateSealed,
    fresh]
  rfl

end Alone

/-! ## Every pair of sealed sessions -/

/-- A comparison of two sealed sessions succeeds, and its record classifies their
    contents.  At every later time, whatever was compacted in between, the same call
    stores the same record but for its id and time, and the call with its sides
    exchanged stores it with its sides exchanged. -/
theorem comparison_correct {db : Store} (reachable : Reachable H db)
    {baseline candidate : UploadSession}
    (baselineFound : db.session? baseline.id = some baseline)
    (candidateFound : db.session? candidate.id = some candidate)
    (baselineSealed : baseline.status = .sealed) (candidateSealed : candidate.status = .sealed)
    {env : Env} (fresh : db.comparison? env.uuid = none) :
    ∃ record, (createComparison H env baseline.id candidate.id).run db =
        (.ok record, Write.applyAll [.insertComparison record] db) ∧
      Compares H env baseline candidate (contentOf (db.chunksOf baseline.id))
        (contentOf (db.chunksOf candidate.id)) record ∧
      ∀ later other, Later H db later → later.comparison? other.uuid = none →
        ((createComparison H other baseline.id candidate.id).run later).1 =
            .ok (record.redrawn other) ∧
          ((createComparison H other candidate.id baseline.id).run later).1 =
            .ok (record.redrawn other).swapped := by
  have sound := reachable.sound
  have baselineRows := sound.consistent baselineFound
  have candidateRows := sound.consistent candidateFound
  refine ⟨_, run_createComparison_sealed sound baselineFound candidateFound baselineSealed
    candidateSealed fresh, ?_, ?_⟩
  · rw [(sound.rows _).chunksOf baselineFound, (sound.rows _).chunksOf candidateFound]
    exact contentRecord_compares env (sealed_length baselineRows baselineSealed).symm
      (sealed_digest baselineRows baselineSealed).symm
      (sealed_length candidateRows candidateSealed).symm
      (sealed_digest candidateRows candidateSealed).symm
  · intro later other happened unused
    -- sealed sessions keep their row and their content
    obtain ⟨_, baselineLater, baselineEvolves⟩ := evolves_of_later sound happened baselineFound
    obtain ⟨_, candidateLater, candidateEvolves⟩ := evolves_of_later sound happened candidateFound
    obtain ⟨rfl, baselineSame⟩ := baselineEvolves.frozen (by simp [baselineSealed])
    obtain ⟨rfl, candidateSame⟩ := candidateEvolves.frozen (by simp [candidateSealed])
    have laterSound := (reachable.later happened).sound
    constructor
    · rw [run_createComparison_sealed laterSound baselineLater candidateLater baselineSealed
        candidateSealed unused, baselineSame, candidateSame, contentRecord_redrawn env]
    · rw [run_createComparison_sealed laterSound candidateLater baselineLater candidateSealed
        baselineSealed unused, baselineSame, candidateSame, contentRecord_swapped,
        contentRecord_redrawn env]

/-- Two packages that differ in their last byte, under different layouts. -/
theorem comparison_correct_layouts :
    let db := serveAll (fun _ => "d")
      [⟨⟨"x", 0, true⟩, .createSession 3 "d"⟩, ⟨⟨"", 0, true⟩, .putChunk "x" 0 3 "d" [1, 2, 3]⟩,
        ⟨⟨"y", 0, true⟩, .createSession 3 "d"⟩, ⟨⟨"", 0, true⟩, .putChunk "y" 0 1 "d" [1]⟩,
        ⟨⟨"", 0, true⟩, .putChunk "y" 1 2 "d" [2, 4]⟩] Store.empty
    let baseline : UploadSession := ⟨"x", 3, "d", 3, .sealed, some "d", none, 0⟩
    let candidate : UploadSession := ⟨"y", 3, "d", 3, .sealed, some "d", none, 0⟩
    ((createComparison (fun _ => "d") ⟨"c", 7, true⟩ "x" "y").run db).1 =
        .ok ⟨"c", "x", "y", 3, "d", 3, "d", 2, some 2, .contentDiffers, 7⟩ ∧
      ∃ record, (createComparison (fun _ => "d") ⟨"c", 7, true⟩ baseline.id candidate.id).run db =
          (.ok record, Write.applyAll [.insertComparison record] db) ∧
        Compares (fun _ => "d") ⟨"c", 7, true⟩ baseline candidate (contentOf (db.chunksOf baseline.id))
          (contentOf (db.chunksOf candidate.id)) record := by
  intro db baseline candidate
  obtain ⟨record, run, compares, -⟩ := @comparison_correct _ db (reachable_serveAll _ _) baseline
    candidate (by decide) (by decide) rfl rfl ⟨"c", 7, true⟩ (by decide)
  exact ⟨by decide, record, run, compares⟩

end

end SeismicIngest
