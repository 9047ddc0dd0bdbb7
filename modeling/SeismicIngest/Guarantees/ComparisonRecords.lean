import SeismicIngest.Guarantees.CatalogueRefinement

/-! # The records of comparisons stay true

A record is written once, about two sealed packages.  Sealed packages keep their bytes
whatever happens to their rows, so every record of every reachable store still classifies
the bytes that its two sessions have now (`recorded_contents`), and the records of a store
cannot contradict each other.
-/

namespace SeismicIngest

open Transaction Spans

section

variable {H : Bytes → String}

/-! ## One record -/

variable (H) in
/-- The record is the one of the bytes that its two sealed sessions have now. -/
structure RecordedFrom (db : Store) (env : Env) (baseline candidate : UploadSession)
    (record : Comparison) : Prop where
  baselineFound : db.session? baseline.id = some baseline
  candidateFound : db.session? candidate.id = some candidate
  baselineSealed : baseline.status = .sealed
  candidateSealed : candidate.status = .sealed
  contents : record = contentRecord env baseline candidate (contentOf (db.chunksOf baseline.id))
    (contentOf (db.chunksOf candidate.id))

variable {db : Store} {env : Env} {baseline candidate : UploadSession} {record : Comparison}

/-- It classifies them. -/
theorem RecordedFrom.compares (sound : Sound H db)
    (recorded : RecordedFrom db env baseline candidate record) :
    Compares H env baseline candidate (contentOf (db.chunksOf baseline.id))
      (contentOf (db.chunksOf candidate.id)) record := by
  have baselineRows := sound.consistent recorded.baselineFound
  have candidateRows := sound.consistent recorded.candidateFound
  rw [recorded.contents, (sound.rows _).chunksOf recorded.baselineFound,
    (sound.rows _).chunksOf recorded.candidateFound]
  exact contentRecord_compares env (sealed_length baselineRows recorded.baselineSealed).symm
    (sealed_digest baselineRows recorded.baselineSealed).symm
    (sealed_length candidateRows recorded.candidateSealed).symm
    (sealed_digest candidateRows recorded.candidateSealed).symm

/-- Later it still is, for sealed packages keep their row and their bytes. -/
theorem RecordedFrom.later {after : Store} (sound : Sound H db)
    (recorded : RecordedFrom db env baseline candidate record) (later : Later H db after) :
    RecordedFrom after env baseline candidate record := by
  have kept : ∀ {session : UploadSession}, db.session? session.id = some session →
      session.status = .sealed → after.session? session.id = some session ∧
        contentOf (after.chunksOf session.id) = contentOf (db.chunksOf session.id) := by
    intro session found isSealed
    obtain ⟨ended, endedFound, evolves⟩ := evolves_of_later sound later found
    obtain ⟨rfl, same⟩ := evolves.frozen (by simp [isSealed])
    rw [(sound.rows _).chunksOf found, ((sound.later later).rows _).chunksOf endedFound]
    exact ⟨endedFound, same⟩
  obtain ⟨baselineKept, baselineSame⟩ := kept recorded.baselineFound recorded.baselineSealed
  obtain ⟨candidateKept, candidateSame⟩ := kept recorded.candidateFound recorded.candidateSealed
  exact {
    baselineFound := baselineKept
    candidateFound := candidateKept
    baselineSealed := recorded.baselineSealed
    candidateSealed := recorded.candidateSealed
    contents := by rw [baselineSame, candidateSame]; exact recorded.contents }

/-! ## One call -/

/-- A comparison that changes the records adds the one of its two packages. -/
theorem compare_records (sound : Sound H db) (env : Env) (baselineId candidateId : String)
    (stored : record ∈
      ((Call.mk env (.createComparison baselineId candidateId)).serve H db).2.comparisons) :
    record ∈ db.comparisons ∨ ∃ baseline candidate, RecordedFrom db env baseline candidate record := by
  have left := (compare_refines sound env baselineId candidateId).2
  have records : ((createComparison H env baselineId candidateId).run db).2.comparisons =
      (db.catalogue.compare env baselineId candidateId).2.records := congrArg Catalogue.records left
  rw [serve_createComparison] at stored
  dsimp only at stored
  rw [records, Catalogue.compare, catalogue_session?, catalogue_session?] at stored
  cases baselineFound : db.session? baselineId with
  | none =>
    rw [baselineFound] at stored
    exact .inl stored
  | some baseline =>
    cases candidateFound : db.session? candidateId with
    | none =>
      rw [baselineFound, candidateFound] at stored
      exact .inl stored
    | some candidate =>
      obtain rfl := session?_id baselineFound
      obtain rfl := session?_id candidateFound
      rw [baselineFound, candidateFound] at stored
      dsimp only at stored
      split_ifs at stored with baselineOpen candidateOpen taken
      · exact .inl stored
      · exact .inl stored
      · exact .inl stored
      · obtain earlier | last := List.mem_append.mp stored
        · exact .inl earlier
        · -- the new record, of the bytes that are stored
          refine .inr ⟨baseline, candidate, baselineFound, candidateFound, not_not.mp baselineOpen,
            not_not.mp candidateOpen, ?_⟩
          rw [(sound.rows _).chunksOf baselineFound, (sound.rows _).chunksOf candidateFound]
          exact (List.mem_singleton.mp last).trans (recordOf_eq _ _ _)

/-- No other call changes the records. -/
theorem serve_records (sound : Sound H db) (call : Call)
    (stored : record ∈ (call.serve H db).2.comparisons) :
    record ∈ db.comparisons ∨ ∃ env baseline candidate,
      RecordedFrom db env baseline candidate record := by
  obtain ⟨env, request⟩ := call
  have alone : ((Call.mk env request).serve H db).2.comparisons = db.comparisons →
      record ∈ db.comparisons ∨ ∃ env baseline candidate,
        RecordedFrom db env baseline candidate record :=
    fun same => .inl (same ▸ stored)
  have reading : request.reads = true →
      ((Call.mk env request).serve H db).2.comparisons = db.comparisons := by
    intro reads
    rw [Call.serve, (Call.program_quiet reads).run_data]
  cases request with
  | createComparison baselineId candidateId =>
    exact (compare_records sound env baselineId candidateId stored).imp_right fun recorded => ⟨env, recorded⟩
  | createSession _ _ | putChunk _ _ _ _ _ | compactSealed _ _ => exact alone (isolated rfl).comparisons
  | getSession _ | listSessions _ _ _ _ | listChunks _ | getAuditTrail _ | downloadContent _ _
  | getComparison _ => exact alone (reading rfl)

/-! ## Every record -/

/-- Every record of a reachable store is the one of the bytes that are stored now. -/
theorem recorded_contents (reachable : Reachable H db) (stored : record ∈ db.comparisons) :
    ∃ env baseline candidate, RecordedFrom db env baseline candidate record := by
  induction reachable with
  | refl => cases stored
  | @tail before after earlier step inductionHypothesis =>
    have sound : Sound H before := Reachable.sound earlier
    obtain ⟨call, rfl⟩ := step
    obtain kept | recorded := serve_records sound call stored
    · obtain ⟨env, baseline, candidate, recorded⟩ := inductionHypothesis kept
      exact ⟨env, baseline, candidate, recorded.later sound (.single ⟨call, rfl⟩)⟩
    · obtain ⟨env, baseline, candidate, recorded⟩ := recorded
      exact ⟨env, baseline, candidate, recorded.later sound (.single ⟨call, rfl⟩)⟩

/-- The bytes of a session, or none. -/
def Store.bytesOf (db : Store) (id : String) : Bytes :=
  contentOf (db.chunksOf id)

/-- What a record says, in the bytes of its two sides. -/
theorem recorded_says (reachable : Reachable H db) (stored : record ∈ db.comparisons) :
    let left := db.bytesOf record.baselineSessionId
    let right := db.bytesOf record.candidateSessionId
    record.commonPrefixBytes = (commonPrefix left right : Int) ∧
      (record.conclusion = .identical ↔ left = right) := by
  intro left right
  obtain ⟨env, baseline, candidate, recorded⟩ := recorded_contents reachable stored
  have compares := recorded.compares reachable.sound
  have sides : left = contentOf (db.chunksOf baseline.id) ∧
      right = contentOf (db.chunksOf candidate.id) := by
    simp only [left, right, compares.sides, Store.bytesOf, and_self]
  rw [sides.1, sides.2]
  refine ⟨?_, compares.identical⟩
  rw [recorded.contents]
  rfl

/-- The records of a store agree with each other: of three records over three sessions, two
    that found the same bytes make the third do so, the third shares at least what both
    share, and exactly that when they share different lengths. -/
structure Coherent (first second third : Comparison) : Prop where
  identical : first.conclusion = .identical → second.conclusion = .identical →
    third.conclusion = .identical
  shared : min first.commonPrefixBytes second.commonPrefixBytes ≤ third.commonPrefixBytes
  shorter : first.commonPrefixBytes ≠ second.commonPrefixBytes →
    third.commonPrefixBytes = min first.commonPrefixBytes second.commonPrefixBytes

/-- Every record of every reachable store is found under its id, classifies the bytes that
    its two sealed sessions have now, and agrees with the others. -/
theorem comparison_records_true {db : Store} (reachable : Reachable H db) :
    (∀ record ∈ db.comparisons, (getComparison record.id).run db = (.ok record, db) ∧
      ∃ env baseline candidate,
        db.session? record.baselineSessionId = some baseline ∧ baseline.status = .sealed ∧
        db.session? record.candidateSessionId = some candidate ∧ candidate.status = .sealed ∧
        Compares H env baseline candidate (db.bytesOf record.baselineSessionId)
          (db.bytesOf record.candidateSessionId) record) ∧
      ∀ first ∈ db.comparisons, ∀ second ∈ db.comparisons, ∀ third ∈ db.comparisons,
        first.candidateSessionId = second.baselineSessionId →
          third.baselineSessionId = first.baselineSessionId →
            third.candidateSessionId = second.candidateSessionId → Coherent first second third := by
  refine ⟨fun record stored => ?_, fun first firstStored second secondStored third thirdStored joined
    front back => ?_⟩
  · obtain ⟨env, baseline, candidate, recorded⟩ := recorded_contents reachable stored
    have compares := recorded.compares reachable.sound
    have looked : (getComparison record.id).run db = _ := lookUp_refines record.id
    rw [Catalogue.lookUp, catalogue_record?, record_found reachable stored] at looked
    refine ⟨looked, env, baseline, candidate, ?_⟩
    rw [compares.sides.1, compares.sides.2]
    exact ⟨recorded.baselineFound, recorded.baselineSealed, recorded.candidateFound,
      recorded.candidateSealed, compares⟩
  · obtain ⟨firstShared, firstSame⟩ := recorded_says reachable firstStored
    obtain ⟨secondShared, secondSame⟩ := recorded_says reachable secondStored
    obtain ⟨thirdShared, thirdSame⟩ := recorded_says reachable thirdStored
    rw [joined] at firstShared firstSame
    rw [front, back] at thirdShared thirdSame
    constructor
    · intro left right
      exact thirdSame.mpr ((firstSame.mp left).trans (secondSame.mp right))
    · have atLeast := min_le_commonPrefix (db.bytesOf first.baselineSessionId)
        (db.bytesOf second.baselineSessionId) (db.bytesOf second.candidateSessionId)
      omega
    · intro differ
      obtain less | more := Int.lt_or_gt_of_ne differ
      · have same := @commonPrefix_of_lt UInt8 _ (db.bytesOf first.baselineSessionId)
          (db.bytesOf second.baselineSessionId) (db.bytesOf second.candidateSessionId) (by omega)
        omega
      · -- the same, read from the other end
        have same := @commonPrefix_of_lt UInt8 _ (db.bytesOf second.candidateSessionId)
          (db.bytesOf second.baselineSessionId) (db.bytesOf first.baselineSessionId)
        rw [commonPrefix_comm, commonPrefix_comm _ (db.bytesOf first.baselineSessionId),
          commonPrefix_comm _ (db.bytesOf first.baselineSessionId)] at same
        have same := same (by omega)
        omega

/-- A record of two packages, one of which is compacted behind it. -/
theorem comparison_records_true_compacted :
    let H : Bytes → String := fun _ => "d"
    let db := serveAll H [⟨⟨"x", 0, true⟩, .createSession 2 "d"⟩,
      ⟨⟨"", 0, true⟩, .putChunk "x" 0 2 "d" [1, 2]⟩, ⟨⟨"y", 0, true⟩, .createSession 2 "d"⟩,
      ⟨⟨"", 0, true⟩, .putChunk "y" 0 2 "d" [1, 3]⟩, ⟨⟨"c", 7, true⟩, .createComparison "x" "y"⟩,
      ⟨⟨"", 0, true⟩, .compactSealed "x" 1⟩] Store.empty
    let record : Comparison := ⟨"c", "x", "y", 2, "d", 2, "d", 1, some 1, .contentDiffers, 7⟩
    (db.chunksOf "x").length = 2 ∧ (getComparison "c").run db = (.ok record, db) ∧
      ∃ env baseline candidate,
        Compares H env baseline candidate (db.bytesOf "x") (db.bytesOf "y") record := by
  intro H db record
  have reachable : Reachable H db := reachable_serveAll H _
  obtain ⟨looked, env, baseline, candidate, -, -, -, -, compares⟩ :=
    (comparison_records_true reachable).1 record (by decide)
  exact ⟨by decide, looked, env, baseline, candidate, compares⟩

end

end SeismicIngest
