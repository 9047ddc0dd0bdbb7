import SeismicIngest.Verified.Evolution

/-! # Compaction is a canonical projection

The rows a compaction leaves depend on the archived content and the target alone.
So only the last of several compactions matters, repeating one changes no row, and
the no-op path answers what a rewrite would have answered.
-/

namespace SeismicIngest

open Transaction Spans

section

variable {H : Bytes → String}

/-! ## The canonical rows -/

variable (H) in
/-- The rows are the spans of `target` bytes of the content, the last one cut short
    at its end. -/
structure CanonicalRows (id : String) (content : Bytes) (target : Int) (rows : List Chunk) :
    Prop where
  spans : rows = plannedRows H id content target
  /-- There are `ceil(total / target)` of them. -/
  count : (content.length : Int) ≤ rows.length * target ∧
    (rows.length : Int) * target < content.length + target
  short : ∀ row ∈ rows, row.length ≤ target
  whole : ∀ k row, rows[k]? = some row → k + 1 < rows.length → row.length = target

theorem canonicalRows_planned (id : String) (content : Bytes) {target : Int} (positive : 0 < target) :
    CanonicalRows H id content target (plannedRows H id content target) where
  spans := rfl
  count := by
    have bounds := spanCount_bounds positive content.length (by omega)
    simp only [plannedRows, List.length_map, List.length_range]
    refine ⟨bounds.1, ?_⟩
    cases counted : spanCount content.length target with
    | zero =>
      rw [counted] at bounds
      simp
      omega
    | succ last =>
      -- the last span begins below the end of the content
      have below := bounds.2 last (by omega)
      rw [Int.natCast_add, Int.natCast_one, Int.add_mul, Int.one_mul]
      omega
  short := plannedRows_short H id content positive
  whole := by
    intro k row stored more
    simp only [plannedRows, List.length_map, List.length_range] at more
    -- the span after it begins inside the content, so this one is not cut short
    have inside := (spanCount_bounds positive content.length (by omega)).2 (k + 1) more
    obtain ⟨index, listed, rfl⟩ : ∃ index, index = k ∧ plannedRow H id content target index = row := by
      simp only [plannedRows, List.getElem?_map, Option.map_eq_some_iff] at stored
      obtain ⟨index, found, rfl⟩ := stored
      have := List.getElem?_eq_some_iff.mp found
      obtain ⟨inRange, rfl⟩ := this
      exact ⟨_, by simp, rfl⟩
    subst listed
    have next : ((index : Int) + 1) * target = index * target + target := by
      rw [Int.add_mul, Int.one_mul]
    simp only [plannedRow, Int.natCast_add, Int.natCast_one] at inside ⊢
    omega

/-! ## A compaction of a sealed session -/

section Sealed

variable {db : Store} {session : UploadSession} (found : db.session? session.id = some session)
  (consistent : Consistent H session (db.rowsOf session.id).chunks (db.rowsOf session.id).audits)
  (isSealed : session.status = .sealed) {env : Env} (accepted : env.auditAccepted = true)
  (number : fitsBigint (db.maxSequence session.id + 1) = true) {target : Int} (positive : 0 < target)
  (bounded : target < 2 ^ 63)

include found consistent isSealed accepted number positive bounded

/-- A compaction succeeds, and leaves the canonical rows and one more audit row. -/
theorem run_compactSealed_sealed :
    let content := contentOf (db.rowsOf session.id).chunks
    let row := compactionRow env (db.maxSequence session.id + 1) session (H content) target
      (db.rowsOf session.id).chunks.length (plannedRows H session.id content target).length
    let run := (compactSealed H env session.id target).run db
    run.1 = .ok (compacted H session target (db.rowsOf session.id).chunks content) ∧
      run.2.rowsOf session.id =
        ⟨some session, plannedRows H session.id content target, (db.rowsOf session.id).audits ++ [row]⟩ := by
  intro content row run
  have sound : RowsSound H (db.rowsOf session.id) := .of_consistent found consistent
  have taken : auditTaken env row = true :=
    auditTaken_sealed consistent isSealed accepted number positive bounded
  have plan := compactPlan_sealed found consistent isSealed env positive
  have rows := acceptedPlan_rows found consistent isSealed env target
  have served : run = _ := run_compactSealed env target sound.inRange
  rw [plan] at served
  constructor
  · rw [served, acceptedPlan, if_pos taken]
    rfl
  · rw [served]
    exact rows.trans (if_pos taken)

/-- The no-op and the rewrite end alike. -/
theorem run_noop_rewrite (planned : (db.rowsOf session.id).chunks.map Chunk.layoutRow =
      newLayout H (contentOf (db.rowsOf session.id).chunks) (plannedSpans session.totalBytes target)) :
    let old := (db.rowsOf session.id).chunks
    let content := contentOf old
    let layout := newLayout H content (plannedSpans session.totalBytes target)
    let noop := (compactNoop H env session target old content layout).run db
    let rewrite := (compactRewrite H env session.id session target old content layout).run db
    (compactSealed H env session.id target).run db = noop ∧ noop.1 = rewrite.1 ∧
      noop.2.chunks = db.chunks ∧ noop.2.rowsOf session.id = rewrite.2.rowsOf session.id := by
  intro old content layout noop rewrite
  let row := compactionRow env (db.maxSequence session.id + 1) session (H content) target old.length
    (plannedRows H session.id content target).length
  have sound : RowsSound H (db.rowsOf session.id) := .of_consistent found consistent
  have size : (content.length : Int) = session.totalBytes := sealed_length consistent isSealed
  have whole : H content = session.wholeSha256 := sealed_digest consistent isSealed
  have taken : auditTaken env row = true :=
    auditTaken_sealed consistent isSealed accepted number positive bounded
  have served := run_compactSealed (H := H) env target sound.inRange
  rw [compactPlan_sealed found consistent isSealed env positive, acceptedPlan, if_pos planned,
    if_pos taken] at served
  -- both ways commit the audit row; the rewrite has replaced the chunk rows before
  have noopEnds : (compactNoop H env session target old content layout).settle (.opened db) =
      (.committed (.pure (compacted H session target old content)),
        (Connection.opened db).staged (Write.applyAll [.insertAudit row] db)) :=
    (settle_compactNoop found size rfl).trans (if_pos taken)
  have rewriteEnds : (compactRewrite H env session.id session target old content layout).settle
      (.opened db) = (.committed (.pure (compacted H session target old content)),
        (Connection.opened db).staged (Write.applyAll [.insertAudit row]
          (Write.applyAll (rewriteWrites H session target old content) db))) :=
    (settle_compactRewrite found consistent.inRange positive rowsOf_owned
      (fun _ member => member) size env whole).trans (if_pos taken)
  have noopRun : noop = (.ok (compacted H session target old content),
      Write.applyAll [.insertAudit row] db) := by
    have run := Program.run_of_committed (congrArg Prod.fst noopEnds)
    rw [noopEnds] at run
    exact run
  have rewriteRun : rewrite = (.ok (compacted H session target old content),
      Write.applyAll [.insertAudit row] (Write.applyAll (rewriteWrites H session target old content) db)) := by
    have run := Program.run_of_committed (congrArg Prod.fst rewriteEnds)
    rw [rewriteEnds] at run
    exact run
  -- rows that record the plan already are the planned rows
  have same : old = plannedRows H session.id content target :=
    eq_plannedRows H session.id target rowsOf_owned consistent.tiles consistent.fits
      (by rw [size]; exact planned)
  have rewritten := @rewrite_rows H db session target old content rowsOf_owned (fun _ member => member)
  have audited : ∀ data : Store, (Write.applyAll [.insertAudit row] data).rowsOf session.id = _ :=
    rowsOf_compactionAudit env _ session _ target _ _
  rw [noopRun, rewriteRun, served, audited, audited, rewritten]
  refine ⟨rfl, rfl, rfl, ?_⟩
  simp only [← same, old]

end Sealed

/-! ## The projection -/

/-- A compaction of a sealed session succeeds and leaves the canonical rows of its
    content; nothing else about the session changes, no later compaction with the same
    target finds anything else to store, and the no-op answers as the rewrite. -/
theorem compaction_canonical {db : Store} (reachable : Reachable H db) {session : UploadSession}
    (found : db.session? session.id = some session) (isSealed : session.status = .sealed)
    {target : Int} (positive : 1 ≤ target) (bounded : target ≤ 2 ^ 63 - 1) {env : Env}
    (accepted : env.auditAccepted = true)
    (number : fitsBigint (db.maxSequence session.id + 1) = true) :
    let old := db.chunksOf session.id
    let content := contentOf old
    let layout := newLayout H content (plannedSpans session.totalBytes target)
    let run := (compactSealed H env session.id target).run db
    let rows := run.2.chunksOf session.id
    run.1 = .ok (compactResult session target old.length rows.length session.totalBytes
        session.totalBytes session.wholeSha256 (rows.map Chunk.layoutRow)) ∧
      CanonicalRows H session.id content target rows ∧
      run.2.session? session.id = some session ∧
      contentOf rows = content ∧ (content.length : Int) = session.totalBytes ∧
      (∀ later other, Later H db later → other.auditAccepted = true →
        fitsBigint (later.maxSequence session.id + 1) = true →
          ((compactSealed H other session.id target).run later).2.chunksOf session.id = rows) ∧
      (old.map Chunk.layoutRow = layout →
        let noop := (compactNoop H env session target old content layout).run db
        let rewrite := (compactRewrite H env session.id session target old content layout).run db
        run = noop ∧ noop.1 = rewrite.1 ∧ noop.2.chunks = db.chunks ∧
          noop.2.rowsOf session.id = rewrite.2.rowsOf session.id) := by
  intro old content layout run rows
  have sound := reachable.sound
  have consistent := sound.consistent found
  have ordered : old = (db.rowsOf session.id).chunks := consistent.ordered
  obtain ⟨answered, left⟩ := run_compactSealed_sealed found consistent isSealed accepted number
    (show 0 < target by omega) (by omega)
  have stored : rows = plannedRows H session.id content target := by
    change Store.byStartOffset (run.2.rowsOf session.id).chunks = _
    rw [left, ← ordered]
    exact plannedRows_ordered H session.id content positive
  have size : (content.length : Int) = session.totalBytes := by
    simp only [content, ordered]
    exact sealed_length consistent isSealed
  have whole : H content = session.wholeSha256 := by
    simp only [content, ordered]
    exact sealed_digest consistent isSealed
  have total : totalLength old = session.totalBytes := by
    rw [ordered]
    exact sealed_totalLength consistent isSealed
  refine ⟨?_, ?_, ?_, ?_, size, ?_, ?_⟩
  · rw [answered, stored, compacted, ← ordered, total, whole, plannedRows_layout, size]
  · rw [stored]
    exact canonicalRows_planned session.id content positive
  · exact congrArg SessionRows.row left
  · rw [stored, plannedRows_content H session.id content positive]
  · intro later other happened otherAccepted otherNumber
    -- the content is frozen, and the planned rows are a function of it
    obtain ⟨ended, endedFound, evolves⟩ := evolves_of_later sound happened found
    obtain ⟨rfl, same⟩ := evolves.frozen (by simp [isSealed])
    have laterSound := (reachable.later happened).sound
    have again := (run_compactSealed_sealed endedFound (laterSound.consistent endedFound) isSealed
      otherAccepted otherNumber (show 0 < target by omega) (by omega)).2
    rw [stored, chunksOf_eq, again, same, ← ordered]
    exact plannedRows_ordered H ended.id content positive
  · intro planned
    have alike := run_noop_rewrite found consistent isSealed accepted number
      (show 0 < target by omega) (by omega) (by rw [← ordered]; exact planned)
    rw [← ordered] at alike
    exact alike

/-- Three bytes uploaded as one and two, and compacted to two and one. -/
theorem compaction_canonical_upload :
    let session : UploadSession := ⟨"s", 3, "d", 3, .sealed, some "d", none, 0⟩
    let db := serveAll (fun _ => "d")
      [⟨⟨"s", 0, true⟩, .createSession 3 "d"⟩, ⟨⟨"", 0, true⟩, .putChunk "s" 0 1 "d" [1]⟩,
        ⟨⟨"", 0, true⟩, .putChunk "s" 1 2 "d" [2, 3]⟩] Store.empty
    let rows := ((compactSealed (fun _ => "d") ⟨"", 0, true⟩ session.id 2).run db).2.chunksOf session.id
    CanonicalRows (fun _ => "d") session.id (contentOf (db.chunksOf session.id)) 2 rows ∧
      rows.map Chunk.data = [[1, 2], [3]] :=
  ⟨(compaction_canonical (reachable_serveAll _ _) (by decide) rfl (by decide) (by decide) rfl
    (by decide)).2.1, by decide⟩

end

end SeismicIngest
