import SeismicIngest.Verified.Rows
import SeismicIngest.Spans.Tiling

/-! # Walks over chunk rows

The service walks the chunk rows of a session in six places: finalization, the
replay check, the download, the comparison, and compaction's reading of the old
rows and re-verification of the new ones.  Each walk carries a cursor that must
meet the start of the next row, so each accepts a tiling and nothing else; they
differ in the checks they make on a row.  The download and the comparison accept
exactly the rows that are `Intact`.
-/

namespace SeismicIngest

open Spans

/-- Chunk rows as spans with data. -/
def chunkLayout : Layout Chunk UInt8 := ⟨Chunk.startOffset, Chunk.endOffset, Chunk.data⟩

@[simp] theorem chunkLayout_start (chunk : Chunk) : chunkLayout.start chunk = chunk.startOffset := rfl
@[simp] theorem chunkLayout_stop (chunk : Chunk) : chunkLayout.stop chunk = chunk.endOffset := rfl
@[simp] theorem chunkLayout_data (chunk : Chunk) : chunkLayout.data chunk = chunk.data := rfl

/-- The rows tile `[lo, hi)`. -/
abbrev Tiles (lo : Int) (chunks : List Chunk) (hi : Int) : Prop := chunkLayout.Tiles lo chunks hi

/-- The concatenated data of the rows. -/
abbrev contentOf (chunks : List Chunk) : Bytes := chunkLayout.content chunks

theorem tiles_nil {lo hi : Int} : Tiles lo [] hi ↔ lo = hi := Iff.rfl

theorem tiles_cons {lo hi : Int} {chunk : Chunk} {chunks : List Chunk} :
    Tiles lo (chunk :: chunks) hi ↔ chunk.startOffset = lo ∧ Tiles chunk.endOffset chunks hi := Iff.rfl

theorem contentOf_nil : contentOf [] = [] := rfl

theorem contentOf_cons (chunk : Chunk) (chunks : List Chunk) :
    contentOf (chunk :: chunks) = chunk.data ++ contentOf chunks := rfl

section

variable (H : Bytes → String)

/-- A row whose metadata describes its data. -/
structure Intact (chunk : Chunk) : Prop where
  span : chunk.length = chunk.endOffset - chunk.startOffset
  size : (chunk.data.length : Int) = chunk.length
  digest : chunk.sha256 = H chunk.data

variable {H}

/-- The checks that a download and a comparison make on a row. -/
theorem intact_iff_checks {chunk : Chunk} :
    Intact H chunk ↔
      ¬ (chunk.length ≠ chunk.endOffset - chunk.startOffset ∨
          (chunk.data.length : Int) ≠ chunk.length) ∧ ¬ H chunk.data ≠ chunk.sha256 := by
  constructor
  · intro intact
    exact ⟨fun inconsistent => inconsistent.elim (· intact.span) (· intact.size),
      not_not.mpr intact.digest.symm⟩
  · rintro ⟨consistent, digest⟩
    rw [not_or, not_not, not_not] at consistent
    exact ⟨consistent.1, consistent.2, (not_not.mp digest).symm⟩

theorem Intact.fits {chunk : Chunk} (intact : Intact H chunk) : chunkLayout.Fits chunk := by
  rw [Layout.Fits, chunkLayout_data, chunkLayout_stop, chunkLayout_start, intact.size, intact.span]

theorem fits_of_intact {chunks : List Chunk} (intact : ∀ chunk ∈ chunks, Intact H chunk) :
    ∀ chunk ∈ chunks, chunkLayout.Fits chunk :=
  fun chunk member => (intact chunk member).fits

end

/-! ## Order -/

theorem byStartOffset_sorted {chunks : List Chunk}
    (sorted : chunks.Pairwise fun earlier later => earlier.startOffset < later.startOffset) :
    Store.byStartOffset chunks = chunks :=
  List.Pairwise.insertionSort_eq (sorted.imp fun less => Int.le_of_lt less)

theorem byStartOffset_mem {chunks : List Chunk} {chunk : Chunk} :
    chunk ∈ Store.byStartOffset chunks ↔ chunk ∈ chunks :=
  List.mem_insertionSort _

/-- Rows that start at different offsets are sorted in one way only. -/
theorem byStartOffset_perm {chunks sorted : List Chunk} (perm : chunks.Perm sorted)
    (ordered : sorted.Pairwise fun earlier later => earlier.startOffset < later.startOffset) :
    Store.byStartOffset chunks = sorted := by
  have distinct : (sorted.map Chunk.startOffset).Nodup :=
    List.pairwise_map.mpr (ordered.imp fun less => Int.ne_of_lt less)
  refine List.Perm.eq_of_pairwise ?_ (List.pairwise_insertionSort _ _)
    (ordered.imp fun less => Int.le_of_lt less) ((List.perm_insertionSort _ chunks).trans perm)
  intro first second memberFirst memberSecond before after
  exact List.inj_on_of_nodup_map distinct (perm.subset (byStartOffset_mem.mp memberFirst))
    memberSecond (Int.le_antisymm before after)

/-! ## Finalization -/

theorem finalizeLoop_tiles {lo hi : Int} {chunks : List Chunk} (tiles : Tiles lo chunks hi)
    (hasher : Bytes) : finalizeLoop chunks lo hasher = some (hi, hasher ++ contentOf chunks) := by
  induction chunks generalizing lo hasher with
  | nil => rw [tiles_nil] at tiles; simp [finalizeLoop, tiles]
  | cons chunk chunks inductionHypothesis =>
    have starts : chunk.startOffset = lo := tiles.1
    rw [finalizeLoop, if_neg (by simp [starts]), inductionHypothesis (tiles_cons.mp tiles).2]
    simp

theorem finalDigest_tiles (H : Bytes → String) {total : Int} {chunks : List Chunk}
    (tiles : Tiles 0 chunks total) : finalDigest H chunks total = some (H (contentOf chunks)) := by
  simp [finalDigest, finalizeLoop_tiles tiles]

/-! ## Replay check -/

/-- Over a tiling the replay walk collects the part of the window that is covered; the
    rows it does not overlap may be left out, as the query does. -/
theorem archivedLoop_window {begin stop lo hi cursor : Int} {chunks : List Chunk}
    (tiles : Tiles lo chunks hi) (fits : ∀ chunk ∈ chunks, chunkLayout.Fits chunk)
    (position : cursor = max begin lo) (ahead : cursor < stop) (out : Bytes) :
    archivedLoop stop (chunks.filter fun chunk => chunk.startOffset < stop ∧ chunk.endOffset > begin)
        cursor out =
      some (max begin (min stop hi), out ++ window lo (contentOf chunks) begin stop) := by
  induction chunks generalizing lo cursor out with
  | nil =>
    rw [tiles_nil] at tiles
    rw [List.filter_nil, archivedLoop, contentOf_nil, window, List.take_nil, List.drop_nil,
      List.append_nil]
    exact congrArg (fun reached => some (reached, out)) (by omega)
  | cons chunk chunks inductionHypothesis =>
    have starts : chunk.startOffset = lo := tiles.1
    have headFits : ((chunk.data).length : Int) = chunk.endOffset - chunk.startOffset :=
      fits chunk List.mem_cons_self
    have tailFits : ∀ other ∈ chunks, chunkLayout.Fits other :=
      fun other member => fits other (List.mem_cons_of_mem _ member)
    have beyond : chunk.endOffset ≤ hi := (tiles_cons.mp tiles).2.le tailFits
    have joint : lo + (chunk.data.length : Int) = chunk.endOffset := by omega
    rw [contentOf_cons, window_append, joint]
    by_cases overlaps : chunk.endOffset > begin
    · -- the row is met by the query, and its part of the window is copied
      rw [List.filter_cons_of_pos (by simp; omega), archivedLoop, if_neg (by omega)]
      have copied : slice chunk.data (cursor - chunk.startOffset)
          (min chunk.endOffset stop - chunk.startOffset) = window lo chunk.data begin stop := by
        rw [position, starts, ← joint, Int.min_comm]
        exact slice_clipped lo chunk.data (by omega)
      simp only [copied]
      by_cases last : min chunk.endOffset stop ≥ stop
      · rw [if_pos last, window_before chunk.endOffset _ (by omega), List.append_nil,
          show min chunk.endOffset stop = max begin (min stop hi) by omega]
      · rw [if_neg last, inductionHypothesis (tiles_cons.mp tiles).2 tailFits (by omega) (by omega),
          List.append_assoc]
    · -- the row lies before the window
      rw [List.filter_cons_of_neg (by simp; omega), window_after lo _ (by omega), List.nil_append]
      exact inductionHypothesis (tiles_cons.mp tiles).2 tailFits (by omega) ahead out

/-! ## Download -/

section

variable {H : Bytes → String}

theorem sealedLoop_ok_iff {begin stop cursor hi : Int} {chunks : List Chunk}
    {hasher out hashed collected : Bytes} :
    sealedLoop H begin stop chunks cursor hasher out = .ok (hi, hashed, collected) ↔
      Tiles cursor chunks hi ∧ (∀ chunk ∈ chunks, Intact H chunk) ∧
        hashed = hasher ++ contentOf chunks ∧
        collected = out ++ window cursor (contentOf chunks) begin stop := by
  induction chunks generalizing cursor hasher out with
  | nil =>
    simp only [sealedLoop, Except.ok.injEq, Prod.mk.injEq, tiles_nil, contentOf_nil]
    simp [window, eq_comm]
  | cons chunk chunks inductionHypothesis =>
    rw [sealedLoop]
    split
    · rename_i apart
      simp only [reduceCtorEq, false_iff]
      rintro ⟨tiles, -⟩
      exact apart tiles.1
    · rename_i starts
      have starts : chunk.startOffset = cursor := by simpa using starts
      split
      · rename_i inconsistent
        simp only [reduceCtorEq, false_iff]
        rintro ⟨-, intact, -⟩
        exact (intact_iff_checks.mp (intact chunk List.mem_cons_self)).1 inconsistent
      · rename_i consistent
        split
        · rename_i altered
          simp only [reduceCtorEq, false_iff]
          rintro ⟨-, intact, -⟩
          exact (intact_iff_checks.mp (intact chunk List.mem_cons_self)).2 altered
        · rename_i digest
          have head : Intact H chunk := intact_iff_checks.mpr ⟨consistent, digest⟩
          have joint : cursor + (chunk.data.length : Int) = chunk.endOffset := by
            have := head.fits
            simp only [Layout.Fits, chunkLayout_data, chunkLayout_stop, chunkLayout_start] at this
            omega
          -- the row adds its part of the window, which is nothing outside of it
          have part : (if chunk.startOffset < stop ∧ chunk.endOffset > begin then
              out ++ slice chunk.data (max begin chunk.startOffset - chunk.startOffset)
                (min stop chunk.endOffset - chunk.startOffset)
              else out) = out ++ window cursor chunk.data begin stop := by
            rw [starts, ← joint]
            split
            · rename_i overlaps
              rw [slice_clipped _ _ overlaps.1]
            · rename_i apart
              by_cases before : stop ≤ cursor
              · rw [window_before _ _ before, List.append_nil]
              · rw [window_after _ _ (by omega), List.append_nil]
          simp only [part]
          rw [inductionHypothesis, tiles_cons, contentOf_cons, window_append]
          simp only [starts, true_and, joint,
            List.forall_mem_cons, head, List.append_assoc]

theorem sealedLoop_error {begin stop cursor : Int} {chunks : List Chunk} {hasher out : Bytes}
    {error : UploadError} (failed : sealedLoop H begin stop chunks cursor hasher out = .error error) :
    error.code = .sealedIntegrityError := by
  induction chunks generalizing cursor hasher out with
  | nil => cases failed
  | cons chunk chunks inductionHypothesis =>
    rw [sealedLoop] at failed
    split at failed
    · cases failed; rfl
    · split at failed
      · cases failed; rfl
      · split at failed
        · cases failed; rfl
        · exact inductionHypothesis failed

/-! ## Comparison -/

theorem archiveLoop_ok_iff {side : String} {session : UploadSession} {cursor hi : Int}
    {chunks : List Chunk} {hasher hashed : Bytes} :
    archiveLoop H side session chunks cursor hasher = .ok (hi, hashed) ↔
      Tiles cursor chunks hi ∧ (∀ chunk ∈ chunks, Intact H chunk) ∧
        hashed = hasher ++ contentOf chunks := by
  induction chunks generalizing cursor hasher with
  | nil =>
    simp only [archiveLoop, Except.ok.injEq, Prod.mk.injEq, tiles_nil, contentOf_nil]
    simp [eq_comm]
  | cons chunk chunks inductionHypothesis =>
    rw [archiveLoop]
    split
    · rename_i apart
      simp only [reduceCtorEq, false_iff]
      rintro ⟨tiles, -⟩
      exact apart tiles.1
    · rename_i starts
      split
      · rename_i inconsistent
        simp only [reduceCtorEq, false_iff]
        rintro ⟨-, intact, -⟩
        exact (intact_iff_checks.mp (intact chunk List.mem_cons_self)).1 inconsistent
      · rename_i consistent
        split
        · rename_i altered
          simp only [reduceCtorEq, false_iff]
          rintro ⟨-, intact, -⟩
          exact (intact_iff_checks.mp (intact chunk List.mem_cons_self)).2 altered
        · rename_i digest
          have head : Intact H chunk := intact_iff_checks.mpr ⟨consistent, digest⟩
          rw [inductionHypothesis, tiles_cons, contentOf_cons]
          simp only [List.forall_mem_cons, head,
            true_and, List.append_assoc, show chunk.startOffset = cursor by simpa using starts]

/-! ## Compaction -/

theorem oldLoop_ok_iff {cursor hi : Int} {chunks : List Chunk} {buffer filled : Bytes} :
    oldLoop chunks cursor buffer = .ok (hi, filled) ↔
      Tiles cursor chunks hi ∧ filled = buffer ++ contentOf chunks := by
  induction chunks generalizing cursor buffer with
  | nil =>
    simp only [oldLoop, Except.ok.injEq, Prod.mk.injEq, tiles_nil, contentOf_nil]
    simp [eq_comm]
  | cons chunk chunks inductionHypothesis =>
    rw [oldLoop]
    split
    · rename_i apart
      simp only [reduceCtorEq, false_iff]
      rintro ⟨tiles, -⟩
      exact apart tiles.1
    · rename_i starts
      rw [inductionHypothesis, tiles_cons, contentOf_cons]
      simp only [true_and, List.append_assoc,
        show chunk.startOffset = cursor by simpa using starts]

theorem verifyLoop_tiles {target cursor hi : Int} {chunks : List Chunk} (tiles : Tiles cursor chunks hi)
    (short : ∀ chunk ∈ chunks, chunk.length ≤ target)
    (digests : ∀ chunk ∈ chunks, chunk.sha256 = H chunk.data) (verifier : Bytes) (after : Int) :
    verifyLoop H target chunks cursor verifier after =
      .ok (hi, verifier ++ contentOf chunks, after + totalLength chunks) := by
  induction chunks generalizing cursor verifier after with
  | nil =>
    rw [tiles_nil] at tiles
    simp [verifyLoop, tiles, totalLength]
  | cons chunk chunks inductionHypothesis =>
    have starts : chunk.startOffset = cursor := tiles.1
    have headShort := short chunk List.mem_cons_self
    rw [verifyLoop, if_neg (by simp [starts]), if_neg (by omega),
      if_neg (by simp [digests chunk List.mem_cons_self]),
      inductionHypothesis (tiles_cons.mp tiles).2
        (fun other member => short other (List.mem_cons_of_mem _ member))
        (fun other member => digests other (List.mem_cons_of_mem _ member))]
    simp only [contentOf_cons, totalLength, List.map_cons, List.sum_cons,
      List.append_assoc, Int.add_assoc]

/-- The lengths of intact rows add up to the interval they tile. -/
theorem totalLength_intact {lo hi : Int} {chunks : List Chunk} (tiles : Tiles lo chunks hi)
    (spans : ∀ chunk ∈ chunks, chunk.length = chunk.endOffset - chunk.startOffset) :
    totalLength chunks = hi - lo := by
  induction chunks generalizing lo with
  | nil => rw [tiles_nil] at tiles; simp [totalLength, tiles]
  | cons chunk chunks inductionHypothesis =>
    have starts : chunk.startOffset = lo := tiles.1
    have tail :=
      inductionHypothesis (tiles_cons.mp tiles).2
        (fun other member => spans other (List.mem_cons_of_mem _ member))
    have head := spans chunk List.mem_cons_self
    simp only [totalLength, List.map_cons, List.sum_cons] at tail ⊢
    omega

end

end SeismicIngest
