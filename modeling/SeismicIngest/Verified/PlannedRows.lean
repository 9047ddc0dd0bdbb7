import SeismicIngest.Verified.Invariant
import SeismicIngest.Model.Compaction

/-! # The planned layout

`plannedRows` are the rows a compaction stores: one for each planned span, cut out
of the archived content.  They tile the package, are intact, non-empty and no
longer than the target, and hold the content (`plannedRows_tiles` and the lemmas
after it).  Rows that record the planned layout, and hold as many bytes as they
record, already are these rows (`eq_plannedRows`).
-/

namespace SeismicIngest

open Transaction Spans

section

variable (H : Bytes → String) (sessionId : String) (buffer : Bytes) (target : Int)

/-- `ceil(total / target)`. -/
def spanCount (total target : Int) : Nat :=
  ((total + target - 1) / target).toNat

/-- Where span `k` of the plan starts. -/
def cutAt (total target : Int) (k : Nat) : Int :=
  min (k * target) total

/-- The row of span `k` of the plan. -/
def plannedRow (k : Nat) : Chunk :=
  let total : Int := buffer.length
  let data := slice buffer (k * target) (min ((k + 1) * target) total)
  { sessionId
    startOffset := k * target
    endOffset := min ((k + 1) * target) total
    length := min ((k + 1) * target) total - k * target
    sha256 := H data
    data }

/-- The rows of the planned layout of a package with this content. -/
def plannedRows : List Chunk :=
  (List.range (spanCount buffer.length target)).map (plannedRow H sessionId buffer target)

/-- The rows stored for the planned layout are the planned rows. -/
theorem newRows_eq_plannedRows :
    (newLayout H buffer (plannedSpans buffer.length target)).map (newRow sessionId buffer) =
      plannedRows H sessionId buffer target := by
  simp only [newLayout, plannedSpans, pyRange, plannedRows, spanCount, List.map_map,
    show (buffer.length : Int) - 0 + target - 1 = buffer.length + target - 1 by omega]
  apply List.map_congr_left
  intro k _
  have next : (k : Int) * target + target = (k + 1) * target := by rw [Int.add_mul, Int.one_mul]
  simp [newRow, plannedRow, next]

theorem plannedRows_layout :
    (plannedRows H sessionId buffer target).map Chunk.layoutRow =
      newLayout H buffer (plannedSpans buffer.length target) := by
  rw [← newRows_eq_plannedRows, List.map_map]
  conv => rhs; rw [← List.map_id (newLayout H buffer (plannedSpans buffer.length target))]
  rfl

variable {target} (positive : 0 < target)

include positive

/-- Every span but the last is whole, and the last ends at the total. -/
theorem spanCount_bounds (total : Int) (nonneg : 0 ≤ total) :
    total ≤ spanCount total target * target ∧
      ∀ k < spanCount total target, (k : Int) * target < total := by
  have quotient : ((spanCount total target : Nat) : Int) = (total + target - 1) / target := by
    rw [spanCount, Int.toNat_of_nonneg (Int.ediv_nonneg (by omega) (by omega))]
  have split := Int.mul_ediv_add_emod (total + target - 1) target
  have below := Int.emod_lt_of_pos (total + target - 1) positive
  have above := Int.emod_nonneg (total + target - 1) (by omega : target ≠ 0)
  -- the ceiling is a floor division with `target - 1` added first
  rw [← quotient, Int.mul_comm] at split
  refine ⟨by omega, ?_⟩
  intro k inside
  have next : (k : Int) + 1 ≤ spanCount total target := by omega
  have scaled := Int.mul_le_mul_of_nonneg_right next (Int.le_of_lt positive)
  rw [Int.add_mul, Int.one_mul] at scaled
  omega

omit positive in
theorem cutAt_zero (total : Int) (nonneg : 0 ≤ total) : cutAt total target 0 = 0 := by
  simp [cutAt, nonneg]

theorem cutAt_count (total : Int) (nonneg : 0 ≤ total) :
    cutAt total target (spanCount total target) = total := by
  have := (spanCount_bounds positive total nonneg).1
  rw [cutAt]
  omega

/-- A planned row lies between its cuts. -/
theorem plannedRow_cuts {k : Nat} (inside : k < spanCount buffer.length target) :
    (plannedRow H sessionId buffer target k).startOffset = cutAt buffer.length target k ∧
      (plannedRow H sessionId buffer target k).endOffset = cutAt buffer.length target (k + 1) := by
  have below := (spanCount_bounds positive buffer.length (by omega)).2 k inside
  constructor
  · simp only [plannedRow, cutAt]
    omega
  · simp [plannedRow, cutAt]

theorem plannedRows_tiles :
    Tiles 0 (plannedRows H sessionId buffer target) buffer.length := by
  have tiles : Tiles (cutAt buffer.length target 0) (plannedRows H sessionId buffer target)
      (cutAt buffer.length target (spanCount buffer.length target)) :=
    Layout.Tiles.range (fun k inside => (plannedRow_cuts H sessionId buffer positive inside).1)
      (fun k inside => (plannedRow_cuts H sessionId buffer positive inside).2)
  rwa [cutAt_zero _ (by omega), cutAt_count positive _ (by omega)] at tiles

theorem plannedRow_intact {k : Nat} (inside : k < spanCount buffer.length target) :
    Intact H (plannedRow H sessionId buffer target k) where
  span := rfl
  size := by
    have below := (spanCount_bounds positive buffer.length (by omega)).2 k inside
    have lower : 0 ≤ (k : Int) * target := Int.mul_nonneg (by omega) (Int.le_of_lt positive)
    have next : ((k : Int) + 1) * target = k * target + target := by rw [Int.add_mul, Int.one_mul]
    exact slice_length buffer lower (by omega) (by omega)
  digest := rfl

/-- No planned row is empty or longer than the target. -/
theorem plannedRow_length {k : Nat} (inside : k < spanCount buffer.length target) :
    0 < (plannedRow H sessionId buffer target k).length ∧
      (plannedRow H sessionId buffer target k).length ≤ target := by
  have below := (spanCount_bounds positive buffer.length (by omega)).2 k inside
  have next : ((k : Int) + 1) * target = k * target + target := by rw [Int.add_mul, Int.one_mul]
  simp only [plannedRow]
  omega

theorem plannedRows_intact :
    ∀ chunk ∈ plannedRows H sessionId buffer target, Intact H chunk := by
  intro chunk member
  obtain ⟨k, inside, rfl⟩ := List.mem_map.mp member
  exact plannedRow_intact H sessionId buffer positive (List.mem_range.mp inside)

theorem plannedRows_short :
    ∀ chunk ∈ plannedRows H sessionId buffer target, chunk.length ≤ target := by
  intro chunk member
  obtain ⟨k, inside, rfl⟩ := List.mem_map.mp member
  exact (plannedRow_length H sessionId buffer positive (List.mem_range.mp inside)).2

theorem plannedRows_nonempty :
    ∀ chunk ∈ plannedRows H sessionId buffer target, chunk.data ≠ [] := by
  intro chunk member
  have intact := plannedRows_intact H sessionId buffer positive chunk member
  obtain ⟨k, inside, rfl⟩ := List.mem_map.mp member
  have long := (plannedRow_length H sessionId buffer positive (List.mem_range.mp inside)).1
  intro empty
  have size := intact.size
  rw [empty] at size
  simp only [List.length_nil] at size
  omega

/-- The planned rows hold the content they were cut from. -/
theorem plannedRows_content : contentOf (plannedRows H sessionId buffer target) = buffer := by
  have mono : ∀ k < spanCount buffer.length target,
      cutAt buffer.length target k ≤ cutAt buffer.length target (k + 1) := by
    intro k inside
    have next : ((k : Int) + 1) * target = k * target + target := by rw [Int.add_mul, Int.one_mul]
    simp only [cutAt, Int.natCast_add, Int.natCast_one]
    omega
  have data : ∀ k < spanCount buffer.length target,
      chunkLayout.data (plannedRow H sessionId buffer target k) =
        window 0 buffer (cutAt buffer.length target k) (cutAt buffer.length target (k + 1)) := by
    intro k inside
    have below := (spanCount_bounds positive buffer.length (by omega)).2 k inside
    have lower : 0 ≤ (k : Int) * target := Int.mul_nonneg (by omega) (Int.le_of_lt positive)
    have next : ((k : Int) + 1) * target = k * target + target := by rw [Int.add_mul, Int.one_mul]
    have start : cutAt buffer.length target k = k * target := by
      rw [cutAt]
      omega
    rw [start, chunkLayout_data]
    exact slice_eq_window buffer lower (by omega)
  -- consecutive windows of the buffer join to the whole of it
  have content := (chunkLayout.content_range mono data).1
  rw [cutAt_zero _ (by omega), cutAt_count positive _ (by omega),
    window_whole _ _ (Int.le_refl 0) (by omega)] at content
  exact content

theorem plannedRows_ordered :
    Store.byStartOffset (plannedRows H sessionId buffer target) =
      plannedRows H sessionId buffer target :=
  byStartOffset_tiles (plannedRows_tiles H sessionId buffer positive)
    (fits_of_intact (plannedRows_intact H sessionId buffer positive))
    (plannedRows_nonempty H sessionId buffer positive)

omit positive in
/-- Intact rows are known from their layout and their content. -/
theorem eq_newRows {chunks : List Chunk} {hi : Int} (owned : ∀ chunk ∈ chunks, chunk.sessionId = sessionId)
    (tiles : Tiles 0 chunks hi) (fits : ∀ chunk ∈ chunks, chunkLayout.Fits chunk) :
    chunks = (chunks.map Chunk.layoutRow).map (newRow sessionId (contentOf chunks)) := by
  rw [List.map_map]
  conv => lhs; rw [← List.map_id chunks]
  apply List.map_congr_left
  intro chunk member
  have inside := Layout.Tiles.within tiles fits member
  have size := fits chunk member
  have data : chunk.data = slice (contentOf chunks) chunk.startOffset chunk.endOffset := by
    simp only [Layout.Fits, chunkLayout_data, chunkLayout_start, chunkLayout_stop] at inside size
    rw [slice_eq_window _ inside.1 (by omega)]
    exact Layout.Tiles.data_eq_window tiles fits member
  simp only [id, Function.comp, newRow, Chunk.layoutRow, ← data, ← owned chunk member]

omit positive in
/-- Rows that record the planned layout and hold what they record are the planned
    rows. -/
theorem eq_plannedRows {chunks : List Chunk} (target : Int)
    (owned : ∀ chunk ∈ chunks, chunk.sessionId = sessionId) {hi : Int} (tiles : Tiles 0 chunks hi)
    (fits : ∀ chunk ∈ chunks, chunkLayout.Fits chunk)
    (planned : chunks.map Chunk.layoutRow =
      newLayout H (contentOf chunks) (plannedSpans (contentOf chunks).length target)) :
    chunks = plannedRows H sessionId (contentOf chunks) target := by
  rw [← newRows_eq_plannedRows, ← planned]
  exact eq_newRows sessionId owned tiles fits

end

end SeismicIngest
