import SeismicIngest.Verified.Statements
import Mathlib.Data.List.Chain

/-! # The replay read copies exactly the archived slice

`_archived_bytes` decides whether a resent range repeats what is archived.  Over rows
that tile `[0, covered)` it returns the slice it is asked for when the rows reach that
far, and nothing else; on the way its cursor only grows, and no row is read outside its
data (`archived_slice`).
-/

namespace SeismicIngest

open Transaction Spans

/-! ## The passes of the loop -/

/-- One pass of the loop of `_archived_bytes` that copies bytes. -/
structure ArchivedPass where
  chunk : Chunk
  cursor : Int
  overlapEnd : Int

namespace ArchivedPass

def relStart (pass : ArchivedPass) : Int := pass.cursor - pass.chunk.startOffset

def relEnd (pass : ArchivedPass) : Int := pass.overlapEnd - pass.chunk.startOffset

/-- The bytes the pass appends. -/
def copied (pass : ArchivedPass) : Bytes := slice pass.chunk.data pass.relStart pass.relEnd

end ArchivedPass

/-- The passes `archivedLoop` makes over the rows, up to its `break` or to a gap. -/
def archivedPasses (stop : Int) : List Chunk → Int → List ArchivedPass
  | [], _ => []
  | chunk :: chunks, cursor =>
    if chunk.startOffset > cursor then []
    else
      let overlapEnd := min chunk.endOffset stop
      ⟨chunk, cursor, overlapEnd⟩ ::
        if overlapEnd ≥ stop then [] else archivedPasses stop chunks overlapEnd

section Passes

variable {stop cursor : Int} {chunks : List Chunk}

/-- What the loop does with a row is its pass: the slice it takes lies between `relStart` and
    `relEnd`. -/
theorem archivedLoop_pass {chunk : Chunk} {out : Bytes} {pass : ArchivedPass}
    (head : pass ∈ (archivedPasses stop (chunk :: chunks) cursor).head?) :
    archivedPasses stop (chunk :: chunks) cursor =
        pass :: (if pass.overlapEnd ≥ stop then [] else archivedPasses stop chunks pass.overlapEnd) ∧
      pass.chunk = chunk ∧ pass.cursor = cursor ∧
      archivedLoop stop (chunk :: chunks) cursor out =
        if pass.overlapEnd ≥ stop then
          some (pass.overlapEnd, out ++ slice pass.chunk.data pass.relStart pass.relEnd)
        else archivedLoop stop chunks pass.overlapEnd
          (out ++ slice pass.chunk.data pass.relStart pass.relEnd) := by
  rw [archivedPasses] at head ⊢
  rw [archivedLoop]
  split at head
  · cases head
  · rename_i noGap
    cases head
    rw [if_neg noGap, if_neg noGap]
    exact ⟨rfl, rfl, rfl, rfl⟩

variable (stop cursor chunks) in
/-- Round `n` of the loop reads the row of its pass, and takes the slice between `relStart` and
    `relEnd` behind what the rounds before have taken. -/
def Takes (n : Nat) (pass : ArchivedPass) (out : Bytes) : Prop :=
  let taken := out ++ ((archivedPasses stop chunks cursor).take n).flatMap ArchivedPass.copied
  ∃ rest, chunks.drop n = pass.chunk :: rest ∧
    archivedLoop stop chunks cursor out =
      if pass.overlapEnd ≥ stop then
        some (pass.overlapEnd, taken ++ slice pass.chunk.data pass.relStart pass.relEnd)
      else archivedLoop stop rest pass.overlapEnd
        (taken ++ slice pass.chunk.data pass.relStart pass.relEnd)

theorem archivedLoop_takes {n : Nat} {pass : ArchivedPass}
    (reached : (archivedPasses stop chunks cursor)[n]? = some pass) (out : Bytes) :
    Takes stop cursor chunks n pass out := by
  induction n generalizing chunks cursor out with
  | zero =>
    cases chunks with
    | nil => cases reached
    | cons chunk chunks =>
      obtain ⟨-, own, -, taken⟩ := @archivedLoop_pass stop cursor chunks chunk out pass
        (List.head?_eq_getElem?.trans reached)
      refine ⟨chunks, by rw [own, List.drop_zero], ?_⟩
      rw [taken, List.take_zero, List.flatMap_nil, List.append_nil]
  | succ n inductionHypothesis =>
    cases chunks with
    | nil => cases reached
    | cons chunk chunks =>
      cases head : (archivedPasses stop (chunk :: chunks) cursor).head? with
      | none =>
        rw [List.head?_eq_none_iff.mp head] at reached
        cases reached
      | some first =>
        obtain ⟨passes, -, -, taken⟩ := @archivedLoop_pass stop cursor chunks chunk out first head
        by_cases last : first.overlapEnd ≥ stop
        · rw [passes, if_pos last] at reached
          cases reached
        · rw [if_neg last] at passes taken
          rw [passes, List.getElem?_cons_succ] at reached
          obtain ⟨rest, dropped, later⟩ := inductionHypothesis reached (out ++ first.copied)
          refine ⟨rest, dropped, ?_⟩
          rw [taken, passes, List.take_succ_cons, List.flatMap_cons, ← List.append_assoc]
          exact later

/-- What the loop collects is what its passes copy. -/
theorem archivedLoop_collects {reached : Int} {out collected : Bytes}
    (ended : archivedLoop stop chunks cursor out = some (reached, collected)) :
    collected = out ++ (archivedPasses stop chunks cursor).flatMap ArchivedPass.copied := by
  induction chunks generalizing cursor out with
  | nil =>
    obtain ⟨rfl, rfl⟩ := Prod.mk.inj (Option.some.inj ended)
    exact (List.append_nil out).symm
  | cons chunk chunks inductionHypothesis =>
    rw [archivedLoop] at ended
    rw [archivedPasses]
    split at ended
    · cases ended
    · rename_i noGap
      rw [if_neg noGap, List.flatMap_cons, ← List.append_assoc]
      dsimp only at ended
      split at ended
      · rename_i last
        obtain ⟨rfl, rfl⟩ := Prod.mk.inj (Option.some.inj ended)
        rw [if_pos last, List.flatMap_nil, List.append_nil]
        rfl
      · rename_i more
        rw [if_neg more]
        exact inductionHypothesis ended

theorem archivedPasses_head {pass : ArchivedPass}
    (head : pass ∈ (archivedPasses stop chunks cursor).head?) : pass.cursor = cursor := by
  cases chunks with
  | nil => cases head
  | cons chunk chunks =>
    obtain ⟨-, -, starts, -⟩ := @archivedLoop_pass stop cursor chunks chunk [] pass head
    exact starts

/-- Each pass starts where the one before it ended. -/
theorem archivedPasses_chain :
    (archivedPasses stop chunks cursor).IsChain fun pass next => next.cursor = pass.overlapEnd := by
  induction chunks generalizing cursor with
  | nil => exact .nil
  | cons chunk chunks inductionHypothesis =>
    rw [archivedPasses]
    split
    · exact .nil
    · refine List.isChain_cons.mpr ⟨fun next head => ?_, ?_⟩
      · split at head
        · cases head
        · exact archivedPasses_head head
      · split
        · exact .nil
        · exact inductionHypothesis

theorem archivedPasses_row {pass : ArchivedPass} (member : pass ∈ archivedPasses stop chunks cursor) :
    pass.chunk ∈ chunks ∧ pass.overlapEnd = min pass.chunk.endOffset stop := by
  induction chunks generalizing cursor with
  | nil => cases member
  | cons chunk chunks inductionHypothesis =>
    rw [archivedPasses] at member
    split at member
    · cases member
    · obtain rfl | later := List.mem_cons.mp member
      · exact ⟨List.mem_cons_self, rfl⟩
      · split at later
        · cases later
        · obtain ⟨row, ends⟩ := inductionHypothesis later
          exact ⟨List.mem_cons_of_mem _ row, ends⟩

/-- Over a tiling each pass starts at its row, or at the start of the window inside it. -/
theorem archivedPasses_cursor {begin lo hi : Int} (tiles : Tiles lo chunks hi)
    (fits : ∀ chunk ∈ chunks, chunkLayout.Fits chunk) (position : cursor = max begin lo)
    (ahead : cursor < stop) {pass : ArchivedPass}
    (member : pass ∈ archivedPasses stop
      (chunks.filter fun chunk => chunk.startOffset < stop ∧ chunk.endOffset > begin) cursor) :
    pass.cursor = max begin pass.chunk.startOffset := by
  induction chunks generalizing lo cursor with
  | nil => cases member
  | cons chunk chunks inductionHypothesis =>
    have starts : chunk.startOffset = lo := tiles.1
    have headFits : ((chunk.data).length : Int) = chunk.endOffset - chunk.startOffset :=
      fits chunk List.mem_cons_self
    have tailFits : ∀ other ∈ chunks, chunkLayout.Fits other :=
      fun other member => fits other (List.mem_cons_of_mem _ member)
    by_cases overlaps : chunk.endOffset > begin
    · rw [List.filter_cons_of_pos (by simp; omega), archivedPasses, if_neg (by omega)] at member
      obtain rfl | later := List.mem_cons.mp member
      · rw [position, starts]
      · split at later
        · cases later
        · exact inductionHypothesis (tiles_cons.mp tiles).2 tailFits (by omega) (by omega) later
    · rw [List.filter_cons_of_neg (by simp; omega)] at member
      exact inductionHypothesis (tiles_cons.mp tiles).2 tailFits (by omega) ahead member

end Passes

/-! ## The read -/

section

variable (db : Store) (id : String) (begin stop : Int)

/-- A pass that copies its part of the requested range and nothing else. -/
structure CopiesWithin (pass : ArchivedPass) : Prop where
  row : pass.chunk ∈ db.chunks ∧ pass.chunk.sessionId = id
  overlaps : pass.chunk.startOffset < stop ∧ begin < pass.chunk.endOffset
  increases : pass.cursor < pass.overlapEnd
  within : begin ≤ pass.cursor ∧ pass.overlapEnd ≤ stop
  indices : 0 ≤ pass.relStart ∧ pass.relStart ≤ pass.relEnd ∧ pass.relEnd ≤ pass.chunk.data.length
  copies : pass.copied = slice (contentOf (db.chunksOf id)) pass.cursor pass.overlapEnd

/-- The loop over the rows the query returned. -/
structure CopiesForward (passes : List ArchivedPass) : Prop where
  copies : ∀ pass ∈ passes, CopiesWithin db id begin stop pass
  first : ∀ pass ∈ passes.head?, pass.cursor = begin
  chained : passes.IsChain fun pass next => next.cursor = pass.overlapEnd

/-- `_archived_bytes(begin, stop)` on a session with `covered` bytes archived. -/
structure ReadsArchived (covered : Int) : Prop where
  within : stop ≤ covered → (archivedBytes id begin stop).run db =
    (.ok (some (slice (contentOf (db.chunksOf id)) begin stop)), db)
  empty : begin = stop → (archivedBytes id begin stop).run db = (.ok (some []), db)
  missing : ((archivedBytes id begin stop).run db).1 = .ok none ↔ begin < stop ∧ covered < stop
  loop : begin < stop →
    let passes := archivedPasses stop (db.chunksOverlapping id begin stop) begin
    CopiesForward db id begin stop passes ∧
      (∀ n pass, passes[n]? = some pass →
        Takes stop begin (db.chunksOverlapping id begin stop) n pass []) ∧
      ∀ collected, archivedLoop stop (db.chunksOverlapping id begin stop) begin [] =
        some (stop, collected) → collected = passes.flatMap ArchivedPass.copied

end

section

variable {db : Store} {id : String} {begin stop covered : Int}

theorem mem_chunksOf {chunk : Chunk} (member : chunk ∈ db.chunksOf id) :
    chunk ∈ db.chunks ∧ chunk.sessionId = id := by
  simpa using byStartOffset_mem.mp member

theorem copiesWithin_of_pass (rows : Contiguous (db.chunksOf id) covered) (lower : 0 ≤ begin)
    (ahead : begin < stop) {pass : ArchivedPass}
    (member : pass ∈ archivedPasses stop (db.chunksOverlapping id begin stop) begin) :
    CopiesWithin db id begin stop pass := by
  rw [chunksOverlapping_contiguous rows] at member
  obtain ⟨met, ends⟩ := archivedPasses_row member
  obtain ⟨stored, meets⟩ := List.mem_filter.mp met
  have starts := archivedPasses_cursor rows.tiles rows.fits (by omega) ahead member
  have overlaps : pass.chunk.startOffset < stop ∧ begin < pass.chunk.endOffset := by
    simpa using meets
  -- the row holds its window of the content
  have inside := Layout.Tiles.within rows.tiles rows.fits stored
  have data := Layout.Tiles.data_eq_window rows.tiles rows.fits stored
  have fits : (pass.chunk.data.length : Int) = pass.chunk.endOffset - pass.chunk.startOffset :=
    rows.fits _ stored
  have nonempty := List.length_pos_iff.mpr (rows.nonempty _ stored)
  simp only [chunkLayout_start, chunkLayout_stop, chunkLayout_data] at inside data
  refine {
    row := mem_chunksOf stored
    overlaps := overlaps
    increases := by omega
    within := by omega
    indices := by rw [ArchivedPass.relStart, ArchivedPass.relEnd]; omega
    copies := ?_ }
  rw [ArchivedPass.copied, ArchivedPass.relStart, ArchivedPass.relEnd, data,
    slice_window 0 _ inside.1 (by omega) (by omega) (by omega),
    slice_eq_window _ (by omega) (by omega)]

/-- The read returns the archived slice, or reports that the rows do not reach it. -/
theorem archived_slice (rows : Contiguous (db.chunksOf id) covered) (lower : 0 ≤ begin)
    (ordered : begin ≤ stop) : ReadsArchived db id begin stop covered := by
  have settled := @settle_archivedBytes id covered begin stop (.opened db) rows lower ordered
  have run := Program.run_of_returned (congrArg Prod.fst settled)
  rw [Connection.opened_working] at run
  refine { within := ?_, empty := ?_, missing := ?_, loop := ?_ }
  · intro reached
    rw [run, if_pos (.inr reached)]
  · intro nothing
    rw [run, if_pos (.inl nothing), nothing, slice_empty]
  · rw [run]
    by_cases answered : begin = stop ∨ stop ≤ covered
    · simp only [if_pos answered, Except.ok.injEq, reduceCtorEq, false_iff]
      omega
    · simp only [if_neg answered, true_iff]
      omega
  · intro ahead
    refine ⟨⟨fun pass member => copiesWithin_of_pass rows lower ahead member,
      fun pass head => archivedPasses_head head, archivedPasses_chain⟩,
      fun n pass reached => archivedLoop_takes reached [], ?_⟩
    intro collected ended
    exact archivedLoop_collects ended

end

/-- A session of two rows, stored out of order. -/
def twoRows : Store where
  uploadSessions := []
  chunks := [⟨"s", 2, 3, 1, "", [99]⟩, ⟨"s", 0, 2, 2, "", [97, 98]⟩]
  auditEvents := []
  comparisons := []

theorem twoRows_contiguous : Contiguous (twoRows.chunksOf "s") 3 := by
  have rows : twoRows.chunksOf "s" = [⟨"s", 0, 2, 2, "", [97, 98]⟩, ⟨"s", 2, 3, 1, "", [99]⟩] := by
    decide
  rw [rows]
  exact ⟨⟨rfl, rfl, rfl⟩, by simp [Layout.Fits], by simp⟩

theorem archived_slice_twoRows : ReadsArchived twoRows "s" 1 3 3 :=
  archived_slice twoRows_contiguous (by decide) (by decide)

end SeismicIngest
