import SeismicIngest.Model.Comparison
import SeismicIngest.Spans.CommonPrefix
import Mathlib.Data.List.DropRight
import Mathlib.Data.List.GetD

/-! # Walking two streams of blocks

`_streams_first_difference` walks two sequences of blocks with a block index and a
position on each side.  What it has walked is a common front of both streams
(`Aligned`), and every pass finishes a block, an empty one at the latest.  So the
walk ends with the length of the longest common prefix, however the streams are cut
into blocks (`streamsFirstDifference_walked`).  It reports no difference when both
indices reach the end together, which equal streams do when they end in equally many
empty blocks.
-/

namespace SeismicIngest

open Spans

/-- The common prefix of two byte strings, and where they first differ. -/
def firstDifference (left right : Bytes) : Nat × Option Nat :=
  (commonPrefix left right, if left = right then none else some (commonPrefix left right))

/-! ## One side of the walk -/

/-- What is left of a stream from position `p` of block `i` on. -/
def restOf (blocks : List Bytes) (i p : Nat) : Bytes :=
  (blocks.drop i).flatten.drop p

/-- A position at the start of a block or inside it, or at the end of the stream. -/
structure Within (blocks : List Bytes) (i p : Nat) : Prop where
  index : i ≤ blocks.length
  inside : i < blocks.length → p = 0 ∨ p < (blocks.getD i []).length
  atEnd : i = blocks.length → p = 0

/-- What the next pass sees of one side. -/
def segment (blocks : List Bytes) (i p : Nat) : Bytes :=
  (blocks.getD i []).drop p

/-- The bytes in front of position `p` of block `i`. -/
def consumed (blocks : List Bytes) (i p : Nat) : Bytes :=
  (blocks.take i).flatten ++ (blocks.getD i []).take p

/-- How many empty blocks a stream ends in. -/
def trailingEmpty (blocks : List Bytes) : Nat :=
  (blocks.rtakeWhile List.isEmpty).length

section Side

variable {blocks : List Bytes} {i p : Nat}

theorem Within.position (within : Within blocks i p) : p ≤ (blocks.getD i []).length := by
  obtain inRange | atEnd := Nat.lt_or_eq_of_le within.index
  · obtain first | inside := within.inside inRange
    · omega
    · exact Nat.le_of_lt inside
  · have := within.atEnd atEnd
    omega

theorem restOf_block (inRange : i < blocks.length) (inside : p ≤ (blocks.getD i []).length) :
    restOf blocks i p = segment blocks i p ++ (blocks.drop (i + 1)).flatten := by
  rw [restOf, segment, List.drop_eq_getElem_cons inRange, List.flatten_cons, List.drop_append]
  rw [List.getD_eq_getElem _ _ inRange] at inside ⊢
  rw [Nat.sub_eq_zero_of_le inside, List.drop_zero]

theorem restOf_end (atEnd : i = blocks.length) : restOf blocks i p = [] := by
  simp [restOf, atEnd]

theorem consumed_restOf (within : Within blocks i p) :
    consumed blocks i p ++ restOf blocks i p = blocks.flatten := by
  obtain inRange | atEnd := Nat.lt_or_eq_of_le within.index
  · have whole : blocks.flatten = (blocks.take i).flatten ++
        (blocks.getD i [] ++ (blocks.drop (i + 1)).flatten) := by
      conv => lhs; rw [← List.take_append_drop i blocks, List.drop_eq_getElem_cons inRange]
      rw [List.flatten_append, List.flatten_cons, List.getD_eq_getElem _ _ inRange]
    rw [restOf_block inRange within.position, consumed, segment, whole, List.append_assoc,
      ← List.append_assoc (List.take _ _), List.take_append_drop]
  · have past : blocks.getD i [] = [] := List.getD_eq_default _ _ (Nat.le_of_eq atEnd.symm)
    rw [restOf_end atEnd, consumed, past, atEnd]
    simp

/-- The position after `n` more bytes of block `i`. -/
theorem restOf_advance (inRange : i < blocks.length) {n : Nat}
    (inside : p + n ≤ (blocks.getD i []).length) :
    restOf blocks (if p + n = (blocks.getD i []).length then i + 1 else i)
        (if p + n = (blocks.getD i []).length then 0 else p + n) =
      (segment blocks i p).drop n ++ (blocks.drop (i + 1)).flatten := by
  rw [segment]
  split
  · -- the block is used up, and the next one begins
    rename_i finished
    rw [List.drop_drop, List.drop_eq_nil_iff.mpr (by omega), List.nil_append]
    exact List.drop_zero
  · rw [restOf_block inRange inside, segment, List.drop_drop]

theorem within_advance (inRange : i < blocks.length) {n : Nat}
    (inside : p + n ≤ (blocks.getD i []).length) :
    Within blocks (if p + n = (blocks.getD i []).length then i + 1 else i)
      (if p + n = (blocks.getD i []).length then 0 else p + n) := by
  split
  · exact ⟨inRange, fun _ => .inl rfl, fun _ => rfl⟩
  · exact ⟨Nat.le_of_lt inRange, fun _ => .inr (by omega), fun atEnd => by omega⟩

/-! ## Empty blocks at the end -/

theorem trailingEmpty_append (front : List Bytes) {block : Bytes} (filled : block ≠ [])
    {back : List Bytes} (empty : ∀ other ∈ back, other = []) :
    trailingEmpty (front ++ block :: back) = back.length := by
  have passed : ∀ other ∈ back.reverse, List.isEmpty other = true := by
    intro other member
    rw [empty other (List.mem_reverse.mp member)]
    rfl
  rw [trailingEmpty, List.rtakeWhile, List.reverse_append, List.reverse_cons, List.append_assoc,
    List.takeWhile_append_of_pos passed, List.singleton_append,
    List.takeWhile_cons_of_neg (by simpa using filled)]
  simp

/-- When block `i` is the last one that holds bytes. -/
theorem trailingEmpty_of_last (inRange : i < blocks.length) (filled : blocks.getD i [] ≠ [])
    (nothing : (blocks.drop (i + 1)).flatten = []) :
    trailingEmpty blocks = blocks.length - (i + 1) := by
  have split : blocks = blocks.take i ++ blocks.getD i [] :: blocks.drop (i + 1) := by
    rw [List.getD_eq_getElem _ _ inRange, ← List.drop_eq_getElem_cons inRange,
      List.take_append_drop]
  have counted := trailingEmpty_append (blocks.take i) filled (List.flatten_eq_nil_iff.mp nothing)
  rw [← split, List.length_drop] at counted
  exact counted

theorem trailingEmpty_of_flatten (nothing : blocks.flatten = []) :
    trailingEmpty blocks = blocks.length := by
  have empty := List.flatten_eq_nil_iff.mp nothing
  rw [trailingEmpty, List.rtakeWhile_eq_self_iff.mpr]
  intro block member
  rw [empty block member]
  rfl

theorem trailingEmpty_of_nonempty (nonempty : ∀ block ∈ blocks, block ≠ []) :
    trailingEmpty blocks = 0 := by
  rw [trailingEmpty, List.rtakeWhile_eq_nil_iff.mpr]
  · rfl
  · intro some'
    simpa using nonempty _ (List.getLast_mem some')

end Side

/-! ## One pass -/

theorem firstMismatch_eq (left right : Bytes) :
    firstMismatch left right =
      if commonPrefix left right < min left.length right.length then
        some (commonPrefix left right)
      else none := by
  -- on both segments; the offset of a later mismatch is one more than in the tails
  induction left generalizing right with
  | nil => simp [firstMismatch]
  | cons head tail inductionHypothesis =>
    cases right with
    | nil => simp [firstMismatch]
    | cons other others =>
      by_cases same : head = other
      · simp only [firstMismatch, same, ne_eq, not_true_eq_false, if_false, inductionHypothesis others,
          commonPrefix, if_true, List.length_cons]
        by_cases found : commonPrefix tail others < min tail.length others.length
        · rw [if_pos found, if_pos (by omega)]
          rfl
        · rw [if_neg found, if_neg (by omega)]
          rfl
      · simp [firstMismatch, same, commonPrefix]

/-- Two segments of one length that differ, do so before their end. -/
theorem commonPrefix_lt_of_ne {left right : Bytes} (sameLength : left.length = right.length)
    (differs : left ≠ right) : commonPrefix left right < left.length := by
  have bound := commonPrefix_le_left left right
  have whole : commonPrefix left right ≠ left.length :=
    fun whole => differs ((eq_iff_commonPrefix left right).mpr ⟨whole, sameLength⟩)
  omega

theorem firstMismatch_of_ne {left right : Bytes} (sameLength : left.length = right.length)
    (differs : left ≠ right) : firstMismatch left right = some (commonPrefix left right) := by
  have short := commonPrefix_lt_of_ne sameLength differs
  rw [firstMismatch_eq, if_pos (by omega)]

/-- After a common front, two segments of one length that differ hold the first
    difference of the whole. -/
theorem firstDifference_segments (front : Bytes) {left right : Bytes}
    (sameLength : left.length = right.length) (differs : left ≠ right) (leftRest rightRest : Bytes) :
    firstDifference (front ++ (left ++ leftRest)) (front ++ (right ++ rightRest)) =
      (front.length + commonPrefix left right, some (front.length + commonPrefix left right)) := by
  have short := commonPrefix_lt_of_ne sameLength differs
  have whole : commonPrefix (front ++ (left ++ leftRest)) (front ++ (right ++ rightRest)) =
      front.length + commonPrefix left right := by
    rw [commonPrefix_append, commonPrefix_append_of_lt short (by omega)]
  have unequal : front ++ (left ++ leftRest) ≠ front ++ (right ++ rightRest) := by
    intro equal
    have agree := ((eq_iff_commonPrefix _ _).mp equal).1
    rw [whole] at agree
    simp only [List.length_append] at agree
    omega
  rw [firstDifference, if_neg unequal, whole]

section Walk

variable {left right : List Bytes} {walk : StreamWalk}

/-- What has been walked is a common front of both streams. -/
def Aligned (left right : List Bytes) (walk : StreamWalk) : Prop :=
  ∃ front : Bytes, front.length = walk.offset ∧
    left.flatten = front ++ restOf left walk.li walk.lp ∧
    right.flatten = front ++ restOf right walk.ri walk.rp ∧
    Within left walk.li walk.lp ∧ Within right walk.ri walk.rp

/-- Blocks that are still to be finished. -/
def remaining (left right : List Bytes) (walk : StreamWalk) : Nat :=
  (left.length - walk.li) + (right.length - walk.ri)

/-- Once the bytes of equal streams are used up, both sides walk over their empty
    blocks in step. -/
def Paired (left right : List Bytes) (walk : StreamWalk) : Prop :=
  left.flatten = right.flatten → restOf left walk.li walk.lp = [] →
    trailingEmpty left + (right.length - walk.ri) = trailingEmpty right + (left.length - walk.li)

/-- How many bytes one pass compares. -/
def passLength (left right : List Bytes) (walk : StreamWalk) : Nat :=
  min (segment left walk.li walk.lp).length (segment right walk.ri walk.rp).length

/-- The segments of both sides agree over their common length. -/
def SameSegments (left right : List Bytes) (walk : StreamWalk) : Prop :=
  (segment left walk.li walk.lp).take (passLength left right walk) =
    (segment right walk.ri walk.rp).take (passLength left right walk)

/-- Where a pass over equal segments leads. -/
def nextWalk (left right : List Bytes) (walk : StreamWalk) : StreamWalk :=
  let n := passLength left right walk
  { offset := walk.offset + n
    li := if walk.lp + n = (left.getD walk.li []).length then walk.li + 1 else walk.li
    lp := if walk.lp + n = (left.getD walk.li []).length then 0 else walk.lp + n
    ri := if walk.rp + n = (right.getD walk.ri []).length then walk.ri + 1 else walk.ri
    rp := if walk.rp + n = (right.getD walk.ri []).length then 0 else walk.rp + n }

theorem Aligned.consumed (aligned : Aligned left right walk) :
    (consumed left walk.li walk.lp).length = walk.offset ∧
      consumed left walk.li walk.lp = consumed right walk.ri walk.rp := by
  obtain ⟨front, walked, leftSplit, rightSplit, leftWithin, rightWithin⟩ := aligned
  have onLeft := List.append_cancel_right ((consumed_restOf leftWithin).trans leftSplit)
  have onRight := List.append_cancel_right ((consumed_restOf rightWithin).trans rightSplit)
  rw [onLeft, onRight]
  exact ⟨walked, rfl⟩

theorem streamsStep_same (same : SameSegments left right walk) :
    streamsStep left right walk = .ok (nextWalk left right walk) := by
  simp only [SameSegments, passLength, segment] at same
  simp only [streamsStep, nextWalk, passLength, segment]
  rw [if_neg (not_not.mpr same)]
  rfl

section Pass

variable (left right walk) in
theorem taken_length :
    ((segment left walk.li walk.lp).take (passLength left right walk)).length =
        passLength left right walk ∧
      ((segment right walk.ri walk.rp).take (passLength left right walk)).length =
        passLength left right walk := by
  simp only [List.length_take, passLength]
  omega

/-- Segments that differ do so inside the length they are compared over. -/
theorem firstMismatch_segments (differ : ¬ SameSegments left right walk) :
    let l := (segment left walk.li walk.lp).take (passLength left right walk)
    let r := (segment right walk.ri walk.rp).take (passLength left right walk)
    firstMismatch l r = some (commonPrefix l r) ∧ commonPrefix l r < passLength left right walk := by
  intro l r
  obtain ⟨leftTaken, rightTaken⟩ := taken_length left right walk
  have short := commonPrefix_lt_of_ne (leftTaken.trans rightTaken.symm) differ
  rw [leftTaken] at short
  exact ⟨firstMismatch_of_ne (leftTaken.trans rightTaken.symm) differ, short⟩

theorem streamsStep_differs (differ : ¬ SameSegments left right walk) :
    let at' := walk.offset +
      commonPrefix ((segment left walk.li walk.lp).take (passLength left right walk))
        ((segment right walk.ri walk.rp).take (passLength left right walk))
    streamsStep left right walk = .error (at', some at') := by
  intro at'
  obtain ⟨found, -⟩ := firstMismatch_segments differ
  simp only [SameSegments, passLength, segment] at differ found
  simp only [streamsStep]
  rw [if_pos differ, found]
  rfl

/-- No pass leaves the blocks it stands in. -/
theorem Aligned.bounded (aligned : Aligned left right walk) :
    walk.lp + passLength left right walk ≤ (left.getD walk.li []).length ∧
      walk.rp + passLength left right walk ≤ (right.getD walk.ri []).length := by
  obtain ⟨-, -, -, -, leftWithin, rightWithin⟩ := aligned
  have leftPosition := leftWithin.position
  have rightPosition := rightWithin.position
  have leftLength : (segment left walk.li walk.lp).length =
    (left.getD walk.li []).length - walk.lp := List.length_drop
  have rightLength : (segment right walk.ri walk.rp).length =
    (right.getD walk.ri []).length - walk.rp := List.length_drop
  rw [passLength]
  omega

/-- The shorter segment ends its block. -/
theorem Aligned.finishes (aligned : Aligned left right walk) :
    walk.lp + passLength left right walk = (left.getD walk.li []).length ∨
      walk.rp + passLength left right walk = (right.getD walk.ri []).length := by
  obtain ⟨-, -, -, -, leftWithin, rightWithin⟩ := aligned
  have leftPosition := leftWithin.position
  have rightPosition := rightWithin.position
  have leftLength : (segment left walk.li walk.lp).length =
    (left.getD walk.li []).length - walk.lp := List.length_drop
  have rightLength : (segment right walk.ri walk.rp).length =
    (right.getD walk.ri []).length - walk.rp := List.length_drop
  rw [passLength]
  omega

variable (aligned : Aligned left right walk) (leftOpen : walk.li < left.length)
  (rightOpen : walk.ri < right.length)

include aligned leftOpen rightOpen

/-- Both streams continue with what the pass compares. -/
theorem Aligned.cut :
    ∃ front : Bytes, front.length = walk.offset ∧
      left.flatten = front ++ ((segment left walk.li walk.lp).take (passLength left right walk) ++
        ((segment left walk.li walk.lp).drop (passLength left right walk) ++
          (left.drop (walk.li + 1)).flatten)) ∧
      right.flatten = front ++ ((segment right walk.ri walk.rp).take (passLength left right walk) ++
        ((segment right walk.ri walk.rp).drop (passLength left right walk) ++
          (right.drop (walk.ri + 1)).flatten)) := by
  obtain ⟨front, walked, leftSplit, rightSplit, leftWithin, rightWithin⟩ := aligned
  rw [restOf_block leftOpen leftWithin.position] at leftSplit
  rw [restOf_block rightOpen rightWithin.position] at rightSplit
  refine ⟨front, walked, ?_, ?_⟩
  · rw [leftSplit, ← List.append_assoc (List.take _ _), List.take_append_drop]
  · rw [rightSplit, ← List.append_assoc (List.take _ _), List.take_append_drop]

theorem Aligned.next (same : SameSegments left right walk) :
    Aligned left right (nextWalk left right walk) := by
  obtain ⟨front, walked, leftCut, rightCut⟩ := aligned.cut leftOpen rightOpen
  obtain ⟨leftBound, rightBound⟩ := aligned.bounded
  refine ⟨front ++ (segment left walk.li walk.lp).take (passLength left right walk), ?_, ?_, ?_,
    within_advance leftOpen leftBound, within_advance rightOpen rightBound⟩
  · rw [List.length_append, walked, (taken_length left right walk).1]
    rfl
  · rw [nextWalk, restOf_advance leftOpen leftBound, List.append_assoc]
    exact leftCut
  · rw [nextWalk, restOf_advance rightOpen rightBound, List.append_assoc, same]
    exact rightCut

omit leftOpen rightOpen in
/-- A pass over equal segments takes at least one side to its next block. -/
theorem Aligned.advances :
    (nextWalk left right walk).li = walk.li + 1 ∨ (nextWalk left right walk).ri = walk.ri + 1 := by
  obtain finished | finished := aligned.finishes
  · exact .inl (if_pos finished)
  · exact .inr (if_pos finished)

omit aligned leftOpen rightOpen in
theorem nextWalk_index :
    (walk.li ≤ (nextWalk left right walk).li ∧ walk.ri ≤ (nextWalk left right walk).ri) ∧
      (nextWalk left right walk).li ≤ walk.li + 1 ∧ (nextWalk left right walk).ri ≤ walk.ri + 1 := by
  simp only [nextWalk]
  split <;> split <;> omega

theorem remaining_nextWalk :
    remaining left right (nextWalk left right walk) < remaining left right walk := by
  have moved := aligned.advances
  obtain ⟨forward, -⟩ := @nextWalk_index left right walk
  rw [remaining, remaining]
  omega

/-- Empty blocks at the end are finished on both sides at once. -/
theorem Paired.next (same : SameSegments left right walk) (paired : Paired left right walk) :
    Paired left right (nextWalk left right walk) := by
  intro equal nothing
  obtain ⟨leftBound, rightBound⟩ := aligned.bounded
  obtain ⟨front, walked, leftSplit, rightSplit, leftWithin, rightWithin⟩ :=
    aligned.next leftOpen rightOpen same
  -- the right side has nothing left either
  have rightNothing : restOf right (nextWalk left right walk).ri (nextWalk left right walk).rp = [] := by
    rw [nothing, List.append_nil] at leftSplit
    rw [← equal, leftSplit] at rightSplit
    exact List.append_right_eq_self.mp rightSplit.symm
  rw [nextWalk, restOf_advance leftOpen leftBound, List.append_eq_nil_iff,
    List.drop_eq_nil_iff] at nothing
  rw [nextWalk, restOf_advance rightOpen rightBound, List.append_eq_nil_iff,
    List.drop_eq_nil_iff] at rightNothing
  have leftLength : (segment left walk.li walk.lp).length =
    (left.getD walk.li []).length - walk.lp := List.length_drop
  have rightLength : (segment right walk.ri walk.rp).length =
    (right.getD walk.ri []).length - walk.rp := List.length_drop
  have leftFinished : walk.lp + passLength left right walk = (left.getD walk.li []).length := by omega
  have rightFinished : walk.rp + passLength left right walk = (right.getD walk.ri []).length := by
    omega
  simp only [nextWalk, if_pos leftFinished, if_pos rightFinished]
  by_cases compared : passLength left right walk = 0
  · -- both blocks were used up before
    have before : restOf left walk.li walk.lp = [] := by
      obtain ⟨-, -, -, -, leftWithin, -⟩ := aligned
      rw [restOf_block leftOpen leftWithin.position, nothing.2, List.append_nil]
      exact List.length_eq_zero_iff.mp (by omega)
    have count := paired equal before
    omega
  · -- both streams end with these blocks
    have leftLast := trailingEmpty_of_last leftOpen
      (List.length_pos_iff.mp (by omega)) nothing.2
    have rightLast := trailingEmpty_of_last rightOpen
      (List.length_pos_iff.mp (by omega)) rightNothing.2
    omega

end Pass

/-! ## The whole walk -/

variable (left right) in
theorem aligned_start : Aligned left right ⟨0, 0, 0, 0, 0⟩ :=
  ⟨[], rfl, rfl, rfl, ⟨Nat.zero_le _, fun _ => .inl rfl, fun _ => rfl⟩,
    ⟨Nat.zero_le _, fun _ => .inl rfl, fun _ => rfl⟩⟩

variable (left right) in
theorem paired_start : Paired left right ⟨0, 0, 0, 0, 0⟩ := by
  intro equal nothing
  have leftEmpty : left.flatten = [] := nothing
  rw [trailingEmpty_of_flatten leftEmpty, trailingEmpty_of_flatten (equal ▸ leftEmpty)]
  exact Nat.add_comm _ _

theorem streamsLoop_closed (closed : ¬ (walk.li < left.length ∧ walk.ri < right.length)) (fuel : Nat) :
    streamsLoop left right fuel walk =
      if walk.li = left.length ∧ walk.ri = right.length then some (walk.offset, none)
      else some (walk.offset, some walk.offset) := by
  cases fuel <;> exact if_neg closed

theorem streamsLoop_open (inside : walk.li < left.length ∧ walk.ri < right.length) (fuel : Nat) :
    streamsLoop left right (fuel + 1) walk =
      match streamsStep left right walk with
      | .error result => some result
      | .ok next => streamsLoop left right fuel next :=
  if_pos inside

variable (left right) in
/-- What the walk answers: equal streams pass for equal when they end in equally many
    empty blocks. -/
def walkedDifference : Nat × Option Nat :=
  (commonPrefix left.flatten right.flatten,
    if left.flatten = right.flatten ∧ trailingEmpty left = trailingEmpty right then none
    else some (commonPrefix left.flatten right.flatten))

theorem walkedDifference_of_ne (differ : left.flatten ≠ right.flatten) :
    walkedDifference left right = firstDifference left.flatten right.flatten := by
  rw [walkedDifference, firstDifference, if_neg differ, if_neg fun both => differ both.1]

/-- At the end of one stream the walk knows the answer. -/
theorem streamsLoop_stop (aligned : Aligned left right walk) (paired : Paired left right walk)
    (closed : ¬ (walk.li < left.length ∧ walk.ri < right.length)) (fuel : Nat) :
    streamsLoop left right fuel walk = some (walkedDifference left right) := by
  obtain ⟨front, walked, leftSplit, rightSplit, leftWithin, rightWithin⟩ := aligned
  have leftIndex := leftWithin.index
  have rightIndex := rightWithin.index
  have leftEnd := @restOf_end left walk.li walk.lp
  have rightEnd := @restOf_end right walk.ri walk.rp
  -- what is walked is all that the streams have in common
  have shared : commonPrefix left.flatten right.flatten = walk.offset := by
    rw [leftSplit, rightSplit, commonPrefix_append, walked]
    by_cases ended : walk.li = left.length
    · simp [leftEnd ended]
    · simp [rightEnd (by omega)]
  rw [streamsLoop_closed closed, walkedDifference, shared]
  by_cases equal : left.flatten = right.flatten
  · -- with one stream used up, so is the other
    have rests : restOf left walk.li walk.lp = restOf right walk.ri walk.rp :=
      List.append_cancel_left (leftSplit.symm.trans (equal.trans rightSplit))
    have nothing : restOf left walk.li walk.lp = [] := by
      by_cases ended : walk.li = left.length
      · exact leftEnd ended
      · exact rests.trans (rightEnd (by omega))
    have count := paired equal nothing
    by_cases both : walk.li = left.length ∧ walk.ri = right.length
    · rw [if_pos both, if_pos ⟨equal, by omega⟩]
    · rw [if_neg both, if_neg (by omega)]
  · have apart : ¬ (walk.li = left.length ∧ walk.ri = right.length) := by
      rintro ⟨leftEnded, rightEnded⟩
      rw [leftEnd leftEnded] at leftSplit
      rw [rightEnd rightEnded] at rightSplit
      exact equal (leftSplit.trans rightSplit.symm)
    rw [if_neg apart, if_neg fun both => equal both.1]

theorem streamsLoop_eq {fuel : Nat} (aligned : Aligned left right walk)
    (paired : Paired left right walk) (enough : remaining left right walk ≤ fuel) :
    streamsLoop left right fuel walk = some (walkedDifference left right) := by
  -- on the fuel: a pass that goes on leaves fewer blocks than it found
  induction fuel generalizing walk with
  | zero =>
    refine streamsLoop_stop aligned paired (fun inside => ?_) 0
    rw [remaining] at enough
    omega
  | succ fuel inductionHypothesis =>
    by_cases inside : walk.li < left.length ∧ walk.ri < right.length
    · rw [streamsLoop_open inside]
      by_cases same : SameSegments left right walk
      · have fewer := remaining_nextWalk aligned inside.1 inside.2
        rw [streamsStep_same same]
        exact inductionHypothesis (aligned.next inside.1 inside.2 same)
          (paired.next aligned inside.1 inside.2 same) (by omega)
      · -- the difference found is the first one of the streams
        obtain ⟨front, walked, leftCut, rightCut⟩ := aligned.cut inside.1 inside.2
        obtain ⟨leftTaken, rightTaken⟩ := taken_length left right walk
        have found := firstDifference_segments front (leftTaken.trans rightTaken.symm) same
          ((segment left walk.li walk.lp).drop (passLength left right walk) ++
            (left.drop (walk.li + 1)).flatten)
          ((segment right walk.ri walk.rp).drop (passLength left right walk) ++
            (right.drop (walk.ri + 1)).flatten)
        rw [← leftCut, ← rightCut, walked] at found
        have differ : left.flatten ≠ right.flatten := by
          intro equal
          rw [firstDifference, if_pos equal] at found
          simp at found
        rw [streamsStep_differs same, walkedDifference_of_ne differ, found]
    · exact streamsLoop_stop aligned paired inside _

/-- What the walk returns, however the streams are cut into blocks. -/
theorem streamsFirstDifference_walked (left right : List Bytes) :
    streamsFirstDifference left right = some (walkedDifference left right) :=
  streamsLoop_eq (aligned_start left right) (paired_start left right) (Nat.le_refl _)

/-- Without empty blocks the walk returns the length of the common prefix and the first
    difference. -/
theorem streamsFirstDifference_eq (leftNonempty : ∀ block ∈ left, block ≠ [])
    (rightNonempty : ∀ block ∈ right, block ≠ []) :
    streamsFirstDifference left right = some (firstDifference left.flatten right.flatten) := by
  rw [streamsFirstDifference_walked, walkedDifference, firstDifference,
    trailingEmpty_of_nonempty leftNonempty, trailingEmpty_of_nonempty rightNonempty]
  simp only [and_true]

end Walk

end SeismicIngest
