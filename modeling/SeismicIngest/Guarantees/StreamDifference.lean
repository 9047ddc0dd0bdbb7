import SeismicIngest.Verified.StreamWalks

/-! # The stream walk on every blocking

`_streams_first_difference` is handed two lists of blocks, and nothing in it excludes
empty ones.  Its loop always ends, within as many passes as there are blocks, and never
leaves a block (`stream_walk_terminates`).  What it returns is the first difference of
the two streams, except that it tells equal streams apart when they end in different
numbers of empty blocks (`stream_difference_iff`).
-/

namespace SeismicIngest

open Spans

variable {left right : List Bytes}

/-! ## The passes of the loop -/

variable (left right) in
/-- The states in which the loop tests its condition, with the passes made so far. -/
inductive Visited : Nat → StreamWalk → Prop where
  | start : Visited 0 ⟨0, 0, 0, 0, 0⟩
  | pass {passes : Nat} {walk next : StreamWalk} (visited : Visited passes walk)
    (leftOpen : walk.li < left.length) (rightOpen : walk.ri < right.length)
    (step : streamsStep left right walk = .ok next) : Visited (passes + 1) next

/-- A pass that goes on has compared equal segments. -/
theorem streamsStep_ok {walk next : StreamWalk} (step : streamsStep left right walk = .ok next) :
    SameSegments left right walk ∧ next = nextWalk left right walk := by
  by_cases same : SameSegments left right walk
  · rw [streamsStep_same same] at step
    exact ⟨same, (Except.ok.inj step).symm⟩
  · rw [streamsStep_differs same] at step
    cases step

/-- The loop goes on from every state that it visits. -/
theorem Visited.loop {passes : Nat} {walk : StreamWalk} (visited : Visited left right passes walk)
    (fuel : Nat) :
    streamsLoop left right (passes + fuel) ⟨0, 0, 0, 0, 0⟩ = streamsLoop left right fuel walk := by
  induction visited generalizing fuel with
  | start => rw [Nat.zero_add]
  | pass visited leftOpen rightOpen step inductionHypothesis =>
    rw [Nat.add_assoc, Nat.add_comm 1, inductionHypothesis, streamsLoop_open ⟨leftOpen, rightOpen⟩, step]

variable (left right) in
/-- The loop returns `result` in this state: its condition fails, or the pass returns. -/
inductive ReturnsAt (result : Nat × Option Nat) (walk : StreamWalk) : Prop where
  | closed (closed : ¬ (walk.li < left.length ∧ walk.ri < right.length))
    (answer : streamsLoop left right 0 walk = some result)
  | pass (inside : walk.li < left.length ∧ walk.ri < right.length)
    (step : streamsStep left right walk = .error result)

/-- The loop returns in a state that it visits. -/
theorem Visited.returns {passes fuel : Nat} {walk : StreamWalk} {result : Nat × Option Nat}
    (visited : Visited left right passes walk)
    (returned : streamsLoop left right fuel walk = some result) :
    ∃ last final, Visited left right last final ∧ ReturnsAt left right result final := by
  induction fuel generalizing passes walk with
  | zero =>
    refine ⟨passes, walk, visited, .closed (fun inside => ?_) returned⟩
    rw [streamsLoop, if_pos inside] at returned
    cases returned
  | succ fuel inductionHypothesis =>
    by_cases inside : walk.li < left.length ∧ walk.ri < right.length
    · rw [streamsLoop_open inside] at returned
      cases step : streamsStep left right walk with
      | error answer =>
        rw [step] at returned
        exact ⟨passes, walk, visited, .pass inside (Option.some.inj returned ▸ step)⟩
      | ok next =>
        rw [step] at returned
        exact inductionHypothesis (visited.pass inside.1 inside.2 step) returned
    · rw [streamsLoop_closed inside] at returned
      exact ⟨passes, walk, visited, .closed inside ((streamsLoop_closed inside 0).trans returned)⟩

theorem Visited.aligned {passes : Nat} {walk : StreamWalk} (visited : Visited left right passes walk) :
    Aligned left right walk ∧ passes ≤ walk.li + walk.ri := by
  induction visited with
  | start => exact ⟨aligned_start left right, Nat.le_refl 0⟩
  | @pass passes walk next visited leftOpen rightOpen step inductionHypothesis =>
    obtain ⟨aligned, counted⟩ := inductionHypothesis
    obtain ⟨same, rfl⟩ := streamsStep_ok step
    refine ⟨aligned.next leftOpen rightOpen same, ?_⟩
    -- at least one index has grown
    have moved := aligned.advances
    obtain ⟨forward, -⟩ := @nextWalk_index left right walk
    omega

variable (left right) in
/-- Where the loop stands after some passes. -/
structure WalkInBounds (passes : Nat) (walk : StreamWalk) : Prop where
  counted : passes ≤ walk.li + walk.ri
  leftIndex : walk.li ≤ left.length
  rightIndex : walk.ri ≤ right.length
  leftPosition : walk.lp ≤ (left.getD walk.li []).length
  rightPosition : walk.rp ≤ (right.getD walk.ri []).length
  /-- The offset counts what is consumed of each side. -/
  leftConsumed : walk.offset = (left.take walk.li).flatten.length + walk.lp
  rightConsumed : walk.offset = (right.take walk.ri).flatten.length + walk.rp
  agree : left.flatten.take walk.offset = right.flatten.take walk.offset

theorem consumed_length {blocks : List Bytes} {i p : Nat} (within : Within blocks i p) :
    (consumed blocks i p).length = (blocks.take i).flatten.length + p := by
  rw [consumed, List.length_append, List.length_take, Nat.min_eq_left within.position]

theorem Aligned.inBounds {passes : Nat} {walk : StreamWalk} (aligned : Aligned left right walk)
    (counted : passes ≤ walk.li + walk.ri) : WalkInBounds left right passes walk := by
  obtain ⟨walked, same⟩ := aligned.consumed
  obtain ⟨front, length, leftSplit, rightSplit, leftWithin, rightWithin⟩ := aligned
  refine {
    counted := counted
    leftIndex := leftWithin.index
    rightIndex := rightWithin.index
    leftPosition := leftWithin.position
    rightPosition := rightWithin.position
    leftConsumed := walked.symm.trans (consumed_length leftWithin)
    rightConsumed := walked.symm.trans ((congrArg List.length same).trans (consumed_length rightWithin))
    agree := ?_ }
  rw [leftSplit, rightSplit, ← length, List.take_left, List.take_left]

variable (left right) in
/-- What a pass over two open blocks does. -/
inductive PassOutcome (walk : StreamWalk) : Prop where
  /-- The scan finds an index below the compared length, and the pass returns. -/
  | returned (i : Nat) (inside : i < passLength left right walk)
    (differs : (segment left walk.li walk.lp)[i]? ≠ (segment right walk.ri walk.rp)[i]?)
    (step : streamsStep left right walk = .error (walk.offset + i, some (walk.offset + i)))
    (apart : ¬ SameSegments left right walk)
  /-- The segments agree, and a side moves to its next block. -/
  | moved (next : StreamWalk) (same : SameSegments left right walk)
    (step : streamsStep left right walk = .ok next)
    (forward : walk.li ≤ next.li ∧ walk.ri ≤ next.ri)
    (block : next.li = walk.li + 1 ∨ next.ri = walk.ri + 1)

theorem Aligned.outcome {walk : StreamWalk} (aligned : Aligned left right walk) :
    PassOutcome left right walk := by
  by_cases same : SameSegments left right walk
  · obtain ⟨forward, -⟩ := @nextWalk_index left right walk
    exact .moved _ same (streamsStep_same same) forward aligned.advances
  · obtain ⟨leftTaken, rightTaken⟩ := taken_length left right walk
    obtain ⟨-, inside⟩ := firstMismatch_segments same
    have differs := commonPrefix_differs (by rw [leftTaken]; exact inside)
      (by rw [rightTaken]; exact inside)
    rw [List.getElem_take, List.getElem_take, ← Option.some_inj.ne, ← List.getElem?_eq_getElem,
      ← List.getElem?_eq_getElem] at differs
    exact .returned _ inside differs (streamsStep_differs same) same

variable (left right) in
/-- The loop on two lists of blocks. -/
structure StreamWalkSafe : Prop where
  /-- It returns within as many passes as there are blocks. -/
  terminates : ∃ result, streamsLoop left right (left.length + right.length) ⟨0, 0, 0, 0, 0⟩ =
    some result
  /-- The loop passes through the visited states, and returns in one of them. -/
  loops : ∀ {passes walk}, Visited left right passes walk → ∀ fuel,
    streamsLoop left right (passes + fuel) ⟨0, 0, 0, 0, 0⟩ = streamsLoop left right fuel walk
  returns : ∀ {fuel result}, streamsLoop left right fuel ⟨0, 0, 0, 0, 0⟩ = some result →
    ∃ passes walk, Visited left right passes walk ∧ ReturnsAt left right result walk
  bounded : ∀ {passes walk}, Visited left right passes walk →
    passes ≤ left.length + right.length ∧ WalkInBounds left right passes walk
  progress : ∀ {passes walk}, Visited left right passes walk → walk.li < left.length →
    walk.ri < right.length → PassOutcome left right walk

/-- The loop ends on all blockings, and stays inside the blocks. -/
theorem stream_walk_terminates (left right : List Bytes) : StreamWalkSafe left right where
  terminates := ⟨_, streamsFirstDifference_walked left right⟩
  loops := Visited.loop
  returns := Visited.returns .start
  bounded := by
    intro passes walk visited
    obtain ⟨aligned, counted⟩ := visited.aligned
    have inBounds := aligned.inBounds counted
    have leftIndex := inBounds.leftIndex
    have rightIndex := inBounds.rightIndex
    exact ⟨by omega, inBounds⟩
  progress := fun visited _ _ => visited.aligned.1.outcome

/-! ## The answer -/

variable (left right) in
/-- The answer is the length of the longest common prefix, and the same offset as the
    first difference unless the streams are equal. -/
def ComparesStreams : Prop :=
  ∃ p, IsGreatest {n | Agree left.flatten right.flatten n} p ∧
    streamsFirstDifference left right =
      some (p, if left.flatten = right.flatten then none else some p)

/-- The walk compares the streams, unless they are equal and end in different numbers of
    empty blocks. -/
theorem stream_difference_iff (left right : List Bytes) :
    ComparesStreams left right ↔
      left.flatten ≠ right.flatten ∨ trailingEmpty left = trailingEmpty right := by
  have greatest := commonPrefix_isGreatest left.flatten right.flatten
  constructor
  · rintro ⟨p, isGreatest, answer⟩
    obtain rfl : p = commonPrefix left.flatten right.flatten := isGreatest.unique greatest
    rw [streamsFirstDifference_walked, walkedDifference] at answer
    by_cases equal : left.flatten = right.flatten
    · right
      by_contra apart
      simp [equal, apart] at answer
    · exact .inl equal
  · intro holds
    refine ⟨_, greatest, ?_⟩
    rw [streamsFirstDifference_walked]
    obtain differ | paired := holds
    · exact congrArg some (walkedDifference_of_ne differ)
    · rw [walkedDifference]
      simp only [paired, and_true]

/-- One byte against the same byte followed by an empty block. -/
theorem stream_difference_trailing :
    streamsFirstDifference [[97], []] [[97]] = some (1, some 1) ∧
      ¬ ComparesStreams [[97], []] [[97]] := by
  have answer : streamsFirstDifference [[97], []] [[97]] = some (1, some 1) := by decide
  refine ⟨answer, ?_⟩
  rintro ⟨p, -, claimed⟩
  rw [answer] at claimed
  simp at claimed

end SeismicIngest
